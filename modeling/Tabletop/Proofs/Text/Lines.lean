/-! Lines of a text. Only the line feed stands between two lines, so a text has one line more than it
has line feeds, and any other character belongs to a line. -/
namespace Tabletop.Text

def lines (text : List Char) : List (List Char) := text.splitOn '\n'

/-- The number of characters of some lines, each taken with the line feed behind it. -/
def fullLength : List (List Char) → Nat
  | [] => 0
  | line :: lines => line.length + 1 + fullLength lines

theorem lines_cons (c : Char) (rest : List Char) :
    lines (c :: rest) = if c = '\n' then [] :: lines rest else (lines rest).modifyHead (c :: ·) := by
  rw [lines, List.splitOn_cons_eq_if_modifyHead]
  simp only [beq_iff_eq]
  rfl

theorem exists_lines_eq_cons (text : List Char) : ∃ first others, lines text = first :: others :=
  List.exists_cons_of_ne_nil (List.splitOn_ne_nil _ _)

/-- Behind a line feed a text has its lines as if they stood alone. -/
theorem lines_append (front rest : List Char) :
    lines (front ++ '\n' :: rest) = lines front ++ lines rest :=
  List.splitOn_append_cons_self _ _

theorem lines_run (run rest first : List Char) (others : List (List Char)) (inside : '\n' ∉ run)
    (following : lines rest = first :: others) : lines (run ++ rest) = (run ++ first) :: others := by
  induction run with
  | nil => exact following
  | cons c run ih =>
    rw [List.mem_cons, not_or] at inside
    rw [List.cons_append, lines_cons, if_neg (Ne.symm inside.1), ih inside.2]
    rfl

theorem length_lines (text : List Char) : (lines text).length = text.count '\n' + 1 := by
  induction text with
  | nil => rfl
  | cons c rest ih =>
    rw [lines_cons, List.count_cons]
    split
    · rename_i feed
      rw [List.length_cons, ih, if_pos (beq_iff_eq.mpr feed)]
    · rename_i other
      rw [List.length_modifyHead, ih, if_neg (by rwa [beq_iff_eq]), Nat.add_zero]

/-- The lines with a line feed behind each are the text with one line feed more. -/
theorem fullLength_lines (text : List Char) : fullLength (lines text) = text.length + 1 := by
  induction text with
  | nil => rfl
  | cons c rest ih =>
    obtain ⟨first, others, same⟩ := exists_lines_eq_cons rest
    rw [same, fullLength] at ih
    rw [lines_cons, same]
    split
    · rw [fullLength, fullLength, List.length_nil, List.length_cons]
      omega
    · rw [List.modifyHead_cons, fullLength, List.length_cons, List.length_cons]
      omega

theorem last_line_cases (text : List Char) :
    '\n' ∉ text ∨ ∃ front line, text = front ++ '\n' :: line ∧ '\n' ∉ line := by
  by_cases feed : '\n' ∈ text.reverse
  · obtain ⟨line, front, reversed, inside⟩ := List.eq_append_cons_of_mem feed
    refine .inr ⟨front.reverse, line.reverse, ?_, by rwa [List.mem_reverse]⟩
    rw [← List.reverse_reverse text, reversed, List.reverse_append, List.reverse_cons,
      List.append_assoc, List.singleton_append]
  · exact .inl (by rwa [List.mem_reverse] at feed)

end Tabletop.Text
