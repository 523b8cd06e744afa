import Tabletop.Proofs.Text.Lines
import Tabletop.Proofs.Text.Runs
import Tabletop.Rejection

/-! Columns of refusals. A column is a place in a line, and the line is told by the number of line
feeds before the position; together they tell the position. -/
namespace Tabletop.Rejection
open Text (lines fullLength)

theorem lineStart_append (front line : List Char) (inside : '\n' ∉ line)
    (ends : Text.Ends (· ≠ '\n') front.reverse) : lineStart (front ++ line) = front.length := by
  have feedless : ∀ c ∈ line.reverse, decide (c ≠ '\n') = true := by
    intro c member
    rw [decide_eq_true_eq]
    rintro rfl
    exact inside (List.mem_reverse.mp member)
  rw [lineStart, List.reverse_append, Text.takeWhile_run _ _ _ feedless ends, List.length_append,
    List.length_reverse, Nat.add_sub_cancel]

theorem lineStart_single (line : List Char) (inside : '\n' ∉ line) : lineStart line = 0 :=
  lineStart_append [] line inside (Text.ends_nil _)

theorem lineStart_behind (front line : List Char) (inside : '\n' ∉ line) :
    lineStart (front ++ '\n' :: line) = front.length + 1 := by
  have ends : Text.Ends (· ≠ '\n') (front ++ ['\n']).reverse := by
    rw [List.reverse_append, List.reverse_singleton, List.singleton_append, Text.ends_cons]
    decide
  rw [List.append_cons, lineStart_append _ line inside ends, List.length_append, List.length_singleton]

theorem lineStart_concat (before : List Char) (c : Char) :
    lineStart (before ++ [c]) = if c = '\n' then before.length + 1 else lineStart before := by
  split
  · rename_i feed
    rw [feed, lineStart_behind before [] List.not_mem_nil]
  · rename_i other
    rw [lineStart, List.reverse_append, List.reverse_singleton, List.singleton_append,
      List.takeWhile_cons_of_pos (by rwa [decide_eq_true_eq]), List.length_append, List.length_singleton,
      List.length_cons, Nat.add_sub_add_right, lineStart]

/-- A place of a text stands in the line that is told by the line feeds before it, and that line
begins behind the lines before it. -/
theorem line_at (before after : List Char) :
    ∃ line ∈ (lines (before ++ after))[before.count '\n']?,
      lineStart before = fullLength ((lines (before ++ after)).take (before.count '\n')) ∧
      lineStart before ≤ before.length ∧ before.length ≤ lineStart before + line.length := by
  obtain ⟨first, others, following⟩ := Text.exists_lines_eq_cons after
  -- What follows goes on with the last line before the place, which may be the only one.
  rcases Text.last_line_cases before with inside | ⟨front, run, rfl, inside⟩
  · refine ⟨before ++ first, ?_, ?_⟩
    · rw [List.count_eq_zero.mpr inside, Text.lines_run before after first others inside following]
      rfl
    · rw [List.count_eq_zero.mpr inside, lineStart_single before inside, List.length_append]
      exact ⟨rfl, Nat.zero_le _, by omega⟩
  · have feeds : (front ++ '\n' :: run).count '\n' = (lines front).length := by
      rw [List.count_append, List.count_cons_self, List.count_eq_zero.mpr inside, Text.length_lines]
    have split : lines (front ++ '\n' :: run ++ after) = lines front ++ (run ++ first) :: others := by
      rw [List.append_assoc, List.cons_append, Text.lines_append,
        Text.lines_run run after first others inside following]
    rw [feeds, split, List.take_left, lineStart_behind front run inside, Text.fullLength_lines]
    refine ⟨run ++ first, ?_, rfl, ?_⟩
    · rw [List.getElem?_append_right (Nat.le_refl _), Nat.sub_self]
      rfl
    · simp only [List.length_append, List.length_cons]
      omega

theorem column_eq (text : String) (position : Nat) (expected : Expectation) :
    (Rejection.mk text position expected).column =
      position - lineStart (text.toList.take position) + 1 := by
  have extent : extent text.toList.length position = position := by
    rw [Rejection.extent, if_pos (Int.natCast_nonneg _), Int.toNat_natCast]
  rw [column, extent]

theorem column_line (text : String) (position : Nat) (expected : Expectation)
    (inside : position ≤ text.toList.length) :
    ∃ line ∈ (lines text.toList)[(text.toList.take position).count '\n']?,
      position = fullLength ((lines text.toList).take ((text.toList.take position).count '\n')) +
        (Rejection.mk text position expected).column - 1 ∧
      1 ≤ (Rejection.mk text position expected).column ∧
      (Rejection.mk text position expected).column ≤ line.length + 1 := by
  obtain ⟨line, found, start, low, high⟩ :=
    line_at (text.toList.take position) (text.toList.drop position)
  rw [List.take_append_drop] at found start
  rw [List.length_take, Nat.min_eq_left inside] at low high
  refine ⟨line, found, ?_⟩
  rw [column_eq, ← start]
  omega

/-- The column and the number of line feeds before a place tell the place: the lines before it, each
with its line feed, and the characters before that column of the next line. Only the line feed begins
a line; behind every other character the column is one more. -/
theorem column_exact (text : String) (position : Nat) (expected : Expectation)
    (inside : position ≤ text.toList.length) :
    (∃ line ∈ (lines text.toList)[(text.toList.take position).count '\n']?,
      position = fullLength ((lines text.toList).take ((text.toList.take position).count '\n')) +
        (Rejection.mk text position expected).column - 1 ∧
      1 ≤ (Rejection.mk text position expected).column ∧
      (Rejection.mk text position expected).column ≤ line.length + 1) ∧
    (∀ (other : Nat) (wanted : Expectation), other ≤ text.toList.length →
      (text.toList.take other).count '\n' = (text.toList.take position).count '\n' →
      (Rejection.mk text other wanted).column = (Rejection.mk text position expected).column →
      other = position) ∧
    ∀ (c : Char) (wanted : Expectation), text.toList[position]? = some c →
      (Rejection.mk text (position + 1 : Nat) wanted).column =
        if c = '\n' then 1 else (Rejection.mk text position expected).column + 1 := by
  refine ⟨column_line text position expected inside, ?_, ?_⟩
  · intro other wanted within feeds column
    obtain ⟨_, _, place, _⟩ := column_line text position expected inside
    obtain ⟨_, _, otherPlace, _⟩ := column_line text other wanted within
    rw [feeds, column, ← place] at otherPlace
    exact Int.ofNat.inj otherPlace
  · intro c wanted next
    rw [column_eq, column_eq, List.take_add_one, next, Option.toList_some, lineStart_concat,
      List.length_take, Nat.min_eq_left inside]
    split <;> omega

/-- On a line feed that follows a line feed the column is the first one of an empty line, and no other
place behind a single line feed has that column. -/
theorem column_exact_empty_line :
    4 ≤ "d6\r\n\n+ x".toList.length ∧ (lines "d6\r\n\n+ x".toList)[1]? = some [] ∧
    (4 : Int) = fullLength ((lines "d6\r\n\n+ x".toList).take 1) +
      (Rejection.mk "d6\r\n\n+ x" 4 .endOfText).column - 1 ∧
    (Rejection.mk "d6\r\n\n+ x" 4 .endOfText).column = 1 ∧
    ∀ (other : Nat) (wanted : Expectation), other ≤ "d6\r\n\n+ x".toList.length →
      ("d6\r\n\n+ x".toList.take other).count '\n' = 1 →
      (Rejection.mk "d6\r\n\n+ x" other wanted).column = 1 → other = 4 := by
  have within : 4 ≤ "d6\r\n\n+ x".toList.length := by decide
  have empty : (lines "d6\r\n\n+ x".toList)[1]? = some [] := by decide
  obtain ⟨⟨line, found, place, low, high⟩, alone, _⟩ :=
    column_exact "d6\r\n\n+ x" 4 .endOfText within
  obtain rfl : [] = line := Option.some.inj (empty.symm.trans found)
  exact ⟨within, empty, place, Int.le_antisymm high low, alone⟩

end Tabletop.Rejection
