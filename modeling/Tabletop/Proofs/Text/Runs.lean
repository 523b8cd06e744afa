import Tabletop.Text.Characters

/-! Runs of characters. A run of a class is taken whole from the front of a text when what follows
does not go on with a character of that class. -/
namespace Tabletop.Text

def Ends (p : Char → Bool) (rest : List Char) : Prop := ∀ c ∈ rest.head?, p c = false

theorem eq_false_of_any (p : Char → Bool) (text : List Char) (avoids : text.any p = false) (c : Char)
    (member : c ∈ text) : p c = false := by
  rw [List.any_eq_false] at avoids
  exact Bool.eq_false_iff.mpr (avoids c member)

theorem ends_nil (p : Char → Bool) : Ends p [] := by
  intro c member
  cases member

theorem ends_cons (p : Char → Bool) (c : Char) (rest : List Char) :
    Ends p (c :: rest) ↔ p c = false := by
  simp [Ends]

theorem ends_dropWhile (p : Char → Bool) (text : List Char) : Ends p (text.dropWhile p) := by
  have first := List.head?_dropWhile_not p text
  intro c member
  rw [Option.mem_def.mp member] at first
  simpa using first

theorem takeWhile_of_ends (p : Char → Bool) (rest : List Char) (ends : Ends p rest) :
    rest.takeWhile p = [] := by
  cases rest with
  | nil => rfl
  | cons c rest => simp [(ends_cons p c rest).mp ends]

theorem dropWhile_of_ends (p : Char → Bool) (rest : List Char) (ends : Ends p rest) :
    rest.dropWhile p = rest := by
  cases rest with
  | nil => rfl
  | cons c rest => simp [(ends_cons p c rest).mp ends]

theorem trim_of_avoids (drop : Char → Bool) (text : List Char) (avoids : ∀ c ∈ text, drop c = false) :
    trim drop text = text := by
  have front : Ends drop text := fun c first => avoids c (List.mem_of_mem_head? first)
  have back : Ends drop text.reverse := fun c first =>
    avoids c (List.mem_reverse.mp (List.mem_of_mem_head? first))
  rw [trim, dropWhile_of_ends drop text front, dropWhile_of_ends drop text.reverse back,
    List.reverse_reverse]

theorem takeWhile_run (p : Char → Bool) (run rest : List Char) (inside : ∀ c ∈ run, p c = true)
    (ends : Ends p rest) : (run ++ rest).takeWhile p = run := by
  rw [List.takeWhile_append_of_pos inside, takeWhile_of_ends p rest ends, List.append_nil]

theorem dropWhile_run (p : Char → Bool) (run rest : List Char) (inside : ∀ c ∈ run, p c = true)
    (ends : Ends p rest) : (run ++ rest).dropWhile p = rest := by
  rw [List.dropWhile_append_of_pos inside, dropWhile_of_ends p rest ends]

theorem takeWhile_before (p : Char → Bool) (text rest : List Char) (ends : Ends p rest) :
    (text ++ rest).takeWhile p = text.takeWhile p := by
  rw [List.takeWhile_append, takeWhile_of_ends p rest ends]
  split
  · rename_i whole
    rw [List.append_nil]
    exact ((List.takeWhile_prefix p).eq_of_length whole).symm
  · rfl

theorem dropWhile_before (p : Char → Bool) (text rest : List Char) (ends : Ends p rest) :
    (text ++ rest).dropWhile p = text.dropWhile p ++ rest := by
  rw [List.dropWhile_append, dropWhile_of_ends p rest ends]
  split
  · rename_i nothing
    rw [List.isEmpty_iff.mp nothing, List.nil_append]
  · rfl

theorem takeWhile_append_prefix (p : Char → Bool) (first second : List Char) :
    first.takeWhile p <+: (first ++ second).takeWhile p := by
  rw [List.takeWhile_append]
  split
  · rename_i whole
    rw [(List.takeWhile_prefix p).eq_of_length whole]
    exact List.prefix_append _ _
  · exact List.prefix_refl _

theorem dropWhile_suffix_after (p : Char → Bool) (run rest left : List Char)
    (inside : ∀ c ∈ run, p c = true) (within : left <:+ run ++ rest) : left.dropWhile p <:+ rest := by
  induction run generalizing left with
  | nil => exact (List.dropWhile_suffix p).trans within
  | cons c run ih =>
    obtain ⟨first, others⟩ := List.forall_mem_cons.mp inside
    rcases List.suffix_cons_iff.mp within with rfl | within
    · rw [List.dropWhile_cons_of_pos first]
      exact ih _ others (List.suffix_refl _)
    · exact ih left others within

end Tabletop.Text
