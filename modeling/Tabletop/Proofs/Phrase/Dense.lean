import Tabletop.Proofs.Phrase.Grammar

/-! The characters of tokens. Numbers, names and dice terms hold letters, digits and a few marks, and a
number may begin with a sign; none of these characters is layout, an operator or a parenthesis. -/
namespace Tabletop.Phrase

def isTokenPart (c : Char) : Bool := isNamePart c || c == '!' || c == '%'

def Dense (text : List Char) : Prop := ∀ c ∈ text, isTokenPart c = true

theorem dense_append (first second : List Char) :
    Dense (first ++ second) ↔ Dense first ∧ Dense second := List.forall_mem_append

theorem dense_cons (c : Char) (text : List Char) :
    Dense (c :: text) ↔ isTokenPart c = true ∧ Dense text := List.forall_mem_cons

theorem dense_name (name : List Char) (parts : ∀ c ∈ name, isNamePart c = true) : Dense name := by
  intro c member
  simp [isTokenPart, parts c member]

theorem dense_digits (run : List Char) (digits : Digits run) : Dense run := by
  apply dense_name
  intro c member
  simp [isNamePart, Char.isAlphanum, digits c member]

theorem Modifier.dense (modifier : Modifier) (admissible : modifier.Admissible) :
    Dense modifier.text := by
  cases modifier with
  | explode twice => cases twice <;> simp [Dense, Modifier.text, isTokenPart]
  | select selector count =>
    have counted := dense_digits count (Count.digits _ admissible)
    rw [Modifier.text, dense_append]
    refine ⟨?_, counted⟩
    cases selector <;> exact List.all_eq_true.mp rfl
  | reroll count =>
    rw [Modifier.text, dense_cons]
    exact ⟨by decide, dense_digits count (Count.digits _ admissible)⟩

theorem Dice.dense (dice : Dice) (admissible : dice.Admissible) : Dense dice.text := by
  have sized := admissible.size
  rw [Dice.text, dense_append, dense_cons, dense_append]
  refine ⟨dense_digits _ admissible.count, by decide, ?_, ?_⟩
  · cases same : dice.size with
    | percent => simp [Dense, Size.text, isTokenPart]
    | digits run =>
      rw [same] at sized
      exact dense_digits run sized.1
  · intro c member
    obtain ⟨modifier, inside, written⟩ := List.mem_flatMap.mp member
    exact modifier.dense (admissible.modifiers modifier inside) c written

theorem isLayout_of_isTokenPart (c : Char) (part : isTokenPart c = true) : Text.isLayout c = false := by
  by_contra layout
  rw [Bool.not_eq_false] at layout
  simp only [Text.isLayout, Bool.or_eq_true, beq_iff_eq] at layout
  rcases layout with ((rfl | rfl) | rfl) | rfl <;> exact absurd part (by decide)

theorem isBlank_of_isTokenPart (c : Char) (part : isTokenPart c = true) : Text.isBlank c = false := by
  simp only [isTokenPart, isNamePart, Char.isAlphanum, Bool.or_eq_true, beq_iff_eq] at part
  rcases part with (((letter | digit) | rfl) | rfl) | rfl
  · have bounds := Text.bounds_of_isAlpha c letter
    exact Text.isBlank_of_graphic c (by omega) (by omega)
  · have bounds : 0x30 ≤ c.toNat ∧ c.toNat ≤ 0x39 := Char.isDigit_iff_toNat.mp digit
    exact Text.isBlank_of_graphic c (by omega) (by omega)
  · decide
  · decide
  · decide

end Tabletop.Phrase
