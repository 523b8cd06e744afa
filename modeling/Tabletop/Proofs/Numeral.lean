import Mathlib.Algebra.Group.Nat.Defs
import Tabletop.Proofs.Phrase.Overlong
import Tabletop.Proofs.Text.Runs

/-! Numerals of the digits 0 to 9. The signed reader reads them as the plain one does, and the normal
form of their value is no longer than they are. -/
namespace Tabletop.Numeral
open Phrase (Digits)

theorem decimalValue?_digit (c : Char) (digit : c.isDigit = true) :
    Text.decimalValue? c = some (c.toNat - 0x30) := by
  have bounds : 0x30 ≤ c.toNat ∧ c.toNat ≤ 0x39 := Char.isDigit_iff_toNat.mp digit
  have first : (Text.decimalZeros.find? fun start => start ≤ c.toNat && c.toNat < start + 10) =
      some 0x30 := by
    rw [Text.decimalZeros, List.find?_cons_of_pos]
    simp only [Bool.and_eq_true, decide_eq_true_eq]
    omega
  rw [Text.decimalValue?, first]
  rfl

theorem grouped_digits (run : List Char) (some : run ≠ []) (digits : Digits run) :
    grouped run = .some (run.map fun c => c.toNat - 0x30) := by
  induction run with
  | nil => exact absurd rfl some
  | cons c rest ih =>
    have first := decimalValue?_digit c (digits c (by simp))
    cases rest with
    | nil => simp [grouped, first]
    | cons d rest =>
      have next : d ≠ '_' := by
        rintro rfl
        exact absurd (digits '_' (by simp)) (by decide)
      have others := ih (by simp) (fun c member => digits c (by simp [member]))
      simp [grouped, next, first, others]

theorem magnitude_digits (run : List Char) (some : run ≠ []) (digits : Digits run) :
    magnitude run = match overlong? run with
      | none => .some (value run)
      | .some _ => none := by
  rw [magnitude, grouped_digits run some digits, overlong?]
  simp only [Option.bind_eq_bind, Option.bind_some, List.length_map]
  split
  · rw [List.foldl_map, value, Nat.ofDigitChars_eq_foldl]
    rfl
  · rfl

def signedValue (negative : Bool) (run : List Char) : Int :=
  if negative then -(value run : Int) else value run

theorem readSigned_digits (negative : Bool) (run : List Char) (some : run ≠ []) (digits : Digits run) :
    readSigned ((Phrase.Term.number negative run).text) = match overlong? run with
      | none => .some (signedValue negative run)
      | .some _ => none := by
  have noSpace : ∀ c ∈ run, Text.isSpace c = false := fun c member =>
    Text.isSpace_of_isDigit c (digits c member)
  rw [readSigned]
  cases negative with
  | true =>
    rw [Phrase.Term.text, Text.trim_of_avoids _ _ (List.forall_mem_cons.mpr ⟨by decide, noSpace⟩)]
    simp only [magnitude_digits run some digits]
    cases overlong? run <;> rfl
  | false =>
    rw [Phrase.Term.text, Text.trim_of_avoids _ _ noSpace]
    have magnitude := magnitude_digits run some digits
    obtain ⟨c, tail, rfl⟩ := List.exists_cons_of_ne_nil some
    have minus : c ≠ '-' := by
      rintro rfl
      exact absurd (digits '-' (by simp)) (by decide)
    have plus : c ≠ '+' := by
      rintro rfl
      exact absurd (digits '+' (by simp)) (by decide)
    split
    · rename_i same
      exact absurd (List.cons.inj same).1 minus
    · rename_i same
      exact absurd (List.cons.inj same).1 plus
    · rw [magnitude]
      cases overlong? (c :: tail) <;> rfl

theorem value_lt (run : List Char) (digits : Digits run) : value run < 10 ^ run.length := by
  induction run with
  | nil => decide
  | cons c rest ih =>
    have bounds : 0x30 ≤ c.toNat ∧ c.toNat ≤ 0x39 := Char.isDigit_iff_toNat.mp (digits c (by simp))
    have others := ih fun c member => digits c (by simp [member])
    rw [value, Nat.ofDigitChars_cons, Nat.ofDigitChars_eq_ofDigitChars_zero, List.length_cons,
      Nat.pow_succ]
    unfold value at others
    have scale : 10 ^ rest.length * (10 * 0 + (c.toNat - '0'.toNat)) ≤ 10 ^ rest.length * 9 :=
      Nat.mul_le_mul_left _ (by have zero : '0'.toNat = 48 := rfl; omega)
    omega

theorem length_ofNat_value (run : List Char) (some : run ≠ []) (digits : Digits run) :
    (ofNat (value run)).length ≤ run.length :=
  (Nat.length_toDigits_le_iff (by decide) (List.length_pos_iff.mpr some)).mpr (value_lt run digits)

end Tabletop.Numeral
