import Tabletop.Proofs.Scanner.Dice

/-! Scanning before a seam. No part of a dice term goes on across a seam, and no scanner of such parts looks
behind one. So any text before a seam, also one that ends within a dice term, is scanned as it is scanned
alone. -/
namespace Tabletop.Phrase
open Text (Ends)

def extended {α : Type} (rest : List Char) : Except Halt (α × List Char) → Except Halt (α × List Char)
  | .ok (found, left) => .ok (found, left ++ rest)
  | .error (.missing expected left) => .error (.missing expected (left ++ rest))
  | .error (.overlong digits) => .error (.overlong digits)

theorem extended_map {α β : Type} (rest : List Char) (change : α → β)
    (scanned : Except Halt (α × List Char)) :
    extended rest (scanned.map fun found => (change found.1, found.2)) =
      (extended rest scanned).map fun found => (change found.1, found.2) := by
  cases scanned with
  | ok found => rfl
  | error halt => cases halt <;> rfl

theorem extended_bind {α β : Type} (rest : List Char) (scanned : Except Halt (α × List Char))
    (next next' : α × List Char → Except Halt (β × List Char))
    (follows : ∀ found left, next' (found, left ++ rest) = extended rest (next (found, left))) :
    (extended rest scanned >>= next') = extended rest (scanned >>= next) := by
  cases scanned with
  | ok found => exact follows found.1 found.2
  | error halt => cases halt <;> rfl

section Before

variable (rest : List Char) (seam : Seam rest)
include seam

theorem scanCount_before (text : List Char) :
    scanCount (text ++ rest) = extended rest (scanCount text) := by
  have ends : Ends Char.isDigit rest := seam.ends _ _ (by decide)
  unfold scanCount
  rw [Text.takeWhile_before _ _ _ ends, Text.dropWhile_before _ _ _ ends]
  cases Numeral.read (text.takeWhile Char.isDigit) with
  | error length => rfl
  | ok n => cases n <;> rfl

theorem counted_before (modifier : List Char → Modifier) (text : List Char) :
    counted modifier (text ++ rest) = extended rest (counted modifier text) := by
  rw [counted, scanCount_before rest seam text, counted, extended_map]

theorem ne_seam_cons (c : Char) (text tail : List Char) (inside : c ∉ seams)
    (free : ∀ more, text ≠ c :: more) : text ++ rest ≠ c :: tail := by
  intro same
  cases text with
  | nil =>
    rw [List.nil_append] at same
    subst same
    exact inside (seam c rfl)
  | cons other text =>
    obtain ⟨rfl, _⟩ := List.cons.inj same
    exact free text rfl

theorem scanModifier?_before (text : List Char) :
    scanModifier? (text ++ rest) = (scanModifier? text).map (extended rest) := by
  have counts := counted_before rest seam
  have free := ne_seam_cons rest seam
  fun_cases scanModifier? text with
  | case1 more => rfl
  | case2 more single =>
    have single := fun tail => free '!' more tail (by decide) single
    simp [scanModifier?, extended]
  | case3 more => simp [scanModifier?, counts]
  | case4 more => simp [scanModifier?, counts]
  | case5 more high low =>
    have high := fun tail => free 'h' more tail (by decide) high
    have low := fun tail => free 'l' more tail (by decide) low
    simp [scanModifier?, counts]
  | case6 more => simp [scanModifier?, counts]
  | case7 more => simp [scanModifier?, counts]
  | case8 more high low =>
    have high := fun tail => free 'h' more tail (by decide) high
    have low := fun tail => free 'l' more tail (by decide) low
    simp [scanModifier?, counts]
  | case9 more => simp [scanModifier?, counts]
  | case10 text _ explode _ _ keep _ _ drop reroll =>
    have free : Ends isMark (text ++ rest) := by
      cases text with
      | nil => exact seam.ends isMark rest (by decide)
      | cons c tail =>
        rw [List.cons_append, Text.ends_cons]
        by_contra mark
        simp only [isMark, Bool.not_eq_false, Bool.or_eq_true, beq_iff_eq] at mark
        rcases mark with ((rfl | rfl) | rfl) | rfl
        · exact explode tail rfl
        · exact keep tail rfl
        · exact drop tail rfl
        · exact reroll tail rfl
    rw [scanModifier?_none _ free]
    rfl

theorem scanModifiers_before (text : List Char) :
    scanModifiers (text ++ rest) = extended rest (scanModifiers text) := by
  have first := scanModifier?_before rest seam
  fun_induction scanModifiers text with
  | case1 text none =>
    rw [scanModifiers_eq, first, none]
    rfl
  | case2 text halt failed =>
    rw [scanModifiers_eq, first, failed]
    cases halt <;> rfl
  | case3 text modifier left found ih =>
    rw [scanModifiers_eq, first, found]
    change (scanModifiers (left ++ rest)).map _ = _
    rw [ih, extended_map]

theorem scanSize_before (text : List Char) :
    scanSize (text ++ rest) = extended rest (scanSize text) := by
  have ends : Ends Char.isDigit rest := seam.ends _ _ (by decide)
  unfold scanSize
  rw [Text.takeWhile_before _ _ _ ends, Text.dropWhile_before _ _ _ ends]
  cases Numeral.read (text.takeWhile Char.isDigit) with
  | error length => rfl
  | ok n =>
    cases n with
    | succ n => rfl
    | zero =>
      simp only
      split
      · rename_i tail mark
        cases text with
        | nil => exact absurd mark (ne_seam_cons rest seam '%' [] tail (by decide) (by simp))
        | cons c text =>
          obtain ⟨rfl, rfl⟩ := List.cons.inj mark
          rfl
      · rename_i other
        split
        · exact absurd rfl (other _)
        · rfl

/-- A dice term before a seam is scanned as it is scanned alone. -/
theorem scanDice_before (text : List Char) :
    scanDice (text ++ rest) = extended rest (scanDice text) := by
  have ends : Ends Char.isDigit rest := seam.ends _ _ (by decide)
  unfold scanDice
  rw [Text.takeWhile_before _ _ _ ends, Text.dropWhile_before _ _ _ ends]
  cases text.dropWhile Char.isDigit with
  | nil =>
    have free := fun tail => ne_seam_cons rest seam 'd' [] tail (by decide) (by simp)
    split
    · rename_i tail mark
      exact absurd mark (free tail)
    · rfl
  | cons c inner =>
    by_cases letter : c = 'd'
    · subst letter
      change (scanSize (inner ++ rest)).bind _ = extended rest ((scanSize inner).bind _)
      rw [scanSize_before rest seam]
      apply extended_bind
      intro size left
      change (scanModifiers (left ++ rest)).bind _ = extended rest ((scanModifiers left).bind _)
      rw [scanModifiers_before rest seam]
      apply extended_bind
      intro modifiers left
      rfl
    · split
      · rename_i tail mark
        exact absurd (List.cons.inj mark).1 letter
      · split
        · rename_i tail mark
          exact absurd (List.cons.inj mark).1 letter
        · rfl

end Before

end Tabletop.Phrase
