import Tabletop.Rejection

/-! Scanners. A scanner takes as much as it can from the beginning of a text and never reconsiders
what it has taken. What it finds is the writing of something that is not empty, so that repetitions
can be scanned to their end. -/
namespace Tabletop.Phrase

/-- Why a scanner stopped: something is missing before the characters that are left, or a numeral
has too many digits to be converted. -/
inductive Halt where
  | missing (expected : Expectation) (rest : List Char)
  | overlong (digits : Nat)
deriving DecidableEq, Repr

abbrev Scan (α : Type) := Except Halt (α × List Char)

structure Scanner {α : Type} (written : α → List Char) where
  run : List Char → Scan α
  reads : ∀ text found rest, run text = .ok (found, rest) →
    written found ≠ [] ∧ text = written found ++ rest

theorem Scanner.shortens {α : Type} {written : α → List Char} (scanner : Scanner written)
    (text rest : List Char) (found : α) (ok : scanner.run text = .ok (found, rest)) :
    rest.length < text.length := by
  obtain ⟨some, rfl⟩ := scanner.reads text found rest ok
  have positive := List.length_pos_iff.mpr some
  rw [List.length_append]
  omega

/-- The second scan takes the place of a first one that misses something. When both miss something,
the one that came further counts, and the first one if they came equally far. -/
def Scan.orElse {α : Type} (first : Scan α) (second : Unit → Scan α) : Scan α :=
  match first with
  | .error (.missing expected rest) =>
    match second () with
    | .error (.missing expected' rest') =>
      if rest'.length < rest.length then .error (.missing expected' rest')
      else .error (.missing expected rest)
    | result => result
  | result => result

theorem Scan.orElse_ok {α : Type} (first : Scan α) (second : Unit → Scan α)
    (found : α × List Char) (ok : Scan.orElse first second = .ok found) :
    first = .ok found ∨ second () = .ok found := by
  unfold Scan.orElse at ok
  split at ok
  · split at ok
    · split at ok <;> cases ok
    · exact .inr ok
  · exact .inl ok

theorem map_ok {ε α β : Type} (change : α → β) (scanned : Except ε α) (found : β)
    (ok : scanned.map change = .ok found) : ∃ a, scanned = .ok a ∧ change a = found := by
  cases scanned with
  | error halt => cases ok
  | ok a => exact ⟨a, rfl, Except.ok.inj ok⟩

theorem bind_ok {ε α β : Type} (scanned : Except ε α) (next : α → Except ε β) (found : β)
    (ok : (scanned >>= next) = .ok found) : ∃ a, scanned = .ok a ∧ next a = .ok found := by
  cases scanned with
  | error halt => cases ok
  | ok a => exact ⟨a, rfl, ok⟩

end Tabletop.Phrase
