import Tabletop.Proofs.Scanner.Dice

/-! What the scanners miss, and where. A scan that misses something has missed it in one of the places that the
scanner looks at, and each of them expects something of its own. -/
namespace Tabletop.Phrase
open Text (isLayout)

theorem orElse_missed {α : Type} (first : Scan α) (second : Unit → Scan α) (expected : Expectation)
    (rest : List Char) (stopped : Scan.orElse first second = .error (.missing expected rest)) :
    ∃ expected' rest' expected'' rest'', first = .error (.missing expected' rest') ∧
      second () = .error (.missing expected'' rest'') ∧
        ((expected = expected' ∧ rest = rest') ∨ (expected = expected'' ∧ rest = rest'')) := by
  unfold Scan.orElse at stopped
  split at stopped
  · rename_i expected' rest'
    split at stopped
    · rename_i expected'' rest'' other
      refine ⟨expected', rest', expected'', rest'', rfl, other, ?_⟩
      split at stopped
      · cases stopped
        exact .inr ⟨rfl, rfl⟩
      · cases stopped
        exact .inl ⟨rfl, rfl⟩
    · rename_i none
      exact absurd stopped (none expected rest)
  · rename_i none
    exact absurd stopped (none expected rest)

theorem scanSize_missed (text rest : List Char) (expected : Expectation)
    (stopped : scanSize text = .error (.missing expected rest)) :
    expected = .dieSize ∧ rest = text ∧ Numeral.read (text.takeWhile Char.isDigit) = .ok 0 := by
  unfold scanSize at stopped
  split at stopped
  · cases stopped
  · rename_i zero
    split at stopped
    · cases stopped
    · cases stopped
      exact ⟨rfl, rfl, zero⟩
  · cases stopped

theorem scanDice_missed (text rest : List Char) (expected : Expectation)
    (stopped : scanDice text = .error (.missing expected rest)) :
    (expected = .term ∧ rest = text.dropWhile Char.isDigit ∧ ∀ tail, rest ≠ 'd' :: tail) ∨
      (expected = .dieSize ∧ text.dropWhile Char.isDigit = 'd' :: rest ∧
        Numeral.read (rest.takeWhile Char.isDigit) = .ok 0) := by
  unfold scanDice at stopped
  split at stopped
  · rename_i inner mark
    rcases bind_error _ _ _ stopped with sized | ⟨⟨size, left⟩, _, stopped⟩
    · obtain ⟨rfl, rfl, zero⟩ := scanSize_missed _ _ _ sized
      exact .inr ⟨rfl, mark, zero⟩
    · rcases bind_error _ _ _ stopped with modified | ⟨_, _, stopped⟩
      · obtain ⟨digits, impossible, _⟩ := scanModifiers_halts _ _ modified
        cases impossible
      · cases stopped
  · rename_i other
    cases stopped
    exact .inl ⟨rfl, rfl, other⟩

theorem scanNumber_missed (text rest : List Char) (expected : Expectation)
    (stopped : scanNumber text = .error (.missing expected rest)) :
    expected = .digits ∧ (text = '-' :: rest ∨ rest = text) := by
  unfold scanNumber scanDigits at stopped
  split at stopped
  · split at stopped
    · cases stopped
      exact ⟨rfl, .inl rfl⟩
    · cases stopped
  · split at stopped
    · cases stopped
      exact ⟨rfl, .inr rfl⟩
    · cases stopped

theorem scanClosing_missed (call : List Char → Term) (text rest : List Char) (expected : Expectation)
    (stopped : scanClosing call text = .error (.missing expected rest)) :
    expected = .closing ∧ rest = text.dropWhile isLayout := by
  unfold scanClosing at stopped
  split at stopped
  · cases stopped
  · cases stopped
    exact ⟨rfl, rfl⟩

theorem scanArgument_missed (argument : Scanner Chain.text) (name text rest : List Char) (expected : Expectation)
    (stopped : scanArgument argument name text = .error (.missing expected rest)) :
    (expected = .opening ∧ rest = text.dropWhile isLayout) ∨
      ∃ inner, text.dropWhile isLayout = '(' :: inner ∧
        (argument.run (inner.dropWhile isLayout) = .error (.missing expected rest) ∨
          ∃ chain left, argument.run (inner.dropWhile isLayout) = .ok (chain, left) ∧
            expected = .closing ∧ rest = left.dropWhile isLayout) := by
  unfold scanArgument at stopped
  split at stopped
  · rename_i inner opening
    refine .inr ⟨inner, opening, ?_⟩
    rcases bind_error _ _ _ stopped with stopped | ⟨⟨chain, left⟩, scanned, stopped⟩
    · exact .inl stopped
    · exact .inr ⟨chain, left, scanned, scanClosing_missed _ _ _ _ stopped⟩
  · cases stopped
    exact .inl ⟨rfl, rfl⟩

theorem scanCall_missed (argument : Scanner Chain.text) (text rest : List Char) (expected : Expectation)
    (stopped : scanCall argument text = .error (.missing expected rest)) :
    (expected = .term ∧ rest = text) ∨
      ∃ c more, text = c :: more ∧ isNameStart c = true ∧
        scanArgument argument (c :: more.takeWhile isNamePart) (more.dropWhile isNamePart) =
          .error (.missing expected rest) := by
  unfold scanCall at stopped
  split at stopped
  · cases stopped
    exact .inl ⟨rfl, rfl⟩
  · rename_i c more
    split at stopped
    · rename_i start
      exact .inr ⟨c, more, rfl, start, stopped⟩
    · cases stopped
      exact .inl ⟨rfl, rfl⟩

/-- A link that misses something is forgotten, so a chain misses what its first term does. -/
theorem scanChain_missed (term : Scanner Term.text) (text rest : List Char) (expected : Expectation)
    (stopped : scanChain term text = .error (.missing expected rest)) :
    term.run text = .error (.missing expected rest) := by
  rw [scanChain_eq] at stopped
  split at stopped
  · rename_i halt first
    cases stopped
    exact first
  · split at stopped
    · cases stopped
    · split at stopped <;> cases stopped

end Tabletop.Phrase
