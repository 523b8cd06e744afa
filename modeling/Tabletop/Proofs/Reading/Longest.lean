import Tabletop.Proofs.Reading.Exactness
import Tabletop.Proofs.Scanner.Onward

/-! The longest beginning that is notation. A text that goes on where it was expected to end is notation up to
that place, and no longer beginning of it is: whatever could have belonged to a longer one was taken. -/
namespace Tabletop

namespace Phrase
open Text (isLayout)

def ExpectsMore {α : Type} (scanned : Except Halt α) : Prop :=
  ∀ rest, scanned ≠ .error (.missing .endOfText rest)

theorem scanDice_expects (text : List Char) : ExpectsMore (scanDice text) := by
  intro rest stopped
  rcases scanDice_missed _ _ _ stopped with ⟨other, _⟩ | ⟨other, _⟩ <;> cases other

theorem scanNumber_expects (text : List Char) : ExpectsMore (scanNumber text) := by
  intro rest stopped
  cases (scanNumber_missed _ _ _ stopped).1

theorem scanCall_expects (argument : Scanner Chain.text) (inner : ∀ text, ExpectsMore (argument.run text))
    (text : List Char) : ExpectsMore (scanCall argument text) := by
  intro rest stopped
  rcases scanCall_missed _ _ _ _ stopped with ⟨other, _⟩ | ⟨c, more, rfl, _, stopped⟩
  · cases other
  · rcases scanArgument_missed _ _ _ _ _ stopped with ⟨other, _⟩ | ⟨_, _, stopped | ⟨_, _, _, other, _⟩⟩
    · cases other
    · exact inner _ rest stopped
    · cases other

theorem scanTerm_expects (argument : Scanner Chain.text) (inner : ∀ text, ExpectsMore (argument.run text))
    (text : List Char) : ExpectsMore (scanTerm argument text) := by
  intro rest stopped
  obtain ⟨_, _, _, _, dice, others, missed⟩ := orElse_missed _ _ _ _ stopped
  rcases missed with ⟨rfl, rfl⟩ | ⟨rfl, rfl⟩
  · exact scanDice_expects text rest (map_error _ _ _ dice)
  · obtain ⟨_, _, _, _, call, number, missed⟩ := orElse_missed _ _ _ _ others
    rcases missed with ⟨rfl, rfl⟩ | ⟨rfl, rfl⟩
    · exact scanCall_expects argument inner text rest call
    · exact scanNumber_expects text rest number

theorem nested_expects (room : Nat) (text : List Char) :
    ExpectsMore ((Scanner.nested .refusal room).run text) := by
  induction room generalizing text with
  | zero =>
    intro rest stopped
    cases stopped
  | succ room ih =>
    intro rest stopped
    exact scanTerm_expects _ ih text rest (scanChain_missed _ _ _ _ stopped)

theorem scan_endOfText (text rest : List Char) (stopped : scan text = .error (.missing .endOfText rest)) :
    ∃ chain left, Scanner.chain.run (text.dropWhile isLayout) = .ok (chain, left) ∧
      left.dropWhile isLayout = rest := by
  rcases bind_error _ _ _ stopped with stopped | ⟨⟨chain, left⟩, scanned, stopped⟩
  · exact absurd stopped (nested_expects _ _ rest)
  · refine ⟨chain, left, scanned, ?_⟩
    dsimp only at stopped
    split at stopped
    · cases stopped
    · cases stopped
      rfl

/-- What was taken of such a text is a derivation. -/
theorem scan_endOfText_taken (text rest : List Char)
    (stopped : scan text = .error (.missing .endOfText rest)) :
    ∃ (phrase : Phrase), phrase.Derives (String.ofList phrase.text) ∧ phrase.chain.overlong? = none ∧
      phrase.chain.depth ≤ Nesting.limit ∧ text = phrase.text ++ rest := by
  obtain ⟨chain, left, scanned, rfl⟩ := scan_endOfText text rest stopped
  obtain ⟨admissible, short, shallow⟩ := nested_sound _ _ _ _ scanned
  have taken := (Scanner.chain.reads _ _ _ scanned).2
  refine ⟨⟨text.takeWhile isLayout, chain, left.takeWhile isLayout⟩,
    ⟨String.toList_ofList.symm, layout_takeWhile text, admissible, layout_takeWhile left⟩, short,
    Nat.le_of_lt_succ shallow, ?_⟩
  rw [Phrase.text, List.append_assoc, List.append_assoc, List.takeWhile_append_dropWhile, ← taken,
    List.takeWhile_append_dropWhile]

/-- No derivation begins the text and goes beyond the place where it was expected to end. -/
theorem scan_endOfText_longest (phrase : Phrase) (text rest more : List Char)
    (derives : phrase.Derives (String.ofList phrase.text)) (shallow : phrase.chain.depth ≤ Nesting.limit)
    (stopped : scan text = .error (.missing .endOfText rest)) (begun : text = phrase.text ++ more) :
    rest <:+ more := by
  obtain ⟨chain, left, scanned, rfl⟩ := scan_endOfText text rest stopped
  have behind : text.dropWhile isLayout = phrase.chain.text ++ (phrase.after ++ more) := by
    rw [begun, Phrase.text, List.append_assoc, List.append_assoc]
    exact Text.dropWhile_run _ _ _ derives.before (phrase.chain.ends_layout derives.chain _)
  have takes : TakesTo (phrase.after ++ more) (Scanner.chain.run (text.dropWhile isLayout)) := by
    rw [behind]
    exact scanChain_onward .refusal phrase.chain Nesting.limit _ derives.chain shallow
  rw [scanned] at takes
  cases takes with
  | found value left within => exact Text.dropWhile_suffix_after _ _ _ _ derives.after within

end Phrase

theorem readTree_endOfText (text : String) (rejection : Rejection)
    (refused : readTree text = .error (.rejected rejection)) (expected : rejection.expected = .endOfText) :
    ∃ rest, Phrase.scan text.toList = .error (.missing .endOfText rest) ∧
      rejection.position = (text.toList.length - rest.length : Nat) := by
  have refused := Phrase.map_error _ _ _ refused
  rw [readPhrase] at refused
  split at refused
  · cases refused
    cases expected
  · split at refused
    · cases refused
      cases expected
    · split at refused
      · cases refused
      · rename_i expectation rest stopped
        cases refused
        cases expected
        exact ⟨rest, stopped, rfl⟩
      · cases refused

/-- If a text is refused because it should have ended, what stands before the position of the refusal has a
tree, and no longer beginning of the text has one. -/
theorem readTree_longest (text : String) (rejection : Rejection)
    (refused : readTree text = .error (.rejected rejection)) (expected : rejection.expected = .endOfText) :
    ∃ p : Nat, rejection.position = p ∧ p ≤ text.toList.length ∧
      (∃ tree, readTree (String.ofList (text.toList.take p)) = .ok tree) ∧
      ∀ q, p < q → q ≤ text.toList.length →
        ∀ tree, readTree (String.ofList (text.toList.take q)) ≠ .ok tree := by
  obtain ⟨rest, stopped, position⟩ := readTree_endOfText text rejection refused expected
  obtain ⟨phrase, derives, short, shallow, taken⟩ := Phrase.scan_endOfText_taken _ rest stopped
  have length : text.toList.length - rest.length = phrase.text.length := by
    rw [taken, List.length_append, Nat.add_sub_cancel]
  have before : text.toList.take (text.toList.length - rest.length) = phrase.text := by
    rw [length, taken, List.take_left]
  refine ⟨_, position, Nat.sub_le _ _, ⟨phrase.node, ?_⟩, ?_⟩
  · rw [before]
    exact readTree_complete phrase _ derives short shallow
  · intro q beyond within tree accepted
    obtain ⟨longer, derives', _, shallow', _⟩ := readTree_sound _ tree accepted
    have written : longer.text = text.toList.take q := by
      rw [derives'.written, String.toList_ofList]
    rw [← written] at derives'
    have begun : text.toList = longer.text ++ text.toList.drop q := by
      rw [written, List.take_append_drop]
    -- What is left behind a longer beginning is too short to be the rest.
    have left := (Phrase.scan_endOfText_longest longer _ rest _ derives' shallow' stopped begun).length_le
    rw [List.length_drop] at left
    omega

/-- A count of zero is left over behind a modifier that could have taken a longer one. -/
theorem readTree_longest_zero :
    readTree "1 + 2d6k0 + f(3)" = .error (.rejected ⟨"1 + 2d6k0 + f(3)", 8, .endOfText⟩) ∧
    (∃ tree, readTree "1 + 2d6k" = .ok tree) ∧ ∀ tree, readTree "1 + 2d6k0" ≠ .ok tree := by
  have failed : (readTree "1 + 2d6k0 + f(3)").map Node.start =
      .error (.rejected ⟨"1 + 2d6k0 + f(3)", 8, .endOfText⟩) := by
    decide +kernel
  have refused := Phrase.map_error _ _ _ failed
  obtain ⟨p, position, _, accepted, maximal⟩ := readTree_longest _ _ refused rfl
  obtain rfl : p = 8 := (Int.ofNat.inj position).symm
  exact ⟨refused, accepted, maximal 9 (by decide) (by decide)⟩

end Tabletop
