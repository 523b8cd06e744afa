import Mathlib.Data.List.TakeWhile
import Tabletop.Proofs.Phrase.Nesting
import Tabletop.Proofs.Scanner.Legible
import Tabletop.Reading

/-! What is read. A text is read exactly when it has a derivation whose calls are shallow enough and
whose runs of digits are short enough, and its tree is the tree of that derivation. A text without
long runs has at most one derivation, and if it has none that is shallow enough it is refused. -/
namespace Tabletop

namespace Phrase
open Text (isLayout Ends)

theorem Derives.dropWhile_text (phrase : Phrase) (text : String) (derives : phrase.Derives text) :
    text.toList.dropWhile isLayout = phrase.chain.text ++ phrase.after := by
  rw [← derives.written, Phrase.text]
  exact Text.dropWhile_run _ _ _ derives.before (phrase.chain.ends_layout derives.chain _)

theorem Derives.takeWhile_text (phrase : Phrase) (text : String) (derives : phrase.Derives text) :
    text.toList.takeWhile isLayout = phrase.before := by
  rw [← derives.written, Phrase.text]
  exact Text.takeWhile_run _ _ _ derives.before (phrase.chain.ends_layout derives.chain _)

theorem Derives.run_chain (phrase : Phrase) (text : String) (derives : phrase.Derives text)
    (room : Nat) (shallow : phrase.chain.depth ≤ room) :
    (Scanner.nested .refusal (room + 1)).run (text.toList.dropWhile isLayout) =
      settle phrase.chain.overlong? (phrase.chain, phrase.after) := by
  rw [derives.dropWhile_text]
  have closed := closed_layout phrase.after [] derives.after (.inl rfl)
  rw [List.append_nil] at closed
  exact scanChain_complete .refusal phrase.chain room phrase.after derives.chain shallow closed

theorem scan_complete (phrase : Phrase) (text : String) (derives : phrase.Derives text)
    (shallow : phrase.chain.depth ≤ Nesting.limit) :
    scan text.toList = settle phrase.chain.overlong? phrase := by
  have found : Scanner.chain.run (text.toList.dropWhile isLayout) = _ :=
    derives.run_chain phrase text Nesting.limit shallow
  have nothing : phrase.after.dropWhile isLayout = [] :=
    List.dropWhile_eq_nil_iff.mpr derives.after
  rw [scan, found]
  cases phrase.chain.overlong? with
  | some length => rfl
  | none =>
    rw [settle_none_bind]
    simp only [nothing, derives.takeWhile_text]
    rfl

theorem scan_sound (text : String) (phrase : Phrase) (found : scan text.toList = .ok phrase) :
    phrase.Derives text ∧ phrase.chain.overlong? = none ∧ phrase.chain.depth ≤ Nesting.limit := by
  have written := text_of_scan text.toList phrase found
  obtain ⟨⟨chain, rest⟩, scanned, found⟩ := bind_ok _ _ _ found
  obtain ⟨admissible, short, shallow⟩ := nested_sound _ _ _ _ scanned
  dsimp only at found
  split at found
  · rename_i nothing
    cases found
    exact ⟨⟨written, layout_takeWhile _, admissible, List.dropWhile_eq_nil_iff.mp nothing⟩, short,
      Nat.le_of_lt_succ shallow⟩
  · cases found

theorem scan_overlong (text : List Char) (digits : Nat)
    (failed : scan text = .error (.overlong digits)) : LongRun digits text := by
  rcases bind_error _ _ _ failed with stopped | ⟨⟨chain, rest⟩, _, failed⟩
  · rw [← List.takeWhile_append_dropWhile (p := isLayout) (l := text)]
    exact (nested_overlong _ _ _ stopped).behind digits _ _
  · dsimp only at failed
    split at failed <;> cases failed

theorem Derives.not_blank (phrase : Phrase) (text : String) (derives : phrase.Derives text) :
    text.toList.all Text.isBlank = false := by
  obtain ⟨c, tail, begins, start⟩ := phrase.chain.text_head derives.chain
  rw [List.all_eq_false]
  refine ⟨c, ?_, by simp [isBlank_of_isTermStart c start]⟩
  rw [← derives.written, Phrase.text, begins]
  simp

end Phrase

/-- A derivation with shallow calls is read, unless a run of digits is too long. -/
theorem readPhrase_complete (phrase : Phrase) (text : String) (derives : phrase.Derives text)
    (shallow : phrase.chain.depth ≤ Nesting.limit) :
    readPhrase text = match phrase.chain.overlong? with
      | none => .ok phrase
      | some digits => .error (.overlong digits) := by
  rw [readPhrase]
  simp only [derives.not_blank, derives.not_tooDeep phrase text shallow,
    Phrase.scan_complete phrase text derives shallow]
  cases phrase.chain.overlong? <;> rfl

theorem readPhrase_sound (text : String) (phrase : Phrase) (found : readPhrase text = .ok phrase) :
    phrase.Derives text ∧ phrase.chain.overlong? = none ∧ phrase.chain.depth ≤ Nesting.limit := by
  rw [readPhrase] at found
  split at found
  · cases found
  · split at found
    · cases found
    · split at found
      · rename_i scanned
        cases found
        exact Phrase.scan_sound text phrase scanned
      · cases found
      · cases found

theorem readTree_complete (phrase : Phrase) (text : String) (derives : phrase.Derives text)
    (short : phrase.chain.overlong? = none) (shallow : phrase.chain.depth ≤ Nesting.limit) :
    readTree text = .ok phrase.node := by
  rw [readTree, readPhrase_complete phrase text derives shallow, short]
  rfl

theorem readTree_sound (text : String) (tree : Node) (accepted : readTree text = .ok tree) :
    ∃ phrase : Phrase, phrase.Derives text ∧ phrase.chain.overlong? = none ∧
      phrase.chain.depth ≤ Nesting.limit ∧ phrase.node = tree := by
  obtain ⟨phrase, found, same⟩ := Phrase.map_ok _ _ _ accepted
  obtain ⟨derives, short, shallow⟩ := readPhrase_sound text phrase found
  exact ⟨phrase, derives, short, shallow, same⟩

theorem readPhrase_error (text : String) (failure : Failure)
    (failed : readPhrase text = .error failure) :
    (∃ rejection, failure = .rejected rejection) ∨
      ∃ digits, failure = .overlong digits ∧ Phrase.LongRun digits text.toList := by
  rw [readPhrase] at failed
  split at failed
  · cases failed
    exact .inl ⟨_, rfl⟩
  · split at failed
    · cases failed
      exact .inl ⟨_, rfl⟩
    · split at failed
      · cases failed
      · cases failed
        exact .inl ⟨_, rfl⟩
      · rename_i digits stopped
        cases failed
        exact .inr ⟨digits, rfl, Phrase.scan_overlong _ _ stopped⟩

theorem Phrase.Derives.eq_of_short (phrase other : Phrase) (text : String) (derives : phrase.Derives text)
    (derives' : other.Derives text) (short : phrase.chain.overlong? = none) : phrase = other := by
  -- With room for both of them, both are what one run of the scanner finds.
  let room := max phrase.chain.depth other.chain.depth
  have found := derives.run_chain phrase text room (Nat.le_max_left _ _)
  rw [derives'.run_chain other text room (Nat.le_max_right _ _), short] at found
  cases stopped : other.chain.overlong? with
  | some digits =>
    rw [stopped] at found
    cases found
  | none =>
    rw [stopped] at found
    have same := Prod.mk.inj (Except.ok.inj found)
    have before := (derives.takeWhile_text phrase text).symm.trans (derives'.takeWhile_text other text)
    obtain ⟨first, chain, last⟩ := phrase
    obtain ⟨first', chain', last'⟩ := other
    exact congr (congr (congrArg Phrase.mk before) same.1.symm) same.2.symm

end Tabletop
