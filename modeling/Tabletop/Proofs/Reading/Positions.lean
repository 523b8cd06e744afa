import Mathlib.Data.List.Infix
import Tabletop.Proofs.Reading.Exactness
import Tabletop.Proofs.Scanner.Completion

/-! The positions of refusals. What stands before the position of a refusal begins a text that is notation,
so a text is refused no later than where it can no longer be completed. -/
namespace Tabletop

def Begins (used : List Char) : Prop := ∃ longer tree, readTree longer = .ok tree ∧ used <+: longer.toList

theorem Begins.of_prefix (used longer : List Char) (begins : Begins longer) (before : used <+: longer) :
    Begins used := by
  obtain ⟨text, tree, accepted, inside⟩ := begins
  exact ⟨text, tree, accepted, before.trans inside⟩

namespace Phrase
open Text (isLayout)

theorem Chain.Legible.begins (chain : Chain) (legible : chain.Legible Nesting.limit) (before after : List Char)
    (layout : Layout before) (layout' : Layout after) : Begins (before ++ (chain.text ++ after)) := by
  have same : (String.ofList (before ++ (chain.text ++ after))).toList = before ++ (chain.text ++ after) :=
    String.toList_ofList
  refine ⟨_, _, readTree_complete ⟨before, chain, after⟩ _ ⟨same.symm, layout, legible.admissible, layout'⟩
    legible.short legible.shallow, [], ?_⟩
  rw [same, List.append_nil]

theorem Completable.begins (used : List Char) (completable : Completable Nesting.limit used) (before : List Char)
    (layout : Layout before) : Begins (before ++ used) := by
  obtain ⟨chain, legible, inside⟩ := completable
  have begins := legible.begins chain before [] layout layout_nil
  rw [List.append_nil] at begins
  exact begins.of_prefix _ _ ((List.prefix_append_right_inj before).mpr inside)

/-- What a scan of a whole text has taken where it stops begins a text that has a tree. -/
theorem scan_stops (text rest : List Char) (expected : Expectation) (below : Nesting.Below Nesting.limit text)
    (stopped : scan text = .error (.missing expected rest)) : ∃ used, text = used ++ rest ∧ Begins used := by
  have whole := List.takeWhile_append_dropWhile (p := isLayout) (l := text)
  have layout := layout_takeWhile text
  rcases bind_error _ _ _ stopped with stopped | ⟨⟨chain, left⟩, scanned, stopped⟩
  · rw [← whole] at below
    have behind := below.behind
    rw [depth_plain _ (plain_layout _ layout), Int.sub_zero] at behind
    obtain ⟨used, taken, completable⟩ := nested_stops Nesting.limit _ _ _ behind stopped
    refine ⟨text.takeWhile isLayout ++ used, ?_, completable.begins used _ layout⟩
    rw [List.append_assoc, ← taken, whole]
  · obtain ⟨admissible, short, shallow⟩ := nested_sound _ _ _ _ scanned
    have taken := (Scanner.chain.reads _ _ _ scanned).2
    have legible : chain.Legible Nesting.limit := ⟨admissible, short, Nat.le_of_lt_succ shallow⟩
    have begins := legible.begins chain _ _ layout (layout_takeWhile left)
    dsimp only at stopped
    split at stopped
    · cases stopped
    · cases stopped
      refine ⟨_, ?_, begins⟩
      rw [List.append_assoc, List.append_assoc, List.takeWhile_append_dropWhile, ← taken, whole]

end Phrase

/-- If the running depth of the parentheses stays below the limit, a text is refused at a position within
it or at its end, and what stands before that position begins a text that has a tree. Without long runs of
digits every text that has no tree is refused that way. -/
theorem readTree_position (text : String) (below : Nesting.Below Nesting.limit text.toList) :
    (∀ rejection, readTree text = .error (.rejected rejection) →
      0 ≤ rejection.position ∧ rejection.position ≤ text.toList.length ∧
        Begins (text.toList.take rejection.position.toNat)) ∧
    ((∀ run, run <:+: text.toList → Phrase.Digits run → run.length ≤ Numeral.maxDigits) →
      ∀ failure, readTree text = .error failure → ∃ rejection, failure = .rejected rejection) := by
  constructor
  · intro rejection refused
    have refused := Phrase.map_error _ _ _ refused
    rw [readPhrase] at refused
    split at refused
    · cases refused
      have begins := (Phrase.completable_nil Nesting.limit).begins [] [] Phrase.layout_nil
      exact ⟨Int.natCast_nonneg 0, Int.natCast_nonneg _, begins⟩
    · split at refused
      · rename_i deep
        rw [Nesting.tooDeep?, below.not_tooDeep 0 Nesting.limit _ (by decide)] at deep
        cases deep
      · split at refused
        · cases refused
        · rename_i expected rest stopped
          cases refused
          obtain ⟨used, taken, begins⟩ := Phrase.scan_stops _ rest expected below stopped
          have position : text.toList.length - rest.length = used.length := by
            rw [taken, List.length_append, Nat.add_sub_cancel]
          refine ⟨Int.natCast_nonneg _, Int.ofNat_le.mpr (Nat.sub_le _ _), ?_⟩
          change Begins (text.toList.take (text.toList.length - rest.length))
          rw [position, taken, List.take_left]
          exact begins
        · cases refused
  · intro short failure failed
    rcases readPhrase_error text failure (Phrase.map_error _ _ _ failed) with refused | ⟨digits, _, long⟩
    · exact refused
    · obtain ⟨run, inside, only, rfl, long⟩ := long
      exact absurd (short run inside only) (Nat.not_le_of_lt long)

/-- A size of zero is refused as a name that is not called, so the zero can still begin a text. -/
theorem readTree_position_zero :
    Nesting.Below Nesting.limit "f(d0".toList ∧
    readTree "f(d0" = .error (.rejected ⟨"f(d0", 4, .opening⟩) ∧ Begins "f(d0".toList := by
  have below : Nesting.Below Nesting.limit "f(d0".toList := by
    have all : ∀ part ∈ "f(d0".toList.inits, Nesting.depth part < Nesting.limit := by
      decide
    intro part inside
    exact all part ((List.mem_inits _ _).mpr inside)
  have failed : (readTree "f(d0").map Node.start = .error (.rejected ⟨"f(d0", 4, .opening⟩) := by
    decide +kernel
  have refused := Phrase.map_error _ _ _ failed
  obtain ⟨_, _, begins⟩ := (readTree_position _ below).1 _ refused
  exact ⟨below, refused, begins⟩

end Tabletop
