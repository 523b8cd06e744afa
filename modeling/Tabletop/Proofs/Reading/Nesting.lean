import Tabletop.Proofs.Reading.Exactness
import Tabletop.Proofs.Scanner.Places

/-! What the count of parentheses says about the calls that are scanned. The running depth at every place that the
scanner comes to is the number of calls whose arguments it is inside. So a text that passes the count is scanned
as if there were no bound, and notation is refused by the count exactly if its calls are too deep. -/
namespace Tabletop

namespace Phrase
open Nesting (Below Rises)
open Text (isLayout)

def scanBy (scanner : Scanner Chain.text) (text : List Char) : Except Halt Phrase := do
  let (chain, rest) ← scanner.run (text.dropWhile isLayout)
  match rest.dropWhile isLayout with
  | [] => return ⟨text.takeWhile isLayout, chain, rest⟩
  | more => throw (.missing .endOfText more)

/-- While a whole text is scanned, the scanner comes to where the rest is left, inside the arguments of so many
calls. -/
inductive TextAt (text : List Char) : Nat → List Char → Prop
  | before (rest : List Char) (passes : Passes isLayout text rest) : TextAt text 0 rest
  | chain (inside : Nat) (rest : List Char) (within : ChainAt (text.dropWhile isLayout) inside rest) :
      TextAt text inside rest
  | behind (chain : Chain) (left rest : List Char)
      (scanned : Scanner.unbounded.run (text.dropWhile isLayout) = .ok (chain, left))
      (passes : Passes isLayout left rest) : TextAt text 0 rest

theorem TextAt.rises (text : List Char) (inside : Nat) (rest : List Char) (here : TextAt text inside rest) :
    Rises text inside rest := by
  cases here with
  | before rest passes => exact passes.rises isLayout (by decide) (by decide)
  | chain inside rest within => exact (rises_layout text).onward _ _ _ _ (within.rises _ _ _)
  | behind chain left rest scanned passes =>
    have found := (chainAt_found _ _ _ scanned).rises
    have level := passes.rises isLayout (by decide) (by decide)
    exact (rises_layout text).onward _ _ _ _ (found.level _ _ _ _ level)

/-- The place where the scanner misses something is one that it comes to. -/
theorem textAt_missing (text rest : List Char) (expected : Expectation)
    (stopped : scanBy .unbounded text = .error (.missing expected rest)) :
    ∃ inside, TextAt text inside rest := by
  rcases bind_error _ _ _ stopped with stopped | ⟨⟨chain, left⟩, scanned, stopped⟩
  · obtain ⟨inside, within⟩ := chainAt_missing _ _ _ stopped
    exact ⟨inside, .chain inside rest within⟩
  · dsimp only at stopped
    split at stopped
    · cases stopped
    · cases stopped
      exact ⟨0, .behind chain left _ scanned (passes_dropWhile _ _)⟩

theorem TextAt.shallow (bound : Nat) (text : List Char) (inside : Nat) (rest : List Char)
    (below : Below bound text) (here : TextAt text inside rest) : inside < bound := by
  obtain ⟨used, rfl, rise⟩ := here.rises
  have under := below used (List.prefix_append _ _)
  omega

theorem scanBy_within (innermost : Scanner Chain.text) (room : Nat) (text : List Char)
    (within : ∀ inside rest, TextAt text inside rest → inside < room) :
    scanBy (.nested innermost room) text = scanBy .unbounded text := by
  have chain := nested_within innermost room (text.dropWhile isLayout) fun inside rest here =>
    within inside rest (.chain inside rest here)
  rw [scanBy, scanBy, chain]

theorem TextAt.within_limit (text : List Char) (inside : Nat) (rest : List Char)
    (passed : Nesting.tooDeep? text = none) (here : TextAt text inside rest) : inside < Nesting.limit + 1 :=
  here.shallow _ _ _ _ (Nesting.below_of_not_tooDeep 0 _ (by decide) passed)

theorem scanBy_passed (innermost : Scanner Chain.text) (text : List Char)
    (passed : Nesting.tooDeep? text = none) :
    scanBy (.nested innermost (Nesting.limit + 1)) text = scanBy .unbounded text :=
  scanBy_within innermost _ text fun inside rest here => here.within_limit text inside rest passed

theorem scan_passed (text : List Char) (passed : Nesting.tooDeep? text = none) :
    scan text = scanBy .unbounded text := scanBy_passed .refusal text passed

theorem scanBy_sound (text : String) (phrase : Phrase) (found : scanBy .unbounded text.toList = .ok phrase) :
    phrase.Derives text := by
  obtain ⟨⟨chain, rest⟩, scanned, found⟩ := bind_ok _ _ _ found
  have taken := (Scanner.unbounded.reads _ _ _ scanned).2
  dsimp only at found
  split at found
  · rename_i nothing
    cases found
    refine ⟨?_, layout_takeWhile _, (unbounded_sound _ _ _ scanned).1, List.dropWhile_eq_nil_iff.mp nothing⟩
    rw [Phrase.text, ← taken, List.takeWhile_append_dropWhile]
  · cases found

end Phrase

/-- Reading a text is the count of its parentheses followed by a scan without any bound, so that a bound on how
deep calls stand in what is read comes from the count alone. -/
theorem readPhrase_unbounded (text : String) :
    readPhrase text =
      if text.toList.all Text.isBlank then .error (reject text 0 .input)
      else
        match Nesting.tooDeep? text.toList with
        | some before => .error (reject text before.length .shallowerCalls)
        | none =>
          match Phrase.scanBy .unbounded text.toList with
          | .ok phrase => .ok phrase
          | .error (.missing expected rest) =>
            .error (reject text (text.toList.length - rest.length) expected)
          | .error (.overlong digits) => .error (.overlong digits) := by
  rw [readPhrase]
  cases passed : Nesting.tooDeep? text.toList with
  | some before => rfl
  | none =>
    dsimp only
    rewrite [Phrase.scan_passed _ passed]
    rfl

/-- The running depth before a place that the unbounded scanner comes to is the number of calls whose arguments
it is inside. Where the scanner misses something it has come to, and cut off deeper than all places it scans the
same. A text that passes the count never leads it inside more calls than the limit, so that it may be cut off
there. A text that it accepts is refused by the count exactly if the calls stand deeper than the limit. -/
theorem nesting_exact (text : String) :
    ((∀ inside rest, Phrase.TextAt text.toList inside rest →
        ∃ before, text.toList = before ++ rest ∧ Nesting.depth before = inside) ∧
      (∀ expected rest, Phrase.scanBy .unbounded text.toList = .error (.missing expected rest) →
        ∃ inside, Phrase.TextAt text.toList inside rest) ∧
      ∀ innermost room, (∀ inside rest, Phrase.TextAt text.toList inside rest → inside < room) →
        Phrase.scanBy (.nested innermost room) text.toList = Phrase.scanBy .unbounded text.toList) ∧
    (Nesting.tooDeep? text.toList = none →
      (∀ inside rest, Phrase.TextAt text.toList inside rest → inside ≤ Nesting.limit) ∧
      (∀ innermost, Phrase.scanBy (.nested innermost (Nesting.limit + 1)) text.toList =
        Phrase.scanBy .unbounded text.toList) ∧
      Phrase.scan text.toList = Phrase.scanBy .unbounded text.toList) ∧
    ∀ phrase, Phrase.scanBy .unbounded text.toList = .ok phrase →
      (Nesting.tooDeep? text.toList ≠ none ↔ Nesting.limit < phrase.chain.depth) := by
  refine ⟨⟨?_, ?_, ?_⟩, ?_, ?_⟩
  · intro inside rest here
    exact here.rises
  · intro expected rest stopped
    exact Phrase.textAt_missing _ rest expected stopped
  · intro innermost room within
    exact Phrase.scanBy_within innermost room _ within
  · intro passed
    refine ⟨?_, fun innermost => Phrase.scanBy_passed innermost _ passed, Phrase.scan_passed _ passed⟩
    intro inside rest here
    exact Nat.le_of_lt_succ (here.within_limit _ _ _ passed)
  · intro phrase accepted
    rw [← Nat.not_le, not_iff_not]
    constructor
    · intro passed
      rw [← Phrase.scan_passed _ passed] at accepted
      exact (Phrase.scan_sound text phrase accepted).2.2
    · exact (Phrase.scanBy_sound text phrase accepted).not_tooDeep phrase text

/-- Two calls are still open at the end of a text that breaks off, and the calls of a text that is accepted stand
one deeper than the count allows. -/
theorem nesting_exact_calls :
    let broken := "f(g( 2"
    let deep := "f(f(f(f(f(f(f(f(f(f(f(f(f(f(f(f(f(f(f(f(f(1)))))))))))))))))))))"
    (Nesting.tooDeep? broken.toList = none ∧ Phrase.TextAt broken.toList 2 [] ∧
      Phrase.scan broken.toList = Phrase.scanBy .unbounded broken.toList) ∧
    ∃ phrase, Phrase.scanBy .unbounded deep.toList = .ok phrase ∧ phrase.chain.depth = 21 ∧
      Nesting.tooDeep? deep.toList ≠ none := by
  constructor
  · obtain ⟨⟨places, stops, _⟩, bounds, _⟩ := nesting_exact "f(g( 2"
    have passed : Nesting.tooDeep? "f(g( 2".toList = none := by
      decide
    have stopped : (Phrase.scanBy .unbounded "f(g( 2".toList).map (fun phrase => phrase.chain.depth) =
        .error (.missing .closing []) := by
      decide +kernel
    obtain ⟨inside, here⟩ := stops _ _ (Phrase.map_error _ _ _ stopped)
    obtain ⟨before, whole, depth⟩ := places _ _ here
    rw [List.append_nil] at whole
    rw [← whole] at depth
    obtain rfl : inside = 2 := (Int.ofNat.inj depth).symm
    exact ⟨passed, here, (bounds passed).2.2⟩
  · obtain ⟨_, _, refused⟩ := nesting_exact
      "f(f(f(f(f(f(f(f(f(f(f(f(f(f(f(f(f(f(f(f(f(1)))))))))))))))))))))"
    have accepted : (Phrase.scanBy .unbounded
        "f(f(f(f(f(f(f(f(f(f(f(f(f(f(f(f(f(f(f(f(f(1)))))))))))))))))))))".toList).map
        (fun phrase => phrase.chain.depth) = .ok 21 := by
      decide +kernel
    obtain ⟨phrase, found, depth⟩ := Phrase.map_ok _ _ _ accepted
    exact ⟨phrase, found, depth, (refused phrase found).mpr (by rw [depth]; decide)⟩

end Tabletop
