import Tabletop.Proofs.Scanner.Unbounded

/-! The places that the unbounded scanner comes to. It takes one character after another, within each of the
alternatives that it tries, and every place has a number of calls whose arguments it is inside. The running
depth of the parentheses before a place is that number, whether the alternative is found in the end or given
up. The scanner ends at one of the places, and a scanner that is cut off deeper than all of them finds the
same. -/
namespace Tabletop

namespace Phrase
open Nesting (Rises)
open Text (isLayout)

def Passes (p : Char → Bool) (text rest : List Char) : Prop :=
  ∃ used, text = used ++ rest ∧ ∀ c ∈ used, p c = true

theorem Passes.rises (p : Char → Bool) (opening : p '(' = false) (closing : p ')' = false)
    (text rest : List Char) (passes : Passes p text rest) : Rises text 0 rest := by
  obtain ⟨used, taken, only⟩ := passes
  exact ⟨used, taken, depth_plain used (plain_of_class p used only opening closing)⟩

theorem Passes.refl (p : Char → Bool) (text : List Char) : Passes p text text :=
  ⟨[], rfl, fun _ member => nomatch member⟩

theorem passes_dropWhile (p : Char → Bool) (text : List Char) : Passes p text (text.dropWhile p) :=
  ⟨_, List.takeWhile_append_dropWhile.symm, List.all_eq_true.mp List.all_takeWhile⟩

/-- While a chain is scanned from the beginning of the text, the scanner comes to where the rest is left, inside
the arguments of so many calls. -/
inductive ChainAt : List Char → Nat → List Char → Prop
  /-- A dice term, a name or a number is tried. -/
  | token (text rest : List Char) (passes : Passes isTokenPart text rest) : ChainAt text 0 rest
  | signed (text rest : List Char) (passes : Passes Char.isDigit text rest) : ChainAt ('-' :: text) 0 rest
  /-- Behind a name its opening parenthesis is looked for. -/
  | named (c : Char) (text rest : List Char) (start : isNameStart c = true)
      (passes : Passes isLayout (text.dropWhile isNamePart) rest) : ChainAt (c :: text) 0 rest
  | opened (text inner rest : List Char) (opens : Opens text inner) (passes : Passes isLayout inner rest) :
      ChainAt text 1 rest
  | argument (text inner : List Char) (inside : Nat) (rest : List Char) (opens : Opens text inner)
      (within : ChainAt (inner.dropWhile isLayout) inside rest) : ChainAt text (inside + 1) rest
  /-- Behind an argument the closing parenthesis is looked for. -/
  | closing (text inner : List Char) (found : Chain) (left rest : List Char) (opens : Opens text inner)
      (scanned : Scanner.unbounded.run (inner.dropWhile isLayout) = .ok (found, left))
      (passes : Passes isLayout left rest) : ChainAt text 1 rest
  /-- Behind a term an operator is looked for, and then another term. -/
  | ended (text : List Char) (found : Term) (left rest : List Char)
      (scanned : scanTerm .unbounded text = .ok (found, left)) (passes : Passes isLayout left rest) :
      ChainAt text 0 rest
  | joined (text : List Char) (found : Term) (left : List Char) (joint : Joint) (after rest : List Char)
      (scanned : scanTerm .unbounded text = .ok (found, left)) (operator : scanJoint? left = some (joint, after))
      (passes : Passes isLayout (joint.after ++ after) rest) : ChainAt text 0 rest
  | link (text : List Char) (found : Term) (left : List Char) (joint : Joint) (after : List Char) (inside : Nat)
      (rest : List Char) (scanned : scanTerm .unbounded text = .ok (found, left))
      (operator : scanJoint? left = some (joint, after)) (within : ChainAt after inside rest) :
      ChainAt text inside rest

theorem rises_name (c : Char) (text : List Char) (start : isNameStart c = true) :
    Rises (c :: text) 0 (text.dropWhile isNamePart) := by
  have named := (passes_dropWhile isNamePart text).rises isNamePart (by decide) (by decide)
  refine Rises.onward _ text _ _ ⟨[c], rfl, ?_⟩ named
  apply depth_plain
  apply plain_of_class isNameStart [c] _ (by decide) (by decide)
  exact List.forall_mem_singleton.mpr start

theorem rises_operator (text after : List Char) (joint : Joint)
    (operator : scanJoint? text = some (joint, after)) :
    Rises text 0 (joint.after ++ after) := by
  have taken := scanJoint?_reads text after joint operator
  have plain := plain_layout joint.before (scanJoint?_sound _ _ _ operator).before
  have mark : Plain [joint.operator.char] := by
    cases joint.operator <;> exact plain_cons _ _ (by decide) (plain_layout [] layout_nil)
  refine ⟨joint.before ++ [joint.operator.char], ?_, depth_plain _ (plain_append _ _ plain mark)⟩
  simpa [Joint.text] using taken

/-- At every place of a chain the running depth is the number of calls whose arguments the place is inside. -/
theorem ChainAt.rises (text : List Char) (inside : Nat) (rest : List Char) (here : ChainAt text inside rest) :
    Rises text inside rest := by
  have layout (text rest : List Char) (passes : Passes isLayout text rest) : Rises text 0 rest :=
    passes.rises isLayout (by decide) (by decide) text rest
  induction here with
  | token text rest passes => exact passes.rises isTokenPart (by decide) (by decide) text rest
  | signed text rest passes =>
    exact Rises.onward _ text _ _ ⟨['-'], rfl, rfl⟩ (passes.rises Char.isDigit (by decide) (by decide))
  | named c text rest start passes => exact (rises_name c text start).onward _ _ _ _ (layout _ _ passes)
  | opened text inner rest opens passes => exact opens.rises.level _ _ _ _ (layout _ _ passes)
  | argument text inner inside rest opens within ih =>
    have both := opens.argument_rises.trans _ _ _ _ _ ih
    rwa [Int.add_comm] at both
  | closing text inner found left rest opens scanned passes =>
    have balanced : Rises (inner.dropWhile isLayout) 0 left :=
      ⟨_, (Scanner.unbounded.reads _ _ _ scanned).2, found.balanced (unbounded_sound _ _ _ scanned).1⟩
    exact opens.argument_rises.level _ _ _ _ (balanced.level _ _ _ _ (layout _ _ passes))
  | ended text found left rest scanned passes =>
    have first := rises_term (.terms .unbounded) text left found scanned (unbounded_term _ _ _ scanned)
    exact first.level _ _ _ _ (layout _ _ passes)
  | joined text found left joint after rest scanned operator passes =>
    have first := rises_term (.terms .unbounded) text left found scanned (unbounded_term _ _ _ scanned)
    exact (first.level _ _ _ _ (rises_operator left after joint operator)).level _ _ _ _ (layout _ _ passes)
  | link text found left joint after inside rest scanned operator within ih =>
    have first := rises_term (.terms .unbounded) text left found scanned (unbounded_term _ _ _ scanned)
    exact (first.level _ _ _ _ (rises_joint left after joint operator)).onward _ _ _ _ ih

theorem chainAt_found (text rest : List Char) (chain : Chain)
    (found : Scanner.unbounded.run text = .ok (chain, rest)) : ChainAt text 0 rest := by
  rw [unbounded_run] at found
  change scanChain (.terms .unbounded) text = _ at found
  fun_induction scanChain (.terms .unbounded) text generalizing chain rest with
  | case1 text halt failed => cases found
  | case2 text first left scanned ends =>
    cases found
    exact .ended text first _ _ scanned (Passes.refl _ _)
  | case3 text first left scanned joint after next more rest' others ih =>
    cases found
    exact .link text first left joint after 0 _ scanned next (ih _ _ others)
  | case4 text first left scanned joint after next expected missing others ih =>
    cases found
    exact .ended text first _ _ scanned (Passes.refl _ _)
  | case5 text first left scanned joint after next digits others ih => cases found

theorem scanDice_passes (text rest : List Char) (expected : Expectation)
    (stopped : scanDice text = .error (.missing expected rest)) : Passes isTokenPart text rest := by
  have whole := List.takeWhile_append_dropWhile (p := Char.isDigit) (l := text)
  have digits := dense_digits _ (digits_takeWhile text)
  rcases scanDice_missed _ _ _ stopped with ⟨_, rfl, _⟩ | ⟨_, mark, _⟩
  · exact ⟨_, whole.symm, digits⟩
  · refine ⟨text.takeWhile Char.isDigit ++ ['d'], ?_, ?_⟩
    · rw [List.append_assoc, List.singleton_append, ← mark, whole]
    · exact (dense_append _ ['d']).mpr ⟨digits, dense_name ['d'] (List.forall_mem_singleton.mpr rfl)⟩

theorem scanNumber_chainAt (text rest : List Char) (expected : Expectation)
    (stopped : scanNumber text = .error (.missing expected rest)) : ChainAt text 0 rest := by
  obtain ⟨_, rfl | rfl⟩ := scanNumber_missed _ _ _ stopped
  · exact .signed rest rest (Passes.refl _ _)
  · exact .token rest rest (Passes.refl _ _)

theorem scanCall_chainAt (text rest : List Char) (expected : Expectation)
    (noDice : ∃ expected rest, scanDice text = .error (.missing expected rest))
    (within : ∀ inner, Opens text inner → ∀ expected rest,
      Scanner.unbounded.run (inner.dropWhile isLayout) = .error (.missing expected rest) →
        ∃ inside, ChainAt (inner.dropWhile isLayout) inside rest)
    (stopped : scanCall .unbounded text = .error (.missing expected rest)) :
    ∃ inside, ChainAt text inside rest := by
  rcases scanCall_missed _ _ _ _ stopped with ⟨_, rfl⟩ | ⟨c, more, rfl, start, stopped⟩
  · exact ⟨0, .token rest rest (Passes.refl _ _)⟩
  · rcases scanArgument_missed _ _ _ _ _ stopped with ⟨_, rfl⟩ | ⟨inner, mark, stopped⟩
    · exact ⟨0, .named c more _ start (passes_dropWhile _ _)⟩
    · have opens : Opens (c :: more) inner := ⟨noDice, c, more, rfl, start, mark⟩
      rcases stopped with stopped | ⟨chain, left, scanned, _, rfl⟩
      · obtain ⟨inside, here⟩ := within inner opens _ _ stopped
        exact ⟨inside + 1, .argument _ inner inside _ opens here⟩
      · exact ⟨1, .closing _ inner chain left _ opens scanned (passes_dropWhile _ _)⟩

theorem chainAt_missing (text rest : List Char) (expected : Expectation)
    (stopped : Scanner.unbounded.run text = .error (.missing expected rest)) :
    ∃ inside, ChainAt text inside rest := by
  induction size : text.length using Nat.strong_induction_on generalizing text rest expected with
  | _ size ih =>
    rw [unbounded_run] at stopped
    have first : scanTerm .unbounded text = _ := scanChain_missed _ _ _ _ stopped
    obtain ⟨_, _, _, _, dice, others, furthest⟩ := orElse_missed _ _ _ _ first
    have missing := map_error _ _ _ dice
    rcases furthest with ⟨_, rfl⟩ | ⟨_, rfl⟩
    · exact ⟨0, .token _ _ (scanDice_passes _ _ _ missing)⟩
    · obtain ⟨_, _, _, _, call, number, furthest⟩ := orElse_missed _ _ _ _ others
      rcases furthest with ⟨_, rfl⟩ | ⟨_, rfl⟩
      · apply scanCall_chainAt _ _ _ ⟨_, _, missing⟩ _ call
        intro inner opens expected rest stopped
        have shorter := shorter_of_rises _ _ opens.argument_rises
        exact ih _ (by omega) _ rest expected stopped rfl
      · exact ⟨0, scanNumber_chainAt _ _ _ number⟩

theorem Starts.chainAt (text start : List Char) (starts : Starts (.terms .unbounded) text start) (inside : Nat)
    (rest : List Char) (within : ChainAt start inside rest) : ChainAt text inside rest := by
  induction starts with
  | first text => exact within
  | next text found left joint after start scanned joined starts ih =>
    exact .link text found left joint after inside rest scanned joined (ih within)

/-- A scanner with room for more calls than the unbounded one is ever inside of scans the same, whatever stands
in for the calls for which there is no room. -/
theorem nested_within (innermost : Scanner Chain.text) (room : Nat) (text : List Char)
    (within : ∀ inside rest, ChainAt text inside rest → inside < room) :
    (Scanner.nested innermost room).run text = Scanner.unbounded.run text := by
  induction room generalizing text with
  | zero =>
    have here := within 0 text (.token text text (Passes.refl _ _))
    exact absurd here (Nat.not_lt_zero 0)
  | succ room ih =>
    rw [unbounded_run]
    symm
    apply chains_congr
    intro start starts inner opens
    symm
    apply ih
    intro inside rest deeper
    have here := starts.chainAt text start _ rest (.argument start inner inside rest opens deeper)
    exact Nat.lt_of_succ_lt_succ (within _ rest here)

end Phrase
end Tabletop
