import Tabletop.Proofs.Phrase.Nesting
import Tabletop.Proofs.Scanner.Legible

/-! Scanning without a bound on the depth of calls. Two scanners of arguments that agree wherever an argument
begins scan the same chains. An argument begins behind its opening parenthesis, so it is shorter than the
chain around it. That makes enough room as good as any more, so there is a scanner that reads the arguments of
calls by itself, and there is only one. -/
namespace Tabletop

namespace Phrase
open Nesting (Rises)
open Text (isLayout)

structure Opens (text inner : List Char) : Prop where
  noDice : ∃ expected rest, scanDice text = .error (.missing expected rest)
  call : ∃ c rest, text = c :: rest ∧ isNameStart c = true ∧
    (rest.dropWhile isNamePart).dropWhile isLayout = '(' :: inner

theorem Opens.rises (text inner : List Char) (opens : Opens text inner) : Rises text 1 inner := by
  obtain ⟨⟨expected, left, missing⟩, c, rest, rfl, start, mark⟩ := opens
  obtain ⟨isName, _⟩ := isName_of_missing c rest start expected left missing
  have named := List.takeWhile_append_dropWhile (p := isNamePart) (l := rest)
  have opened := List.takeWhile_append_dropWhile (p := isLayout) (l := rest.dropWhile isNamePart)
  rw [mark] at opened
  refine ⟨_, ?_, depth_opening _ _ [] isName (layout_takeWhile (rest.dropWhile isNamePart)) layout_nil⟩
  simp [opened, named]

theorem rises_layout (text : List Char) : Rises text 0 (text.dropWhile isLayout) :=
  ⟨_, List.takeWhile_append_dropWhile.symm, depth_plain _ (plain_layout _ (layout_takeWhile text))⟩

theorem Opens.argument_rises (text inner : List Char) (opens : Opens text inner) :
    Rises text 1 (inner.dropWhile isLayout) :=
  opens.rises.level _ _ _ _ (rises_layout inner)

theorem shorter_of_rises (text rest : List Char) (rises : Rises text 1 rest) : rest.length < text.length := by
  obtain ⟨used, rfl, rise⟩ := rises
  have some : used ≠ [] := by
    rintro rfl
    cases rise
  have positive := List.length_pos_iff.mpr some
  rw [List.length_append]
  omega

section Agreeing

variable (argument other : Scanner Chain.text) (text : List Char)
variable (same : ∀ inner, Opens text inner →
  argument.run (inner.dropWhile isLayout) = other.run (inner.dropWhile isLayout))

include same

theorem scanCall_congr (noDice : ∃ expected rest, scanDice text = .error (.missing expected rest)) :
    scanCall argument text = scanCall other text := by
  cases text with
  | nil => rfl
  | cons c rest =>
    by_cases start : isNameStart c = true
    · simp only [scanCall, if_pos start]
      unfold scanArgument
      split
      · rename_i inner mark
        rw [same inner ⟨noDice, c, rest, rfl, start, mark⟩]
      · rfl
    · simp only [scanCall, if_neg start]

theorem scanTerm_congr : scanTerm argument text = scanTerm other text := by
  unfold scanTerm
  cases dice : scanDice text with
  | ok found => rfl
  | error halt =>
    cases halt with
    | overlong digits => rfl
    | missing expected rest => rw [scanCall_congr argument other text same ⟨expected, rest, dice⟩]

end Agreeing

inductive Starts (term : Scanner Term.text) : List Char → List Char → Prop
  | first (text : List Char) : Starts term text text
  | next (text : List Char) (found : Term) (rest : List Char) (joint : Joint) (after start : List Char)
      (scanned : term.run text = .ok (found, rest)) (joined : scanJoint? rest = some (joint, after))
      (starts : Starts term after start) : Starts term text start

theorem Starts.suffix (term : Scanner Term.text) (text start : List Char) (starts : Starts term text start) :
    start <:+ text := by
  induction starts with
  | first text => exact List.suffix_refl text
  | next text found rest joint after start scanned joined starts ih =>
    rw [(term.reads _ _ _ scanned).2, scanJoint?_reads _ _ _ joined]
    exact ih.trans ((List.suffix_append _ _).trans (List.suffix_append _ _))

theorem rises_joint (text rest : List Char) (joint : Joint) (joined : scanJoint? text = some (joint, rest)) :
    Rises text 0 rest :=
  ⟨_, scanJoint?_reads _ _ _ joined, depth_plain _ (plain_joint joint (scanJoint?_sound _ _ _ joined))⟩

theorem rises_term (term : Scanner Term.text) (text rest : List Char) (found : Term)
    (scanned : term.run text = .ok (found, rest)) (admissible : found.Admissible) : Rises text 0 rest :=
  ⟨_, (term.reads _ _ _ scanned).2, found.balanced admissible⟩

theorem scanChain_congr (term other : Scanner Term.text) (text : List Char)
    (same : ∀ start, Starts term text start → term.run start = other.run start) :
    scanChain term text = scanChain other text := by
  fun_induction scanChain term text with
  | case1 text halt failed => rw [scanChain_eq, ← same text (.first text), failed]
  | case2 text first left scanned ends =>
    rw [scanChain_eq, ← same text (.first text), scanned]
    simp only [ends]
  | case3 text first left scanned joint after next more rest' others ih =>
    have agree := ih fun start starts => same start (.next _ _ _ _ _ _ scanned next starts)
    rw [scanChain_eq, ← same text (.first text), scanned]
    simp only [next, ← agree, others]
  | case4 text first left scanned joint after next expected missing others ih =>
    have agree := ih fun start starts => same start (.next _ _ _ _ _ _ scanned next starts)
    rw [scanChain_eq, ← same text (.first text), scanned]
    simp only [next, ← agree, others]
  | case5 text first left scanned joint after next digits others ih =>
    have agree := ih fun start starts => same start (.next _ _ _ _ _ _ scanned next starts)
    rw [scanChain_eq, ← same text (.first text), scanned]
    simp only [next, ← agree, others]

theorem chains_congr (argument other : Scanner Chain.text) (text : List Char)
    (same : ∀ start, Starts (.terms argument) text start → ∀ inner, Opens start inner →
      argument.run (inner.dropWhile isLayout) = other.run (inner.dropWhile isLayout)) :
    (Scanner.chains (.terms argument)).run text = (Scanner.chains (.terms other)).run text := by
  apply scanChain_congr
  intro start starts
  exact scanTerm_congr argument other start (same start starts)

theorem shorter_argument (term : Scanner Term.text) (text start inner : List Char)
    (starts : Starts term text start) (opens : Opens start inner) :
    (inner.dropWhile isLayout).length < text.length := by
  have within := starts.suffix.length_le
  have beyond := shorter_of_rises _ _ opens.argument_rises
  omega

theorem nested_settled (innermost other : Scanner Chain.text) (room space : Nat) (text : List Char)
    (within : text.length < room) (within' : text.length < space) :
    (Scanner.nested innermost room).run text = (Scanner.nested other space).run text := by
  induction room generalizing space text with
  | zero => exact absurd within (Nat.not_lt_zero _)
  | succ room ih =>
    cases space with
    | zero => exact absurd within' (Nat.not_lt_zero _)
    | succ space =>
      apply chains_congr
      intro start starts inner opens
      have shorter := shorter_argument _ text start inner starts opens
      apply ih
      · omega
      · omega

/-- The scanner of chains whose calls may stand within each other as deep as they like. -/
def Scanner.unbounded : Scanner Chain.text where
  run text := (nested .refusal (text.length + 1)).run text
  reads text := (nested .refusal (text.length + 1)).reads text

theorem unbounded_eq (innermost : Scanner Chain.text) (room : Nat) (text : List Char)
    (within : text.length < room) : Scanner.unbounded.run text = (Scanner.nested innermost room).run text :=
  nested_settled _ _ _ _ _ (Nat.lt_succ_self _) within

/-- The unbounded scanner reads the arguments of calls by itself, and no other scanner does. -/
theorem unbounded_run (text : List Char) :
    Scanner.unbounded.run text = (Scanner.chains (.terms .unbounded)).run text := by
  change (Scanner.chains (.terms (.nested .refusal text.length))).run text = _
  apply chains_congr
  intro start starts inner opens
  exact (unbounded_eq .refusal text.length _ (shorter_argument _ text start inner starts opens)).symm

theorem eq_unbounded (scanner : Scanner Chain.text)
    (whole : ∀ text, scanner.run text = (Scanner.chains (.terms scanner)).run text) (text : List Char) :
    scanner.run text = Scanner.unbounded.run text := by
  induction size : text.length using Nat.strong_induction_on generalizing text with
  | _ size ih =>
    rw [whole, unbounded_run]
    apply chains_congr
    intro start starts inner opens
    have shorter := shorter_argument _ text start inner starts opens
    exact ih _ (by omega) _ rfl

theorem unbounded_sound (text rest : List Char) (chain : Chain)
    (found : Scanner.unbounded.run text = .ok (chain, rest)) : chain.Admissible ∧ chain.overlong? = none := by
  obtain ⟨admissible, short, _⟩ := nested_sound (text.length + 1) text rest chain found
  exact ⟨admissible, short⟩

theorem unbounded_term (text : List Char) (term : Term) (rest : List Char)
    (found : (Scanner.terms .unbounded).run text = .ok (term, rest)) : term.Admissible := by
  have bounded : (Scanner.terms .unbounded).run text =
      (Scanner.terms (.nested .refusal text.length)).run text := by
    apply scanTerm_congr
    intro inner opens
    exact unbounded_eq _ _ _ (shorter_of_rises _ _ opens.argument_rises)
  rw [bounded] at found
  have legible := scanTerm_sound (.nested .refusal text.length) text.length
    (fun inner chain rest => nested_sound text.length inner rest chain) text rest term found
  exact legible.admissible

end Phrase
end Tabletop
