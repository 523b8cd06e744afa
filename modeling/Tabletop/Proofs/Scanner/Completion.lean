import Tabletop.Proofs.Phrase.Nesting
import Tabletop.Proofs.Scanner.Legible

/-! Where the scanners stop. What a scanner has taken when it misses something begins a chain that could
have been found: a missing size, sign, parenthesis or term can be written behind it. A call that is begun
takes a call more to complete, so the parentheses that are open must leave room for one. -/
namespace Tabletop

namespace Phrase
open Nesting (Below)
open Text (isLayout)

/-- The text begins a chain that can be found within the room for a number of calls. -/
def Completable (room : Nat) (used : List Char) : Prop :=
  ∃ chain : Chain, chain.Legible room ∧ used <+: chain.text

def StopsAt (room : Nat) (text rest : List Char) : Prop := ∃ used, text = used ++ rest ∧ Completable room used

theorem Term.Legible.last (room : Nat) (term : Term) (legible : term.Legible room) :
    (Chain.last term).Legible room := ⟨legible.admissible, legible.short, legible.shallow⟩

theorem number_legible (room : Nat) (negative : Bool) : (Term.number negative ['1']).Legible room :=
  ⟨⟨List.cons_ne_nil _ _, digits_replicate 1 '1' (by decide)⟩, rfl, Nat.zero_le _⟩

theorem completable_nil (room : Nat) : Completable room [] :=
  ⟨_, (number_legible room false).last, List.nil_prefix⟩

theorem scanNumber_stops (room : Nat) (text rest : List Char) (expected : Expectation)
    (stopped : scanNumber text = .error (.missing expected rest)) : StopsAt room text rest := by
  obtain ⟨_, rfl | rfl⟩ := scanNumber_missed _ _ _ stopped
  · exact ⟨['-'], rfl, _, (number_legible room true).last, ['1'], rfl⟩
  · exact ⟨[], rfl, completable_nil room⟩

theorem dice_legible (room : Nat) (count : List Char) (digits : Digits count) :
    (Term.dice ⟨count, .digits ['6'], []⟩).Legible room :=
  ⟨Dice.sixSided_admissible count digits, rfl, Nat.zero_le _⟩

theorem scanDice_stops (room : Nat) (text rest : List Char) (expected : Expectation)
    (stopped : scanDice text = .error (.missing expected rest)) : StopsAt room text rest := by
  have legible := dice_legible room (text.takeWhile Char.isDigit) (digits_takeWhile text)
  have whole := List.takeWhile_append_dropWhile (p := Char.isDigit) (l := text)
  rcases scanDice_missed _ _ _ stopped with ⟨_, rfl, _⟩ | ⟨_, mark, _⟩
  · exact ⟨_, whole.symm, _, legible.last, ['d', '6'], rfl⟩
  · rw [mark] at whole
    refine ⟨text.takeWhile Char.isDigit ++ ['d'], ?_, _, legible.last, ['6'], ?_⟩
    · rw [List.append_assoc]
      exact whole.symm
    · rw [List.append_assoc]
      rfl

section Calls

variable (room : Nat) (name before after : List Char)
variable (isName : IsName name) (short : nameOverlong? name = none)
variable (layout : Layout before) (layout' : Layout after)
include isName short layout

theorem completable_name : Completable (room + 1) (name ++ before) := by
  have one := number_legible room false
  refine ⟨.last (.call name before [] (.last (.number false ['1'])) []), ?_, ['(', '1', ')'], ?_⟩
  · refine ⟨⟨isName, layout, layout_nil, one.admissible, layout_nil⟩, ?_, Nat.succ_le_succ one.shallow⟩
    exact Option.or_eq_none_iff.mpr ⟨short, one.short⟩
  · exact List.append_assoc _ _ _

include layout'

theorem call_legible (argument : Chain) (closing : List Char) (legible : argument.Legible room)
    (layout'' : Layout closing) :
    (Chain.last (.call name before after argument closing)).Legible (room + 1) :=
  ⟨⟨isName, layout, layout', legible.admissible, layout''⟩,
    Option.or_eq_none_iff.mpr ⟨short, legible.short⟩, Nat.succ_le_succ legible.shallow⟩

theorem completable_argument (used : List Char) (begun : Completable room used) :
    Completable (room + 1) (name ++ (before ++ '(' :: (after ++ used))) := by
  obtain ⟨chain, legible, more, whole⟩ := begun
  refine ⟨_, call_legible room name before after isName short layout layout' chain [] legible layout_nil,
    more ++ [')'], ?_⟩
  rw [Chain.text, Term.text, ← whole]
  simp

theorem completable_closing (argument : Chain) (closing : List Char) (legible : argument.Legible room)
    (layout'' : Layout closing) :
    Completable (room + 1) (name ++ (before ++ '(' :: (after ++ (argument.text ++ closing)))) := by
  refine ⟨_, call_legible room name before after isName short layout layout' argument closing legible layout'',
    [')'], ?_⟩
  rw [Chain.text, Term.text]
  simp

end Calls

section Arguments

variable (argument : Scanner Chain.text) (room : Nat)
variable (legible : ∀ text chain rest, argument.run text = .ok (chain, rest) →
  chain.Admissible ∧ chain.overlong? = none ∧ chain.depth < room + 1)
variable (stops : ∀ text expected rest, Below room text →
  argument.run text = .error (.missing expected rest) → StopsAt room text rest)
include legible stops

theorem scanArgument_stops (name text rest : List Char) (expected : Expectation) (isName : IsName name)
    (short : nameOverlong? name = none) (below : Below (room + 1) (name ++ text))
    (stopped : scanArgument argument name text = .error (.missing expected rest)) :
    StopsAt (room + 1) (name ++ text) rest := by
  have outer := List.takeWhile_append_dropWhile (p := isLayout) (l := text)
  have before := layout_takeWhile text
  rcases scanArgument_missed _ _ _ _ _ stopped with ⟨_, rfl⟩ | ⟨inner, opening, stopped⟩
  · refine ⟨name ++ text.takeWhile isLayout, ?_, completable_name room name _ isName short before⟩
    rw [List.append_assoc, outer]
  · have between := List.takeWhile_append_dropWhile (p := isLayout) (l := inner)
    have after := layout_takeWhile inner
    have opened := depth_opening name _ _ isName before after
    have whole : name ++ text = (name ++ (text.takeWhile isLayout ++ '(' :: inner.takeWhile isLayout)) ++
        inner.dropWhile isLayout := by
      rw [List.append_assoc, List.append_assoc, List.cons_append, between, ← opening, outer]
    rw [whole] at below ⊢
    have inside := below.behind
    rw [opened, Int.add_sub_cancel] at inside
    rcases stopped with stopped | ⟨chain, left, scanned, _, rfl⟩
    · obtain ⟨used, taken, begun⟩ := stops _ _ _ inside stopped
      have begun := completable_argument room name _ _ isName short before after used begun
      exact ⟨_, by simp [taken], begun⟩
    · obtain ⟨admissible, shorts, shallow⟩ := legible _ _ _ scanned
      have taken := (argument.reads _ _ _ scanned).2
      have closing := List.takeWhile_append_dropWhile (p := isLayout) (l := left)
      have begun := completable_closing room name _ _ isName short before after chain _
        ⟨admissible, shorts, Nat.le_of_lt_succ shallow⟩ (layout_takeWhile left)
      exact ⟨_, by simp [taken, closing], begun⟩

theorem scanCall_stops (text rest : List Char) (expected : Expectation) (below : Below (room + 1) text)
    (noDice : ∃ expected rest, scanDice text = .error (.missing expected rest))
    (stopped : scanCall argument text = .error (.missing expected rest)) : StopsAt (room + 1) text rest := by
  rcases scanCall_missed _ _ _ _ stopped with ⟨_, rfl⟩ | ⟨c, more, rfl, start, stopped⟩
  · exact ⟨[], rfl, completable_nil (room + 1)⟩
  · obtain ⟨expected', left, missing⟩ := noDice
    obtain ⟨isName, short⟩ := isName_of_missing c more start expected' left missing
    have whole : c :: more = (c :: more.takeWhile isNamePart) ++ more.dropWhile isNamePart := by
      rw [List.cons_append, List.takeWhile_append_dropWhile]
    rw [whole] at below ⊢
    exact scanArgument_stops argument room legible stops _ _ _ _ isName short below stopped

theorem scanTerm_stops (text rest : List Char) (expected : Expectation) (below : Below (room + 1) text)
    (stopped : scanTerm argument text = .error (.missing expected rest)) : StopsAt (room + 1) text rest := by
  obtain ⟨_, left, _, left', dice, others, furthest⟩ := orElse_missed _ _ _ _ stopped
  have missing := map_error _ _ _ dice
  rcases furthest with ⟨_, rfl⟩ | ⟨_, rfl⟩
  · exact scanDice_stops (room + 1) text _ _ missing
  · obtain ⟨_, _, _, _, call, number, furthest⟩ := orElse_missed _ _ _ _ others
    rcases furthest with ⟨_, rfl⟩ | ⟨_, rfl⟩
    · exact scanCall_stops argument room legible stops text _ _ below ⟨_, _, missing⟩ call
    · exact scanNumber_stops (room + 1) text _ _ number

end Arguments

theorem nested_stops (room : Nat) (text rest : List Char) (expected : Expectation) (below : Below room text)
    (stopped : (Scanner.nested .refusal (room + 1)).run text = .error (.missing expected rest)) :
    StopsAt room text rest := by
  induction room generalizing text rest expected with
  | zero =>
    -- The depth at the beginning is zero, so a text that stays below zero does not exist.
    exact absurd below.positive (by decide)
  | succ room ih =>
    have first := scanChain_missed _ _ _ _ stopped
    apply scanTerm_stops (.nested .refusal (room + 1)) room _ _ text rest expected below first
    · intro text chain rest found
      exact nested_sound (room + 1) text rest chain found
    · intro text expected rest below stopped
      exact ih text rest expected below stopped

end Phrase
end Tabletop
