import Mathlib.Data.List.Chain
import Tabletop.Numeral
import Tabletop.Phrase
import Tabletop.Phrase.Scanner.Chain

/-! The grammar of the notation. A phrase has a place for each symbol of a production and for the
layout between two symbols, so it is a derivation as soon as each place holds what may stand there.
A dice term has no place for layout. These judgements mention no scanner and no limit, neither on
the number of digits nor on how deep calls stand within each other. -/
namespace Tabletop.Phrase

def Layout (text : List Char) : Prop := ∀ c ∈ text, Text.isLayout c = true

def Digits (run : List Char) : Prop := ∀ c ∈ run, c.isDigit = true

def PositiveRun (run : List Char) : Prop := Digits run ∧ 0 < Numeral.value run

def Count (run : List Char) : Prop := run = [] ∨ PositiveRun run

def Size.Admissible : Size → Prop
  | .percent => True
  | .digits run => PositiveRun run

def Modifier.Admissible : Modifier → Prop
  | .explode _ => True
  | .select _ count => Count count
  | .reroll count => Count count

/-- A single explosion mark does not stand directly before another mark; two marks are a double
one. -/
def Modifier.MayPrecede (first second : Modifier) : Prop :=
  first = .explode false → ∀ twice, second ≠ .explode twice

structure Dice.Admissible (dice : Dice) : Prop where
  count : Digits dice.count
  size : dice.size.Admissible
  modifiers : ∀ modifier ∈ dice.modifiers, modifier.Admissible
  apart : dice.modifiers.IsChain Modifier.MayPrecede

/-- A name begins like an identifier and goes on like one. The letter d with a run of digits of
positive value is already a dice term, so no name begins with it. -/
structure IsName (name : List Char) : Prop where
  identifier : ∃ c rest, name = c :: rest ∧ isNameStart c = true ∧ ∀ c ∈ rest, isNamePart c = true
  notDice : ∀ rest, name = 'd' :: rest → ¬ PositiveRun (rest.takeWhile Char.isDigit)

def IsIdentifier (name : List Char) : Prop :=
  ∃ c rest, name = c :: rest ∧ isNameStart c = true ∧ ∀ c ∈ rest, isNamePart c = true

structure Joint.Admissible (joint : Joint) : Prop where
  before : Layout joint.before
  after : Layout joint.after

mutual
def Term.Admissible : Term → Prop
  | .dice dice => dice.Admissible
  | .number _ digits => digits ≠ [] ∧ Digits digits
  | .call name beforeOpening afterOpening argument beforeClosing =>
    IsName name ∧ Layout beforeOpening ∧ Layout afterOpening ∧ argument.Admissible ∧
      Layout beforeClosing
def Chain.Admissible : Chain → Prop
  | .last term => term.Admissible
  | .link term joint rest => term.Admissible ∧ joint.Admissible ∧ rest.Admissible
end

end Phrase

structure Phrase.Derives (phrase : Phrase) (text : String) : Prop where
  written : phrase.text = text.toList
  before : Phrase.Layout phrase.before
  chain : phrase.chain.Admissible
  after : Phrase.Layout phrase.after

namespace Phrase

theorem digits_nil : Digits [] := by
  intro c member
  cases member

theorem layout_nil : Layout [] := by
  intro c member
  cases member

theorem layout_blank : Layout [' '] := by
  intro c member
  rw [List.mem_singleton.mp member]
  decide

theorem digits_takeWhile (text : List Char) : Digits (text.takeWhile Char.isDigit) :=
  List.all_eq_true.mp List.all_takeWhile

theorem digits_replicate (n : Nat) (c : Char) (digit : c.isDigit = true) :
    Digits (List.replicate n c) := by
  intro other member
  rw [List.eq_of_mem_replicate member]
  exact digit

theorem layout_takeWhile (text : List Char) : Layout (text.takeWhile Text.isLayout) :=
  List.all_eq_true.mp List.all_takeWhile

theorem PositiveRun.ne_nil (run : List Char) (positive : PositiveRun run) : run ≠ [] := by
  rintro rfl
  exact absurd positive.2 (by decide)

theorem Count.digits (run : List Char) (count : Count run) : Digits run := by
  rcases count with rfl | positive
  · exact digits_nil
  · exact positive.1

theorem isNamePart_of_isNameStart (c : Char) (start : isNameStart c = true) : isNamePart c = true := by
  rw [isNameStart, Bool.or_eq_true] at start
  rw [isNamePart, Char.isAlphanum, Bool.or_eq_true, Bool.or_eq_true]
  rcases start with letter | line
  · exact .inl (.inl letter)
  · exact .inr line

theorem IsIdentifier.parts (name : List Char) (identifier : IsIdentifier name) :
    ∀ c ∈ name, isNamePart c = true := by
  obtain ⟨c, rest, rfl, start, parts⟩ := identifier
  exact List.forall_mem_cons.mpr ⟨isNamePart_of_isNameStart c start, parts⟩

theorem IsName.parts (name : List Char) (isName : IsName name) : ∀ c ∈ name, isNamePart c = true :=
  IsIdentifier.parts name isName.identifier

theorem digits_ofNat (n : Nat) : Digits (Numeral.ofNat n) := by
  intro c member
  exact Numeral.isDigit_of_mem_ofNat n c member

theorem positiveRun_ofNat (n : Nat) (positive : 0 < n) : PositiveRun (Numeral.ofNat n) := by
  refine ⟨digits_ofNat n, ?_⟩
  rw [Numeral.value_ofNat]
  exact positive

theorem Dice.sixSided_admissible (count : List Char) (digits : Digits count) :
    (Dice.mk count (.digits ['6']) []).Admissible := by
  refine ⟨digits, ⟨digits_replicate 1 '6' (by decide), by decide⟩, ?_, .nil⟩
  intro modifier member
  cases member

end Phrase
end Tabletop
