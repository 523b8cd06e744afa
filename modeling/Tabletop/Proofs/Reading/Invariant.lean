import Tabletop.Proofs.Reading.Normal

/-! What readings are. Every part of an expression that was read is proper for itself: no operation is a
right operand, the operators are the four usual ones, names can stand before parentheses, and the
numbers, also those of the rolls, are no longer than what can be converted. Together with the limit on
the depth of calls this says exactly which expressions are read from some text. -/
namespace Tabletop
open Phrase (IsName nameOverlong?)

/-- The count of a roll is not negative, its other numbers are positive, and none is too long. -/
structure Roll.Proper (roll : Roll) : Prop where
  count : 0 ≤ roll.draft.count ∧ Numeral.Short roll.draft.count.toNat
  others : roll.draft.Every fun n => 0 < n ∧ Numeral.Short n.toNat

theorem Roll.proper_iff (roll : Roll) : roll.Proper ↔ roll.Writable := by
  constructor
  · intro proper
    refine roll.writable_of_draft proper.count.2 ⟨proper.others.size.2, ?_, ?_⟩
    · intro selection member
      exact (proper.others.selection selection member).2
    · intro threshold member
      exact (proper.others.reroll threshold member).2
  · intro writable
    refine ⟨⟨Int.natCast_nonneg _, writable.count⟩,
      ⟨Int.natCast_pos.mpr roll.size.property, writable.size⟩, ?_, ?_⟩
    · intro given member
      obtain ⟨selection, selected, rfl⟩ := Option.map_eq_some_iff.mp member
      exact ⟨Int.natCast_pos.mpr selection.count.property, writable.selection selection selected⟩
    · intro given member
      obtain ⟨threshold, rerolled, rfl⟩ := Option.map_eq_some_iff.mp member
      exact ⟨Int.natCast_pos.mpr threshold.property, writable.reroll threshold rerolled⟩

namespace Expr

def parts : Expr → List Expr
  | .number value => [.number value]
  | .dice roll => [.dice roll]
  | .binary left operator right => .binary left operator right :: (left.parts ++ right.parts)
  | .call name argument => .call name argument :: argument.parts

/-- What holds of a single part. The digits behind a leading d of a name are few enough to be tried as
the size of a die. -/
def Proper : Expr → Prop
  | .number value => Numeral.Short value.natAbs
  | .dice roll => roll.Proper
  | .binary _ operator right => operator ∈ ["+", "-", "*", "/"] ∧ ¬ right.IsOperation
  | .call name _ => IsName name.toList ∧ nameOverlong? name.toList = none

theorem proper_parts_iff (expr : Expr) :
    (∀ part ∈ expr.parts, part.Proper) ↔
      expr.Writable ∧ expr.LeftLeaning ∧ ∀ name ∈ expr.names, nameOverlong? name.toList = none := by
  induction expr with
  | number value => simp [parts, Proper, Writable, LeftLeaning, names]
  | dice roll => simp [parts, Proper, Writable, LeftLeaning, names, roll.proper_iff]
  | binary left operator right left_ih right_ih =>
    rw [parts, List.forall_mem_cons, List.forall_mem_append, left_ih, right_ih, names,
      List.forall_mem_append, Proper, Writable, LeftLeaning]
    constructor
    · rintro ⟨⟨known, operand⟩, ⟨first, leans, called⟩, second, leans', called'⟩
      exact ⟨⟨first, known, second⟩, ⟨leans, leans', operand⟩, called, called'⟩
    · rintro ⟨⟨first, known, second⟩, ⟨leans, leans', operand⟩, called, called'⟩
      exact ⟨⟨known, operand⟩, ⟨first, leans, called⟩, second, leans', called'⟩
  | call name argument ih =>
    rw [parts, List.forall_mem_cons, ih, names, List.forall_mem_cons, Proper, Writable, LeftLeaning]
    constructor
    · rintro ⟨⟨isName, short⟩, writable, leans, called⟩
      exact ⟨⟨isName, writable⟩, leans, short, called⟩
    · rintro ⟨⟨isName, writable⟩, leans, short, called⟩
      exact ⟨⟨isName, short⟩, writable, leans, called⟩

theorem writable_rolls (expr : Expr) (writable : expr.Writable) : ∀ roll ∈ expr.rolls, roll.Writable := by
  induction expr with
  | number value => simp [rolls]
  | dice roll => exact List.forall_mem_singleton.mpr writable
  | binary left operator right left_ih right_ih =>
    exact List.forall_mem_append.mpr ⟨left_ih writable.1, right_ih writable.2.2⟩
  | call name argument ih => exact ih writable.2

end Expr

/-- What is read from some text is proper in all its parts, with calls no deeper than the limit and with
the rolls of the expression, which are proper as well; and everything of that kind is read. -/
theorem exists_read_iff (reading : Reading) :
    (∃ text, read text = .ok reading) ↔
      (∀ part ∈ reading.expression.parts, part.Proper) ∧
        reading.expression.depth ≤ Nesting.limit ∧
        (∀ roll ∈ reading.rolls, roll.Proper) ∧ reading.rolls = reading.expression.rolls := by
  constructor
  · rintro ⟨text, found⟩
    obtain ⟨settled, rolls⟩ := read_settled text reading found
    have proper := reading.expression.proper_parts_iff.mpr
      ⟨settled.writable, settled.leans, settled.names⟩
    refine ⟨proper, settled.shallow, ?_, rolls⟩
    intro roll member
    rw [rolls] at member
    exact roll.proper_iff.mpr (reading.expression.writable_rolls settled.writable roll member)
  · rintro ⟨proper, shallow, _, rolls⟩
    obtain ⟨writable, leans, named⟩ := reading.expression.proper_parts_iff.mp proper
    have settled : reading.expression.Settled Nesting.limit := ⟨writable, shallow, named, leans⟩
    refine ⟨reading.expression.describe, ?_⟩
    rw [settled.read_describe, ← rolls]

end Tabletop
