import Tabletop.Proofs.Phrase.Roll

/-! Rolls as dice terms. The normal form of a roll is the writing of an admissible dice term, and that
term means the roll. -/
namespace Tabletop

def Numeral.Short (n : Nat) : Prop := (ofNat n).length ≤ maxDigits

namespace Roll
open Phrase

structure Writable (roll : Roll) : Prop where
  count : Numeral.Short roll.count
  size : Numeral.Short roll.size.val
  selection : ∀ selection ∈ roll.selection, Numeral.Short selection.count.val
  reroll : ∀ threshold ∈ roll.reroll, Numeral.Short threshold.val

def Policy.selector : Policy → Selector
  | .keepHighest => .kh
  | .keepLowest => .kl
  | .dropHighest => .dh
  | .dropLowest => .dl

def Explosion.modifiers : Explosion → List Modifier
  | .none => []
  | .once => [.explode false]
  | .indefinite => [.explode true]

def selectionModifiers : Option Selection → List Modifier
  | none => []
  | some selection => [.select selection.policy.selector (Numeral.ofNat selection.count.val)]

def rerollModifiers : Option Positive → List Modifier
  | none => []
  | some threshold => [.reroll (Numeral.ofNat threshold.val)]

def dice (roll : Roll) : Dice where
  count := if roll.count = 1 then [] else Numeral.ofNat roll.count
  size := .digits (Numeral.ofNat roll.size.val)
  modifiers :=
    roll.explosion.modifiers ++ (selectionModifiers roll.selection ++ rerollModifiers roll.reroll)

theorem dice_text (roll : Roll) : roll.dice.text = roll.written := by
  obtain ⟨count, size, explosion, selection, reroll⟩ := roll
  have exploding : explosion.modifiers.flatMap Modifier.text = explosion.mark := by
    cases explosion <;> rfl
  have selecting : (selectionModifiers selection).flatMap Modifier.text =
      (selection.map Selection.written).getD [] := by
    cases selection with
    | none => rfl
    | some selection =>
      obtain ⟨policy, n⟩ := selection
      cases policy <;> exact List.append_nil _
  have rerolling : (rerollModifiers reroll).flatMap Modifier.text =
      (reroll.map fun threshold => 'r' :: Numeral.ofNat threshold.val).getD [] := by
    cases reroll with
    | none => rfl
    | some threshold => exact List.append_nil _
  rw [Dice.text, dice, List.flatMap_append, List.flatMap_append, exploding, selecting, rerolling,
    written, List.append_assoc, List.append_assoc]
  rfl

theorem mem_modifiers (roll : Roll) (modifier : Modifier) (member : modifier ∈ roll.dice.modifiers) :
    (∃ twice, modifier = .explode twice) ∨
      (∃ selection ∈ roll.selection,
        modifier = .select selection.policy.selector (Numeral.ofNat selection.count.val)) ∨
      ∃ threshold ∈ roll.reroll, modifier = .reroll (Numeral.ofNat threshold.val) := by
  rcases List.mem_append.mp member with exploding | member
  · cases explosion : roll.explosion with
    | none =>
      rw [explosion] at exploding
      cases exploding
    | once =>
      rw [explosion] at exploding
      exact .inl ⟨false, List.mem_singleton.mp exploding⟩
    | indefinite =>
      rw [explosion] at exploding
      exact .inl ⟨true, List.mem_singleton.mp exploding⟩
  rcases List.mem_append.mp member with selecting | rerolling
  · cases selected : roll.selection with
    | none =>
      rw [selected] at selecting
      cases selecting
    | some selection =>
      rw [selected] at selecting
      exact .inr (.inl ⟨selection, rfl, List.mem_singleton.mp selecting⟩)
  · cases rerolled : roll.reroll with
    | none =>
      rw [rerolled] at rerolling
      cases rerolling
    | some threshold =>
      rw [rerolled] at rerolling
      exact .inr (.inr ⟨threshold, rfl, List.mem_singleton.mp rerolling⟩)

theorem modifiers_admissible (roll : Roll) (modifier : Modifier)
    (member : modifier ∈ roll.dice.modifiers) : modifier.Admissible := by
  rcases roll.mem_modifiers modifier member with
    ⟨twice, rfl⟩ | ⟨selection, _, rfl⟩ | ⟨threshold, _, rfl⟩
  · trivial
  · exact .inr (positiveRun_ofNat _ selection.count.property)
  · exact .inr (positiveRun_ofNat _ threshold.property)

theorem dice_admissible (roll : Roll) : roll.dice.Admissible := by
  refine ⟨?_, positiveRun_ofNat _ roll.size.property, roll.modifiers_admissible, ?_⟩
  · unfold dice
    split
    · exact digits_nil
    · exact digits_ofNat roll.count
  · -- Only the first modifier is a mark.
    obtain ⟨count, size, explosion, selection, reroll⟩ := roll
    cases explosion <;> cases selection <;> cases reroll <;>
      simp [dice, Explosion.modifiers, selectionModifiers, rerollModifiers, Modifier.MayPrecede]

theorem countValue_ofNat (n : Nat) : countValue (Numeral.ofNat n) = n := by
  unfold countValue
  split
  · rename_i none
    exact absurd none (Numeral.ofNat_ne_nil n)
  · exact Numeral.value_ofNat n

theorem dice_draft (roll : Roll) : roll.dice.draft = roll.draft := by
  obtain ⟨count, size, explosion, selection, reroll⟩ := roll
  have counted : countValue (if count = 1 then [] else Numeral.ofNat count) = count := by
    split
    · rename_i one
      exact one.symm
    · exact countValue_ofNat count
  have base : (dice ⟨count, size, explosion, selection, reroll⟩).base = ⟨count, size.val, .none, none, none⟩ := by
    unfold Dice.base dice
    rw [counted, Size.value, Numeral.value_ofNat]
  have exploded : explosion.modifiers.foldl Modifier.amend ⟨count, size.val, .none, none, none⟩ =
      ⟨count, size.val, explosion, none, none⟩ := by
    cases explosion <;> rfl
  rw [Dice.draft, base, dice, List.foldl_append, List.foldl_append, exploded]
  cases selection with
  | none =>
    cases reroll with
    | none => rfl
    | some threshold =>
      simp [selectionModifiers, rerollModifiers, Modifier.amend, countValue_ofNat, draft]
  | some selection =>
    obtain ⟨policy, n⟩ := selection
    cases reroll <;> cases policy <;>
      simp [selectionModifiers, rerollModifiers, Modifier.amend, countValue_ofNat, draft,
        Policy.selector, Selector.policy]

theorem dice_roll (roll : Roll) (writable : roll.Writable) : roll.dice.roll = .ok roll := by
  have short : Numeral.overlong? roll.dice.count = none := by
    rw [Numeral.overlong?_eq_none]
    unfold dice
    split
    · exact Nat.zero_le _
    · exact writable.count
  rw [Dice.roll, short, dice_draft, check_draft]

theorem dice_overlong? (roll : Roll) (writable : roll.Writable) : roll.dice.overlong? = none := by
  have sized := (Numeral.overlong?_eq_none _).mpr writable.size
  refine Option.or_eq_none_iff.mpr ⟨sized, (modifiersOverlong?_eq_none _).mpr ?_⟩
  intro modifier member
  rcases roll.mem_modifiers modifier member with
    ⟨twice, rfl⟩ | ⟨selection, selected, rfl⟩ | ⟨threshold, rerolled, rfl⟩
  · rfl
  · exact (Numeral.overlong?_eq_none _).mpr (writable.selection selection selected)
  · exact (Numeral.overlong?_eq_none _).mpr (writable.reroll threshold rerolled)

end Roll
end Tabletop
