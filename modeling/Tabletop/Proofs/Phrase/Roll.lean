import Tabletop.Proofs.Phrase.Meaning

/-! The rolls of dice terms. The size and the counts of an admissible dice term are positive, so the
draft of its roll passes its check and only the number of dice can be refused. -/
namespace Tabletop

structure Roll.Draft.Every (p : Int → Prop) (draft : Roll.Draft) : Prop where
  size : p draft.size
  selection : ∀ selection ∈ draft.selection, p selection.2
  reroll : ∀ threshold ∈ draft.reroll, p threshold

theorem Roll.Draft.Every.exists_roll (draft : Roll.Draft) (natural : 0 ≤ draft.count)
    (positive : draft.Every (0 < ·)) : ∃ roll : Roll, roll.draft = draft := by
  obtain ⟨count, size, explosion, selection, reroll⟩ := draft
  obtain ⟨size_pos, selection_pos, reroll_pos⟩ := positive
  dsimp only at natural size_pos selection_pos reroll_pos
  have selected : ∃ selection' : Option Roll.Selection,
      selection'.map (fun s => (s.policy, (s.count.val : Int))) = selection := by
    cases selection with
    | none => exact ⟨none, rfl⟩
    | some given =>
      obtain ⟨policy, n⟩ := given
      have positive := selection_pos (policy, n) rfl
      refine ⟨some ⟨policy, n.toNat, by omega⟩, ?_⟩
      simp only [Option.map_some, Option.some.injEq, Prod.mk.injEq, true_and]
      omega
  have rerolled : ∃ reroll' : Option Positive,
      reroll'.map (fun threshold => (threshold.val : Int)) = reroll := by
    cases reroll with
    | none => exact ⟨none, rfl⟩
    | some n =>
      have positive := reroll_pos n rfl
      refine ⟨some ⟨n.toNat, by omega⟩, ?_⟩
      simp only [Option.map_some, Option.some.injEq]
      omega
  obtain ⟨selection', rfl⟩ := selected
  obtain ⟨reroll', rfl⟩ := rerolled
  refine ⟨⟨count.toNat, ⟨size.toNat, by omega⟩, explosion, selection', reroll'⟩, ?_⟩
  simp only [Roll.draft, Roll.Draft.mk.injEq, and_self, and_true]
  omega

namespace Phrase

theorem countValue_pos (count : List Char) (admissible : Count count) : 0 < countValue count := by
  rcases admissible with rfl | positive
  · decide
  · obtain ⟨c, tail, rfl⟩ := List.exists_cons_of_ne_nil positive.ne_nil
    exact positive.2

theorem Size.value_pos (size : Size) (admissible : size.Admissible) : 0 < size.value := by
  cases size with
  | percent => decide
  | digits run => exact admissible.2

def Modifier.count? : Modifier → Option (List Char)
  | .explode _ => none
  | .select _ count => some count
  | .reroll count => some count

theorem Modifier.Admissible.count (modifier : Modifier) (admissible : modifier.Admissible)
    (count : List Char) (counts : count ∈ modifier.count?) : Count count := by
  cases modifier with
  | explode twice => cases counts
  | select selector digits =>
    cases counts
    exact admissible
  | reroll digits =>
    cases counts
    exact admissible

theorem Modifier.amend_every (p : Int → Prop) (modifier : Modifier) (draft : Roll.Draft)
    (counted : ∀ count ∈ modifier.count?, p (countValue count)) (every : draft.Every p) :
    (modifier.amend draft).Every p := by
  obtain ⟨size, selection, reroll⟩ := every
  cases modifier with
  | explode twice => cases twice <;> exact ⟨size, selection, reroll⟩
  | select selector digits =>
    refine ⟨size, ?_, reroll⟩
    intro selected member
    cases member
    exact counted digits rfl
  | reroll digits =>
    refine ⟨size, selection, ?_⟩
    intro threshold member
    cases member
    exact counted digits rfl

theorem Dice.draft_every (p : Int → Prop) (dice : Dice) (sized : p dice.size.value)
    (counted : ∀ modifier ∈ dice.modifiers, ∀ count ∈ modifier.count?, p (countValue count)) :
    dice.draft.Every p := by
  apply List.foldlRecOn (motive := Roll.Draft.Every p)
  · refine ⟨sized, ?_, ?_⟩
    · intro selection member
      cases member
    · intro threshold member
      cases member
  · intro draft every modifier member
    exact modifier.amend_every p draft (counted modifier member) every

theorem Dice.draft_count (dice : Dice) : dice.draft.count = countValue dice.count := by
  apply List.foldlRecOn (motive := fun draft : Roll.Draft => draft.count = countValue dice.count)
  · rfl
  · intro draft counted modifier _
    cases modifier with
    | explode twice => cases twice <;> exact counted
    | select selector digits => exact counted
    | reroll digits => exact counted

/-- The draft of an admissible dice term is a roll's, and only its number of dice can be refused. -/
theorem Dice.roll_eq (dice : Dice) (admissible : dice.Admissible) :
    ∃ roll : Roll, roll.draft = dice.draft ∧
      dice.roll = match Numeral.overlong? dice.count with
        | none => .ok roll
        | some digits => .error (.overlong digits) := by
  have natural : 0 ≤ dice.draft.count := by
    rw [dice.draft_count]
    exact Int.natCast_nonneg _
  have positive : dice.draft.Every (0 < ·) := by
    apply dice.draft_every
    · exact Int.natCast_pos.mpr (dice.size.value_pos admissible.size)
    · intro modifier member count counts
      have counted := (admissible.modifiers modifier member).count modifier count counts
      exact Int.natCast_pos.mpr (countValue_pos count counted)
  obtain ⟨roll, draft⟩ := positive.exists_roll _ natural
  refine ⟨roll, draft, ?_⟩
  rw [Dice.roll, ← draft, Roll.check_draft]
  cases Numeral.overlong? dice.count <;> rfl

end Phrase
end Tabletop
