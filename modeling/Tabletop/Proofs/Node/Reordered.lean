import Mathlib.Data.List.Perm.Basic
import Tabletop.Node.Assemble
import Tabletop.Phrase.Scanner

/-! Reordering the modifiers of a dice term. Whether a modifier can be interpreted does not depend on the draft
it changes. A selection and a reroll each replace the one before them, and explosion marks can change places
with each other; so the draft depends only on which modifiers there are and on the order of the selections
and of the rerolls among themselves. -/
namespace Tabletop

def Rule.selects : Rule → Bool
  | .keep => true
  | .drop => true
  | _ => false

def Rule.rerolls : Rule → Bool
  | .reroll => true
  | _ => false

def Rule.modifies : Rule → Bool
  | .exploding => true
  | rule => rule.selects || rule.rerolls

namespace Node

def adjusted (draft : Roll.Draft) (modifier : Node) : Roll.Draft := (modify draft modifier).toOption.getD draft

def adjustedExplosion (before : Roll.Explosion) (modifier : Node) : Roll.Explosion :=
  if modifier.rule = .exploding then (modifier.explosion before).toOption.getD before else before

def adjustedSelection (before : Option (Roll.Policy × Int)) (modifier : Node) : Option (Roll.Policy × Int) :=
  modifier.selection.toOption.or before

def adjustedReroll (before : Option Int) (modifier : Node) : Option Int :=
  (modifier.count.toOption.map fun count => (count : Int)).or before

theorem adjusted_eq (draft : Roll.Draft) (modifier : Node) :
    adjusted draft modifier =
      ⟨draft.count, draft.size, adjustedExplosion draft.explosion modifier,
        if modifier.rule.selects then adjustedSelection draft.selection modifier else draft.selection,
        if modifier.rule.rerolls then adjustedReroll draft.reroll modifier else draft.reroll⟩ := by
  unfold adjusted modify
  split
  · rename_i rule
    cases found : modifier.explosion draft.explosion <;>
      simp [adjustedExplosion, rule, found, Rule.selects, Rule.rerolls, Except.map, Except.toOption]
  · rename_i rule
    cases found : modifier.selection <;>
      simp [adjustedExplosion, adjustedSelection, rule, found, Rule.selects, Rule.rerolls, Except.map,
        Except.toOption]
  · rename_i rule
    cases found : modifier.selection <;>
      simp [adjustedExplosion, adjustedSelection, rule, found, Rule.selects, Rule.rerolls, Except.map,
        Except.toOption]
  · rename_i rule
    cases found : modifier.count <;>
      simp [adjustedExplosion, adjustedReroll, rule, found, Rule.selects, Rule.rerolls, Except.map,
        Except.toOption]
  · rename_i exploding keep drop reroll
    have selects : modifier.rule.selects = false := by
      unfold Rule.selects
      split <;> simp_all
    have rerolls : modifier.rule.rerolls = false := by
      unfold Rule.rerolls
      split <;> simp_all
    have unmarked : adjustedExplosion draft.explosion modifier = draft.explosion := if_neg exploding
    rw [unmarked, selects, rerolls]
    rfl

theorem modify_ok_any (modifier : Node) (draft drafted other : Roll.Draft)
    (ok : modify draft modifier = .ok drafted) : ∃ changed, modify other modifier = .ok changed := by
  have explodes (found : Roll.Explosion) (read : modifier.explosion draft.explosion = .ok found) :
      ∃ found, modifier.explosion other.explosion = .ok found := by
    unfold explosion at read ⊢
    split at read
    · exact ⟨_, rfl⟩
    · exact ⟨_, rfl⟩
    · cases read
  unfold modify at ok ⊢
  split at ok
  · obtain ⟨found, read, _⟩ := Phrase.map_ok _ _ _ ok
    obtain ⟨found, read⟩ := explodes found read
    rw [read]
    exact ⟨_, rfl⟩
  · obtain ⟨found, read, _⟩ := Phrase.map_ok _ _ _ ok
    rw [read]
    exact ⟨_, rfl⟩
  · obtain ⟨found, read, _⟩ := Phrase.map_ok _ _ _ ok
    rw [read]
    exact ⟨_, rfl⟩
  · obtain ⟨found, read, _⟩ := Phrase.map_ok _ _ _ ok
    rw [read]
    exact ⟨_, rfl⟩
  · cases ok

theorem foldlM_modify (modifiers : List Node) (draft drafted : Roll.Draft) :
    modifiers.foldlM modify draft = .ok drafted ↔
      (∀ modifier ∈ modifiers, ∀ other, ∃ changed, modify other modifier = .ok changed) ∧
        modifiers.foldl adjusted draft = drafted := by
  induction modifiers generalizing draft with
  | nil => simp [pure, Except.pure]
  | cons modifier rest ih =>
    rw [List.foldlM_cons, List.foldl_cons, List.forall_mem_cons]
    cases read : modify draft modifier with
    | ok changed =>
      have same : adjusted draft modifier = changed := by
        rw [adjusted, read]
        rfl
      rw [same, and_assoc, ← ih changed]
      exact (and_iff_right (modify_ok_any modifier draft changed · read)).symm
    | error failure =>
      apply iff_of_false
      · intro folded
        cases folded
      · rintro ⟨⟨first, _⟩, _⟩
        obtain ⟨changed, found⟩ := first draft
        rw [read] at found
        cases found

theorem foldl_adjusted (modifiers : List Node) (draft : Roll.Draft) :
    modifiers.foldl adjusted draft =
      ⟨draft.count, draft.size, modifiers.foldl adjustedExplosion draft.explosion,
        (modifiers.filter (·.rule.selects)).foldl adjustedSelection draft.selection,
        (modifiers.filter (·.rule.rerolls)).foldl adjustedReroll draft.reroll⟩ := by
  induction modifiers generalizing draft with
  | nil => rfl
  | cons modifier rest ih =>
    rw [List.foldl_cons, ih, adjusted_eq, List.filter_cons, List.filter_cons]
    cases modifier.rule.selects <;> cases modifier.rule.rerolls <;> rfl

theorem adjustedExplosion_cases (modifier : Node) :
    (∀ before, adjustedExplosion before modifier = .indefinite) ∨
      (∀ before, adjustedExplosion before modifier = if before = .indefinite then .indefinite else .once) ∨
        ∀ before, adjustedExplosion before modifier = before := by
  unfold adjustedExplosion explosion
  by_cases marks : modifier.rule = .exploding
  · simp only [if_pos marks]
    split
    · exact .inr (.inl fun before => rfl)
    · exact .inl fun before => rfl
    · exact .inr (.inr fun before => rfl)
  · exact .inr (.inr fun before => if_neg marks)

theorem adjustedExplosion_comm (before : Roll.Explosion) (first second : Node) :
    adjustedExplosion (adjustedExplosion before first) second =
      adjustedExplosion (adjustedExplosion before second) first := by
  rcases adjustedExplosion_cases first with one | one | one <;>
    rcases adjustedExplosion_cases second with two | two | two <;>
      cases before <;> simp [one, two]

theorem foldlM_modify_reordered (modifiers reordered : List Node) (draft drafted : Roll.Draft)
    (perm : modifiers.Perm reordered)
    (selections : modifiers.filter (·.rule.selects) = reordered.filter (·.rule.selects))
    (rerolls : modifiers.filter (·.rule.rerolls) = reordered.filter (·.rule.rerolls))
    (folded : modifiers.foldlM modify draft = .ok drafted) : reordered.foldlM modify draft = .ok drafted := by
  obtain ⟨each, result⟩ := (foldlM_modify modifiers draft drafted).mp folded
  refine (foldlM_modify reordered draft drafted).mpr ⟨?_, ?_⟩
  · intro modifier member
    exact each modifier (perm.mem_iff.mpr member)
  · have explosions := perm.foldl_eq' (fun first _ second _ before =>
      adjustedExplosion_comm before first second) draft.explosion
    rw [← result, foldl_adjusted, foldl_adjusted, explosions, selections, rerolls]

theorem rollDraft_ok (node : Node) (draft : Roll.Draft) :
    node.rollDraft = .ok draft ↔ ∃ count size modifiers sides,
      diceCount node.children = .ok (count, size :: modifiers) ∧ size.rule = .dieSize ∧
        size.dieSize = .ok sides ∧ modifiers.foldlM modify ⟨count, sides, .none, none, none⟩ = .ok draft := by
  unfold rollDraft
  cases counted : diceCount node.children with
  | error failure =>
    apply iff_of_false
    · intro drafted
      cases drafted
    · rintro ⟨_, _, _, _, found, _⟩
      cases found
  | ok found =>
    obtain ⟨count, parts⟩ := found
    cases parts with
    | nil =>
      apply iff_of_false
      · intro drafted
        cases drafted
      · rintro ⟨_, _, _, _, found, _⟩
        cases found
    | cons size modifiers =>
      by_cases sized : size.rule = .dieSize
      · cases sides : size.dieSize <;> simp [bind, Except.bind, sized, sides]
      · simp [bind, Except.bind, sized, throw, throwThe, MonadExceptOf.throw]

theorem diceCount_front (front modifiers parts : List Node) (count : Nat) (size : Node)
    (sized : ∃ size ∈ front, size.rule = .dieSize)
    (counted : diceCount (front ++ modifiers) = .ok (count, size :: parts)) :
    ∃ others, parts = others ++ modifiers ∧
      ∀ reordered, diceCount (front ++ reordered) = .ok (count, size :: (others ++ reordered)) := by
  obtain ⟨found, member, rule⟩ := sized
  cases front with
  | nil => cases member
  | cons first rest =>
    rw [List.cons_append, diceCount] at counted
    split at counted
    · rename_i numbered
      obtain ⟨number, unsigned, same⟩ := Phrase.map_ok _ _ _ counted
      -- The first node is the number of dice, so the size is among the others.
      have within : found ∈ rest := by
        rcases List.mem_cons.mp member with rfl | within
        · rw [rule] at numbered
          cases numbered
        · exact within
      obtain ⟨second, others, rfl⟩ := List.exists_cons_of_ne_nil (List.ne_nil_of_mem within)
      cases same
      refine ⟨others, rfl, ?_⟩
      intro reordered
      rw [List.cons_append, diceCount, if_pos numbered, unsigned]
      rfl
    · rename_i other
      cases counted
      refine ⟨rest, rfl, ?_⟩
      intro reordered
      exact if_neg other

/-- The roll of a dice term stays the same when its modifiers are reordered, as long as the selections and the
rerolls keep their order among themselves. -/
theorem roll_reordered (node other : Node) (front modifiers reordered : List Node) (roll : Roll)
    (sized : ∃ size ∈ front, size.rule = .dieSize) (children : node.children = front ++ modifiers)
    (children' : other.children = front ++ reordered) (perm : modifiers.Perm reordered)
    (selections : modifiers.filter (·.rule.selects) = reordered.filter (·.rule.selects))
    (rerolls : modifiers.filter (·.rule.rerolls) = reordered.filter (·.rule.rerolls))
    (rolled : node.roll = .ok roll) : other.roll = .ok roll := by
  obtain ⟨draft, drafted, checked⟩ := Phrase.bind_ok _ _ _ rolled
  obtain ⟨count, size, parts, sides, counted, isSize, sided, folded⟩ := (rollDraft_ok node draft).mp drafted
  rw [children] at counted
  obtain ⟨others, rfl, counted'⟩ := diceCount_front front modifiers parts count size sized counted
  rw [List.foldlM_append] at folded
  obtain ⟨begun, before, folded⟩ := Phrase.bind_ok _ _ _ folded
  have refolded := foldlM_modify_reordered modifiers reordered begun draft perm selections rerolls folded
  have redrafted : other.rollDraft = .ok draft := by
    refine (rollDraft_ok other draft).mpr ⟨count, size, others ++ reordered, sides, ?_, isSize, sided, ?_⟩
    · rw [children']
      exact counted' reordered
    · rw [List.foldlM_append, before]
      exact refolded
  rw [Node.roll, redrafted]
  exact checked

end Node
end Tabletop
