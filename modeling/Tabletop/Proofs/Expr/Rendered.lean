import Tabletop.Expr.Draft.Rendered
import Tabletop.Proofs.Expr.Spine

/-! Rendering by the plain recursion. Taking the left side of a draft apart, rendering the operands in turn and
joining them comes to the same as rendering an operation from its two sides. This holds also where it fails:
rendering as text and as a record both end at the leftmost value that is not an expression. -/
namespace Tabletop.Expr

namespace Draft

variable {α β : Type}

/-- The text of a draft by recursion on both sides of an operation. -/
def plain : Draft α → Except α String
  | .number value => .ok (Numeral.describe value)
  | .dice roll => .ok roll.describe
  | .binary left operator right => do
    let first ← left.plain
    let second ← right.plain
    return first ++ " " ++ operator ++ " " ++ second
  | .call name argument => return name ++ "(" ++ (← argument.plain) ++ ")"
  | .foreign value => .error value

theorem descend_eq (draft : Draft α) (met : Array (String × Draft α)) :
    draft.descend met = ((draft.descend #[]).1, met ++ (draft.descend #[]).2) := by
  induction draft generalizing met with
  | binary left operator right left_ih right_ih =>
    rw [descend, left_ih, descend, left_ih (#[].push (operator, right))]
    simp
  | number value => simp [descend]
  | dice roll => simp [descend]
  | call name argument ih => simp [descend]
  | foreign value => simp [descend]

theorem unchain_binary (left right : Draft α) (operator : String) :
    (binary left operator right).unchain = (left.unchain.1, left.unchain.2 ++ [(operator, right)]) := by
  simp only [unchain, descend]
  rw [descend_eq]
  simp

def renderUnchained (rendering : Rendering β) (draft : Draft α) : Except α (β × List (String × β)) := do
  let first ← draft.unchain.1.render rendering
  let links ← draft.unchain.2.mapM fun link => do return (link.1, ← link.2.render rendering)
  return (first, links)

theorem render_binary (rendering : Rendering β) (left right : Draft α) (operator : String) :
    (binary left operator right).render rendering =
      ((binary left operator right).renderUnchained rendering).map fun chain =>
        rendering.chain chain.1 chain.2 := by
  let step (link : String × Draft α) : Except α (String × β) := do return (link.1, ← link.2.render rendering)
  have attached (links : List (String × Draft α)) :
      (links.attach.mapM fun link => step link.val) = links.mapM step := by
    rw [List.mapM_subtype fun _ _ => rfl, List.unattach_attach]
  rw [render, renderUnchained, attached]
  cases (binary left operator right).unchain.1.render rendering with
  | error value => rfl
  | ok first => cases (binary left operator right).unchain.2.mapM step <;> rfl

theorem renderUnchained_binary (rendering : Rendering β) (left right : Draft α) (operator : String) :
    (binary left operator right).renderUnchained rendering = do
      let chain ← left.renderUnchained rendering
      let operand ← right.render rendering
      return (chain.1, chain.2 ++ [(operator, operand)]) := by
  simp only [renderUnchained, unchain_binary, List.mapM_append, List.mapM_cons, List.mapM_nil, bind_assoc,
    pure_bind]

theorem renderUnchained_operand (rendering : Rendering β) (draft : Draft α) (alone : draft.unchain = (draft, [])) :
    draft.renderUnchained rendering = (draft.render rendering).map fun first => (first, []) := by
  rw [renderUnchained, alone]
  cases draft.render rendering <;> rfl

end Draft

structure Rendering.Renders {β : Type} (rendering : Rendering β) (whole : Expr → β) : Prop where
  number : ∀ value, whole (.number value) = rendering.number value
  dice : ∀ roll, whole (.dice roll) = rendering.dice roll
  call : ∀ name argument, whole (.call name argument) = rendering.call name (whole argument)
  binary : ∀ left operator right, whole (.binary left operator right) =
    rendering.chain (whole (binary left operator right).spine.first)
      ((binary left operator right).spine.links.map fun link => (link.1, whole link.2))

namespace Draft

variable {α β : Type}

/-- A draft is rendered as the expression that it is checked to be. -/
theorem render_check (rendering : Rendering β) (whole : Expr → β) (renders : rendering.Renders whole)
    (draft : Draft α) :
    draft.render rendering = draft.check.map whole ∧
      draft.renderUnchained rendering = draft.check.map fun expr =>
        (whole expr.spine.first, expr.spine.links.map fun link => (link.1, whole link.2)) := by
  induction draft with
  | number value =>
    have same : (number value : Draft α).render rendering = .ok (whole (.number value)) := by
      rw [render, renders.number]
    exact ⟨same, by rw [renderUnchained_operand _ _ rfl, same]; rfl⟩
  | dice roll =>
    have same : (dice roll : Draft α).render rendering = .ok (whole (.dice roll)) := by
      rw [render, renders.dice]
    exact ⟨same, by rw [renderUnchained_operand _ _ rfl, same]; rfl⟩
  | foreign value =>
    have same : (foreign value).render rendering = .error value := by
      rw [render]
    exact ⟨same, by rw [renderUnchained_operand _ _ rfl, same]; rfl⟩
  | call name argument ih =>
    have same : (call name argument).render rendering = (call name argument).check.map whole := by
      rw [render, ih.1, check]
      cases argument.check with
      | error value => rfl
      | ok expr => exact congrArg Except.ok (renders.call name expr).symm
    refine ⟨same, ?_⟩
    rw [renderUnchained_operand _ _ rfl, same, check]
    cases argument.check <;> rfl
  | binary left operator right left_ih right_ih =>
    have unchained : (binary left operator right).renderUnchained rendering =
        (binary left operator right).check.map fun expr =>
          (whole expr.spine.first, expr.spine.links.map fun link => (link.1, whole link.2)) := by
      rw [renderUnchained_binary, left_ih.2, right_ih.1, check]
      cases left.check with
      | error value => rfl
      | ok first =>
        cases right.check with
        | error value => rfl
        | ok second =>
          simp [Except.map, bind, Except.bind, pure, Except.pure, spine]
    refine ⟨?_, unchained⟩
    rw [render_binary, unchained, check]
    cases left.check with
    | error value => rfl
    | ok first =>
      cases right.check with
      | error value => rfl
      | ok second => exact congrArg Except.ok (renders.binary first operator second).symm

end Draft

theorem describe_dice (roll : Roll) : (dice roll).describe = roll.describe := by
  rw [describe, writtenOnto, List.append_nil, Roll.describe]

theorem describe_binary (left right : Expr) (operator : String) :
    (binary left operator right).describe = left.describe ++ " " ++ operator ++ " " ++ right.describe := by
  have onto := left.writtenOnto_append [] (' ' :: (operator.toList ++ ' ' :: right.writtenOnto []))
  rw [List.nil_append] at onto
  apply String.toList_injective
  simp [describe, writtenOnto, onto]

theorem describe_call (name : String) (argument : Expr) :
    (call name argument).describe = name ++ "(" ++ argument.describe ++ ")" := by
  have onto := argument.writtenOnto_append [] [')']
  rw [List.nil_append] at onto
  apply String.toList_injective
  simp [describe, writtenOnto, onto]

theorem wording_spine (expr : Expr) :
    wording.chain expr.spine.first.describe (expr.spine.links.map fun link => (link.1, link.2.describe)) =
      expr.describe := by
  induction expr with
  | binary left operator right left_ih right_ih =>
    have chained := @String.intercalate_append_of_ne_nil
      (left.spine.first.describe :: left.spine.links.map fun link => link.1 ++ " " ++ link.2.describe)
      [operator ++ " " ++ right.describe] " " (List.cons_ne_nil _ _) (List.cons_ne_nil _ _)
    rw [String.intercalate_singleton] at chained
    rw [describe_binary, ← left_ih]
    simpa [wording, spine, Function.comp_def, String.append_assoc] using chained
  | number value => exact @String.intercalate_singleton " " _
  | dice roll => exact @String.intercalate_singleton " " _
  | call name argument ih => exact @String.intercalate_singleton " " _

theorem wording_renders : wording.Renders describe := by
  constructor
  · intro value
    simp [describe, writtenOnto, wording, Numeral.describe]
  · exact describe_dice
  · exact describe_call
  · intro left operator right
    exact (wording_spine _).symm

theorem outlineWith_spine (expr : Expr) (items : List Datum) :
    expr.outlineWith items = outlineChain expr.spine.first.outline
      ((expr.spine.links.map fun link => outlineLink link.1 link.2.outline) ++ items) := by
  induction expr generalizing items with
  | binary left operator right left_ih right_ih =>
    rw [outlineWith, left_ih]
    simp [spine, outline]
  | number value => rfl
  | dice roll => rfl
  | call name argument ih => rfl

theorem recording_renders : recording.Renders outline := by
  refine ⟨fun value => rfl, fun roll => rfl, fun name argument => rfl, ?_⟩
  intro left operator right
  rw [outline, outlineWith_spine]
  simp [spine, outlineChain, recording, Function.comp_def]

namespace Draft

variable {α : Type}

theorem describe_check (draft : Draft α) : draft.describe = draft.check.map Expr.describe :=
  (draft.render_check wording Expr.describe wording_renders).1

theorem outline_check (draft : Draft α) : draft.outline = draft.check.map Expr.outline :=
  (draft.render_check recording Expr.outline recording_renders).1

/-- The draft of an expression is rendered as the expression itself, both as text and as a record. -/
theorem rendered_draft (expr : Expr) :
    (expr.draft : Draft α).describe = .ok expr.describe ∧ (expr.draft : Draft α).outline = .ok expr.outline := by
  rw [describe_check, outline_check, check_draft]
  exact ⟨rfl, rfl⟩

theorem plain_check (draft : Draft α) : draft.plain = draft.check.map Expr.describe := by
  induction draft with
  | number value => exact congrArg Except.ok (wording_renders.number value).symm
  | dice roll => exact congrArg Except.ok (wording_renders.dice roll).symm
  | foreign value => rfl
  | call name argument ih =>
    rw [plain, ih, check]
    cases argument.check with
    | error value => rfl
    | ok expr => exact congrArg Except.ok (describe_call name expr).symm
  | binary left operator right left_ih right_ih =>
    rw [plain, left_ih, right_ih, check]
    cases left.check with
    | error value => rfl
    | ok first =>
      cases right.check with
      | error value => rfl
      | ok second => exact congrArg Except.ok (describe_binary first second operator).symm

/-- Checking ends at the leftmost value that is not an expression. -/
theorem check_error (draft : Draft α) (value : α) :
    draft.check = .error value ↔ draft.foreigns.head? = some value := by
  induction draft generalizing value with
  | number given => simp [check, foreigns]
  | dice roll => simp [check, foreigns]
  | foreign given => simp [check, foreigns]
  | call name argument ih =>
    rw [check, foreigns, ← ih]
    cases argument.check <;> simp [bind, Except.bind, pure, Except.pure]
  | binary left operator right left_ih right_ih =>
    rw [check, foreigns, List.head?_append]
    cases found : left.check with
    | error first =>
      rw [(left_ih first).mp found]
      simp [bind, Except.bind]
    | ok expr =>
      have none : left.foreigns.head? = none := by
        rw [Option.eq_none_iff_forall_ne_some]
        intro first head
        rw [(left_ih first).mpr head] at found
        cases found
      rw [none, Option.none_or, ← right_ih]
      cases right.check <;> simp [bind, Except.bind, pure, Except.pure]

theorem map_error_iff {β : Type} (whole : Expr → β) (draft : Draft α) (value : α) :
    draft.check.map whole = .error value ↔ draft.foreigns.head? = some value := by
  rw [← check_error]
  cases draft.check <;> simp [Except.map]

theorem exists_error_iff {β : Type} (whole : Expr → β) (draft : Draft α) :
    (∃ value, draft.check.map whole = .error value) ↔ draft.foreigns ≠ [] := by
  simp only [map_error_iff, ← Option.isSome_iff_exists, List.isSome_head?]

/-- Rendering as text comes to the plain recursion, values and failures included. It fails exactly if some value
in the draft is not an expression, as does the rendering as a record, and both fail with the leftmost one. -/
theorem rendered_plain (draft : Draft α) :
    draft.describe = draft.plain ∧
    ((∃ value, draft.describe = .error value) ↔ draft.foreigns ≠ []) ∧
    ((∃ value, draft.outline = .error value) ↔ draft.foreigns ≠ []) ∧
    ∀ value, (draft.describe = .error value ↔ draft.foreigns.head? = some value) ∧
      (draft.outline = .error value ↔ draft.foreigns.head? = some value) := by
  rw [draft.describe_check, draft.outline_check, draft.plain_check]
  exact ⟨rfl, exists_error_iff _ draft, exists_error_iff _ draft,
    fun value => ⟨map_error_iff _ draft value, map_error_iff _ draft value⟩⟩

/-- A subtraction on the right loses its place in the text, and of two values that are not expressions the one
further left is named, although it stands deeper. -/
example :
    (binary (number 1) "-" (binary (number 2) "-" (number 3)) : Draft Foreign).describe = .ok "1 - 2 - 3" ∧
    (binary (call "f" (foreign Foreign.null)) "+" (foreign (.int 5))).describe = .error .null := by
  constructor
  · rw [describe_check]
    decide
  · rw [describe_check]
    rfl

end Draft
end Tabletop.Expr
