import Tabletop.Expr.Draft
import Tabletop.Expr.Outline

/-! Drafts rendered as text and as records. The operations down the left side of a draft are taken apart first,
however many they are; then the first operand and the operands behind it are rendered in turn. The first value
met on the way that is not an expression ends the rendering. -/
namespace Tabletop.Expr

structure Rendering (β : Type) where
  number : Int → β
  dice : Roll → β
  call : String → β → β
  chain : β → List (String × β) → β

namespace Draft

variable {α β : Type}

/-- The way down the left side of a draft. The operators and right operands on it are met from the last one of
the chain to the first. -/
def descend : Draft α → Array (String × Draft α) → Draft α × Array (String × Draft α)
  | .binary left operator right, met => left.descend (met.push (operator, right))
  | operand, met => (operand, met)

def unchain (draft : Draft α) : Draft α × List (String × Draft α) :=
  let (first, met) := draft.descend #[]
  (first, met.reverse.toList)

theorem descend_size (draft : Draft α) (met : Array (String × Draft α)) :
    sizeOf (draft.descend met).1 ≤ sizeOf draft ∧
      ∀ link ∈ (draft.descend met).2, link ∈ met ∨ sizeOf link.2 < sizeOf draft := by
  induction draft generalizing met with
  | binary left operator right left_ih right_ih =>
    obtain ⟨first, links⟩ := left_ih (met.push (operator, right))
    rw [descend, binary.sizeOf_spec]
    refine ⟨by omega, ?_⟩
    intro link member
    rcases links link member with pushed | smaller
    · rcases Array.mem_push.mp pushed with before | rfl
      · exact .inl before
      · exact .inr (by dsimp only; omega)
    · exact .inr (by omega)
  | number value => exact ⟨Nat.le_refl _, fun link member => .inl member⟩
  | dice roll => exact ⟨Nat.le_refl _, fun link member => .inl member⟩
  | call name argument ih => exact ⟨Nat.le_refl _, fun link member => .inl member⟩
  | foreign value => exact ⟨Nat.le_refl _, fun link member => .inl member⟩

theorem unchain_first_size (left right : Draft α) (operator : String) :
    sizeOf (binary left operator right).unchain.1 < sizeOf (binary left operator right) := by
  have below := (left.descend_size (#[].push (operator, right))).1
  rw [binary.sizeOf_spec]
  change sizeOf (left.descend (#[].push (operator, right))).1 < _
  omega

theorem unchain_link_size (draft : Draft α) (link : String × Draft α) (member : link ∈ draft.unchain.2) :
    sizeOf link.2 < sizeOf draft := by
  have met : link ∈ (draft.descend #[]).2 := by
    simpa [unchain] using member
  rcases (draft.descend_size #[]).2 link met with before | smaller
  · exact absurd before (Array.not_mem_empty link)
  · exact smaller

def render (rendering : Rendering β) : Draft α → Except α β
  | .number value => .ok (rendering.number value)
  | .dice roll => .ok (rendering.dice roll)
  | .binary left operator right => do
    let first ← (binary left operator right).unchain.1.render rendering
    let links ← (binary left operator right).unchain.2.attach.mapM fun link => do
      return (link.val.1, ← link.val.2.render rendering)
    return rendering.chain first links
  | .call name argument => return rendering.call name (← argument.render rendering)
  | .foreign value => .error value
termination_by draft => sizeOf draft
decreasing_by
  · exact unchain_first_size left right operator
  · exact unchain_link_size _ link.val link.property
  · rw [call.sizeOf_spec]
    omega

end Draft

def wording : Rendering String where
  number := Numeral.describe
  dice := Roll.describe
  call name argument := name ++ "(" ++ argument ++ ")"
  chain first links := " ".intercalate (first :: links.map fun link => link.1 ++ " " ++ link.2)

def recording : Rendering Datum where
  number value := .record [("type", .text "number"), ("value", .int value)]
  dice roll := .record [("type", .text "dice"), ("roll", roll.outline)]
  call name argument := .record [("type", .text "function"), ("name", .text name), ("argument", argument)]
  chain first links := .record [("type", .text "chain"), ("first", first),
    ("rest", .list (links.map fun link => outlineLink link.1 link.2))]

def Draft.describe {α : Type} (draft : Draft α) : Except α String := draft.render wording

def Draft.outline {α : Type} (draft : Draft α) : Except α Datum := draft.render recording

end Tabletop.Expr
