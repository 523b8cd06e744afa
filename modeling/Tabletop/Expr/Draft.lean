import Tabletop.Expr
import Tabletop.Text.Quoted

/-! Expressions assembled by hand. In a draft any place may still hold something that is not an
expression; only a draft without such a place can be written out. -/
namespace Tabletop

inductive Foreign where
  | null
  | bool (value : Bool)
  | int (value : Int)
  | text (value : String)
deriving DecidableEq, Repr

def Foreign.describe : Foreign → String
  | .null => "None"
  | .bool true => "True"
  | .bool false => "False"
  | .int value => Numeral.describe value
  | .text value => Text.quote value

def Foreign.message (value : Foreign) : String := "Not an expression: " ++ value.describe

/-- An expression in which values of another kind may stand in the place of expressions. -/
inductive Expr.Draft (α : Type) where
  | number (value : Int)
  | dice (roll : Roll)
  | binary (left : Expr.Draft α) (operator : String) (right : Expr.Draft α)
  | call (name : String) (argument : Expr.Draft α)
  | foreign (value : α)
deriving DecidableEq, Repr

namespace Expr

variable {α : Type}

def Draft.check : Draft α → Except α Expr
  | .number value => .ok (.number value)
  | .dice roll => .ok (.dice roll)
  | .binary left operator right => do
    let left ← left.check
    let right ← right.check
    return .binary left operator right
  | .call name argument => do
    let argument ← argument.check
    return .call name argument
  | .foreign value => .error value

def Draft.foreigns : Draft α → List α
  | .number _ => []
  | .dice _ => []
  | .binary left _ right => left.foreigns ++ right.foreigns
  | .call _ argument => argument.foreigns
  | .foreign value => [value]

def draft : Expr → Draft α
  | .number value => .number value
  | .dice roll => .dice roll
  | .binary left operator right => .binary left.draft operator right.draft
  | .call name argument => .call name argument.draft

theorem check_draft (expr : Expr) : (expr.draft : Draft α).check = .ok expr := by
  induction expr with
  | number value => rfl
  | dice roll => rfl
  | binary left operator right left_ih right_ih =>
    simp [draft, Draft.check, left_ih, right_ih, bind, Except.bind, pure, Except.pure]
  | call name argument ih => simp [draft, Draft.check, ih, bind, Except.bind, pure, Except.pure]

end Expr
end Tabletop
