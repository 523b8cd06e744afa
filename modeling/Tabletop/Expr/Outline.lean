import Tabletop.Datum
import Tabletop.Expr

/-! Expressions as records. The operations down the left side of an expression become one record
with a first operand and a list of links, so the record of a long chain is flat. -/
namespace Tabletop

def Roll.Selection.outline (selection : Roll.Selection) : Datum :=
  .record [("policy", .text selection.policy.label), ("count", .int selection.count.val)]

def Roll.outline (roll : Roll) : Datum :=
  .record [
    ("notation", .text roll.describe),
    ("num_dice", .int roll.count),
    ("die_size", .int roll.size.val),
    ("exploding", .text roll.explosion.label),
    ("keep_drop", (roll.selection.map Roll.Selection.outline).getD .null),
    ("reroll", (roll.reroll.map fun threshold => Datum.int threshold.val).getD .null)]

namespace Expr

def outlineLink (operator : String) (operand : Datum) : Datum :=
  .record [("operator", .text operator), ("operand", operand)]

def outlineChain (first : Datum) : List Datum → Datum
  | [] => first
  | links => .record [("type", .text "chain"), ("first", first), ("rest", .list links)]

def outlineWith : Expr → List Datum → Datum
  | .number value, links =>
    outlineChain (.record [("type", .text "number"), ("value", .int value)]) links
  | .dice roll, links => outlineChain (.record [("type", .text "dice"), ("roll", roll.outline)]) links
  | .binary left operator right, links =>
    left.outlineWith (outlineLink operator (right.outlineWith []) :: links)
  | .call name argument, links =>
    outlineChain (.record [("type", .text "function"), ("name", .text name),
      ("argument", argument.outlineWith [])]) links

def outline (expr : Expr) : Datum := expr.outlineWith []

end Expr
end Tabletop
