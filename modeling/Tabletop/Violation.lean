import Tabletop.Numeral
import Tabletop.Rule
import Tabletop.Text.Quoted

/-! Nodes that cannot be interpreted, with the reason. -/
namespace Tabletop

inductive Reason where
  | oneChild (found : Nat)
  | alternation
  | operator
  | function
  | dieSizeMissing
  | dieSizeZero
  | unsigned
  | signed
  | explosion
  | selectorMissing
  | selectorUnknown
  | modifier
  | rule
  | other (wording : String)
deriving DecidableEq, Repr

def Reason.message : Reason → String
  | .oneChild found => "expected exactly one child, found " ++ Numeral.describe found
  | .alternation => "operators and terms do not alternate"
  | .operator => "expected an operator"
  | .function => "function needs a name and one argument"
  | .dieSizeMissing => "missing die size"
  | .dieSizeZero => "die size must be greater than zero"
  | .unsigned => "expected an unsigned integer"
  | .signed => "expected a signed integer"
  | .explosion => "unknown explosion marker"
  | .selectorMissing => "missing modifier selector"
  | .selectorUnknown => "unknown keep/drop selector"
  | .modifier => "unexpected dice modifier"
  | .rule => "unknown rule"
  | .other wording => wording

structure Violation where
  rule : Rule
  text : String
  reason : Reason
deriving DecidableEq, Repr

namespace Violation

def message (violation : Violation) : String :=
  "[INTERNAL_INVARIANT] " ++ violation.reason.message ++ ": " ++ violation.rule.name ++ " node " ++
    Text.quote violation.text ++ "."

end Violation
end Tabletop
