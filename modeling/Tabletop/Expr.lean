import Tabletop.Roll

/-! Arithmetic over rolls. An operation keeps its operator as the text it was given; what is
read from notation has only the four usual ones. -/
namespace Tabletop

inductive Expr where
  | number (value : Int)
  | dice (roll : Roll)
  | binary (left : Expr) (operator : String) (right : Expr)
  | call (name : String) (argument : Expr)
deriving DecidableEq, Repr

namespace Expr

def rolls : Expr → List Roll
  | .number _ => []
  | .dice roll => [roll]
  | .binary left _ right => left.rolls ++ right.rolls
  | .call _ argument => argument.rolls

/-- The notation of an expression, followed by a given text. Chains run to the left, so the left
operand needs no grouping. -/
def writtenOnto : Expr → List Char → List Char
  | .number value, tail => Numeral.ofInt value ++ tail
  | .dice roll, tail => roll.written ++ tail
  | .binary left operator right, tail =>
    left.writtenOnto (' ' :: (operator.toList ++ ' ' :: right.writtenOnto tail))
  | .call name argument, tail => name.toList ++ '(' :: argument.writtenOnto (')' :: tail)

def describe (expr : Expr) : String := String.ofList (expr.writtenOnto [])

theorem writtenOnto_append (expr : Expr) (tail more : List Char) :
    expr.writtenOnto (tail ++ more) = expr.writtenOnto tail ++ more := by
  induction expr generalizing tail with
  | number value => simp [writtenOnto]
  | dice roll => simp [writtenOnto]
  | binary left operator right left_ih right_ih => simp [writtenOnto, right_ih, ← left_ih]
  | call name argument ih => simp [writtenOnto, ← ih]

end Expr
end Tabletop
