import Tabletop.Nesting
import Tabletop.Numeral

/-! Refusals of a text: what was expected, and where. Positions count characters from zero; a column
counts from one within its line, and only the line feed ends a line. -/
namespace Tabletop

inductive Expectation where
  | input
  | shallowerCalls
  | term
  | digits
  | dieSize
  | opening
  | closing
  | endOfText
  | other (wording : String)
deriving DecidableEq, Repr

def Expectation.message : Expectation → String
  | .input => "Empty input"
  | .shallowerCalls => "Function calls nested more than " ++ Numeral.describe Nesting.limit ++ " deep"
  | .term => "Expected \x7bdice_roll | function | number\x7d"
  | .digits => "Expected W:(0-9)"
  | .dieSize => "Expected \x7bW:(0-9) | '%'\x7d"
  | .opening => "Expected '('"
  | .closing => "Expected ')'"
  | .endOfText => "Expected end of text"
  | .other wording => wording

/-- A refused text with the place of the refusal. The position of a refusal made elsewhere may lie
past the end, or count from the end when it is negative. -/
structure Rejection where
  text : String
  position : Int
  expected : Expectation
deriving DecidableEq, Repr

namespace Rejection

def extent (length : Nat) (position : Int) : Nat :=
  if 0 ≤ position then position.toNat else (length + position).toNat

def lineStart (text : List Char) : Nat :=
  text.length - (text.reverse.takeWhile (· ≠ '\n')).length

def column (rejection : Rejection) : Int :=
  let text := rejection.text.toList
  rejection.position - lineStart (text.take (extent text.length rejection.position)) + 1

def message (rejection : Rejection) : String :=
  "[UNPARSEABLE_INPUT] " ++ rejection.expected.message ++ " (at column " ++
    Numeral.describe rejection.column ++ "). Example: '2d20kh1 + 3d6!!' or 'floor(4d10) + 2'."

end Rejection
end Tabletop
