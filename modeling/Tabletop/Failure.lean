import Tabletop.Rejection
import Tabletop.Roll.Draft
import Tabletop.Violation

/-! The ways in which reading a text can fail. -/
namespace Tabletop

inductive Failure where
  /-- The text is not notation. -/
  | rejected (rejection : Rejection)
  /-- A node of the tree cannot be interpreted. -/
  | violated (violation : Violation)
  /-- A numeral has too many digits to be converted. -/
  | overlong (digits : Nat)
  /-- The parts of a roll do not make a roll. -/
  | faulty (fault : Roll.Fault)
deriving DecidableEq, Repr

def Failure.message : Failure → String
  | .rejected rejection => rejection.message
  | .violated violation => violation.message
  | .overlong digits =>
    "Exceeds the limit (" ++ Numeral.describe Numeral.maxDigits ++
      " digits) for integer string conversion: value has " ++ Numeral.describe digits ++
      " digits; use sys.set_int_max_str_digits() to increase the limit"
  | .faulty fault => fault.message

end Tabletop
