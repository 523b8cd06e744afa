import Tabletop.Expr.Outline
import Tabletop.Reading
import Tabletop.Stamp

/-! Published readings. A reading is published as a record of its text, its normal form, its
expression and its rolls, with a stamp in front when it answers a request. -/
namespace Tabletop

def Reading.fields (input : String) (reading : Reading) : List (String × Datum) :=
  [("input", .text input),
    ("normalized_expression", .text reading.normalized),
    ("expression", reading.expression.outline),
    ("rolls", .list (reading.rolls.map Roll.outline))]

def Reading.outline (input : String) (reading : Reading) : Datum :=
  .record (reading.fields input)

def Reading.payload (stamp : Stamp) (input : String) (reading : Reading) : Datum :=
  .record (("request_id", .text stamp.requestId) :: ("timestamp", .text stamp.timestamp) ::
    reading.fields input)

def publish (stamp : Stamp) (text : String) : Except String Datum :=
  match read text with
  | .ok reading => .ok (reading.payload stamp text)
  | .error failure => .error failure.message

end Tabletop
