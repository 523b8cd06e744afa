import Tabletop.Proofs.Expr.Recovery

/-! Walking the record of an expression. The records of rolls are met from left to right: those of the first
operand of a chain before those of the operands behind it, and those of the argument of a call. They are the
records of the rolls of the expression in order. -/
namespace Tabletop

namespace Datum

mutual
/-- The records of rolls that are met on the way through a record, a list or a link. -/
def rollRecords : Datum → List Datum
  | .record fields =>
    match (Datum.record fields).readField "type" text? with
    | some "dice" => ((Datum.record fields).field? "roll").toList
    | some "function" => rollRecordsAt "argument" fields
    | some "chain" => rollRecordsAt "first" fields ++ rollRecordsAt "rest" fields
    | some _ => []
    | none => rollRecordsAt "operand" fields
  | .list items => rollRecordsAmong items
  | _ => []
def rollRecordsAt (name : String) : List (String × Datum) → List Datum
  | [] => []
  | (key, value) :: rest => if name == key then value.rollRecords else rollRecordsAt name rest
def rollRecordsAmong : List Datum → List Datum
  | [] => []
  | item :: rest => item.rollRecords ++ rollRecordsAmong rest
end

end Datum

namespace Expr
open Datum

end Expr
end Tabletop
