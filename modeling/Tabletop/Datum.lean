/-! Published data: nothing, integers, texts, lists and records whose fields keep their order. -/
namespace Tabletop

inductive Datum where
  | null
  | int (value : Int)
  | text (value : String)
  | list (items : List Datum)
  | record (fields : List (String × Datum))
deriving Repr

namespace Datum

def field? (name : String) : Datum → Option Datum
  | .record fields => fields.lookup name
  | _ => none

def keys : Datum → List String
  | .record fields => fields.map (·.1)
  | _ => []

end Datum
end Tabletop
