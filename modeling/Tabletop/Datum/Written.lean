import Tabletop.Datum
import Tabletop.Numeral
import Tabletop.Text.Quoted

/-! Data written as JSON, without spaces and with the fields of records in their order. -/
namespace Tabletop.Datum

def escape (c : Char) : List Char :=
  if c = '"' ∨ c = '\\' then ['\\', c]
  else if c.toNat < 0x20 then '\\' :: 'u' :: Text.hex 4 c.toNat
  else [c]

def writtenText (text : String) : List Char :=
  '"' :: (text.toList.flatMap escape ++ ['"'])

mutual
def written : Datum → List Char
  | .null => ['n', 'u', 'l', 'l']
  | .int value => Numeral.ofInt value
  | .text value => writtenText value
  | .list items => '[' :: (writtenItems items ++ [']'])
  | .record fields => '{' :: (writtenFields fields ++ ['}'])
def writtenItems : List Datum → List Char
  | [] => []
  | [item] => item.written
  | item :: rest => item.written ++ ',' :: writtenItems rest
def writtenFields : List (String × Datum) → List Char
  | [] => []
  | [(name, value)] => writtenText name ++ ':' :: value.written
  | (name, value) :: rest => writtenText name ++ ':' :: (value.written ++ ',' :: writtenFields rest)
end

def describe (datum : Datum) : String := String.ofList datum.written

end Tabletop.Datum
