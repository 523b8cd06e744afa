import Tabletop.Text.Printable

/-! Quoted text for messages, and the hexadecimal numerals in it. A text stands between single quotes, or between
double quotes when it holds a single quote and no double one; the delimiter, the backslash and whatever cannot be
printed are escaped. -/
namespace Tabletop.Text

def hex (width n : Nat) : List Char := (Nat.toDigits 16 n).leftpad width '0'

theorem length_hex (width n : Nat) (fits : n < Nat.pow 16 width) (positive : 0 < width) :
    (hex width n).length = width := by
  have bound := (Nat.length_toDigits_le_iff (by decide) positive).mpr fits
  simp only [hex, List.leftpad, List.length_append, List.length_replicate]
  omega

def escape (delimiter c : Char) : List Char :=
  if c = delimiter ∨ c = '\\' then ['\\', c]
  else if c = '\n' then ['\\', 'n']
  else if c = '\r' then ['\\', 'r']
  else if c = '\t' then ['\\', 't']
  else if isPrintable c then [c]
  else if c.toNat < 0x100 then '\\' :: 'x' :: hex 2 c.toNat
  else if c.toNat < 0x10000 then '\\' :: 'u' :: hex 4 c.toNat
  else '\\' :: 'U' :: hex 8 c.toNat

def delimiter (text : List Char) : Char :=
  if '\'' ∈ text ∧ '"' ∉ text then '"' else '\''

def quote (text : String) : String :=
  let cs := text.toList
  let mark := delimiter cs
  String.ofList (mark :: (cs.flatMap (escape mark) ++ [mark]))

end Tabletop.Text
