import Tabletop.Text.Characters

/-! Decimal numerals. A numeral is a run of digits; its value is read only up to a fixed number of
digits, leading zeros included. The signed reader also accepts surrounding white space, a sign,
digits of any script and single low lines between digits. -/
namespace Tabletop.Numeral

def maxDigits : Nat := 4300

def value (digits : List Char) : Nat := Nat.ofDigitChars 10 digits 0

def ofNat (n : Nat) : List Char := Nat.toDigits 10 n

def ofInt : Int → List Char
  | .ofNat n => ofNat n
  | .negSucc n => '-' :: ofNat (n + 1)

def describe (n : Int) : String := String.ofList (ofInt n)

def read (digits : List Char) : Except Nat Nat :=
  if digits.length ≤ maxDigits then .ok (value digits) else .error digits.length

/-- The digits of a run in which a low line may separate two neighbours. -/
def grouped : List Char → Option (List Nat)
  | [] => none
  | [c] => (Text.decimalValue? c).map ([·])
  | c :: '_' :: rest => do
    let digit ← Text.decimalValue? c
    return digit :: (← grouped rest)
  | c :: rest => do
    let digit ← Text.decimalValue? c
    return digit :: (← grouped rest)

def magnitude (text : List Char) : Option Nat := do
  let digits ← grouped text
  if digits.length ≤ maxDigits then
    some (digits.foldl (fun total digit => 10 * total + digit) 0)
  else none

def readSigned (text : List Char) : Option Int :=
  match Text.trim Text.isSpace text with
  | '-' :: digits => (magnitude digits).map fun n => -(n : Int)
  | '+' :: digits => (magnitude digits).map fun n => (n : Int)
  | digits => (magnitude digits).map fun n => (n : Int)

theorem value_ofNat (n : Nat) : value (ofNat n) = n :=
  Nat.ofDigitChars_toDigits (by decide) (by decide)

theorem isDigit_of_mem_ofNat (n : Nat) (c : Char) (member : c ∈ ofNat n) : c.isDigit = true :=
  Nat.isDigit_of_mem_toDigits (by decide) (by decide) member

theorem ofNat_ne_nil (n : Nat) : ofNat n ≠ [] := Nat.toDigits_ne_nil

end Tabletop.Numeral
