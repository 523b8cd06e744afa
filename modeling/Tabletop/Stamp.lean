import Tabletop.Text.Quoted

/-! Stamps of published readings: an identifier made from random bits, and the time in UTC to the
second. -/
namespace Tabletop

structure Stamp where
  requestId : String
  timestamp : String
deriving DecidableEq, Repr

namespace Stamp

/-- A random identifier of 128 bits in hexadecimal digits. One digit tells its version, and the two
leading bits of another one its variant. -/
def identifier (random : Nat) : String :=
  let digits := Text.hex 32 (random % (1 <<< 128))
  String.ofList ((digits.set 12 '4').set 16 (variant ((random >>> 60) % 4)))
where
  variant : Nat → Char
    | 0 => '8'
    | 1 => '9'
    | 2 => 'a'
    | _ => 'b'

/-- Year, month and day of the given number of days after the first of January 1970. Years are
counted from March, so that a leap day is the last day of its year. -/
def date (days : Nat) : Nat × Nat × Nat :=
  let sinceEra := days + 719468
  let era := sinceEra / 146097
  let dayOfEra := sinceEra % 146097
  let yearOfEra := (dayOfEra - dayOfEra / 1460 + dayOfEra / 36524 - dayOfEra / 146096) / 365
  let dayOfYear := dayOfEra - (365 * yearOfEra + yearOfEra / 4 - yearOfEra / 100)
  let month := (5 * dayOfYear + 2) / 153
  let day := dayOfYear - (153 * month + 2) / 5 + 1
  let year := yearOfEra + era * 400
  if month < 10 then (year, month + 3, day) else (year + 1, month - 9, day)

def padded (width n : Nat) : List Char := (Nat.toDigits 10 n).leftpad width '0'

def time (seconds : Nat) : String :=
  let (year, month, day) := date (seconds / 86400)
  let second := seconds % 86400
  String.ofList (padded 4 year ++ '-' :: (padded 2 month ++ '-' :: (padded 2 day ++ 'T' ::
    (padded 2 (second / 3600) ++ ':' :: (padded 2 (second / 60 % 60) ++ ':' ::
      (padded 2 (second % 60) ++ ['Z']))))))

def make (random seconds : Nat) : Stamp := ⟨identifier random, time seconds⟩

end Stamp
end Tabletop
