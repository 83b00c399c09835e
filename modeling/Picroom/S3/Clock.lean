import Mathlib.Data.List.Basic

/-!
# The clock of a signature

`x-amz-date` is a UTC time written `YYYYMMDDTHHMMSSZ`.  The server reads it with Rust's integer
parsers, which take a leading sign, checks it against the calendar and compares it with its
own clock.
-/

namespace Picroom

namespace SigV4

def parseDigits (digits : List Char) : Option Nat :=
  if digits = [] then none
  else digits.foldlM (fun value digit =>
    if digit.isDigit then some (10 * value + (digit.toNat - '0'.toNat)) else none) 0

/-- `str::parse::<u8>` on two characters. -/
def parseU8 : List Char → Option Nat
  | '+' :: digits => parseDigits digits
  | digits => parseDigits digits

/-- `str::parse::<i32>` on four characters. -/
def parseI32 : List Char → Option Int
  | '+' :: digits => (parseDigits digits).map Int.ofNat
  | '-' :: digits => (parseDigits digits).map fun value => -(value : Int)
  | digits => (parseDigits digits).map Int.ofNat

def isLeapYear (year : Int) : Bool := year % 4 == 0 && (year % 100 != 0 || year % 400 == 0)

def daysInMonth (year : Int) : Nat → Nat
  | 2 => if isLeapYear year then 29 else 28
  | 4 | 6 | 9 | 11 => 30
  | _ => 31

/-- `Month::try_from`, `Date::from_calendar_date` and `Time::from_hms` succeed. -/
def validDateTime (year : Int) (month day hour minute second : Nat) : Bool :=
  1 ≤ month && month ≤ 12 && 1 ≤ day && day ≤ daysInMonth year month && hour < 24 &&
    minute < 60 && second < 60

def daysBeforeMonth (year : Int) : Nat → Nat
  | 0 | 1 => 0
  | month + 2 => daysBeforeMonth year (month + 1) + daysInMonth year (month + 1)

/-- Days of the proleptic Gregorian calendar. -/
def dayNumber (year : Int) (month day : Nat) : Int :=
  365 * (year - 1) + (year - 1) / 4 - (year - 1) / 100 + (year - 1) / 400 +
    daysBeforeMonth year month + day

def secondNumber (year : Int) (month day hour minute second : Nat) : Int :=
  ((dayNumber year month day * 24 + hour) * 60 + minute) * 60 + second

end SigV4

open SigV4

/-- A reading of the UTC clock. -/
structure OffsetDateTime where
  year : Nat
  month : Nat
  day : Nat
  hour : Nat
  minute : Nat
  second : Nat
  nanosecond : Nat
  yearBound : year ≤ 9999
  valid : validDateTime year month day hour minute second = true
  nanosecondBound : nanosecond < 1000000000

/-- Nanoseconds on the time line. -/
def OffsetDateTime.nanoseconds (now : OffsetDateTime) : Int :=
  secondNumber now.year now.month now.day now.hour now.minute now.second * 1000000000 +
    now.nanosecond

namespace SigV4

/-- `within_skew`: the text `YYYYMMDDTHHMMSSZ` names a time at most 15 minutes from now. -/
def withinSkew (date : List Char) (now : OffsetDateTime) : Bool :=
  if date.length ≠ 16 then false
  else
    match parseI32 (date.take 4), parseU8 ((date.drop 4).take 2), parseU8 ((date.drop 6).take 2),
        parseU8 ((date.drop 9).take 2), parseU8 ((date.drop 11).take 2),
        parseU8 ((date.drop 13).take 2) with
    | some year, some month, some day, some hour, some minute, some second =>
        validDateTime year month day hour minute second &&
          ((now.nanoseconds - secondNumber year month day hour minute second * 1000000000).tdiv
            1000000000).natAbs ≤ 15 * 60
    | _, _, _, _, _, _ => false

end SigV4

end Picroom
