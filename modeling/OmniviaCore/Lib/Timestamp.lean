import Mathlib

/-!
# UTC timestamps

`YYYY-MM-DDTHH:MM:SS(.d{1,9})?Z`, the one spelling of an RFC 3339 instant in UTC. A reading keeps
microseconds and drops what is finer, and the rank of an instant orders instants as their fields do.
-/

namespace OmniviaCore.Lib

/-- Whether a text follows a template, in which a zero stands for a digit and any other character for
itself. -/
def followsTemplate : List Char → List Char → Bool
  | [], [] => true
  | '0' :: template, c :: text => c.isDigit && followsTemplate template text
  | t :: template, c :: text => t == c && followsTemplate template text
  | _, _ => false

def digitsValue (digits : List Char) : Nat :=
  digits.foldl (fun n c => 10 * n + (c.toNat - '0'.toNat)) 0

/-- The digits of a fraction, before the final `Z`. -/
def fractionDigits : List Char → Option (List Char)
  | ['Z'] => some []
  | '.' :: rest =>
    if rest.getLast? = some 'Z' ∧ 2 ≤ rest.length ∧ rest.length ≤ 10 ∧
        rest.dropLast.all Char.isDigit = true then some rest.dropLast
    else none
  | _ => none

/-- The fields of a UTC instant. -/
structure Instant where
  year : Nat
  month : Nat
  day : Nat
  hour : Nat
  minute : Nat
  second : Nat
  microsecond : Nat
  deriving DecidableEq

def instantOf (text : List Char) : Option Instant :=
  (fractionDigits (text.drop 19)).bind fun fraction =>
    if followsTemplate "0000-00-00T00:00:00".toList (text.take 19) then
      some
        { year := digitsValue (text.take 4)
          month := digitsValue ((text.drop 5).take 2)
          day := digitsValue ((text.drop 8).take 2)
          hour := digitsValue ((text.drop 11).take 2)
          minute := digitsValue ((text.drop 14).take 2)
          second := digitsValue ((text.drop 17).take 2)
          microsecond := digitsValue ((fraction ++ List.replicate 6 '0').take 6) }
    else none

namespace Instant

def isLeapYear (year : Nat) : Bool := year % 4 == 0 && (year % 100 != 0 || year % 400 == 0)

def daysInMonth (year month : Nat) : Nat :=
  if month = 2 then if isLeapYear year then 29 else 28
  else if month ∈ [4, 6, 9, 11] then 30
  else 31

/-- Whether the calendar has the instant. -/
def isCalendar (instant : Instant) : Bool :=
  1 ≤ instant.year && 1 ≤ instant.month && instant.month ≤ 12 && 1 ≤ instant.day &&
    instant.day ≤ daysInMonth instant.year instant.month && instant.hour ≤ 23 &&
    instant.minute ≤ 59 && instant.second ≤ 59

/-- A number that orders the instants of the calendar. -/
def rank (instant : Instant) : Nat :=
  (((((instant.year * 13 + instant.month) * 32 + instant.day) * 24 + instant.hour) * 60 +
    instant.minute) * 60 + instant.second) * 1000000 + instant.microsecond

end Instant

/-- The rank of the instant a text spells, when it spells one. -/
def parseTimestamp (text : String) : Option Nat :=
  ((instantOf text.toList).filter Instant.isCalendar).map Instant.rank

example : (parseTimestamp "2024-02-29T23:59:59.5Z").getD 0 <
    (parseTimestamp "2024-03-01T00:00:00Z").getD 0 := by decide +kernel

end OmniviaCore.Lib
