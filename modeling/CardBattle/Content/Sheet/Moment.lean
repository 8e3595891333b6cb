import CardBattle.Numeral

/-!
# CardBattle.Content.Sheet.Moment

Dates and times of settings sheets: a day `YYYY-MM-DD`, a time of day `hh:mm` with seconds and
their fraction if need be, or both with a `T` or a space between them and perhaps a shift from
universal time behind.

* `Moment.isMoment`: whether characters are a day, a time of day or both.
-/

namespace CardBattle
namespace Sheet
namespace Moment

/-- A number of exactly so many digits. -/
def fixed? (count : Nat) (cs : List Char) : Option Nat :=
  if cs.length = count then Numeral.natural? cs else none

/-- A number of two digits, at most `greatest`. -/
def isUpTo (greatest : Nat) (cs : List Char) : Bool :=
  match fixed? 2 cs with
  | none => false
  | some n => n ≤ greatest

def isLeap (year : Nat) : Bool := year % 4 = 0 && (year % 100 != 0 || year % 400 = 0)

/-- The days of a month of a year; none for months that do not exist. -/
def daysIn (year month : Nat) : Nat :=
  if month = 2 then if isLeap year then 29 else 28
  else if month = 4 || month = 6 || month = 9 || month = 11 then 30
  else if 1 ≤ month && month ≤ 12 then 31
  else 0

def isDay (cs : List Char) : Bool :=
  match Text.fields '-' cs with
  | [year, month, day] =>
    match fixed? 4 year, fixed? 2 month, fixed? 2 day with
    | some year, some month, some day => 1 ≤ day && day ≤ daysIn year month
    | _, _, _ => false
  | _ => false

/-- Seconds up to a leap second, with their fraction. -/
def isSeconds (cs : List Char) : Bool :=
  match Text.cut '.' cs with
  | none => isUpTo 60 cs
  | some (whole, fraction) => isUpTo 60 whole && (Numeral.natural? fraction).isSome

def isTime (cs : List Char) : Bool :=
  match Text.fields ':' cs with
  | [hour, minute] => isUpTo 23 hour && isUpTo 59 minute
  | [hour, minute, seconds] => isUpTo 23 hour && isUpTo 59 minute && isSeconds seconds
  | _ => false

/-- Nothing, universal time, or hours and minutes before or behind it. -/
def isShift (cs : List Char) : Bool :=
  match cs with
  | [] => true
  | c :: cs =>
    if c = 'Z' || c = 'z' then cs.isEmpty
    else if c = '+' || c = '-' then
      match Text.fields ':' cs with
      | [hours, minutes] => isUpTo 23 hours && isUpTo 59 minutes
      | _ => false
    else false

def inTime (c : Char) : Bool := (Numeral.digit? c).isSome || c = ':' || c = '.'

def isMoment (cs : List Char) : Bool :=
  isTime cs || (isDay (cs.take 10) &&
    match cs.drop 10 with
    | [] => true
    | c :: cs =>
      (c = 'T' || c = 't' || c = ' ') && isTime (cs.takeWhile inTime) &&
        isShift (cs.dropWhile inTime))

end Moment
end Sheet
end CardBattle
