import OnePass.Toml.Number

/-
  Dates and times.

  A date has four digits for the year and two for the month
  and the day, which has to exist in that month. A time has
  two digits each for hour, minute and second, and perhaps a
  fraction. Both may stand alone; a date may be followed by
  a time, and that by an offset.

  Key definitions include:
    * `Toml.daysInMonth`
    * `Toml.Reader.datetime`
-/

------------------------------------------------------------
-- The Calendar
------------------------------------------------------------

namespace OnePass

namespace Toml

/- The years with a leap day. -/
def isLeapYear (year : Nat) : Bool :=
  year % 4 = 0 && (year % 100 ≠ 0 || year % 400 = 0)

/- Number of days in a month. -/
def daysInMonth (year month : Nat) : Nat :=
  if month = 2 then
    if isLeapYear year then 29 else 28
  else if month ∈ [4, 6, 9, 11] then
    30
  else
    31

end Toml

end OnePass

------------------------------------------------------------
-- Reading
------------------------------------------------------------

namespace OnePass

namespace Toml

namespace Reader

/- A number with so many digits, in a range. -/
def fixedNumber
    (count least most : Nat) : Reader Nat := do
  let number := numberOf 10 (← exactly Char.isDigit count)
  if least ≤ number && number ≤ most then
    return number
  else
    failure

/- A date. -/
def date : Reader Unit := do
  let year ← fixedNumber 4 0 9999
  char '-'
  let month ← fixedNumber 2 1 12
  char '-'
  let _ ← fixedNumber 2 1 (daysInMonth year month)

/- A fraction of a second. -/
def secondFraction : Reader Unit := do
  char '.'
  let _ ← satisfy Char.isDigit
  let _ ← run Char.isDigit

/- A time of day, in which a leap second may be shown. -/
def time : Reader Unit := do
  let _ ← fixedNumber 2 0 23
  char ':'
  let _ ← fixedNumber 2 0 59
  char ':'
  let _ ← fixedNumber 2 0 60
  let _ ← optional secondFraction

/- The distance of a time from universal time. -/
def offset : Reader Unit := do
  match ← satisfy fun c => c ∈ ['Z', 'z', '+', '-'] with
  | 'Z' | 'z' => return ()
  | _ =>
      let _ ← fixedNumber 2 0 23
      char ':'
      let _ ← fixedNumber 2 0 59

/- A time after a date. -/
def timeOfDate : Reader Unit := do
  let _ ← satisfy fun c => c ∈ ['T', 't', ' ']
  time
  let _ ← optional offset

/- A date with or without a time. -/
def dateWithTime : Reader Unit := do
  date
  let _ ← optional timeOfDate

/- A date, a time, or both, as it is written. -/
def datetime : Reader String := do
  return String.ofList (← taken (dateWithTime <|> time))

end Reader

end Toml

end OnePass
