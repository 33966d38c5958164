import ScriptWorkspace.Text.Basic

/-
  Calendar dates and times of day.

  A date is written with its year, month and day, a time with
  its hour, minute and second and, if there are any, its
  microseconds. An offset from universal time is counted in
  minutes.

  Key definitions include:
    * `Date`
    * `Date.exists`
    * `Date.render`
    * `TimeOfDay`
    * `TimeOfDay.render`
    * `renderOffset`
-/

namespace ScriptWorkspace

------------------------------------------------------------
-- Dates
------------------------------------------------------------

/- A day of a year. -/
structure Date where
  year : Nat
  month : Nat
  day : Nat
deriving DecidableEq, Repr

/- The year has a day more than others. -/
def isLeapYear (year : Nat) : Bool :=
  year % 4 == 0 && (year % 100 != 0 || year % 400 == 0)

/- The number of days of a month. -/
def daysInMonth (year month : Nat) : Nat :=
  if month = 2 then
    if isLeapYear year then 29 else 28
  else if month = 4 ∨ month = 6 ∨ month = 9 ∨ month = 11 then
    30
  else
    31

/- The date is in the calendar, which has no year zero. -/
def Date.exists (date : Date) : Bool :=
  1 ≤ date.year && 1 ≤ date.month && date.month ≤ 12 &&
    1 ≤ date.day &&
    date.day ≤ daysInMonth date.year date.month

/- A number with at least two digits. -/
def twoDigits (n : Nat) : Text :=
  Text.padZero 2 (Text.ofNat n)

/- Year, month and day with hyphens between them. -/
def Date.render (date : Date) : Text :=
  Text.padZero 4 (Text.ofNat date.year) ++ '-' ::
    twoDigits date.month ++ '-' :: twoDigits date.day

------------------------------------------------------------
-- Times
------------------------------------------------------------

/- A time of a day. -/
structure TimeOfDay where
  hour : Nat
  minute : Nat
  second : Nat
  microsecond : Nat
deriving DecidableEq, Repr

/- Hour, minute and second, and what is left of a second. -/
def TimeOfDay.render (time : TimeOfDay) : Text :=
  twoDigits time.hour ++ ':' :: twoDigits time.minute ++
    ':' :: twoDigits time.second ++
    if time.microsecond = 0 then
      []
    else
      '.' :: Text.padZero 6 (Text.ofNat time.microsecond)

/- An offset from universal time, given in minutes. -/
def renderOffset (minutes : Int) : Text :=
  (if minutes < 0 then '-' else '+') ::
    twoDigits (minutes.natAbs / 60) ++
      ':' :: twoDigits (minutes.natAbs % 60)

end ScriptWorkspace
