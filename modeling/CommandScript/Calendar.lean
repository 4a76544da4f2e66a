import CommandScript.Number.Integer

/-!
# The calendar

Points in time are counted in milliseconds from the start of 1970, backward too, and shown as a
date of the Gregorian calendar, carried on beyond its introduction, and a time of day.

## Main definitions

* `Calendar.Date`, `Calendar.dateOfDay` — the date of a day, counted from the first of 1970.
* `Calendar.Moment`, `Calendar.momentOf` — date and time of day of a point in time.
* `Calendar.Moment.write` — how a point in time is shown.
-/

set_option autoImplicit false

namespace CommandScript.Calendar

/-- A day of the calendar. -/
structure Date where
  /-- The year; zero and less before the first one. -/
  year : Int
  /-- The month, from one. -/
  month : Int
  /-- The day of the month, from one. -/
  day : Int
deriving DecidableEq, Repr

/-- The date of a day, counted from the first day of 1970.

Years are taken to begin in March, so that the leap day is the last day of a year, and are counted
in spans of 400 years, which all have the same number of days. -/
def dateOfDay (days : Int) : Date :=
  let shifted := days + 719468
  let span := shifted / 146097
  let dayOfSpan := shifted % 146097
  let yearOfSpan :=
    (dayOfSpan - dayOfSpan / 1460 + dayOfSpan / 36524 - dayOfSpan / 146096) / 365
  let dayOfYear := dayOfSpan - (365 * yearOfSpan + yearOfSpan / 4 - yearOfSpan / 100)
  let monthFromMarch := (5 * dayOfYear + 2) / 153
  let day := dayOfYear - (153 * monthFromMarch + 2) / 5 + 1
  let month := if monthFromMarch < 10 then monthFromMarch + 3 else monthFromMarch - 9
  let year := yearOfSpan + span * 400 + (if month ≤ 2 then 1 else 0)
  ⟨year, month, day⟩

/-- A point in time. -/
structure Moment where
  /-- The day, counted from the first day of 1970. -/
  days : Int
  /-- The hour of the day. -/
  hour : Int
  /-- The minute of the hour. -/
  minute : Int
  /-- The second of the minute. -/
  second : Int
  /-- The millisecond of the second. -/
  milli : Int
deriving DecidableEq, Repr

/-- The point in time that many milliseconds after the start of 1970. -/
def momentOf (millis : Int) : Moment :=
  let seconds := millis / 1000
  let ofDay := seconds % 86400
  { days := seconds / 86400
    hour := ofDay / 3600
    minute := ofDay % 3600 / 60
    second := ofDay % 60
    milli := millis % 1000 }

/-- The date of a point in time. -/
def Moment.date (m : Moment) : Date :=
  dateOfDay m.days

/-- An integer with zeros before its digits, so that it has at least `width` characters, its sign
among them. -/
def padded (width : Nat) (n : Int) : String :=
  let digits := Number.writeNat n.natAbs
  let sign := if n < 0 then "-" else ""
  sign ++ String.ofList (List.replicate (width - digits.length - sign.length) '0') ++ digits

/-- A point in time as it is shown. -/
def Moment.write (m : Moment) : String :=
  let d := m.date
  padded 4 d.year ++ "-" ++ padded 2 d.month ++ "-" ++ padded 2 d.day ++ " " ++
    padded 2 m.hour ++ ":" ++ padded 2 m.minute ++ ":" ++ padded 2 m.second ++ "." ++
    padded 3 m.milli ++ " UTC"

end CommandScript.Calendar
