/-
**Dates and times.**

A date is checked against the calendar when it is made, and so is a time.  A time may have an
offset from universal time, in minutes; two times with offsets are the same if they are the same
instant.

Main definitions:

* `ReleaseFetch.Date`, `ReleaseFetch.Date.check` — dates;
* `ReleaseFetch.Moment`, `ReleaseFetch.Moment.check` — times of a date;
* `ReleaseFetch.Moment.isSame` — sameness of times;
* `ReleaseFetch.Date.shown`, `ReleaseFetch.Moment.shown` — as they are named in messages.
-/

import ReleaseFetch.Text.Split

set_option autoImplicit false

namespace ReleaseFetch

/-! ### Dates -/

/-- A day of the calendar. -/
structure Date where
  year : Nat
  month : Nat
  day : Nat
  deriving DecidableEq

namespace Date

/-- The year has a twenty-ninth of February. -/
def isLeap (year : Nat) : Bool := year % 4 = 0 && (year % 100 != 0 || year % 400 = 0)

/-- The number of days of a month. -/
def monthLength (year month : Nat) : Nat :=
  if month = 2 then (if isLeap year then 29 else 28)
  else if [4, 6, 9, 11].contains month then 30
  else 31

/-- What is wrong with a date. -/
def check (d : Date) : Option String :=
  if d.year = 0 then some "year 0 is out of range"
  else if d.month = 0 || d.month > 12 then some "month must be in 1..12"
  else if d.day = 0 || d.day > monthLength d.year d.month then
    some "day is out of range for month"
  else none

/-- The number of days before the date, from the start of the calendar. -/
def dayNumber (d : Date) : Nat :=
  let y := d.year - 1
  let months := (List.range (d.month - 1)).map fun m => monthLength d.year (m + 1)
  y * 365 + y / 4 - y / 100 + y / 400 + months.foldr (· + ·) 0 + d.day - 1

/-- The date as it is named in a message. -/
def shown (d : Date) : String := s!"datetime.date({d.year}, {d.month}, {d.day})"

end Date

/-! ### Times -/

/-- A time of a day, with microseconds and possibly an offset in minutes. -/
structure Moment where
  date : Date
  hour : Nat
  minute : Nat
  second : Nat
  micro : Nat
  offset : Option Int
  deriving DecidableEq

namespace Moment

/-- A span of minutes as it is named in a message. -/
def spanShown (minutes : Int) : String :=
  let days := Int.fdiv minutes 1440
  let seconds := (minutes - days * 1440) * 60
  let parts :=
    (if days != 0 then [s!"days={days}"] else []) ++
      (if seconds != 0 then [s!"seconds={seconds}"] else [])
  let span := if parts.isEmpty then "0" else Text.join ", " parts
  s!"datetime.timedelta({span})"

/-- What is wrong with an offset: it has to be less than a day. -/
def offsetFault? (minutes : Int) : Option String :=
  if minutes.natAbs < 1440 then none
  else
    some ("offset must be a timedelta strictly between -timedelta(hours=24) and " ++
      s!"timedelta(hours=24), not {spanShown minutes}.")

/-- What is wrong with a time.  The offset is looked at first. -/
def check (m : Moment) : Option String :=
  match m.offset.bind offsetFault? with
  | some fault => some fault
  | none =>
    match m.date.check with
    | some fault => some fault
    | none =>
      if m.hour > 23 then some "hour must be in 0..23"
      else if m.minute > 59 then some "minute must be in 0..59"
      else if m.second > 59 then some "second must be in 0..59"
      else none

/-- The minutes since the start of the calendar, in universal time if there is an offset. -/
def minutes (m : Moment) : Int :=
  (m.date.dayNumber * 1440 + m.hour * 60 + m.minute : Nat) - m.offset.getD 0

/-- The two are the same time: the same instant with offsets, the same digits without. -/
def isSame (m n : Moment) : Bool :=
  m.offset.isSome == n.offset.isSome && m.minutes == n.minutes && m.second == n.second &&
    m.micro == n.micro

/-- An offset as it is named in a message. -/
def offsetShown (minutes : Int) : String :=
  let zone :=
    if minutes = 0 then "datetime.timezone.utc" else s!"datetime.timezone({spanShown minutes})"
  s!", tzinfo={zone}"

/-- The time as it is named in a message. -/
def shown (m : Moment) : String :=
  let seconds :=
    if m.micro != 0 then s!", {m.second}, {m.micro}"
    else if m.second != 0 then s!", {m.second}"
    else ""
  let zone := (m.offset.map offsetShown).getD ""
  s!"datetime.datetime({m.date.year}, {m.date.month}, {m.date.day}, {m.hour}, {m.minute}" ++
    s!"{seconds}{zone})"

end Moment

end ReleaseFetch
