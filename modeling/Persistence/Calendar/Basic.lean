/-!
# Dates and times of day

Dates of the proleptic Gregorian calendar, times of day down to the nanosecond, and pairs of both.
Second 60 is a leap second; it is kept and never carried into the next minute.  Validity is part
of the types.
-/

namespace Persistence

/-- Leap years of the Gregorian calendar. -/
def isLeapYear (year : Int) : Bool :=
  year % 4 == 0 && (year % 100 != 0 || year % 400 == 0)

/-- The number of days of a month; a month outside 1 to 12 has none. -/
def daysInMonth (year : Int) (month : Nat) : Nat :=
  match month with
  | 2 => if isLeapYear year then 29 else 28
  | 4 | 6 | 9 | 11 => 30
  | 1 | 3 | 5 | 7 | 8 | 10 | 12 => 31
  | _ => 0

/-- The first year that dates reach. -/
def firstYear : Int := -262143

/-- The last year that dates reach. -/
def lastYear : Int := 262142

/-- The days that exist. -/
def Date.Valid (year : Int) (month day : Nat) : Prop :=
  firstYear ≤ year ∧ year ≤ lastYear ∧ 1 ≤ day ∧ day ≤ daysInMonth year month

instance (year : Int) (month day : Nat) : Decidable (Date.Valid year month day) :=
  inferInstanceAs (Decidable (_ ∧ _))

/-- A day of the calendar. -/
structure Date where
  year : Int
  month : Nat
  day : Nat
  valid : Date.Valid year month day
deriving DecidableEq

/-- The times that exist in a day.  A leap second may stand at the end of any minute of the day.
Types of times that count the nanoseconds of a second past one thousand million have leap seconds
in the middle of a minute, too; these are left out, since no text and no bytes that are read make
one. -/
def TimeOfDay.Valid (hour minute second nano : Nat) : Prop :=
  hour < 24 ∧ minute < 60 ∧ second ≤ 60 ∧ nano < 1000000000

instance (hour minute second nano : Nat) : Decidable (TimeOfDay.Valid hour minute second nano) :=
  inferInstanceAs (Decidable (_ ∧ _))

/-- A time of day. -/
structure TimeOfDay where
  hour : Nat
  minute : Nat
  second : Nat
  nano : Nat
  valid : TimeOfDay.Valid hour minute second nano
deriving DecidableEq

/-- A day and a time on it, without a time zone. -/
structure DateTime where
  date : Date
  time : TimeOfDay
deriving DecidableEq

namespace Date

/-- The date of a year, month and day, if it exists. -/
def of? (year : Int) (month day : Nat) : Option Date :=
  if h : Valid year month day then some ⟨year, month, day, h⟩ else none

/-- The day after, up to the last day of the calendar. -/
def next? (d : Date) : Option Date :=
  if d.day < daysInMonth d.year d.month then of? d.year d.month (d.day + 1)
  else if d.month < 12 then of? d.year (d.month + 1) 1
  else of? (d.year + 1) 1 1

/-- The day before, down to the first day of the calendar. -/
def previous? (d : Date) : Option Date :=
  if 1 < d.day then of? d.year d.month (d.day - 1)
  else if 1 < d.month then of? d.year (d.month - 1) (daysInMonth d.year (d.month - 1))
  else of? (d.year - 1) 12 31

end Date

namespace TimeOfDay

/-- The time of an hour, minute, second and nanosecond, if it exists. -/
def of? (hour minute second nano : Nat) : Option TimeOfDay :=
  if h : Valid hour minute second nano then some ⟨hour, minute, second, nano, h⟩ else none

end TimeOfDay

namespace DateTime

/-- The moment that lies `minutes` before the given one on the clock.  Seconds are not touched, so
a leap second stays one.  Shifts are shorter than a day. -/
def back? (t : DateTime) (minutes : Int) : Option DateTime := do
  let shifted : Int := t.time.hour * 60 + t.time.minute - minutes
  let date ←
    if shifted < 0 then t.date.previous?
    else if 1440 ≤ shifted then t.date.next?
    else some t.date
  let minuteOfDay := (shifted % 1440).toNat
  let time ← TimeOfDay.of? (minuteOfDay / 60) (minuteOfDay % 60) t.time.second t.time.nano
  some ⟨date, time⟩

end DateTime

end Persistence
