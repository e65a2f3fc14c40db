import Persistence.Calendar.Basic

/-!
# Writing dates and times

Years from 0 to 9999 have four digits, all others a sign and at least four digits.  A fraction of
a second is written with three digits (cut, not rounded), with nine digits, or with as few of
0, 3, 6 and 9 digits as lose nothing.
-/

namespace Persistence

/-- A natural in decimal, filled up with zeros to a width. -/
def padded (width n : Nat) : String :=
  let digits := toString n
  String.ofList (List.replicate (width - digits.length) '0') ++ digits

/-- The text of a year. -/
def yearText (year : Int) : String :=
  if year < 0 then "-" ++ padded 4 year.natAbs
  else if 9999 < year then "+" ++ padded 4 year.natAbs
  else padded 4 year.natAbs

/-- `YYYY-MM-DD` -/
def Date.text (d : Date) : String :=
  yearText d.year ++ "-" ++ padded 2 d.month ++ "-" ++ padded 2 d.day

namespace TimeOfDay

/-- `HH:MM:SS` -/
def clockText (t : TimeOfDay) : String :=
  padded 2 t.hour ++ ":" ++ padded 2 t.minute ++ ":" ++ padded 2 t.second

/-- `HH:MM:SS.mmm`, the fraction cut to milliseconds. -/
def milliText (t : TimeOfDay) : String :=
  t.clockText ++ "." ++ padded 3 (t.nano / 1000000)

/-- `HH:MM:SS.nnnnnnnnn` -/
def nanoText (t : TimeOfDay) : String :=
  t.clockText ++ "." ++ padded 9 t.nano

/-- `HH:MM:SS` and the fraction in groups of three digits, as many as it needs. -/
def groupedText (t : TimeOfDay) : String :=
  t.clockText ++
    if t.nano = 0 then ""
    else if t.nano % 1000000 = 0 then "." ++ padded 3 (t.nano / 1000000)
    else if t.nano % 1000 = 0 then "." ++ padded 6 (t.nano / 1000)
    else "." ++ padded 9 t.nano

end TimeOfDay

namespace DateTime

/-- `YYYY-MM-DD HH:MM:SS.mmm`, as SQL literals have it. -/
def sqlText (t : DateTime) : String := t.date.text ++ " " ++ t.time.milliText

/-- `YYYY-MM-DDTHH:MM:SS` and as much of a fraction as loses nothing. -/
def isoText (t : DateTime) : String := t.date.text ++ "T" ++ t.time.groupedText

/-- `YYYY-MM-DDTHH:MM:SS.nnnnnnnnn` -/
def nanoText (t : DateTime) : String := t.date.text ++ "T" ++ t.time.nanoText

end DateTime

end Persistence
