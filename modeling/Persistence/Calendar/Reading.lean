import Persistence.Calendar.Basic
import Persistence.Number.Reading
import Persistence.Text.Blank

/-!
# Reading dates and times

Two grammars are read.  A pattern is a list of items: numbers, which may stand behind blanks and
may be shorter than their full width, literal characters, optional blanks and an optional
fraction.  A zoned moment has fixed widths throughout and ends in an offset from UTC.

Main definitions:

- `DateTime.readIso?`: `YYYY-MM-DDTHH:MM:SS[.fraction]`, blanks allowed between the items.
- `DateTime.readSql?`: `YYYY-MM-DD HH:MM:SS[.fraction]`.
- `DateTime.readZoned?`: the RFC 3339 form, converted to UTC.
-/

namespace Persistence.Calendar

open Persistence.Text

/-! ## Pieces -/

/-- The number of the leading digits of a text, `least` to `most` of them. -/
def takeNumber? (least most : Nat) (text : List Char) : Option (Nat × List Char) :=
  let digits := (text.take most).takeWhile Char.isDigit
  if digits.length < least then none
  else some (digitsValue digits, text.drop digits.length)

/-- A number of one digit or more, however long. -/
def takeLongNumber? (text : List Char) : Option (Nat × List Char) :=
  takeNumber? 1 text.length text

/-- The text behind a character that it has to start with. -/
def takeChar? (c : Char) : List Char → Option (List Char)
  | [] => none
  | d :: text => if d = c then some text else none

/-- The nanoseconds of a fraction behind its point: one digit at least, of which nine count. -/
def takeFraction? (text : List Char) : Option (Nat × List Char) := do
  let digits := (text.take 9).takeWhile Char.isDigit
  if digits.isEmpty then none
  else
    some (digitsValue digits * Nat.pow 10 (9 - digits.length),
      (text.drop digits.length).dropWhile Char.isDigit)

/-- A fraction with its point; a text that starts with no point has the fraction zero. -/
def takeOptionalFraction? : List Char → Option (Nat × List Char)
  | '.' :: text => takeFraction? text
  | text => some (0, text)

/-- A year: of any length behind a sign, else of at most four digits. -/
def takeYear? : List Char → Option (Int × List Char)
  | '-' :: text => (takeLongNumber? text).map fun (n, text) => (-(n : Int), text)
  | '+' :: text => (takeLongNumber? text).map fun (n, text) => ((n : Int), text)
  | text => (takeNumber? 1 4 text).map fun (n, text) => ((n : Int), text)

/-! ## Patterns -/

/-- What a pattern fills in. -/
structure Parts where
  year : Int
  month : Nat
  day : Nat
  hour : Nat
  minute : Nat
  second : Nat
  nano : Nat

/-- The parts before anything is read. -/
def Parts.initial : Parts := ⟨0, 0, 0, 0, 0, 0, 0⟩

/-- The numbers of at most two digits. -/
inductive Slot
  | month
  | day
  | hour
  | minute
  | second

/-- The parts with one of the two-digit numbers filled in. -/
def Parts.fill (p : Parts) (n : Nat) : Slot → Parts
  | .month => { p with month := n }
  | .day => { p with day := n }
  | .hour => { p with hour := n }
  | .minute => { p with minute := n }
  | .second => { p with second := n }

/-- An item of a pattern. -/
inductive Item
  | year
  | slot (s : Slot)
  | char (c : Char)
  | blank
  | fraction

/-- Read one item off the front of a text. -/
def Item.take? (item : Item) (p : Parts) (text : List Char) : Option (Parts × List Char) :=
  match item with
  | .year => (takeYear? (dropBlank text)).map fun (n, text) => ({ p with year := n }, text)
  | .slot s => (takeNumber? 1 2 (dropBlank text)).map fun (n, text) => (p.fill n s, text)
  | .char c => (takeChar? c text).map fun text => (p, text)
  | .blank => some (p, dropBlank text)
  | .fraction => (takeOptionalFraction? text).map fun (n, text) => ({ p with nano := n }, text)

/-- Read the items of a pattern off the front of a text, one after the other. -/
def takeParts? : List Item → Parts → List Char → Option (Parts × List Char)
  | [], p, text => some (p, text)
  | item :: items, p, text =>
      match item.take? p text with
      | none => none
      | some (p, text) => takeParts? items p text

/-- Read a whole text by a pattern. -/
def readParts? (items : List Item) (text : List Char) : Option Parts :=
  match takeParts? items Parts.initial text with
  | some (p, []) => some p
  | _ => none

/-- The date of some parts, if it exists. -/
def Parts.date? (p : Parts) : Option Date := Date.of? p.year p.month p.day

/-- The time of some parts, if it exists. -/
def Parts.time? (p : Parts) : Option TimeOfDay := TimeOfDay.of? p.hour p.minute p.second p.nano

/-- The moment of some parts, if it exists. -/
def Parts.dateTime? (p : Parts) : Option DateTime := do some ⟨← p.date?, ← p.time?⟩

/-- `YYYY-MM-DD` with blanks in front of the numbers and of the dashes. -/
def dayPattern : List Item :=
  [.year, .blank, .char '-', .slot .month, .blank, .char '-', .slot .day]

/-- `HH:MM:SS[.fraction]` with blanks anywhere between the items. -/
def looseTimePattern : List Item :=
  [.slot .hour, .blank, .char ':', .slot .minute, .blank, .char ':', .slot .second, .fraction,
   .blank]

/-- `YYYY-MM-DD` with blanks anywhere between the items. -/
def looseDatePattern : List Item := dayPattern ++ [.blank]

/-- `YYYY-MM-DDTHH:MM:SS[.fraction]` with blanks anywhere between the items. -/
def isoPattern : List Item := looseDatePattern ++ .char 'T' :: looseTimePattern

/-- `YYYY-MM-DD HH:MM:SS[.fraction]` -/
def sqlPattern : List Item :=
  [.year, .char '-', .slot .month, .char '-', .slot .day, .blank, .slot .hour, .char ':',
   .slot .minute, .char ':', .slot .second, .fraction]

/-- `YYYY-MM-DD` -/
def datePattern : List Item := [.year, .char '-', .slot .month, .char '-', .slot .day]

/-! ## Zoned moments -/

/-- The largest offset from UTC, in minutes. -/
def largestOffset : Int := 23 * 60 + 59

/-- An offset from UTC in minutes: `Z`, or a sign, two digits of hours, what `separator` takes, and
two digits of minutes below 60.  The minus sign U+2212 counts as a minus. -/
def takeOffset? (separator : List Char → Option (List Char)) :
    List Char → Option (Int × List Char)
  | [] => none
  | c :: text =>
      if c = 'Z' || c = 'z' then some (0, text)
      else do
        let negative ←
          if c = '+' then some false
          else if c = '-' || c = '\u2212' then some true
          else none
        let (hours, text) ← takeNumber? 2 2 text
        let text ← separator text
        let (minutes, text) ← takeNumber? 2 2 text
        if 60 ≤ minutes then none
        else
          let offset : Int := hours * 60 + minutes
          if largestOffset < offset then none
          else some (if negative then -offset else offset, text)

/-- The character between a date and a time. -/
def takeSeparator? : List Char → Option (List Char)
  | [] => none
  | c :: text => if c = 'T' || c = 't' || c = ' ' then some text else none

/-- A moment with an offset, as RFC 3339 has it, in UTC. -/
def readZoned? (text : List Char) : Option DateTime := do
  let (year, text) ← takeNumber? 4 4 text
  let text ← takeChar? '-' text
  let (month, text) ← takeNumber? 2 2 text
  let text ← takeChar? '-' text
  let (day, text) ← takeNumber? 2 2 text
  let text ← takeSeparator? text
  let (hour, text) ← takeNumber? 2 2 text
  let text ← takeChar? ':' text
  let (minute, text) ← takeNumber? 2 2 text
  let text ← takeChar? ':' text
  let (second, text) ← takeNumber? 2 2 text
  let (nano, text) ← takeOptionalFraction? text
  let (offset, text) ← takeOffset? (takeChar? ':') text
  if text.isEmpty then
    let moment ← Parts.dateTime? ⟨year, month, day, hour, minute, second, nano⟩
    moment.back? offset
  else none

/-- Any number of colons and blanks. -/
def dropColons (text : List Char) : Option (List Char) :=
  some (text.dropWhile fun c => c = ':' || isBlank c)

/-- A moment with an offset, in UTC, with blanks between the items and numbers that may be shorter
than their full width. -/
def readLooseZoned? (text : List Char) : Option DateTime := do
  let (p, text) ← takeParts? dayPattern Parts.initial text
  let text ← takeSeparator? text
  let (p, text) ← takeParts? looseTimePattern p text
  let (offset, text) ← takeOffset? dropColons text
  if (dropBlank text).isEmpty then
    let moment ← p.dateTime?
    moment.back? offset
  else none

end Persistence.Calendar

namespace Persistence

open Calendar

/-- The moment that a text in the ISO pattern names. -/
def DateTime.readIso? (text : String) : Option DateTime :=
  (readParts? isoPattern text.toList).bind Parts.dateTime?

/-- The moment that a text in the SQL pattern names. -/
def DateTime.readSql? (text : String) : Option DateTime :=
  (readParts? sqlPattern text.toList).bind Parts.dateTime?

/-- The moment that a text with an offset names, in UTC. -/
def DateTime.readZoned? (text : String) : Option DateTime :=
  Calendar.readZoned? text.toList

/-- The moment that a loosely written text with an offset names, in UTC. -/
def DateTime.readLooseZoned? (text : String) : Option DateTime :=
  Calendar.readLooseZoned? text.toList

/-- The date that a text names. -/
def Date.read? (text : String) : Option Date :=
  (readParts? datePattern text.toList).bind Parts.date?

/-- The date that a text with blanks between its parts names. -/
def Date.readLoose? (text : String) : Option Date :=
  (readParts? looseDatePattern text.toList).bind Parts.date?

/-- The time of day that a text names. -/
def TimeOfDay.readLoose? (text : String) : Option TimeOfDay :=
  (readParts? looseTimePattern text.toList).bind Parts.time?

end Persistence
