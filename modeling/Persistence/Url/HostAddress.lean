import Persistence.Number.Reading
import Persistence.Text.Percent

/-!
# Host addresses

A host is a name or an address of eight 16-bit pieces between brackets.  Of an address, a run of
zero pieces may be left out, and the last two pieces may be written as four decimal numbers.  It is
written back in its shortest form.
-/

namespace Persistence.Url

open Persistence.Text

/-! ## Reading -/

/-- The texts between the places where a character stands. -/
def splitAtChar (separator : Char) : List Char → List (List Char)
  | [] => [[]]
  | c :: text =>
      if c = separator then [] :: splitAtChar separator text
      else
        match splitAtChar separator text with
        | [] => [[c]]
        | word :: words => (c :: word) :: words

/-- A piece of an address: one to four hexadecimal digits. -/
def readPiece? (text : List Char) : Option Nat := do
  if text.isEmpty || 4 < text.length then none
  else text.foldlM (fun n c => (hexValue? c).map fun digit => n * 16 + digit) 0

/-- A decimal number of one byte, without zeros in front. -/
def readByte? (text : List Char) : Option Nat := do
  let n ← readNat? text
  if n < 256 ∧ (text.length = 1 ∨ text.head? ≠ some '0') then some n else none

/-- The two pieces that four decimal numbers with points between them stand for. -/
def readDotted? (text : List Char) : Option (List Nat) := do
  match ← (splitAtChar '.' text).mapM readByte? with
  | [a, b, c, d] => some [a * 256 + b, c * 256 + d]
  | _ => none

/-- Pieces with colons between them; only the last may be dotted, and no text has no pieces. -/
def readPieces? (dotted : Bool) (text : List Char) : Option (List Nat) :=
  if text.isEmpty then some []
  else
    let words := splitAtChar ':' text
    let last := words.getLast?.getD []
    if dotted && last.contains '.' then do
      some ((← words.dropLast.mapM readPiece?) ++ (← readDotted? last))
    else words.mapM readPiece?

/-- What stands before and behind the first double colon. -/
def splitAtGap? : List Char → Option (List Char × List Char)
  | [] => none
  | ':' :: ':' :: text => some ([], text)
  | c :: text => (splitAtGap? text).map fun (before, behind) => (c :: before, behind)

/-- The eight pieces of an address. -/
def readAddress? (text : List Char) : Option (List Nat) := do
  match splitAtGap? text with
  | none =>
      let pieces ← readPieces? true text
      if pieces.length = 8 then some pieces else none
  | some (before, behind) =>
      let front ← readPieces? false before
      let back ← readPieces? true behind
      let known := front.length + back.length
      if known < 8 then some (front ++ List.replicate (8 - known) 0 ++ back) else none

/-! ## Writing -/

/-- The number of zeros at the front of some pieces. -/
def leadingZeros : List Nat → Nat
  | 0 :: pieces => leadingZeros pieces + 1
  | _ => 0

/-- The start and the length of the longest run of zeros, the first of them if there are several;
`index` is the place of the first piece. -/
def longestGap (index : Nat) : List Nat → Nat × Nat
  | [] => (index, 0)
  | piece :: pieces =>
      let run := leadingZeros (piece :: pieces)
      let rest := longestGap (index + 1) pieces
      if rest.2 ≤ run then (index, run) else rest

/-- Pieces in hexadecimal with colons between them. -/
def piecesText (pieces : List Nat) : List Char :=
  List.intercalate [':'] (pieces.map (Nat.toDigits 16))

/-- An address between brackets; a run of two zeros or more is left out. -/
def addressText (pieces : List Nat) : List Char :=
  let (start, run) := longestGap 0 pieces
  let body :=
    if run < 2 then piecesText pieces
    else piecesText (pieces.take start) ++ ':' :: ':' :: piecesText (pieces.drop (start + run))
  '[' :: body ++ [']']

/-! ## Hosts -/

/-- The characters that no name of a host has. -/
def forbiddenInHost : List Char :=
  ['\x00', '\t', '\n', '\r', ' ', '#', '/', ':', '<', '>', '?', '@', '[', '\\', ']', '^', '|']

/-- The host that a text names, in its normal form. -/
def readHost? (text : List Char) : Option (List Char) :=
  match text with
  | '[' :: inner =>
      if inner.getLast? = some ']' then (readAddress? inner.dropLast).map addressText else none
  | _ => if text.any (· ∈ forbiddenInHost) then none else some (percentPrintable text)

end Persistence.Url
