import Persistence.MySql.Column
import Persistence.Operation.Basic

/-!
# Replies

A reply of the server to one statement has parts: the outcome of a write, a table of rows, or a
failure.  `Output.ofReply` puts the parts together: rows are appended, affected rows add up, and
the last insert id is the last one that is not zero.
-/

namespace Persistence

/-- A part of a reply. -/
inductive MySql.ReplyPart
  | written (affectedRows insertId : Nat)
  | rows (columns : List MySql.ColumnInfo) (rows : List (List MySql.Cell))
  | failed (text : String)

/-- The values of a row; of two columns with one name the later is kept. -/
def Row.ofCells (columns : List MySql.ColumnInfo) (cells : List MySql.Cell) :
    Except DbError Row :=
  (columns.zip cells).foldlM
    (fun row (c, cell) =>
      match c.value? cell with
      | some value => .ok (Keyed.put c.name value row)
      | none => .error .deserialization)
    []

namespace Output

/-- The answer to a statement before anything is received. -/
def empty : Output := ⟨[], 0, none, 0⟩

/-- Append a row of so many columns. -/
def addRow (o : Output) (columnCount : Nat) (row : Row) : Output :=
  { o with
    rows := o.rows ++ [row]
    fieldCount := if o.fieldCount = 0 then columnCount else o.fieldCount }

/-- Add the outcome of a write. -/
def addWrite (o : Output) (affectedRows insertId : Nat) : Output :=
  { o with
    affectedRows := o.affectedRows + affectedRows
    lastInsertId := if 0 < insertId then some insertId else o.lastInsertId }

/-- Add a part of a reply. -/
def addPart (o : Output) : MySql.ReplyPart → Except DbError Output
  | .written affectedRows insertId => .ok (o.addWrite affectedRows insertId)
  | .rows columns rows =>
      rows.foldlM
        (fun o cells => do
          let row ← Row.ofCells columns cells
          return o.addRow columns.length row)
        o
  | .failed text => .error (.database text)

/-- The answer that the parts of a reply amount to; a reply without parts is an empty success. -/
def ofReply (parts : List MySql.ReplyPart) : Except DbError Output := parts.foldlM addPart empty

end Output

end Persistence
