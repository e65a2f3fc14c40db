import Persistence.Document.Result
import Persistence.MySql.Reply
import Persistence.Scripted.Rule
import Persistence.Text.Percent

/-!
# Documents of scripts

The rules of a scripted database and the replies of a scripted server.
-/

namespace Persistence

open Document

namespace Scripted

/-- The requests that a rule is about; statements unless it says otherwise. -/
def Occasion.ofDocument (j : Json) : Decoded Occasion := do
  match ← withDefault "sql" readText j "on" with
  | "sql" => return .statement (← withDefault "" readText j "prefix")
  | "create_pool" => return .createPool
  | "close" => return .closePool
  | "acquire" => return .acquire
  | "begin" => return .begin
  | "commit" => return .commit
  | "rollback" => return .rollback
  | "release" => return .release
  | _ => .error .malformed

/-- The reaction of a rule: a failure, rows, a number of affected rows, or a whole answer. -/
def Reaction.ofDocument (j : Json) : Decoded Reaction :=
  match present? j "fail", present? j "rows", present? j "affected", present? j "output" with
  | some e, _, _, _ => do return .fail (← DbError.ofDocument e)
  | _, some rows, _, _ => do return .answer (Output.ofRows (← listOf Row.ofDocument rows))
  | _, _, some n, _ => do return .answer (Output.affected (← readNatural n))
  | _, _, _, some o => do return .answer (← Output.ofDocument o)
  | _, _, _, _ => .ok .ordinary

def Rule.ofDocument (j : Json) : Decoded Rule := do
  return ⟨← Occasion.ofDocument j, ← naturalField? j "times", ← Reaction.ofDocument j⟩

end Scripted

namespace MySql

/-- The types of columns by their names in documents. -/
def WireType.names : List (String × WireType) :=
  [("tiny", .tiny), ("short", .short), ("int24", .int24), ("long", .long),
   ("longlong", .longlong), ("year", .year), ("float", .float), ("double", .double),
   ("decimal", .decimal), ("datetime", .datetime), ("timestamp", .timestamp), ("date", .date),
   ("time", .time), ("json", .json), ("geometry", .geometry), ("tinyblob", .blob),
   ("blob", .blob), ("mediumblob", .blob), ("longblob", .blob), ("enum", .text), ("bit", .text),
   ("null", .text), ("varchar", .text), ("char", .text)]

def WireType.ofDocument (j : Json) : Decoded WireType := do
  need (WireType.names.lookup (← readText j))

def ColumnInfo.ofDocument (j : Json) : Decoded ColumnInfo := do
  return {
    name := ← textField j "name"
    type := ← WireType.ofDocument (← field j "type")
    length := ← withDefault 0 readNatural j "length"
    unsigned := flag j "unsigned" }

/-- The bytes that pairs of hexadecimal digits spell. -/
def hexBytes : List Char → Decoded (List UInt8)
  | [] => .ok []
  | high :: low :: rest => do
      let byte ← need (Text.hexByte? high low)
      return byte :: (← hexBytes rest)
  | _ => .error .malformed

/-- A cell: nothing, a text, or bytes. -/
def Cell.ofDocument : Json → Decoded Cell
  | .null => .ok none
  | .str s => .ok (some s.toUTF8.toList)
  | j => do return some (← hexBytes (← textField j "hex").toList)

def ReplyPart.ofDocument (j : Json) : Decoded ReplyPart :=
  match j.field? "err", j.field? "columns" with
  | some message, _ => do return .failed (← readText message)
  | _, some columns => do
      let columns ← listOf ColumnInfo.ofDocument columns
      return .rows columns (← list (listOf Cell.ofDocument) j "rows")
  | _, _ => do
      let affected ← withDefault 0 readNatural j "affected"
      return .written affected (← withDefault 0 readNatural j "insert_id")

end MySql

end Persistence
