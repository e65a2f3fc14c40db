import Persistence.MySql.Reply
import Persistence.MySql.Wire
import Persistence.Scripted.Supply

/-!
# A scripted server

A server that logs the statements that it receives and answers them from a queue of replies.  When
the queue is empty every statement succeeds and does nothing.
-/

namespace Persistence.Scripted

/-- A queue of replies, and what has been received so far. -/
structure Server where
  replies : List (List MySql.ReplyPart)
  /-- The statements that were received, the last one first. -/
  log : List String
  taken : Taken

namespace Server

/-- A server without replies. -/
def idle : Server := ⟨[], [], Taken.nothing⟩

/-- Receive a statement and answer it. -/
def respond (s : Server) (sql : String) : Except DbError Output × Server :=
  match s.replies with
  | [] => (Output.ofReply [], { s with log := sql :: s.log })
  | reply :: replies => (Output.ofReply reply, { s with replies, log := sql :: s.log })

/-- Receive a statement of which only the success matters. -/
def control (s : Server) (sql : String) : Except DbError Unit × Server :=
  let (result, s) := s.respond sql
  (result.map fun _ => (), s)

/-- The answer to a request. -/
def answer (supply : Supply) : (r : Request) → Server → r.Answer × Server
  | .createPool _, s => (.ok 0, s)
  | .closePool _, s => (.ok (), s)
  | .poolQuery _ q, s => s.respond q.sql
  | .acquire _, s => (.ok 0, s)
  | .begin _, s => s.control MySql.beginText
  | .commit _, s => s.control MySql.commitText
  | .rollback _, s => s.control MySql.rollbackText
  | .release _, s => (.ok (), s)
  | .query _ q, s => s.respond q.sql
  | .hook _ _, s => (.ok (), s)
  | .produce producer, s =>
      let (value, taken) := supply.takeValue producer s.taken
      (value, { s with taken })
  | .constraintNames, s =>
      let (names, taken) := supply.takeNames s.taken
      (names, { s with taken })

/-- The driver that talks to a scripted server. -/
def driver (supply : Supply) : Driver Server := ⟨answer supply⟩

end Server

end Persistence.Scripted
