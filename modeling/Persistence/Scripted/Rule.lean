import Persistence.Program.Basic

/-!
# Rules of a script

A rule says how requests of one kind are answered, and how often.  Of the rules that apply to a
request the last one that is not used up answers it.
-/

namespace Persistence.Scripted

/-- The requests that a rule is about: statements by how they start, and the others by kind. -/
inductive Occasion
  | statement (front : String)
  | createPool
  | closePool
  | acquire
  | begin
  | commit
  | rollback
  | release

/-- How a request is answered. -/
inductive Reaction
  | fail (e : DbError)
  | answer (o : Output)
  /-- As if there were no rule. -/
  | ordinary

/-- A rule; without a limit it may be used without end. -/
structure Rule where
  occasion : Occasion
  limit : Option Nat
  reaction : Reaction

namespace Occasion

/-- Whether a request is one of those that a rule is about. -/
def covers : Occasion → Request → Bool
  | statement front, .poolQuery _ s => s.sql.startsWith front
  | statement front, .query _ s => s.sql.startsWith front
  | createPool, .createPool _ => true
  | closePool, .closePool _ => true
  | acquire, .acquire _ => true
  | begin, .begin _ => true
  | commit, .commit _ => true
  | rollback, .rollback _ => true
  | release, .release _ => true
  | _, _ => false

end Occasion

namespace Rule

/-- Whether a rule applies to a request and is not used up. -/
def applies (r : Rule) (request : Request) : Bool :=
  r.limit.all (0 < ·) && r.occasion.covers request

/-- A rule that has been used once more. -/
def used (r : Rule) : Rule := { r with limit := r.limit.map (· - 1) }

/-- The reaction of the first rule that applies, and the rules with that one used. -/
def useFirst (request : Request) : List Rule → Reaction × List Rule
  | [] => (.ordinary, [])
  | r :: rules =>
      if r.applies request then (r.reaction, r.used :: rules)
      else
        let (reaction, rules) := useFirst request rules
        (reaction, r :: rules)

/-- The reaction of the last rule that applies, and the rules with that one used. -/
def useLast (request : Request) (rules : List Rule) : Reaction × List Rule :=
  let (reaction, reversed) := useFirst request rules.reverse
  (reaction, reversed.reverse)

end Rule

end Persistence.Scripted
