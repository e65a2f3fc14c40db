import Persistence.Proofs.Store.Meaning
import Persistence.Program.Basic

/-!
# Stores

A store holds the rows of tables.  Statements that name a scope act on it by the meaning of the
scope: they read, remove or change exactly the rows that it selects.  A session is a store with a
transaction on it, which remembers what the store was when the transaction began.

A driver answers for a store when its answers are the ones of a session that can be seen in its
state.  The order in which rows are returned, the numbers of connections, the values of producers
and everything else about it are left open.  How a driver finds the rows of a statement is left open
as well; one that goes by the texts of statements is completed to such a driver in
`AnswersSql.answersAsStore_completed`.

Main definitions:

- `Scope.selects`: the rows that a statement is about.
- `Store.select`, `Store.remove`, `Store.flag`: what statements do.
- `KeepsTransactions`, `AnswersAsStore`: the drivers behind which there is a store.
-/

namespace Persistence

/-! ## Rows of a scope -/

/-- Whether a row has not been deleted softly. -/
def Row.isLive (k : Collation) (row : Row) : Bool := k.equal (row.cell softDeleteColumn) (.int 0)

/-- Whether a target has a row in its sight: a soft-delete target only sees live rows. -/
def Target.sees (k : Collation) (t : Target) (row : Row) : Bool :=
  if t.softDelete then row.isLive k else true

/-- Whether a row belongs to a scope. -/
def Scope.selects (k : Collation) (s : Scope) (row : Row) : Bool :=
  s.target.sees k row && s.query.holds k s.target.mapping row

/-- The row after values were written into some of its columns, one after the other. -/
def Row.assign (k : Collation) (row : Row) (sets : List (String × Value)) : Row :=
  sets.foldl (fun row (column, v) => Keyed.put column (k.stored v) row) row

theorem Row.cell_put (row : Row) (column other : String) (cell : Json) :
    Row.cell (Keyed.put column cell row) other =
      if other = column then cell else row.cell other := by
  rw [Row.cell, Keyed.lookup_put]
  split <;> rfl

/-- A row whose flag was written last is not live. -/
theorem Row.isLive_assign_flag (k : Collation) (row : Row) (sets : List (String × Value)) :
    (row.assign k (sets ++ [(softDeleteColumn, .int 1)])).isLive k = false := by
  rw [Row.assign, List.foldl_append]
  simp only [List.foldl_cons, List.foldl_nil, Row.isLive, Row.cell_put, if_true]
  simpa [Collation.equal] using k.order_flag

/-! ## Stores -/

/-- The rows of each table. -/
abbrev Store := String → List Row

namespace Store

/-- The rows of a scope. -/
def select (k : Collation) (s : Scope) (store : Store) : List Row :=
  (store s.table).filter (s.selects k)

/-- The store without the rows of a scope. -/
def remove (k : Collation) (s : Scope) (store : Store) : Store := fun table =>
  if table = s.table then (store table).filter fun row => !s.selects k row else store table

/-- The store with values written into the rows of a scope. -/
def flag (k : Collation) (s : Scope) (sets : List (String × Value)) (store : Store) : Store :=
  fun table =>
    if table = s.table then
      (store table).map fun row => if s.selects k row then row.assign k sets else row
    else store table

@[simp]
theorem remove_self (k : Collation) (s : Scope) (store : Store) :
    store.remove k s s.table = (store s.table).filter fun row => !s.selects k row :=
  if_pos rfl

theorem remove_of_ne (k : Collation) (s : Scope) (store : Store) {table : String}
    (h : table ≠ s.table) : store.remove k s table = store table :=
  if_neg h

@[simp]
theorem flag_self (k : Collation) (s : Scope) (sets : List (String × Value)) (store : Store) :
    store.flag k s sets s.table =
      (store s.table).map fun row => if s.selects k row then row.assign k sets else row :=
  if_pos rfl

theorem flag_of_ne (k : Collation) (s : Scope) (sets : List (String × Value)) (store : Store)
    {table : String} (h : table ≠ s.table) : store.flag k s sets table = store table :=
  if_neg h

end Store

/-! ## Sessions -/

/-- A store with a transaction on it. -/
structure Session where
  current : Store
  /-- The store to which a rollback returns. -/
  saved : Store

namespace Session

/-- The session after the current store was made to last. -/
def settled (s : Session) : Session := ⟨s.current, s.current⟩

/-- The session after a rollback. -/
def restored (s : Session) : Session := ⟨s.saved, s.saved⟩

end Session

/-- An answer to a statement that changed some rows. -/
structure Output.Wrote (o : Output) (rows : Nat) : Prop where
  fieldCount : o.fieldCount = 0
  affectedRows : o.affectedRows = rows

/-- A driver keeps the transactions on the store that `session` shows in its state: it starts, ends
and undoes them, and what it is asked besides does nothing to the store. -/
structure KeepsTransactions {δ : Type} (driver : Driver δ) (session : δ → Session) : Prop where
  acquire : ∀ pool d, ∃ conn d', driver.answer (.acquire pool) d = (.ok conn, d') ∧
    session d' = session d
  begin : ∀ conn d, ∃ d', driver.answer (.begin conn) d = (.ok (), d') ∧
    session d' = (session d).settled
  commit : ∀ conn d, ∃ d', driver.answer (.commit conn) d = (.ok (), d') ∧
    session d' = (session d).settled
  rollback : ∀ conn d, ∃ d', driver.answer (.rollback conn) d = (.ok (), d') ∧
    session d' = (session d).restored
  release : ∀ conn d, ∃ d', driver.answer (.release conn) d = (.ok (), d') ∧
    session d' = session d
  produce : ∀ name d, session (driver.answer (.produce name) d).2 = session d

/-- A driver answers for the store that `session` shows in its state: it returns the rows that a
statement selects, it removes or changes them and reports their number, it starts, ends and undoes
transactions, and it does nothing else to the store.  Only statements without grouping and
ordering are spoken of. -/
structure AnswersAsStore {δ : Type} (k : Collation) (driver : Driver δ) (session : δ → Session) :
    Prop extends KeepsTransactions driver session where
  rows : ∀ conn (s : Scope) d, s.query.Plain → ∃ o d',
    driver.answer (.query conn (.rows s)) d = (.ok o, d') ∧ session d' = session d ∧
    o.rows.Perm ((session d).current.select k s)
  remove : ∀ conn (s : Scope) d, s.query.Plain → ∃ o d',
    driver.answer (.query conn (.remove s)) d = (.ok o, d') ∧
    session d' = { session d with current := (session d).current.remove k s } ∧
    o.Wrote ((session d).current.select k s).length
  flag : ∀ conn (s : Scope) sets d, s.query.Plain → ∃ o d',
    driver.answer (.query conn (.flag s sets)) d = (.ok o, d') ∧
    session d' = { session d with current := (session d).current.flag k s sets } ∧
    o.Wrote ((session d).current.select k s).length

end Persistence
