import Persistence.Proofs.Dao.Statements
import Persistence.Proofs.Query.Chaining
import Persistence.Proofs.Store.Filters
import Persistence.Proofs.Store.Reference

/-!
# What statements ask of rows

A database is sent texts.  It reads in them which table is meant, of which rows the condition is
true, and what is to be done with these: they are returned, removed or assigned to.  A driver
answers by its statements if it does this with every text that it can read, whatever statement the
text comes from.

The statements of a cascade are read as what they are about: the rows of their scope.  So a driver
that goes by the texts does with them what a store does that knows the scopes.

Main results:

- `Scope.holds_rowFilter`: the condition in the text of a scope is true of the rows of the scope.
- `Scope.IsBare.rowRequest?_rows`, `Scope.IsBare.rowRequest?_remove`,
  `Scope.IsBare.rowRequest?_flag`: what the statements of a cascade are read as.
- `Store.sqlDriver_answersSql`: there is a driver that goes by the texts.
-/

namespace Persistence

open Sql

namespace Sql

/-! ## Requests -/

/-- What is to be done with rows. -/
inductive RowAction
  | select
  | delete
  | update (sets : List (String × List Lexeme))

/-- What a statement asks for: an action on the rows of a table that a condition is true of. -/
structure RowRequest where
  action : RowAction
  table : String
  filter : RowFilter

/-- Assignments in a row, and what is behind them.  The number bounds them. -/
def assignments? : Nat → List Lexeme → Option (List (String × List Lexeme) × List Lexeme)
  | n + 1, .word column :: .mark '=' :: ls =>
      match takeConstant? endsAssignment ls with
      | some (e, .mark ',' :: rest) =>
          (assignments? n rest).map fun more => ((column, e) :: more.1, more.2)
      | taken => taken.map fun read => ([(column, read.1)], read.2)
  | _, _ => none

/-- What some lexemes ask of the rows of a table. -/
def rowRequestIn? : List Lexeme → Option RowRequest
  | .word "select" :: .mark '*' :: .word "from" :: .word table :: rest =>
      (where? rest).map fun f => ⟨.select, table, f⟩
  | .word "delete" :: .word "from" :: .word table :: rest =>
      (where? rest).map fun f => ⟨.delete, table, f⟩
  | .word "update" :: .word table :: .word "set" :: rest => do
      let (sets, rest) ← assignments? (rest.length + 1) rest
      let f ← where? rest
      some ⟨.update sets, table, f⟩
  | _ => none

theorem rowRequestIn?_update {table : String} {rest behind : List Lexeme}
    {sets : List (String × List Lexeme)} {f : RowFilter}
    (hsets : assignments? (rest.length + 1) rest = some (sets, behind))
    (hf : where? behind = some f) :
    rowRequestIn? (.word "update" :: .word table :: .word "set" :: rest) =
      some ⟨.update sets, table, f⟩ := by
  rw [rowRequestIn?, hsets]
  show (where? behind).bind _ = _
  rw [hf]
  rfl

/-- Whether the words for the table and for the columns that are assigned to are names. -/
def RowRequest.hasBareNames (q : RowRequest) : Bool :=
  isBareName q.table &&
    match q.action with
    | .update sets => sets.all fun set => isBareName set.1
    | _ => true

/-- What a text asks of the rows of a table. -/
def rowRequest? (text : String) : Option RowRequest :=
  ((lexemes? text).bind rowRequestIn?).filter RowRequest.hasBareNames

theorem rowRequest?_of_lexemes {text : String} {ls : List Lexeme} {q : RowRequest}
    (hls : lexemes? text = some ls) (hread : rowRequestIn? ls = some q)
    (hnames : q.hasBareNames = true) : rowRequest? text = some q := by
  rw [rowRequest?, hls, Option.bind_some, hread, Option.filter_some, if_pos hnames]

namespace RowRequest

variable (q : RowRequest) (r : Reckoning)

/-- The rows that a request is about. -/
def rows (store : Store) : List Row := (store q.table).filter (q.filter.holds r)

/-- A row after assignments, one after the other. -/
def assigned (sets : List (String × List Lexeme)) (row : Row) : Row :=
  sets.foldl (fun row (column, e) => Keyed.put column (r.stored e) row) row

/-- The rows of the table behind a request. -/
def performOn (rows : List Row) : List Row :=
  match q.action with
  | .select => rows
  | .delete => rows.filter fun row => !q.filter.holds r row
  | .update sets => rows.map fun row => if q.filter.holds r row then assigned r sets row else row

/-- The store behind a request. -/
def perform (store : Store) : Store := fun table =>
  if table = q.table then q.performOn r (store table) else store table

/-- The answers to a request: the rows that it asks for, in some order, or the number of those that
it changes. -/
def Answered (store : Store) (o : Output) : Prop :=
  match q.action with
  | .select => o.rows.Perm (q.rows r store)
  | _ => o.Wrote (q.rows r store).length

/-- An answer to a request: its rows in the order of the table, or their number. -/
def output (store : Store) : Output :=
  match q.action with
  | .select => Output.ofRows (q.rows r store)
  | _ => Output.affected (q.rows r store).length

theorem answered_output (store : Store) : q.Answered r store (q.output r store) := by
  unfold Answered output
  cases q.action with
  | select => exact List.Perm.refl _
  | delete => exact ⟨rfl, rfl⟩
  | update sets => exact ⟨rfl, rfl⟩

end RowRequest

end Sql

/-- A driver answers by its statements: what it reads in the text of a statement, it does to the
store that `session` shows in its state, and it answers with it.  Besides it keeps transactions.
Nothing is said of texts that are not read as requests, such as those that compare columns with each
other. -/
structure AnswersSql {δ : Type} (r : Reckoning) (driver : Driver δ) (session : δ → Session) :
    Prop extends KeepsTransactions driver session where
  query : ∀ conn (st : Statement) q d, rowRequest? st.sql = some q → ∃ o d',
    driver.answer (.query conn st) d = (.ok o, d') ∧
    session d' = { session d with current := q.perform r (session d).current } ∧
    q.Answered r (session d).current o

/-! ## Scopes -/

/-- The test that leaves out deleted rows. -/
def liveFilter : RowFilter := .test (.compare .eq softDeleteColumn (Value.int 0).lexemes)

theorem writesPart_live : WritesPart (softDeleteColumn ++ " = 0") liveFilter := by
  have hcolumn : isBareName (Mapping.empty.columnName softDeleteColumn) = true := rfl
  exact Condition.writesPart_compare hcolumn .eq (.int 0)

namespace Scope

variable (s : Scope)

/-- What the conditions of a scope are read as. -/
def ownParts : List (Connector × RowFilter) := filters s.target.mapping .and s.query.links

/-- What the clause of a scope is read as, part by part: where deletion is soft, the conditions
stand in parentheses behind the test that leaves out deleted rows. -/
def parts : List (Connector × RowFilter) :=
  if s.target.softDelete then
    (.and, liveFilter) :: if s.ownParts.isEmpty then [] else [(.and, joinFilters s.ownParts)]
  else s.ownParts

/-- What the clause of a scope is read as. -/
def rowFilter : RowFilter := joinFilters s.parts

/-- The condition in the text of a scope is true of the rows of the scope. -/
theorem holds_rowFilter (r : Reckoning) (row : Row) :
    s.rowFilter.holds r row = s.selects r.collation row := by
  have hown : (joinFilters s.ownParts).holds r row =
      s.query.holds r.collation s.target.mapping row := by
    rw [holds_joinFilters, ownParts, map_truthOf_filters]
    rfl
  have hlive : liveFilter.holds r row = row.isLive r.collation := Condition.any_accepts_eq _ .eq
  rw [selects, Target.sees, rowFilter, parts]
  cases s.target.softDelete with
  | false => simpa using hown
  | true =>
      cases hparts : s.ownParts with
      | nil =>
          rw [hparts] at hown
          simp only [if_true, List.isEmpty_nil]
          show liveFilter.holds r row = _
          rw [hlive, ← hown]
          exact (Bool.and_true _).symm
      | cons part parts =>
          rw [hparts] at hown
          simp only [if_true, List.isEmpty_cons, Bool.false_eq_true, if_false]
          show (liveFilter.holds r row && (joinFilters (part :: parts)).holds r row) = _
          rw [hlive, hown]

/-- A scope without grouping and ordering, whose table and columns have bare names. -/
structure IsBare : Prop where
  table : isBareName s.table = true
  plain : s.query.Plain
  named : s.query.Named s.target.mapping

variable {s}

theorem IsBare.columns (h : s.IsBare) :
    ∀ c ∈ conditions s.query.links, isBareName (s.target.mapping.columnName c.field) = true := by
  intro c hc
  refine h.named c.field ?_
  rw [Query.fields, List.append_assoc]
  exact List.mem_append_left _ (List.mem_map_of_mem hc)

/-- The clause of a scope is read as one condition. -/
theorem IsBare.exists_lexes_clause (h : s.IsBare) :
    ∃ ls, LexesApart s.clause ls ∧ where? ls = some s.rowFilter := by
  have hown : List.Forall₂ WrittenAlike (fragments s.target.mapping .and s.query.links)
      s.ownParts := writtenAlike_fragments h.columns
  have hclause : s.clause = Query.introduced " where " (if s.target.softDelete then
      Query.liveText (s.query.whereText s.target.mapping)
        else s.query.whereText s.target.mapping) := by
    simp [clause, Query.clauseText, h.plain.groupBy, h.plain.orderBy]
  rw [hclause, rowFilter, parts]
  cases s.target.softDelete with
  | false => exact exists_lexes_where hown
  | true =>
      have hlive : WrittenAlike (.and, softDeleteColumn ++ " = 0") (.and, liveFilter) :=
        ⟨rfl, writesPart_live⟩
      simp only [if_true]
      cases hfragments : fragments s.target.mapping .and s.query.links with
      | nil =>
          rw [hfragments, List.forall₂_nil_left_iff] at hown
          rw [Query.whereText_eq_empty_iff_fragments.2 hfragments, hown]
          exact exists_lexes_where (.cons hlive .nil)
      | cons fragment rest =>
          have hgroup := writesPart_group hown (by simp [hfragments])
          have hsome : s.ownParts.isEmpty = false := by
            cases hparts : s.ownParts with
            | nil => simp [hparts, hfragments] at hown
            | cons part parts => rfl
          have hcondition : (s.query.whereText s.target.mapping).isEmpty = false := by
            rw [Bool.eq_false_iff, ne_eq, String.isEmpty_iff,
              Query.whereText_eq_empty_iff_fragments, hfragments]
            simp
          have htext : Query.liveText (s.query.whereText s.target.mapping) =
              joinFragments [(.and, softDeleteColumn ++ " = 0"),
                (.and, "(" ++ s.query.whereText s.target.mapping ++ ")")] := by
            rw [Query.liveText, hcondition]
            have hand : " = 0 and (" = " = 0" ++ " " ++ Connector.and.text ++ " " ++ "(" := rfl
            simp only [joinFragments, hand, String.append_assoc, Bool.false_eq_true, if_false]
          rw [htext, hsome]
          exact exists_lexes_where (.cons hlive (.cons ⟨rfl, hgroup⟩ .nil))

end Scope

/-! ## Statements about scopes -/

/-- What is read as a condition starts with `where`, if it is anything at all. -/
theorem eq_nil_or_where {ls : List Lexeme} {f : RowFilter} (h : where? ls = some f) :
    ls = [] ∨ ∃ more, ls = .word "where" :: more := by
  unfold where? at h
  split at h
  · exact .inl rfl
  · exact .inr ⟨_, rfl⟩
  · cases h

/-- The lexemes of an assignment. -/
def assignmentLexemes (set : String × Value) : List Lexeme :=
  .word set.1 :: .mark '=' :: set.2.lexemes

/-- Assignments of values are read up to the condition behind them, whatever the values are. -/
theorem assignments?_intercalate {sets : List (String × Value)} (hne : sets ≠ [])
    {rest : List Lexeme} (hrest : rest = [] ∨ ∃ more, rest = .word "where" :: more) {n : Nat}
    (hn : sets.length ≤ n) :
    assignments? n ([Lexeme.mark ','].intercalate (sets.map assignmentLexemes) ++ rest) =
      some (sets.map fun set => (set.1, set.2.lexemes), rest) := by
  induction sets generalizing n with
  | nil => exact absurd rfl hne
  | cons set sets ih =>
      obtain ⟨column, v⟩ := set
      cases n with
      | zero => simp at hn
      | succ n =>
          cases sets with
          | nil =>
              have hends : rest = [] ∨ endsAssignment rest = true := by
                rcases hrest with rfl | ⟨more, rfl⟩
                · exact .inl rfl
                · exact .inr rfl
              rw [List.map_singleton, List.intercalate_singleton, assignmentLexemes,
                List.cons_append, List.cons_append, assignments?, v.takeConstant?_assigned hends]
              rcases hrest with rfl | ⟨more, rfl⟩ <;> rfl
          | cons next sets =>
              have hnext := ih (by simp) (Nat.le_of_succ_le_succ hn)
              have hends : endsAssignment (.mark ',' :: ([Lexeme.mark ','].intercalate
                  ((next :: sets).map assignmentLexemes) ++ rest)) = true := by
                cases sets <;> simp [assignmentLexemes, endsAssignment]
              rw [List.map_cons, List.map_cons, List.intercalate_cons_cons, ← List.map_cons,
                List.append_assoc, List.append_assoc, List.singleton_append, assignmentLexemes,
                List.cons_append, List.cons_append, assignments?,
                v.takeConstant?_assigned (.inr hends)]
              simp only [hnext]
              rfl

/-- The assignments of a flagging statement have their lexemes. -/
theorem lexes_assignments {sets : List (String × Value)}
    (h : ∀ set ∈ sets, isBareName set.1 = true) :
    Lexes (",".intercalate (sets.map fun (column, v) => assignmentText column v))
      ([Lexeme.mark ','].intercalate (sets.map assignmentLexemes)) := by
  refine Lexes.intercalate "," rfl ?_
  rw [List.forall₂_map_left_iff, List.forall₂_map_right_iff, List.forall₂_same]
  rintro ⟨column, v⟩ hset
  exact Lexes.across " = " rfl (.word _ (isWord_of_isBareName (h _ hset))) v.lexes

namespace Scope.IsBare

variable {s : Scope}

/-- The text of a statement that takes the clause of a scope for its last placeholder. -/
theorem exists_lexemes_fill (h : s.IsBare) {front : String} (hfixed : IsFixed front)
    {ls : List Lexeme} (hfront : Lexes front ls) :
    ∃ rest, lexemes? (fill (front ++ " ?") [s.clause]) = some (ls ++ rest) ∧
      where? rest = some s.rowFilter := by
  obtain ⟨rest, hclause, hwhere⟩ := h.exists_lexes_clause
  refine ⟨rest, ?_, hwhere⟩
  rw [hfixed, Dao.fill_query, ← String.append_assoc]
  exact (Lexes.blank hfront hclause.lexes).lexemes?_eq

/-- A select of the rows of a scope is read as that. -/
theorem rowRequest?_rows (h : s.IsBare) :
    rowRequest? (Statement.rows s).sql = some ⟨.select, s.table, s.rowFilter⟩ := by
  have hwords : "select * from " = "select" ++ " * " ++ "from" ++ " " := rfl
  have hfront : IsBalanced "select * from " := .of_open rfl
  have hlead := Lexes.blank (Lexes.across " * " rfl (.word "select" rfl) (.word "from" rfl))
    (.word _ (isWord_of_isBareName h.table))
  obtain ⟨rest, hlexemes, hwhere⟩ := h.exists_lexemes_fill
    (hfront.append (isBalanced_name h.table)).isFixed (hlead.of_eq (by rw [hwords]) rfl)
  refine rowRequest?_of_lexemes hlexemes ?_ (Bool.and_eq_true_iff.2 ⟨h.table, rfl⟩)
  show (where? rest).map _ = _
  rw [hwhere]
  rfl

/-- A delete of the rows of a scope is read as that. -/
theorem rowRequest?_remove (h : s.IsBare) :
    rowRequest? (Statement.remove s).sql = some ⟨.delete, s.table, s.rowFilter⟩ := by
  have hwords : "delete from " = "delete" ++ " " ++ "from" ++ " " := rfl
  have hfront : IsBalanced "delete from " := .of_open rfl
  have hlead := Lexes.blank (Lexes.blank (.word "delete" rfl) (.word "from" rfl))
    (.word _ (isWord_of_isBareName h.table))
  obtain ⟨rest, hlexemes, hwhere⟩ := h.exists_lexemes_fill
    (hfront.append (isBalanced_name h.table)).isFixed (hlead.of_eq (by rw [hwords]) rfl)
  refine rowRequest?_of_lexemes hlexemes ?_ (Bool.and_eq_true_iff.2 ⟨h.table, rfl⟩)
  show (where? rest).map _ = _
  rw [hwhere]
  rfl

/-- A statement that flags the rows of a scope is read as its assignments, whatever the values
are. -/
theorem rowRequest?_flag (h : s.IsBare) {sets : List (String × Value)} (hne : sets ≠ [])
    (hsets : ∀ set ∈ sets, isBareName set.1 = true) :
    rowRequest? (Statement.flag s sets).sql =
      some ⟨.update (sets.map fun set => (set.1, set.2.lexemes)), s.table, s.rowFilter⟩ := by
  have hwords : "update " = "update" ++ " " ∧ " set " = " " ++ "set" ++ " " := ⟨rfl, rfl⟩
  have hupdate : IsBalanced "update " := .of_open rfl
  have hset : IsBalanced " set " := .of_open rfl
  have hfixed := isFixed_assignments fun set hmem => (isBalanced_name (hsets set hmem)).isFixed
  have hlead := Lexes.blank (Lexes.blank (Lexes.blank (.word "update" rfl)
    (.word _ (isWord_of_isBareName h.table))) (.word "set" rfl)) (lexes_assignments hsets)
  obtain ⟨rest, hlexemes, hwhere⟩ := h.exists_lexemes_fill
    (((hupdate.append (isBalanced_name h.table)).append hset).isFixed.append hfixed)
    (hlead.of_eq (by simp only [hwords, String.append_assoc]) rfl)
  have hlength := length_le_intercalate (sets.map assignmentLexemes)
  have hread := assignments?_intercalate hne (eq_nil_or_where hwhere)
    (n := ([Lexeme.mark ','].intercalate (sets.map assignmentLexemes) ++ rest).length + 1) (by
      rw [List.length_map] at hlength
      rw [List.length_append]
      omega)
  have hcolumns : (sets.map fun set => (set.1, set.2.lexemes)).all (isBareName ·.1) = true := by
    rw [List.all_map, List.all_eq_true]
    exact hsets
  exact rowRequest?_of_lexemes hlexemes (rowRequestIn?_update hread hwhere)
    (Bool.and_eq_true_iff.2 ⟨h.table, hcolumns⟩)

end Scope.IsBare

/-! ## What is done with the rows of a scope -/

namespace Scope

variable (s : Scope) (r : Reckoning) (store : Store)

/-- The rows of a scope are the ones that a request with its condition is about. -/
theorem rows_eq_select (action : RowAction) :
    RowRequest.rows ⟨action, s.table, s.rowFilter⟩ r store = store.select r.collation s := by
  simp only [RowRequest.rows, Store.select, s.holds_rowFilter]

theorem perform_select : RowRequest.perform ⟨.select, s.table, s.rowFilter⟩ r store = store := by
  funext table
  rw [RowRequest.perform]
  split <;> rfl

theorem perform_delete :
    RowRequest.perform ⟨.delete, s.table, s.rowFilter⟩ r store = store.remove r.collation s := by
  funext table
  rw [RowRequest.perform, Store.remove]
  simp only [RowRequest.performOn, s.holds_rowFilter]

/-- Literals are assigned as the values that they stand for. -/
theorem assigned_lexemes (sets : List (String × Value)) (row : Row) :
    RowRequest.assigned r (sets.map fun set => (set.1, set.2.lexemes)) row =
      row.assign r.collation sets := by
  rw [RowRequest.assigned, List.foldl_map]
  rfl

theorem perform_update (sets : List (String × Value)) :
    RowRequest.perform
        ⟨.update (sets.map fun set => (set.1, set.2.lexemes)), s.table, s.rowFilter⟩ r store =
      store.flag r.collation s sets := by
  funext table
  rw [RowRequest.perform, Store.flag]
  simp only [RowRequest.performOn, s.holds_rowFilter, assigned_lexemes]

end Scope

namespace AnswersSql

variable {δ : Type} {r : Reckoning} {driver : Driver δ} {session : δ → Session}
  (h : AnswersSql r driver session) {s : Scope} (hs : s.IsBare)

include h hs

/-- A driver that goes by texts returns the rows of a scope. -/
theorem rows (conn : Nat) (d : δ) : ∃ o d', driver.answer (.query conn (.rows s)) d = (.ok o, d') ∧
    session d' = session d ∧ o.rows.Perm ((session d).current.select r.collation s) := by
  obtain ⟨o, d', hanswer, hsession, hrows⟩ := h.query conn _ _ d hs.rowRequest?_rows
  rw [s.perform_select] at hsession
  rw [RowRequest.Answered, s.rows_eq_select] at hrows
  exact ⟨o, d', hanswer, hsession, hrows⟩

/-- It removes them. -/
theorem remove (conn : Nat) (d : δ) :
    ∃ o d', driver.answer (.query conn (.remove s)) d = (.ok o, d') ∧
      session d' = { session d with current := (session d).current.remove r.collation s } ∧
      o.Wrote ((session d).current.select r.collation s).length := by
  obtain ⟨o, d', hanswer, hsession, hrows⟩ := h.query conn _ _ d hs.rowRequest?_remove
  rw [s.perform_delete] at hsession
  rw [RowRequest.Answered, s.rows_eq_select] at hrows
  exact ⟨o, d', hanswer, hsession, hrows⟩

/-- It writes values into them. -/
theorem flag {sets : List (String × Value)} (hne : sets ≠ [])
    (hsets : ∀ set ∈ sets, isBareName set.1 = true) (conn : Nat) (d : δ) :
    ∃ o d', driver.answer (.query conn (.flag s sets)) d = (.ok o, d') ∧
      session d' = { session d with current := (session d).current.flag r.collation s sets } ∧
      o.Wrote ((session d).current.select r.collation s).length := by
  obtain ⟨o, d', hanswer, hsession, hrows⟩ := h.query conn _ _ d (hs.rowRequest?_flag hne hsets)
  rw [s.perform_update] at hsession
  rw [RowRequest.Answered, s.rows_eq_select] at hrows
  exact ⟨o, d', hanswer, hsession, hrows⟩

end AnswersSql

/-! ## A driver made of a store -/

namespace Store

/-- The answer of a session to a statement by what is read in its text. -/
def sqlRespond (r : Reckoning) (s : Session) (st : Statement) : Except DbError Output × Session :=
  match rowRequest? st.sql with
  | none => (.error (.database "not a statement about rows"), s)
  | some q => (.ok (q.output r s.current), { s with current := q.perform r s.current })

/-- The answer of a session to a request, where statements are answered by their texts. -/
def sqlAnswer (r : Reckoning) : (q : Request) → Session → q.Answer × Session
  | .poolQuery _ st, s => sqlRespond r s st
  | .query _ st, s => sqlRespond r s st
  | q, s => answer r.collation q s

/-- The driver made of a store that goes by texts. -/
def sqlDriver (r : Reckoning) : Driver Session := ⟨sqlAnswer r⟩

/-- The driver made of a store answers by its statements. -/
theorem sqlDriver_answersSql (r : Reckoning) : AnswersSql r (sqlDriver r) id where
  acquire _ s := ⟨0, s, rfl, rfl⟩
  begin _ s := ⟨s.settled, rfl, rfl⟩
  commit _ s := ⟨s.settled, rfl, rfl⟩
  rollback _ s := ⟨s.restored, rfl, rfl⟩
  release _ s := ⟨s, rfl, rfl⟩
  produce _ _ := rfl
  query conn st q s hq := by
    have hanswer : (sqlDriver r).answer (.query conn st) s =
        (.ok (q.output r s.current), { s with current := q.perform r s.current }) := by
      show sqlRespond r s st = _
      rw [sqlRespond, hq]
    exact ⟨_, _, hanswer, rfl, q.answered_output r s.current⟩

end Store

end Persistence
