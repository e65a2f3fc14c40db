import Persistence.Proofs.Dao.Binding
import Persistence.Proofs.Dao.Calls
import Persistence.Proofs.Program.Handling
import Persistence.Proofs.Program.Routes

/-!
# Writing entities

A call that writes entities sends one statement.  An insert has a row for each entity with a value
for each column that keeps a property; an update assigns to each column that it writes its own
value, and is about the row with the primary key of the entity or about the rows of a query.
Where an entity is no object or a property cannot be the value of its column, nothing is sent.

Main results:

- `Writing.plan_call`, `Writing.sql_eq_ok_iff`: a call that writes is planned as its statement.
- `Writing.binds_columns`: what a call that writes sends, and when each column gets one literal.
-/

namespace Persistence

open Sql

variable {σ α δ : Type}

/-! ## Calls that write -/

/-- A call that writes entities. -/
inductive Writing
  | saveAll (entities : List Json)
  | saveOrUpdateAll (entities : List Json)
  | updateByKey (entity : Json)
  | updateWhere (entity : Json) (f : Filter)
  | updatePartByKey (part : List String) (object : Json)
  | updatePartWhere (part : List String) (object : Json) (f : Filter)

namespace Writing

/-- The call of the data access object. -/
def call : Writing → DaoCall WriteResult
  | saveAll entities => .saveAll entities
  | saveOrUpdateAll entities => .saveOrUpdateAll entities
  | updateByKey entity => .updateByKey entity
  | updateWhere entity f => .updateWhere entity f
  | updatePartByKey part object => .updatePartByKey part object
  | updatePartWhere part object f => .updatePartWhere part object f

/-- Whether a call has no entity to write. -/
def isIdle : Writing → Bool
  | saveAll entities => entities.isEmpty
  | saveOrUpdateAll entities => entities.isEmpty
  | _ => false

/-- The statement that a call is to send.  Whole entities are written in the form of their type, and
some properties of an object as they are. -/
inductive Binds (dao : Dao) : Writing → String → Prop
  | saveAll {entities objects : List Json} {rows : List (List Value)} :
      entities.mapM dao.codec.encode = .ok objects →
      List.Forall₂ (TakesRow dao.table.propertyColumns) objects rows →
      Binds dao (.saveAll entities) (dao.insertText "insert" rows)
  | saveOrUpdateAll {entities objects : List Json} {rows : List (List Value)} :
      entities.mapM dao.codec.encode = .ok objects →
      List.Forall₂ (TakesRow dao.table.propertyColumns) objects rows →
      Binds dao (.saveOrUpdateAll entities) (dao.insertText "replace" rows)
  | updateByKey {entity object : Json} {key : KeyColumn} {c : Column} {row : List Value}
      {v : Value} : dao.primaryKey = some key → dao.KeepsKey key c →
      dao.codec.encode entity = .ok object →
      TakesRow (dao.assignedColumns none) object row → TakesRow [c] object [v] →
      Binds dao (.updateByKey entity) (dao.updateText none row (dao.keyScope key v))
  | updateWhere {entity object : Json} {f : Filter} {q : Query} {row : List Value} :
      f.toQuery = .ok q → dao.codec.encode entity = .ok object →
      TakesRow (dao.assignedColumns none) object row →
      Binds dao (.updateWhere entity f) (dao.updateText none row (dao.queryScope q))
  | updatePartByKey {part : List String} {object : Json} {key : KeyColumn} {c : Column}
      {row : List Value} {v : Value} : dao.primaryKey = some key → dao.KeepsKey key c →
      TakesRow (dao.assignedColumns (some part)) object row → TakesRow [c] object [v] →
      Binds dao (.updatePartByKey part object)
        (dao.updateText (some part) row (dao.keyScope key v))
  | updatePartWhere {part : List String} {object : Json} {f : Filter} {q : Query}
      {row : List Value} : f.toQuery = .ok q →
      TakesRow (dao.assignedColumns (some part)) object row →
      Binds dao (.updatePartWhere part object f)
        (dao.updateText (some part) row (dao.queryScope q))

end Writing

/-! ## Plans -/

namespace Plan

variable {β γ : Type}

/-- What is planned for an argument that is made in two steps. -/
theorem given_bind (x : Except DbError β) (f : β → Except DbError γ) (plan : γ → Plan α) :
    given (x >>= f) plan = given x fun b => given (f b) plan := by
  cases x <;> rfl

theorem given_congr {x : Except DbError β} {plan plan' : β → Plan α}
    (h : ∀ b, x = .ok b → plan b = plan' b) : given x plan = given x plan' := by
  cases x with
  | error e => rfl
  | ok b => exact h b rfl

/-- Where there are entities, there is something to insert. -/
theorem given_insert (i : Insert) (encode : Json → Except DbError Json) {entities : List Json}
    (h : entities.isEmpty = false) :
    (given (entities.mapM encode) fun objects => insert i objects) =
      given (entities.mapM encode) fun objects =>
        given (i.statementText objects) fun sql => write sql WriteResult.ofOutput := by
  refine given_congr fun objects hobjects => ?_
  have hlength := (mapM_eq_ok_iff.1 hobjects).length_eq
  have hsome : objects.isEmpty = false := by
    rw [List.isEmpty_eq_false_iff_exists_mem] at h ⊢
    exact List.length_pos_iff_exists_mem.1 (hlength ▸ List.length_pos_iff_exists_mem.2 h)
  rw [insert, hsome]
  rfl

/-- A plan that writes sends its statement once, if there is a way for it. -/
theorem write_ensures (dao : Dao) (levels : Nat) (s : State) (ctx : Option Context) (sql : String)
    (finish : Output → α) :
    ((write sql finish).task dao levels ctx : Task σ α).Ensures (· = s) fun trace result =>
      ∃ answer, Directed s ctx (.text sql) trace answer ∧ result = answer.map finish := by
  apply Task.Ensures.bind
  apply (execute_directed s ctx (.text sql)).mono
  intro trace answer hdirected
  cases answer with
  | error e => exact ⟨_, hdirected, rfl⟩
  | ok output =>
      refine .pure ⟨.ok output, ?_, rfl⟩
      rwa [List.append_nil]

end Plan

namespace Writing

variable {e : Entity} {dao : Dao} {w : Writing}

/-- The statement that a call sends, or why it sends none. -/
def sql (dao : Dao) : Writing → Except DbError String
  | saveAll entities => entities.mapM dao.codec.encode >>= dao.insert.statementText
  | saveOrUpdateAll entities => entities.mapM dao.codec.encode >>= dao.replace.statementText
  | updateByKey entity =>
      dao.requireKey >>= fun key => dao.codec.encode entity >>= fun object =>
        (dao.updateKey key dao.nonKeyColumns).statementText object []
  | updateWhere entity f =>
      f.toQuery >>= fun q => dao.codec.encode entity >>= fun object =>
        (dao.updateQuery dao.nonKeyColumns).statementText object [.query q]
  | updatePartByKey part object =>
      dao.requireKey >>= fun key =>
        (dao.updateKey key (dao.partColumns part)).statementText object []
  | updatePartWhere part object f =>
      f.toQuery >>= fun q =>
        (dao.updateQuery (dao.partColumns part)).statementText object [.query q]

/-- A call with something to write is planned as its statement. -/
theorem plan_call (dao : Dao) (hw : w.isIdle = false) :
    w.call.plan dao = .given (w.sql dao) fun sql => .write sql WriteResult.ofOutput := by
  cases w with
  | saveAll entities | saveOrUpdateAll entities =>
      rw [sql, Plan.given_bind]
      exact Plan.given_insert _ _ hw
  | updateByKey entity | updateWhere entity f =>
      simp only [sql, Plan.given_bind]
      rfl
  | updatePartByKey part object | updatePartWhere part object f =>
      rw [sql, Plan.given_bind]
      rfl

/-- The statement that a call sends is the one that it is to send. -/
theorem sql_eq_ok_iff (hof : IsDaoOf e dao) (h : dao.Writable) {text : String} :
    w.sql dao = .ok text ↔ w.Binds dao text := by
  cases w with
  | saveAll entities =>
      simp only [sql, except_bind_eq_ok_iff, hof.insert_statementText h]
      constructor
      · rintro ⟨objects, hobjects, rows, hrows, rfl⟩
        exact .saveAll hobjects hrows
      · rintro ⟨hobjects, hrows⟩
        exact ⟨_, hobjects, _, hrows, rfl⟩
  | saveOrUpdateAll entities =>
      simp only [sql, except_bind_eq_ok_iff, hof.replace_statementText h]
      constructor
      · rintro ⟨objects, hobjects, rows, hrows, rfl⟩
        exact .saveOrUpdateAll hobjects hrows
      · rintro (_ | ⟨hobjects, hrows⟩)
        exact ⟨_, hobjects, _, hrows, rfl⟩
  | updateByKey entity =>
      simp only [sql, except_bind_eq_ok_iff, Dao.requireKey_eq_ok_iff, hof.nonKeyColumns_eq]
      constructor
      · rintro ⟨key, hprimary, object, hobject, htext⟩
        obtain ⟨c, hc⟩ := hof.exists_keepsKey hprimary
        obtain ⟨row, v, hrow, hv, rfl⟩ := (hof.updateKey_statementText h hprimary hc none).1 htext
        exact .updateByKey hprimary hc hobject hrow hv
      · rintro (_ | _ | ⟨hprimary, hc, hobject, hrow, hv⟩)
        exact ⟨_, hprimary, _, hobject, (hof.updateKey_statementText h hprimary hc none).2
          ⟨_, _, hrow, hv, rfl⟩⟩
  | updateWhere entity f =>
      simp only [sql, except_bind_eq_ok_iff, hof.nonKeyColumns_eq, h.updateQuery_statementText none]
      constructor
      · rintro ⟨q, hq, object, hobject, row, hrow, rfl⟩
        exact .updateWhere hq hobject hrow
      · rintro (_ | _ | _ | ⟨hq, hobject, hrow⟩)
        exact ⟨_, hq, _, hobject, _, hrow, rfl⟩
  | updatePartByKey part object =>
      simp only [sql, except_bind_eq_ok_iff, Dao.requireKey_eq_ok_iff, hof.partColumns_eq]
      constructor
      · rintro ⟨key, hprimary, htext⟩
        obtain ⟨c, hc⟩ := hof.exists_keepsKey hprimary
        obtain ⟨row, v, hrow, hv, rfl⟩ :=
          (hof.updateKey_statementText h hprimary hc (some part)).1 htext
        exact .updatePartByKey hprimary hc hrow hv
      · rintro (_ | _ | _ | _ | ⟨hprimary, hc, hrow, hv⟩)
        exact ⟨_, hprimary, (hof.updateKey_statementText h hprimary hc (some part)).2
          ⟨_, _, hrow, hv, rfl⟩⟩
  | updatePartWhere part object f =>
      simp only [sql, except_bind_eq_ok_iff, hof.partColumns_eq,
        h.updateQuery_statementText (some part)]
      constructor
      · rintro ⟨q, hq, row, hrow, rfl⟩
        exact .updatePartWhere hq hrow
      · rintro (_ | _ | _ | _ | _ | ⟨hq, hrow⟩)
        exact ⟨_, hq, _, hrow, rfl⟩

/-- A call that writes binds every literal to its own column, as far as a column gets one.  A call
with something to write sends its statement once: an insert has the columns that keep properties in
their order and a row for each entity with the values that these columns take from it, in the same
order; an update assigns to each column that it writes the value that the column takes, and has the
value of the key column or the clauses of the query behind the assignments.  What is in the values
plays no part.  If there is no such statement, since an entity is no object or a column takes no
value from it, nothing is sent and the call fails.  The value that a column takes is one literal and
no list, unless the column is for moments and gets an array. -/
theorem binds_columns (hof : IsDaoOf e dao) (h : dao.Writable) (hw : w.isIdle = false)
    (levels : Nat) (ctx : Option Context) (driver : Driver δ) (l : σ) (s : State) (d : δ) :
    (∀ sql, w.Binds dao sql → ∃ answer,
      Directed s ctx (.text sql) ((w.call.task dao levels ctx).exchanges driver l s d) answer ∧
        ((w.call.task dao levels ctx).run driver l s d).1.1 =
          answer.map WriteResult.ofOutput) ∧
    ((∀ sql, ¬ w.Binds dao sql) →
      (w.call.task dao levels ctx).exchanges driver l s d = [] ∧
        ∃ e, ((w.call.task dao levels ctx).run driver l s d).1.1 = .error e) ∧
    ∀ c ∈ dao.table.propertyColumns, ∀ fields v, c.Takes fields v →
      (v.isList = false ∧ v.entryText = v.literal ↔
        ¬ (c.type = .datetime ∧ c.GetsArray fields)) := by
  rw [DaoCall.task_eq, plan_call dao hw]
  refine ⟨fun text hbinds => ?_, fun hnone => ?_, fun c hc fields v hv => ?_⟩
  · rw [(sql_eq_ok_iff hof h).2 hbinds]
    exact ((Plan.write_ensures dao levels s ctx text WriteResult.ofOutput l).exchanges driver rfl
      d).1
  · cases hsql : w.sql dao with
    | error e => exact ⟨rfl, e, rfl⟩
    | ok text => exact absurd ((sql_eq_ok_iff hof h).1 hsql) (hnone text)
  · rw [v.entryText_eq_literal_iff, and_self, ← hv.isList_iff (h.defaults c hc),
      Bool.not_eq_true]

end Writing

/-! ## Entities of a calendar -/

namespace Event

/-- An entity type with a column for moments. -/
def entity : Entity where
  name := "Event"
  table := some ⟨"event", none, none, none, false⟩
  properties :=
    [⟨"id", .number, some (.key "id"), none⟩,
     ⟨"title", .string, some (.named "title"), none⟩,
     ⟨"at", .date, some (.named "at"), none⟩]

/-- The table of the entity type. -/
def table : Table := (Table.ofEntity? entity (Catalog.empty.withEntity entity).entity?).get rfl

/-- The access object of the entity type. -/
def dao : Dao := Dao.ofEntity entity table .any

theorem isDaoOf : IsDaoOf entity dao := ⟨table, _, .any, rfl, rfl⟩

theorem writable : dao.Writable where
  properties := by decide
  table := by
    show IsUnmarked "event"
    simp [IsUnmarked, isQuote]
  columns := by
    have hnames : ∀ name ∈ ["id", "title", "at"], IsUnmarked name := by simp [IsUnmarked, isQuote]
    exact (List.forall_mem_map (f := Column.name) (l := dao.table.propertyColumns)).1 hnames
  defaults := by
    have hnone : ∀ d ∈ [none, none, none], d = (none : Option Value) := by simp
    intro c hc d hd
    have hmem : c.defaultValue ∈ dao.table.propertyColumns.map Column.defaultValue :=
      List.mem_map_of_mem hc
    cases hd.symm.trans (hnone _ hmem)

/-- A program whose pool is open. -/
def state : State := { State.initial with pool := .open 0 }

/-- An entity with a quote and a placeholder in its title. -/
def talk : Json := .obj [("id", Json.ofInt 1), ("title", .str "who's ?")]

/-- An entity whose moment is an array. -/
def meeting : Json :=
  .obj [("id", Json.ofInt 1), ("at", .arr [Json.ofInt 2024, Json.ofInt 5, Json.ofInt 6])]

end Event

/-- A talk is saved with its quote escaped and without a moment; with a truth value among the
entities nothing is saved. -/
theorem Writing.binds_columns_event :
    (∃ answer, Directed Event.state none
        (.text "insert into event (id,title,at) values (1, 'who\\'s ?', NULL)")
        (((saveAll [Event.talk]).call.task Event.dao 0 none : Task Unit WriteResult).exchanges
          .granting () Event.state ()) answer ∧
      (((saveAll [Event.talk]).call.task Event.dao 0 none : Task Unit WriteResult).run
        .granting () Event.state ()).1.1 = answer.map WriteResult.ofOutput) ∧
    ((saveAll [Event.talk, .bool true]).call.task Event.dao 0 none :
      Task Unit WriteResult).exchanges .granting () Event.state () = [] := by
  have htalk : TakesRow Event.dao.table.propertyColumns Event.talk
      [.int 1, .string "who's ?", .null] :=
    (entityValues_eq_ok_iff fun _ => Dao.isSome_property).1 rfl
  have hobjects : [Event.talk].mapM Event.dao.codec.encode = .ok [Event.talk] := rfl
  have hbinds : (saveAll [Event.talk]).Binds Event.dao
      "insert into event (id,title,at) values (1, 'who\\'s ?', NULL)" :=
    .saveAll hobjects (.cons htalk .nil)
  refine ⟨(binds_columns Event.isDaoOf Event.writable rfl 0 none .granting () Event.state ()).1 _
    hbinds, ?_⟩
  refine ((binds_columns Event.isDaoOf Event.writable rfl 0 none .granting () Event.state ()).2.1
    fun sql hsql => ?_).1
  cases hsql with
  | saveAll hobjects hrows =>
      obtain rfl := Except.ok.inj hobjects
      obtain ⟨_, _, _, hrest, _⟩ := List.forall₂_cons_left_iff.1 hrows
      obtain ⟨_, _, ⟨fields, hfields, _⟩, _⟩ := List.forall₂_cons_left_iff.1 hrest
      cases hfields

/-- The literal of a value that is no list does not start with a parenthesis. -/
theorem Value.head?_literal_ne {v : Value} (h : v.isList = false) :
    v.literal.toList.head? ≠ some '(' := by
  have hnumber : ∀ {text : String},
      (∃ c rest, text.toList = c :: rest ∧ Decimal.IsNumberChar c) →
        text.toList.head? ≠ some '(' := by
    rintro text ⟨c, rest, htext, hc⟩ heq
    rw [htext] at heq
    obtain rfl := Option.some.inj heq
    simp [Decimal.IsNumberChar] at hc
  cases v with
  | null => simp [literal]
  | bool b => cases b <;> simp [literal, boolText]
  | int n => exact hnumber (exists_toString_eq n)
  | uint n => exact hnumber (exists_toString_eq n)
  | float x =>
      rw [literal]
      by_cases hfinite : x.isFinite = true
      · exact hnumber (exists_floatLiteral_eq hfinite)
      · simp [floatLiteral, hfinite]
  | string s => simp [literal, stringLiteral]
  | datetime t => simp [literal, quoted]
  | date d => simp [literal, quoted]
  | time t => simp [literal, quoted]
  | json j => simp [literal, stringLiteral]
  | point p =>
      rw [literal, head?_point]
      simp
  | list items => cases h

/-- The column for moments of a meeting is given the items of an array, which are no literal of the
value that the column takes, nor the literal of any other value. -/
theorem Writing.saveAll_meeting :
    ((saveAll [Event.meeting]).call.task Event.dao 0 none : Task Unit WriteResult).exchanges
        .granting () Event.state () =
      [⟨.poolQuery 0 (.text "insert into event (id,title,at) values (1, NULL, (2024, 5, 6))"),
        .ok (Output.ofRows [])⟩] ∧
    (∀ row, TakesRow Event.dao.table.propertyColumns Event.meeting row →
      "insert into event (id,title,at) values (1, NULL, (2024, 5, 6))" ≠
        "insert into event (id,title,at) values (" ++
          ", ".intercalate (row.map Value.literal) ++ ")") ∧
    ∀ v : Value, v.isList = false →
      "insert into event (id,title,at) values (1, NULL, (2024, 5, 6))" ≠
        "insert into event (id,title,at) values (1, NULL, " ++ v.literal ++ ")" := by
  have htaken : TakesRow Event.dao.table.propertyColumns Event.meeting
      [.int 1, .null, .list [.int 2024, .int 5, .int 6]] :=
    (entityValues_eq_ok_iff fun _ => Dao.isSome_property).1 rfl
  refine ⟨?_, fun row hrow => ?_, fun v hv heq => ?_⟩
  · have hobjects : [Event.meeting].mapM Event.dao.codec.encode = .ok [Event.meeting] := rfl
    have hbinds : (saveAll [Event.meeting]).Binds Event.dao
        "insert into event (id,title,at) values (1, NULL, (2024, 5, 6))" :=
      .saveAll hobjects (.cons htaken .nil)
    rw [DaoCall.task_eq, plan_call Event.dao rfl,
      (sql_eq_ok_iff Event.isDaoOf Event.writable).2 hbinds]
    rfl
  · obtain rfl := htaken.eq hrow
    decide
  · have hsplit : "insert into event (id,title,at) values (1, NULL, (2024, 5, 6))" =
        "insert into event (id,title,at) values (1, NULL, " ++ "(2024, 5, 6)" ++ ")" := rfl
    rw [hsplit, String.append_left_inj, String.append_right_inj] at heq
    refine Value.head?_literal_ne hv ?_
    rw [← heq]
    rfl

end Persistence
