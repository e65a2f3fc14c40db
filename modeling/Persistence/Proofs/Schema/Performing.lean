import Persistence.Proofs.Dao.Propagation
import Persistence.Proofs.Schema.Requests

/-!
# Changes made one after the other

The statements about whole tables change the set of tables or one of them.  Work of the synchronizer
makes such changes in a fixed order: it makes all of them, or a statement fails, and then it has
made the first ones and that is the end.

Main results:

- `Performed.bind`: the changes of a sequence are those of its first task and then of its second.
- `Schema.carryOut_performed`: a plan makes its changes, first all drops, then all creates, then
  all alterations.
-/

namespace Persistence

variable {σ α β δ : Type}

/-! ## Changes -/

/-- What a statement changes: a table goes, comes or gets another form.  What is neither one of
these nor known to read only is another change. -/
inductive Change
  | drop (name : String)
  | create (name : String)
  | alter (name : String)
  | other (sql : String)
deriving DecidableEq

/-- The change that an action is, if it does not only read. -/
def TableAction.change? (name : String) : TableAction → Option Change
  | drop => some (.drop name)
  | create => some (.create name)
  | alter => some (.alter name)
  | columns | indexes | foreignKeys | definition => none

namespace Change

/-- The change that a text asks for, if it does not only read. -/
def read? (sql : String) : Option Change :=
  match TableAction.readAny? sql with
  | some (a, name) => a.change? name
  | none => if sql = tableList then none else some (.other sql)

/-- The table that a change is about. -/
def subject? : Change → Option String
  | drop name => some name
  | create name => some name
  | alter name => some name
  | other _ => none

/-- The names of the tables after a change. -/
def apply (names : List String) : Change → List String
  | drop name => names.filter (· ≠ name)
  | create name => names ++ [name]
  | alter _ | other _ => names

end Change

namespace Statement

/-- The change that a statement asks for by its text, if it does not only read. -/
def change? (st : Statement) : Option Change := Change.read? st.sql

theorem change?_eq {st : Statement} {a : TableAction} {name : String}
    (h : st.action? = some (a, name)) : st.change? = a.change? name := by
  rw [change?, Change.read?, readAny?_sql h]

theorem change?_tableNames : tableNames.change? = none := by
  show Change.read? tableList = none
  rw [Change.read?, readAny?_tableList, if_pos rfl]

end Statement

/-- The change that an exchange asks for, whether it was granted or not. -/
def Exchange.change? (x : Exchange) : Option Change := x.request.statement?.bind Statement.change?

/-- The changes that were asked for, in order. -/
def changesIn (trace : List Exchange) : List Change := trace.filterMap Exchange.change?

@[simp]
theorem changesIn_append (front back : List Exchange) :
    changesIn (front ++ back) = changesIn front ++ changesIn back :=
  List.filterMap_append

theorem changesIn_eq_nil {trace : List Exchange} (h : ∀ x ∈ trace, x.change? = none) :
    changesIn trace = [] :=
  List.filterMap_eq_nil_iff.2 h

/-! ## Failures -/

/-- The error of an answer. -/
def errorOf? : Except DbError α → Option DbError
  | .ok _ => none
  | .error e => some e

/-- The error that a request was answered with. -/
def Request.error? : (r : Request) → r.Answer → Option DbError
  | .createPool _, answer => errorOf? answer
  | .closePool _, answer => errorOf? answer
  | .poolQuery _ _, answer => errorOf? answer
  | .acquire _, answer => errorOf? answer
  | .begin _, answer => errorOf? answer
  | .commit _, answer => errorOf? answer
  | .rollback _, answer => errorOf? answer
  | .release _, answer => errorOf? answer
  | .query _ _, answer => errorOf? answer
  | .hook _ _, answer => errorOf? answer
  | .produce _, _ => none
  | .constraintNames, _ => none

/-- The error of an exchange. -/
def Exchange.error? (x : Exchange) : Option DbError := x.request.error? x.answer

/-- Whether a request only leaves a transaction behind. -/
def Request.leaves : Request → Bool
  | .rollback _ | .release _ => true
  | _ => false

/-- The error of an exchange that was to get something done: a statement, or the start or the commit
of a transaction. -/
def Exchange.failure? (x : Exchange) : Option DbError :=
  if x.request.leaves then none else x.error?

/-- An exchange that went well: a statement over the connection that was not refused, or names. -/
inductive Fine (conn : Nat) : Exchange → Prop
  | query (st : Statement) (output : Output) : Fine conn ⟨.query conn st, .ok output⟩
  | names (names : Names) : Fine conn ⟨.constraintNames, names⟩

theorem Fine.error? {conn : Nat} {x : Exchange} (h : Fine conn x) : x.error? = none := by
  cases h <;> rfl

theorem Fine.failure? {conn : Nat} {x : Exchange} (h : Fine conn x) : x.failure? = none := by
  cases h <;> rfl

/-! ## Performing changes -/

/-- How work over a connection goes that makes some changes in their order and then has a result:
either it makes all of them, or a statement fails, and then it has made some of the first ones and
nothing follows. -/
inductive Performed (conn : Nat) (changes : List Change) (R : α → Prop) :
    List Exchange → Except DbError α → Prop
  | done {trace : List Exchange} {a : α} (hfine : ∀ x ∈ trace, Fine conn x)
      (hchanges : changesIn trace = changes) (ha : R a) : Performed conn changes R trace (.ok a)
  | failed (front : List Exchange) (st : Statement) (e : DbError)
      (hfine : ∀ x ∈ front, Fine conn x)
      (hchanges : changesIn (front ++ [⟨.query conn st, .error e⟩]) <+: changes) :
      Performed conn changes R (front ++ [⟨.query conn st, .error e⟩]) (.error e)

namespace Performed

variable {conn : Nat} {tx : Context} {I : State → Prop} {changes changes' : List Change}
  {R : α → Prop} {R' : β → Prop}

/-- Work that follows other work which went well. -/
theorem prepend {front trace : List Exchange} {result : Except DbError β}
    (hfine : ∀ x ∈ front, Fine conn x) (hfront : changesIn front = changes)
    (h : Performed conn changes' R' trace result) :
    Performed conn (changes ++ changes') R' (front ++ trace) result := by
  cases h with
  | done hrest hchanges hb =>
      refine .done (List.forall_mem_append.2 ⟨hfine, hrest⟩) ?_ hb
      rw [changesIn_append, hfront, hchanges]
  | failed rest st e hrest hchanges =>
      rw [← List.append_assoc]
      refine .failed (front ++ rest) st e (List.forall_mem_append.2 ⟨hfine, hrest⟩) ?_
      rw [List.append_assoc, changesIn_append, hfront]
      exact (List.prefix_append_right_inj changes).2 hchanges

/-- The changes of a sequence are those of its first task and then of its second. -/
theorem bind {t : Task σ α} {f : α → Task σ β} (ht : t.Ensures I (Performed conn changes R))
    (hf : ∀ a, R a → (f a).Ensures I (Performed conn changes' R')) :
    (t >>= f).Ensures I (Performed conn (changes ++ changes') R') := by
  apply Task.Ensures.bind
  apply ht.mono
  rintro trace result h
  cases h with
  | done hfine hchanges ha =>
      exact (hf _ ha).mono fun trace' result' h' => h'.prepend hfine hchanges
  | failed front st e hfine hchanges =>
      exact .failed front st e hfine (hchanges.trans (List.prefix_append changes changes'))

/-- A result without further work. -/
theorem pure {a : α} (ha : R a) : (Pure.pure a : Task σ α).Ensures I (Performed conn [] R) :=
  Task.Ensures.pure (.done (by simp) rfl ha)

/-- A statement in a context makes its change. -/
theorem execute (hI : ∀ s, I s → Holds tx conn s) (st : Statement) :
    (execute st (some tx) : Task σ Output).Ensures I
      (Performed conn st.change?.toList fun _ => True) := by
  have hasked : ∀ answer, changesIn [⟨.query conn st, answer⟩] = st.change?.toList := by
    intro answer
    cases hchange : st.change? with
    | none => exact List.filterMap_cons_none hchange
    | some c => exact List.filterMap_cons_some hchange
  refine execute_ensures_of hI fun answer => ?_
  cases answer with
  | ok output => exact .done (by simpa using .query st output) (hasked _) trivial
  | error e =>
      refine .failed [] st e (by simp) ?_
      rw [List.nil_append, hasked]

/-- A statement that asks for an action makes its change. -/
theorem execute_action (hI : ∀ s, I s → Holds tx conn s) (st : Statement) {a : TableAction}
    {name : String} (hst : st.action? = some (a, name)) :
    (Persistence.execute st (some tx) : Task σ Output).Ensures I
      (Performed conn (a.change? name).toList fun _ => True) := by
  rw [← Statement.change?_eq hst]
  exact execute hI st

/-- What follows a statement that only reads makes the changes. -/
theorem read_bind (hI : ∀ s, I s → Holds tx conn s) (st : Statement) {a : TableAction}
    {name : String} (hst : st.action? = some (a, name)) (ha : a.change? name = none)
    {f : Output → Task σ β} (hf : ∀ output, (f output).Ensures I (Performed conn changes R')) :
    (Persistence.execute st (some tx) >>= f).Ensures I (Performed conn changes R') := by
  have hread := execute_action (σ := σ) hI st hst
  rw [ha, Option.toList_none] at hread
  exact bind hread fun output _ => hf output

/-- Names come without a change. -/
theorem names_bind {f : Names → Task σ β}
    (hf : ∀ names, (f names).Ensures I (Performed conn changes R')) :
    (Task.ask .constraintNames >>= f).Ensures I (Performed conn changes R') := by
  refine Task.Ensures.ask_bind fun names => (hf names).mono fun trace result h => ?_
  have hfine : ∀ x ∈ [(⟨.constraintNames, names⟩ : Exchange)], Fine conn x := by
    simpa using .names names
  exact h.prepend hfine (rfl : changesIn _ = [])

end Performed

/-! ## Plans -/

/-- The changes that a plan makes. -/
def SyncPlan.changes (p : SyncPlan) : List Change :=
  p.drop.map .drop ++ (p.create.map fun t => .create t.name) ++ p.alter.map fun t => .alter t.name

namespace Schema

variable {conn : Nat} {tx : Context} {I : State → Prop} (hI : ∀ s, I s → Holds tx conn s)

include hI

theorem dropAll_performed (names : List String) :
    (dropAll (some tx) names : Task σ Unit).Ensures I
      (Performed conn (names.map .drop) fun _ => True) := by
  induction names with
  | nil => exact Performed.pure trivial
  | cons name names ih =>
      exact Performed.bind (Performed.execute_action hI (.dropTable name) rfl) fun _ _ => ih

theorem createAll_performed (tables : List Table) :
    (createAll (some tx) tables : Task σ Unit).Ensures I
      (Performed conn (tables.map fun t => .create t.name) fun _ => True) := by
  induction tables with
  | nil => exact Performed.pure trivial
  | cons t tables ih =>
      have hcreate : (create t (some tx) : Task σ Output).Ensures I
          (Performed conn [.create t.name] fun _ => True) :=
        Performed.names_bind fun names =>
          Performed.execute_action hI (.createTable t names) rfl
      exact Performed.bind hcreate fun _ _ => ih

/-- A table is described without a change. -/
theorem describe_performed (name : String) :
    (describe name (some tx) : Task σ LiveTable).Ensures I (Performed conn [] fun _ => True) :=
  Performed.read_bind hI (.columns name) rfl rfl fun _ =>
    Performed.read_bind hI (.indexes name) rfl rfl fun _ =>
      Performed.read_bind hI (.foreignKeys name) rfl rfl fun _ => Performed.pure trivial

/-- An update of a table alters it once. -/
theorem update_performed (t : Table) :
    (update t (some tx) : Task σ Output).Ensures I
      (Performed conn [.alter t.name] fun _ => True) :=
  Performed.bind (describe_performed hI t.name) fun _ _ =>
    Performed.names_bind fun _ => Performed.execute_action hI (.alterTable t.name _) rfl

theorem updateAll_performed (tables : List Table) :
    (updateAll (some tx) tables : Task σ Unit).Ensures I
      (Performed conn (tables.map fun t => .alter t.name) fun _ => True) := by
  induction tables with
  | nil => exact Performed.pure trivial
  | cons t tables ih => exact Performed.bind (update_performed hI t) fun _ _ => ih

/-- A plan makes its changes, first all drops, then all creates, then all alterations, and is
reported when all are made. -/
theorem carryOut_performed (p : SyncPlan) :
    (carryOut p (some tx) : Task σ SyncReport).Ensures I
      (Performed conn p.changes fun report => report = p.report) := by
  have hall : (carryOut p (some tx) : Task σ SyncReport).Ensures I
      (Performed conn (p.drop.map .drop ++ ((p.create.map fun t => .create t.name) ++
        ((p.alter.map fun t => .alter t.name) ++ []))) fun report => report = p.report) :=
    Performed.bind (dropAll_performed hI p.drop) fun _ _ =>
      Performed.bind (createAll_performed hI p.create) fun _ _ =>
        Performed.bind (updateAll_performed hI p.alter) fun _ _ => Performed.pure rfl
  rwa [List.append_nil, ← List.append_assoc] at hall

end Schema

end Persistence
