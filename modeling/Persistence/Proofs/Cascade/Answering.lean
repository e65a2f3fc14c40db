import Persistence.Proofs.Dao.Sparing
import Persistence.Proofs.Store.Requests

/-!
# Deletes by the texts of their statements

A driver that goes by the texts of statements is only spoken of as far as these can be read, and a
name that would have to be quoted cannot be read as one.  It is completed to a driver that answers
for a store: at the first statement with such a name a store takes its place, with the rows that
there are at that moment.

A delete of entity types with bare names never gets there.  So it runs against the completed driver
as it does against the driver itself, and what holds of all drivers that answer for a store holds
of the drivers that go by texts.  Of both it is said that a store stands behind them.

Main results:

- `AnswersSql.answersAsStore_completed`: the completed driver answers for a store.
- `OpenedWell.deleteQuery_within`: the statements of a delete have bare names.
- `OpenedWell.run_deleteQuery_completed`: a delete runs alike against both drivers.
- `OpenedWell.exists_store`: a store stands behind a driver if a delete runs against it as it does
  against one that answers for the store.
-/

namespace Persistence

open Sql

/-! ## Statements with bare names -/

/-- A statement about the rows of a scope whose names need no quotes. -/
def Statement.IsBare : Statement → Prop
  | rows s => s.IsBare
  | remove s => s.IsBare
  | flag s sets => s.IsBare ∧ sets ≠ [] ∧ ∀ set ∈ sets, isBareName set.1 = true
  | _ => False

/-- A request whose statement, if it has one, is such a statement. -/
def Request.IsBare (q : Request) : Prop := ∀ st, q.statement? = some st → st.IsBare

namespace Request

theorem isBare_of_statement?_eq_none {q : Request} (h : q.statement? = none) : q.IsBare := by
  intro st hst
  rw [h] at hst
  cases hst

theorem isBare_query_iff {conn : Nat} {st : Statement} : (query conn st).IsBare ↔ st.IsBare := by
  constructor
  · exact fun h => h st rfl
  · rintro h st' hst
    obtain rfl := Option.some.inj hst
    exact h

end Request

/-! ## The completed driver -/

section Completed

variable {δ : Type} (driver : Driver δ) (r : Reckoning) (session : δ → Session)

namespace Driver

open Classical in
/-- A driver that goes by texts, and behind it the store that takes its place at the first statement
with a name that would have to be quoted. -/
noncomputable def completed : Driver (δ ⊕ Session) where
  answer
    | q, .inl d =>
        if q.IsBare then ((driver.answer q d).1, .inl (driver.answer q d).2)
        else ((Store.answer r.collation q (session d)).1,
          .inr (Store.answer r.collation q (session d)).2)
    | q, .inr s => ((Store.answer r.collation q s).1, .inr (Store.answer r.collation q s).2)

/-- The session behind the completed driver. -/
def completedSession : δ ⊕ Session → Session := Sum.elim session id

/-- As long as there are no such names, the driver itself answers. -/
theorem completed_answer_of_isBare {q : Request} (h : q.IsBare) (d : δ) :
    (driver.completed r session).answer q (.inl d) =
      ((driver.answer q d).1, .inl (driver.answer q d).2) :=
  if_pos h

theorem completed_answer_of_not_isBare {q : Request} (h : ¬q.IsBare) (d : δ) :
    (driver.completed r session).answer q (.inl d) =
      ((Store.answer r.collation q (session d)).1,
        .inr (Store.answer r.collation q (session d)).2) :=
  if_neg h

/-- What is true of the answers of the driver to a request with bare names, and of those of a store
to any request, is true of those of the completed driver. -/
theorem completed_answer (q : Request) {R : Session → q.Answer → Session → Prop}
    (hdriver : q.IsBare → ∀ d, R (session d) (driver.answer q d).1 (session (driver.answer q d).2))
    (hstore : ∀ s, R s (Store.answer r.collation q s).1 (Store.answer r.collation q s).2)
    (x : δ ⊕ Session) :
    R (completedSession session x) ((driver.completed r session).answer q x).1
      (completedSession session ((driver.completed r session).answer q x).2) := by
  cases x with
  | inr s => exact hstore s
  | inl d =>
      by_cases hbare : q.IsBare
      · rw [completed_answer_of_isBare driver r session hbare]
        exact hdriver hbare d
      · rw [completed_answer_of_not_isBare driver r session hbare]
        exact hstore (session d)

/-- So it is with an answer `f b` where something is true of `b`. -/
theorem exists_completed_answer (q : Request) {β : Type} (f : β → q.Answer)
    (Q : β → Session → Session → Prop)
    (hdriver : q.IsBare → ∀ d, ∃ b d', driver.answer q d = (f b, d') ∧
      Q b (session d) (session d'))
    (hstore : ∀ s, ∃ b s', Store.answer r.collation q s = (f b, s') ∧ Q b s s')
    (x : δ ⊕ Session) :
    ∃ b x', (driver.completed r session).answer q x = (f b, x') ∧
      Q b (completedSession session x) (completedSession session x') := by
  obtain ⟨b, hb, hQ⟩ := completed_answer driver r session q
    (R := fun before answer after => ∃ b, answer = f b ∧ Q b before after)
    (fun hbare d => by
      obtain ⟨b, d', hanswer, hQ⟩ := hdriver hbare d
      rw [hanswer]
      exact ⟨b, rfl, hQ⟩)
    (fun s => by
      obtain ⟨b, s', hanswer, hQ⟩ := hstore s
      rw [hanswer]
      exact ⟨b, rfl, hQ⟩) x
  exact ⟨b, _, Prod.ext hb rfl, hQ⟩

/-- So it is with a request that is always answered alike. -/
theorem exists_completed_eq (q : Request) {answer : q.Answer} {f : Session → Session}
    (hdriver : ∀ d, ∃ d', driver.answer q d = (answer, d') ∧ session d' = f (session d))
    (hstore : ∀ s, Store.answer r.collation q s = (answer, f s)) (x : δ ⊕ Session) :
    ∃ x', (driver.completed r session).answer q x = (answer, x') ∧
      completedSession session x' = f (completedSession session x) := by
  obtain ⟨-, x', hanswer, hsession⟩ := exists_completed_answer driver r session q
    (fun _ : Unit => answer) (fun _ before after => after = f before)
    (fun _ d => ⟨(), hdriver d⟩) (fun s => ⟨(), f s, hstore s, rfl⟩) x
  exact ⟨x', hanswer, hsession⟩

end Driver

variable {driver r session}

open Driver in
/-- The completed driver answers for a store. -/
theorem AnswersSql.answersAsStore_completed (h : AnswersSql r driver session) :
    AnswersAsStore r.collation (driver.completed r session) (completedSession session) := by
  have hstore := Store.driver_answersAsStore r.collation
  constructor
  · constructor
    · exact fun pool => exists_completed_answer driver r session (.acquire pool) .ok
        (fun _ before after => after = before) (fun _ => h.acquire pool) (hstore.acquire pool)
    · exact fun conn =>
        exists_completed_eq driver r session (.begin conn) (h.begin conn) fun _ => rfl
    · exact fun conn =>
        exists_completed_eq driver r session (.commit conn) (h.commit conn) fun _ => rfl
    · exact fun conn =>
        exists_completed_eq driver r session (.rollback conn) (h.rollback conn) fun _ => rfl
    · exact fun conn =>
        exists_completed_eq driver r session (.release conn) (f := id) (h.release conn) fun _ => rfl
    · exact fun name => completed_answer driver r session (.produce name)
        (R := fun before _ after => after = before) (fun _ => h.produce name) fun _ => rfl
  · intro conn s x hplain
    refine exists_completed_answer driver r session (.query conn (.rows s)) .ok
      (fun o before after => after = before ∧ o.rows.Perm (before.current.select r.collation s))
      (fun hbare => ?_) (fun s' => hstore.rows conn s s' hplain) x
    exact h.rows (Request.isBare_query_iff.1 hbare) conn
  · intro conn s x hplain
    refine exists_completed_answer driver r session (.query conn (.remove s)) .ok
      (fun o before after =>
        after = { before with current := before.current.remove r.collation s } ∧
          o.Wrote (before.current.select r.collation s).length)
      (fun hbare => ?_) (fun s' => hstore.remove conn s s' hplain) x
    exact h.remove (Request.isBare_query_iff.1 hbare) conn
  · intro conn s sets x hplain
    refine exists_completed_answer driver r session (.query conn (.flag s sets)) .ok
      (fun o before after =>
        after = { before with current := before.current.flag r.collation s sets } ∧
          o.Wrote (before.current.select r.collation s).length)
      (fun hbare => ?_) (fun s' => hstore.flag conn s sets s' hplain) x
    obtain ⟨hs, hne, hsets⟩ := Request.isBare_query_iff.1 hbare
    exact h.flag hs hne hsets conn

end Completed

/-! ## The statements of a delete -/

namespace IsDaoOf

variable {e : Entity} {dao : Dao} {q : Query} (hof : IsDaoOf e dao) (hbare : e.HasBareNames)

include hof hbare

/-- The rows of a query with bare names. -/
theorem isBare_scope (hq : q.Plain) (hnamed : q.Named dao.target.mapping) :
    (dao.scope q).IsBare where
  table := hbare.table _ hof.tableName
  plain := hq
  named := hnamed

/-- Their deletion. -/
theorem isBare_deletes (hq : q.Plain) (hnamed : q.Named dao.target.mapping) {st : Statement}
    (hst : dao.Deletes q st) : st.IsBare := by
  have hscope := hof.isBare_scope hbare hq hnamed
  cases hst with
  | remove _ => exact hscope
  | flag hsoft hsets =>
      have hcolumns := hof.columns
      rw [if_pos hsoft] at hcolumns
      obtain ⟨front, hflag⟩ := (hcolumns ▸ hsets).exists_append_flag
      exact ⟨hscope, by simp [hflag],
        hsets.forall_fst (isBareName · = true) (hof.isBareName_column hbare)⟩

/-- A query for the values of a property names its column. -/
theorem named_scopeQuery (hdeclared : e.WellDeclared) {p : Property} {c : ColumnSpec}
    (hpc : (p, c) ∈ e.columnProperties) (values : List Value) :
    (scopeQuery p.key values).Named dao.target.mapping := by
  apply Query.named_scopeQuery
  rw [hof.columnName hdeclared hpc]
  exact hbare.column p c hpc

end IsDaoOf

namespace OpenedWell

variable {σ δ : Type} {entities : List Entity} {daos : List Dao} {s : State} {dao : Dao} {q : Query}
  (h : OpenedWell entities daos s) (hall : DeclaredTogether entities)
  (hbare : ∀ e ∈ entities, e.HasBareNames)

include h hall hbare

/-- The statements of one level have bare names, if those of its dependents do. -/
theorem deleteLevel_within {step : CascadeStep} (hdao : dao ∈ daos) (hq : q.Plain)
    (hnamed : q.Named dao.target.mapping) (force : Bool) (tx : Context)
    (hstep : ∀ g ∈ daos, ∀ q : Query, q.Plain → q.Named g.target.mapping →
      (step (.dao g) q).Within s.IsEquippedLike Request.IsBare) :
    (dao.deleteLevel step q force tx).Within s.IsEquippedLike Request.IsBare := by
  obtain ⟨e, he, hof⟩ := h.exists_entity dao hdao
  have hfree : ∀ q : Request, q.statement? = none → q.IsBare :=
    fun _ => Request.isBare_of_statement?_eq_none
  have hsend : ∀ st : Statement, st.IsBare →
      (execute st (some tx) : Task Claims Output).Within s.IsEquippedLike Request.IsBare :=
    fun st hst => execute_within fun _ => Request.isBare_query_iff.2 hst
  refine Dao.deleteLevel_within (fun _ => hfree _ rfl) (fun _ => tx.rollback_within hfree)
    (hsend _ (hof.isBare_scope (hbare e he) hq hnamed))
    (fun st hst => hsend st (hof.isBare_deletes (hbare e he) hq hnamed hst)) ?_ ?_
  · intro _ _ _ rows q' hscope st hst
    obtain ⟨key, hkey, rfl⟩ := Option.map_eq_some_iff.1 hscope
    rw [hof.primaryKey] at hkey
    obtain ⟨⟨p, c⟩, hpc, rfl⟩ := Option.map_eq_some_iff.1 hkey
    have hnamed' := hof.named_scopeQuery (hbare e he) (hall.declared e he)
      (List.mem_of_find?_eq_some hpc)
    exact hsend st (hof.isBare_deletes (hbare e he) (plain_scopeQuery _ _) (hnamed' _) hst)
  · intro s' hs' dep hdep rows _ s'' hs'' delete hdelete
    rw [hs'.1] at hdep
    rw [hs''.2.2] at hdelete
    obtain ⟨e', he', target, -, p, c, ref, column, hcascades, hname, -, hdep⟩ :=
      (h.knows.mem_dependentsOf hall.distinct).1 hdep
    obtain ⟨g, hg, hof', hlookup⟩ := h.exists_dao e' he' (by simp [hname])
    have hentity : dep.entity = e'.name := congrArg Dependent.entity hdep
    have hproperty : dep.property = p.key := congrArg Dependent.property hdep
    rw [hentity] at hdelete
    rw [hproperty]
    obtain rfl := Option.some.inj (hlookup.symm.trans hdelete)
    exact hstep g hg _ (plain_scopeQuery _ _)
      (hof'.named_scopeQuery (hbare e' he') (hall.declared e' he') hcascades.property _)

/-- So do those of a cascade, however deep it goes. -/
theorem cascade_within (hdao : dao ∈ daos) (hq : q.Plain) (hnamed : q.Named dao.target.mapping)
    (levels : Nat) (force : Bool) (tx : Context) :
    ((DeleteOperation.dao dao).cascade levels q force (some tx)).Within s.IsEquippedLike
      Request.IsBare := by
  induction levels generalizing dao q with
  | zero => exact .fail _
  | succ levels ih =>
      rw [DeleteOperation.cascade, transaction_some]
      exact h.deleteLevel_within hall hbare hdao hq hnamed force tx
        fun g hg q hq hnamed => ih hg hq hnamed

/-- The statements of a delete have bare names. -/
theorem deleteQuery_within (hdao : dao ∈ daos) (hq : q.Plain)
    (hnamed : q.Named dao.target.mapping) (levels : Nat) (force : Bool) (ctx : Option Context) :
    (dao.deleteQuery levels q force ctx : Task σ DeleteResult).Within s.IsEquippedLike
      Request.IsBare := by
  refine .withLocal ?_
  cases levels with
  | zero => exact .fail _
  | succ levels =>
      refine transaction_within (fun _ => Request.isBare_of_statement?_eq_none) (fun _ _ h => h)
        fun tx => ?_
      exact h.deleteLevel_within hall hbare hdao hq hnamed force tx
        fun g hg q hq hnamed => h.cascade_within hall hbare hg hq hnamed levels force tx

/-- A delete runs against the completed driver as it does against the driver itself. -/
theorem run_deleteQuery_completed (hdao : dao ∈ daos) (hq : q.Plain)
    (hnamed : q.Named dao.target.mapping) (levels : Nat) (force : Bool) (ctx : Option Context)
    (driver : Driver δ) (r : Reckoning) (session : δ → Session) (l : σ) (d : δ) :
    (dao.deleteQuery levels q force ctx).run (driver.completed r session) l s (.inl d) =
      (((dao.deleteQuery levels q force ctx).run driver l s d).1,
        ((dao.deleteQuery levels q force ctx).run driver l s d).2.1,
        .inl ((dao.deleteQuery levels q force ctx).run driver l s d).2.2) :=
  (h.deleteQuery_within hall hbare hdao hq hnamed levels force ctx l).run_eq
    (fun _ hbare d => driver.completed_answer_of_isBare r session hbare d) ⟨rfl, rfl, rfl⟩ d

end OpenedWell

/-! ## Drivers behind which there is a store -/

/-- A store stands behind a driver, as far as deletes of a query over some entity types go: the
driver answers for the store by what statements are about, or it goes by their texts, and no name in
these needs quotes. -/
inductive StandsBehind {δ : Type} (entities : List Entity) (dao : Dao) (q : Query)
    (driver : Driver δ) (session : δ → Session) : Collation → Prop
  | scopes {k : Collation} : AnswersAsStore k driver session →
      StandsBehind entities dao q driver session k
  | texts {r : Reckoning} : (∀ e ∈ entities, e.HasBareNames) → q.Named dao.target.mapping →
      AnswersSql r driver session → StandsBehind entities dao q driver session r.collation

/-- A delete runs against such a driver as it does against one that answers for the store. -/
theorem OpenedWell.exists_store {δ : Type} {driver : Driver δ} {session : δ → Session}
    {k : Collation} {entities : List Entity} {daos : List Dao} {s : State} {dao : Dao} {q : Query}
    (h : OpenedWell entities daos s) (hall : DeclaredTogether entities) (hdao : dao ∈ daos)
    (hq : q.Plain) (hstore : StandsBehind entities dao q driver session k) :
    ∃ (δ' : Type) (driver' : Driver δ') (session' : δ' → Session) (enter : δ → δ'),
      AnswersAsStore k driver' session' ∧ (∀ d, session' (enter d) = session d) ∧
      ∀ {σ : Type} {levels : Nat} {force : Bool} {ctx : Option Context} {l : σ} {d : δ}
        {outcome : Except DbError DeleteResult × σ} {s' : State} {x : δ'},
        (dao.deleteQuery levels q force ctx).run driver' l s (enter d) = (outcome, s', x) →
          ∃ d', (dao.deleteQuery levels q force ctx).run driver l s d = (outcome, s', d') ∧
            enter d' = x := by
  cases hstore with
  | scopes hdriver =>
      exact ⟨δ, driver, session, id, hdriver, fun _ => rfl, fun hrun => ⟨_, hrun, rfl⟩⟩
  | @texts r hbare hnamed hdriver =>
      refine ⟨_, _, _, Sum.inl, hdriver.answersAsStore_completed, fun _ => rfl, ?_⟩
      intro σ levels force ctx l d outcome s' x hrun
      rw [h.run_deleteQuery_completed hall hbare hdao hq hnamed] at hrun
      obtain ⟨hresult, hrest⟩ := Prod.mk.inj hrun
      obtain ⟨hstate, hx⟩ := Prod.mk.inj hrest
      exact ⟨_, Prod.ext hresult (Prod.ext hstate rfl), hx⟩

end Persistence
