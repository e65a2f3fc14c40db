import Persistence.Dao.Write
import Persistence.Proofs.Cascade.Asking

/-!
# The calls of a data access object

Everything that can be asked of a data access object is a value here, so that one statement can
speak of all of it.  Whatever a call does with its arguments, it comes down to one of four plans: an
outcome that the arguments settle, a select, a statement that writes, or a delete with its
dependents.  What the operations have in common is proved of the plans.

A select follows relations through whatever selects are registered, so what it asks is described by
a property of selects and their arguments that the following of relations keeps.

Main results:

- `DaoCall.task_eq`: a call is its plan carried out.
- `Select.run_within`: what a select asks, however deep it follows relations.
-/

namespace Persistence

variable {σ α β : Type} {I : State → Prop} {P : Request → Prop}

/-! ## Plans -/

/-- A call of a data access object, with its result. -/
inductive DaoCall : Type → Type
  | count : DaoCall Nat
  | countWhere (f : Filter) : DaoCall Nat
  | list : DaoCall (List Json)
  | listWhere (f : Filter) : DaoCall (List Json)
  | page (p : Page) : DaoCall (List Json)
  | pageWhere (f : Filter) (p : Page) : DaoCall (List Json)
  | findByKey (key : Value) : DaoCall (Option Json)
  | findWhere (f : Filter) : DaoCall (Option Json)
  | findByColumn (column : String) (v : Value) : DaoCall (Option Json)
  | listByColumn (column : String) (v : Value) : DaoCall (List Json)
  | save (entity : Json) : DaoCall WriteResult
  | saveAll (entities : List Json) : DaoCall WriteResult
  | saveOrUpdate (entity : Json) : DaoCall WriteResult
  | saveOrUpdateAll (entities : List Json) : DaoCall WriteResult
  | updateByKey (entity : Json) : DaoCall WriteResult
  | updateWhere (entity : Json) (f : Filter) : DaoCall WriteResult
  | updatePartByKey (part : List String) (object : Json) : DaoCall WriteResult
  | updatePartWhere (part : List String) (object : Json) (f : Filter) : DaoCall WriteResult
  | deleteByKey (key : Value) (force : Bool) : DaoCall DeleteResult
  | deleteQuery (q : Query) (force : Bool) : DaoCall DeleteResult
  | deleteWhere (f : Filter) (force : Bool) : DaoCall DeleteResult

/-- What a call comes down to. -/
inductive Plan (α : Type)
  /-- Nothing is sent. -/
  | settled (result : Except DbError α)
  | read (s : Select) (args : List Param) (finish : Selection → Except DbError α)
  | write (sql : String) (finish : Output → α)
  /-- A delete with its dependents. -/
  | delete (q : Query) (force : Bool) (finish : DeleteResult → α)

namespace Plan

/-- The plan for an argument, if there is one. -/
def given : Except DbError β → (β → Plan α) → Plan α
  | .ok b, plan => plan b
  | .error e, _ => settled (.error e)

/-- A plan that writes some entities with one statement. -/
def insert (i : Insert) (entities : List Json) : Plan WriteResult :=
  if entities.isEmpty then settled (.ok ⟨true, 0, none⟩)
  else given (i.statementText entities) fun sql => write sql WriteResult.ofOutput

/-- A plan that changes rows to the values of an entity. -/
def update (u : Update) (entity : Json) (args : List Param) : Plan WriteResult :=
  given (u.statementText entity args) fun sql => write sql WriteResult.ofOutput

/-- A plan that is carried out by a data access object. -/
def task (d : Dao) (levels : Nat) (ctx : Option Context) : Plan α → Task σ α
  | settled result => Task.ofExcept result
  | read s args finish => do Task.ofExcept (finish (← s.call args ctx))
  | write sql finish => do return finish (← execute (.text sql) ctx)
  | delete q force finish => do return finish (← d.deleteQuery levels q force ctx)

end Plan

namespace DaoCall

/-- The task of a call. -/
def task (d : Dao) (levels : Nat) (ctx : Option Context) : DaoCall α → Task σ α
  | count => d.count ctx
  | countWhere f => d.countWhere f ctx
  | list => d.list ctx
  | listWhere f => d.listWhere f ctx
  | page p => d.page p ctx
  | pageWhere f p => d.pageWhere f p ctx
  | findByKey key => d.findByKey key ctx
  | findWhere f => d.findWhere f ctx
  | findByColumn column v => d.findByColumn column v ctx
  | listByColumn column v => d.listByColumn column v ctx
  | save entity => d.save entity ctx
  | saveAll entities => d.saveAll entities ctx
  | saveOrUpdate entity => d.saveOrUpdate entity ctx
  | saveOrUpdateAll entities => d.saveOrUpdateAll entities ctx
  | updateByKey entity => d.updateByKey entity ctx
  | updateWhere entity f => d.updateWhere entity f ctx
  | updatePartByKey part object => d.updatePartByKey part object ctx
  | updatePartWhere part object f => d.updatePartWhere part object f ctx
  | deleteByKey key force => d.deleteByKey levels key force ctx
  | deleteQuery q force => d.deleteQuery levels q force ctx
  | deleteWhere f force => d.deleteWhere levels f force ctx

/-- The plan of a call. -/
def plan (d : Dao) : DaoCall α → Plan α
  | count => .read d.countAll [] fun s => .ok s.count
  | countWhere f => .given f.toQuery fun q => .read d.countQuery [.query q] fun s => .ok s.count
  | list => .read d.listAll [] d.entities
  | listWhere f => .given f.toQuery fun q => .read d.listQuery [.query q] d.entities
  | page p => .read d.pageAll p.arguments d.entities
  | pageWhere f p =>
      .given f.toQuery fun q => .read d.pageQuery (.query q :: p.arguments) d.entities
  | findByKey key =>
      .given d.requireKey fun column => .read (d.findKey column) [.literal key] d.entity?
  | findWhere f => .given f.toQuery fun q => .read d.findQuery [.query q] d.entity?
  | findByColumn column v => .read d.findBy [.raw column, .literal v] d.entity?
  | listByColumn column v => .read d.findListBy [.raw column, .literal v] d.entities
  | save entity => .given ([entity].mapM d.codec.encode) fun objects => .insert d.insert objects
  | saveAll entities =>
      .given (entities.mapM d.codec.encode) fun objects => .insert d.insert objects
  | saveOrUpdate entity =>
      .given ([entity].mapM d.codec.encode) fun objects => .insert d.replace objects
  | saveOrUpdateAll entities =>
      .given (entities.mapM d.codec.encode) fun objects => .insert d.replace objects
  | updateByKey entity =>
      .given d.requireKey fun key =>
        .given (d.codec.encode entity) fun object =>
          .update (d.updateKey key d.nonKeyColumns) object []
  | updateWhere entity f =>
      .given f.toQuery fun q =>
        .given (d.codec.encode entity) fun object =>
          .update (d.updateQuery d.nonKeyColumns) object [.query q]
  | updatePartByKey part object =>
      .given d.requireKey fun key => .update (d.updateKey key (d.partColumns part)) object []
  | updatePartWhere part object f =>
      .given f.toQuery fun q => .update (d.updateQuery (d.partColumns part)) object [.query q]
  | deleteByKey key force =>
      .given d.requireKey fun column => .delete (Query.empty.eq column.property key) force id
  | deleteQuery q force => .delete q force id
  | deleteWhere f force => .given f.toQuery fun q => .delete q force id

end DaoCall

/-- What is done with an argument, if there is one, is planned for the argument. -/
theorem Plan.given_task (d : Dao) (levels : Nat) (ctx : Option Context) (x : Except DbError β)
    {plan : β → Plan α} {f : β → Task σ α} (h : ∀ b, f b = (plan b).task d levels ctx) :
    (Task.ofExcept x >>= f) = (given x plan).task d levels ctx := by
  cases x with
  | error e => rfl
  | ok b => exact h b

theorem Insert.call_eq (d : Dao) (levels : Nat) (ctx : Option Context) (i : Insert)
    (entities : List Json) :
    (i.call entities ctx : Task σ WriteResult) = (Plan.insert i entities).task d levels ctx := by
  rw [call, Plan.insert]
  split
  · rfl
  · exact Plan.given_task d levels ctx _ fun _ => rfl

theorem Update.call_eq (d : Dao) (levels : Nat) (ctx : Option Context) (u : Update) (entity : Json)
    (args : List Param) :
    (u.call entity args ctx : Task σ WriteResult) =
      (Plan.update u entity args).task d levels ctx :=
  Plan.given_task d levels ctx _ fun _ => rfl

/-- A call is its plan carried out. -/
theorem DaoCall.task_eq (d : Dao) (levels : Nat) (ctx : Option Context) (c : DaoCall α) :
    (c.task d levels ctx : Task σ α) = (c.plan d).task d levels ctx := by
  have hdelete : ∀ q force, (d.deleteQuery levels q force ctx : Task σ DeleteResult) =
      (Plan.delete q force id).task d levels ctx := fun q force => (bind_pure _).symm
  cases c with
  | count => rfl
  | countWhere f => exact Plan.given_task d levels ctx _ fun _ => rfl
  | list => rfl
  | listWhere f => exact Plan.given_task d levels ctx _ fun _ => rfl
  | page p => rfl
  | pageWhere f p => exact Plan.given_task d levels ctx _ fun _ => rfl
  | findByKey key => exact Plan.given_task d levels ctx _ fun _ => rfl
  | findWhere f => exact Plan.given_task d levels ctx _ fun _ => rfl
  | findByColumn column v => rfl
  | listByColumn column v => rfl
  | save entity => exact Plan.given_task d levels ctx _ fun _ => Insert.call_eq d levels ctx _ _
  | saveAll entities =>
      exact Plan.given_task d levels ctx _ fun _ => Insert.call_eq d levels ctx _ _
  | saveOrUpdate entity =>
      exact Plan.given_task d levels ctx _ fun _ => Insert.call_eq d levels ctx _ _
  | saveOrUpdateAll entities =>
      exact Plan.given_task d levels ctx _ fun _ => Insert.call_eq d levels ctx _ _
  | updateByKey entity =>
      exact Plan.given_task d levels ctx _ fun _ => Plan.given_task d levels ctx _ fun _ =>
        Update.call_eq d levels ctx _ _ _
  | updateWhere entity f =>
      exact Plan.given_task d levels ctx _ fun _ => Plan.given_task d levels ctx _ fun _ =>
        Update.call_eq d levels ctx _ _ _
  | updatePartByKey part object =>
      exact Plan.given_task d levels ctx _ fun _ => Update.call_eq d levels ctx _ _ _
  | updatePartWhere part object f =>
      exact Plan.given_task d levels ctx _ fun _ => Update.call_eq d levels ctx _ _ _
  | deleteByKey key force => exact Plan.given_task d levels ctx _ fun _ => hdelete _ force
  | deleteQuery q force => exact hdelete q force
  | deleteWhere f force => exact Plan.given_task d levels ctx _ fun _ => hdelete _ force

/-! ## Selects -/

/-- The value of a property is asked for where it is a relation of a row that has one. -/
theorem hydrateProperty_within {related : Option (Related σ)} {row : Row} {target : Mapping.Target}
    (hrelated : ∀ l, target = .lookup l → ∀ run, related = some run → ∀ key, key.isNull = false →
      (run l.select (l.arguments key)).Within I P) :
    (hydrateProperty related row target).Within I P := by
  cases target with
  | column column => exact .pure _
  | lookup l =>
      cases related with
      | none => exact .pure _
      | some run =>
          cases hkey : presentValue? row l.source with
          | none =>
              simp only [hydrateProperty, hkey]
              exact .pure _
          | some key =>
              have hpresent : key.isNull = false := by
                simpa using (Option.filter_eq_some_iff.1 hkey).2
              simp only [hydrateProperty, hkey]
              exact (hrelated l rfl run rfl key hpresent).bind fun _ => .pure _

/-- The object of a row is asked for property by property. -/
theorem hydrateEntries_within {related : Option (Related σ)} {row : Row}
    {entries : List (String × Mapping.Target)}
    (hrelated : ∀ property l, (property, .lookup l) ∈ entries → ∀ run, related = some run →
      ∀ key, key.isNull = false → (run l.select (l.arguments key)).Within I P) :
    (hydrateEntries related row entries).Within I P := by
  induction entries with
  | nil => exact .pure _
  | cons entry entries ih =>
      obtain ⟨property, target⟩ := entry
      refine (hydrateProperty_within fun l hl => ?_).bind fun value => ?_
      · exact hrelated property l (hl ▸ List.mem_cons_self)
      · exact (ih fun property l hl => hrelated property l (List.mem_cons_of_mem _ hl)).bind
          fun rest => .pure _

namespace Select

/-- The relations that a select follows. -/
def Follows (s : Select) (l : Mapping.Lookup) : Prop :=
  ∃ t, s.target = some t ∧ ∃ property, (property, Mapping.Target.lookup l) ∈ t.mapping.entries

/-- A row is asked for no more than the relations of the select. -/
theorem hydrate_within {s : Select} {related : Option (Related σ)} {row : Row}
    (hrelated : ∀ l, s.Follows l → ∀ run, related = some run → ∀ key, key.isNull = false →
      (run l.select (l.arguments key)).Within I P) : (s.hydrate related row).Within I P := by
  rw [hydrate]
  split
  · exact .pure _
  · next t ht =>
    refine Task.Within.bind (hydrateEntries_within fun property l hl => ?_) fun _ => .pure _
    exact hrelated l ⟨t, ht, property, hl⟩

theorem hydrateAll_within {s : Select} {related : Option (Related σ)} (rows : List Row)
    (hrelated : ∀ l, s.Follows l → ∀ run, related = some run → ∀ key, key.isNull = false →
      (run l.select (l.arguments key)).Within I P) : (s.hydrateAll related rows).Within I P := by
  induction rows with
  | nil => exact .pure _
  | cons row rows ih => exact (hydrate_within hrelated).bind fun _ => ih.bind fun _ => .pure _

theorem runWith_within {s : Select} {ctx : Option Context} {related : Option (Related σ)}
    {args : List Param}
    (hsend : (execute (.text (s.statementText args)) ctx : Task σ Output).Within I P)
    (hrelated : ∀ l, s.Follows l → ∀ run, related = some run → ∀ key, key.isNull = false →
      (run l.select (l.arguments key)).Within I P) :
    (s.runWith ctx related args).Within I P := by
  rw [runWith]
  refine hsend.bind fun output => ?_
  split
  · exact .pure _
  · exact .pure _
  · exact (hydrateAll_within _ hrelated).bind fun _ => .pure _
  · exact (hydrateAll_within _ hrelated).bind fun _ => .pure _

/-- What a select asks, however deep it follows relations: `Q` holds of it and its arguments, and of
every select that is registered for a relation and the arguments with which that one is run. -/
theorem run_within {ctx : Option Context} {Q : Select → List Param → Prop}
    (hsend : ∀ s args, Q s args →
      (execute (.text (s.statementText args)) ctx : Task σ Output).Within I P)
    (hfollow : ∀ s args, Q s args → ∀ l, s.Follows l → ∀ key, key.isNull = false →
      ∀ state, I state → ∀ related, state.selects.lookup l.select = some related →
        Q related (l.arguments key))
    (depth : Nat) {s : Select} {args : List Param} (h : Q s args) :
    (run ctx depth s args : Task σ Selection).Within I P := by
  induction depth generalizing s args with
  | zero => exact runWith_within (hsend s args h) fun _ _ _ hnone => by cases hnone
  | succ depth ih =>
      refine runWith_within (hsend s args h) fun l hl run hrun key hkey => ?_
      cases hrun
      show (registeredSelect l.select >>= fun related =>
        run ctx depth related (l.arguments key) : Task σ Selection).Within I P
      rw [registeredSelect, bind_assoc]
      refine .state_bind fun state hstate => ?_
      split
      · next related hlookup => exact ih (hfollow s args h l hl key hkey state hstate _ hlookup)
      · exact .fail _

end Select

end Persistence
