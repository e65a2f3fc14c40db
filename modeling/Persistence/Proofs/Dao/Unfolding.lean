import Persistence.Proofs.Dao.Calls
import Persistence.Proofs.Dao.Levels
import Persistence.Proofs.Program.Covering

/-!
# Relations unfolded to a depth

A select follows the relations of the objects that it finds to a depth that the caller chooses, and
relations may lead back to where they came from.  A select that is run to one level more finds the
same, with the relations of that level in addition; it sends the same statements, with those for
that level in between.  No result has relations below its depth, and the number of statements is
bounded by the depth, the number of relations of a select and the number of rows of an answer.

Main results:

- `Select.run_covers`: a run to one level more covers a run, with the lowest level cut off.
- `Select.run_unfolds`: what a run finds and sends, how deep its result is, and that it ends.
-/

namespace Persistence

variable {σ δ : Type}

/-! ## One level more -/

section Covering

variable {driver : Driver δ} {state : State} {related related' : Option (Related σ)}
  {f : Mapping.Lookup → Json → Option Json} {row : Row}

/-- What is looked up for a relation of a row covers what is looked up otherwise. -/
def CoversLookups (driver : Driver δ) (state : State) (f : Mapping.Lookup → Json → Option Json)
    (related related' : Option (Related σ)) : Prop :=
  ∀ row l, Task.Covers driver state (fun v v' => v' = v.bind (f l))
    (hydrateProperty related row (.lookup l) : Task σ (Option Json))
    (hydrateProperty related' row (.lookup l))

variable (h : CoversLookups driver state f related related')

include h

/-- The object that a row becomes covers the one with other values of its relations. -/
theorem hydrateEntries_covers {m : Mapping} {entries : List (String × Mapping.Target)}
    (hentries : ∀ entry ∈ entries, m.get? entry.1 = some entry.2) :
    Task.Covers driver state (fun fields fields' => fields' = m.mapRelations f fields)
      (hydrateEntries related row entries) (hydrateEntries related' row entries) := by
  induction entries with
  | nil => exact .pure rfl
  | cons entry entries ih =>
      obtain ⟨property, target⟩ := entry
      obtain ⟨hfirst, hrest⟩ := List.forall_mem_cons.1 hentries
      dsimp only at hfirst
      have hproperty : Task.Covers driver state
          (fun v v' => v' = v.bind fun v =>
            match target with
            | .lookup l => f l v
            | .column _ => some v)
          (hydrateProperty related row target) (hydrateProperty related' row target) := by
        cases target with
        | lookup l => exact h row l
        | column name =>
            exact .pure (by simp)
      refine hproperty.bind ?_
      rintro v _ rfl
      refine (ih hrest).bind ?_
      rintro fields _ rfl
      refine .pure ?_
      cases v with
      | none => rfl
      | some v =>
          cases target with
          | lookup l => cases hv : f l v <;> simp [Mapping.mapRelations, hfirst, hv]
          | column name => simp [Mapping.mapRelations, hfirst]

namespace Select

variable {s : Select} (hs : s.WellMapped)

include hs

theorem hydrate_covers :
    Task.Covers driver state (fun j j' => j' = s.mapRelations f j)
      (s.hydrate related row) (s.hydrate related' row) := by
  rw [hydrate, hydrate]
  cases htarget : s.target with
  | none => exact .pure (by simp [mapRelations, htarget])
  | some t =>
      refine (hydrateEntries_covers h (m := t.mapping) ?_).bind ?_
      · exact fun entry hentry => (Keyed.lookup_eq_some_iff_of_nodup (hs t htarget)).2 hentry
      · rintro fields _ rfl
        exact .pure (by simp [mapRelations, htarget])

theorem hydrateAll_covers (rows : List Row) :
    Task.Covers driver state (fun values values' => values' = values.map (s.mapRelations f))
      (s.hydrateAll related rows) (s.hydrateAll related' rows) := by
  induction rows with
  | nil => exact .pure rfl
  | cons row rows ih =>
      refine (hydrate_covers h hs).bind ?_
      rintro v _ rfl
      refine ih.bind ?_
      rintro values _ rfl
      exact .pure rfl

variable (related') in
theorem runWith_covers (hdriver : driver.Steady) (ctx : Option Context) (args : List Param) :
    Task.Covers driver state
      (fun found found' => found.HasShape s.shape ∧ found' = found.mapObjects (s.mapRelations f))
      (s.runWith ctx related args) (s.runWith ctx related' args) := by
  rw [runWith, runWith]
  refine (execute_covers hdriver state _ ctx).bind ?_
  rintro output _ rfl
  cases hshape : s.shape with
  | count => exact .pure ⟨.count _, rfl⟩
  | aggregation => exact .pure ⟨.aggregation _, rfl⟩
  | list =>
      refine (hydrateAll_covers h hs output.rows).bind ?_
      rintro values _ rfl
      exact .pure ⟨.list _, rfl⟩
  | one =>
      refine (hydrateAll_covers h hs (output.rows.take 1)).bind ?_
      rintro values _ rfl
      exact .pure ⟨.one _, by simp [Selection.mapObjects]⟩

end Select

end Covering

/-- The selects that are registered have distinct properties. -/
def State.WellMapped (state : State) : Prop :=
  ∀ id related, state.selects.lookup id = some related → related.WellMapped

/-- The selects that are registered follow at most so many relations from a row. -/
def State.RelationsWithin (state : State) (width : Nat) : Prop :=
  ∀ id related, state.selects.lookup id = some related → related.relations.length ≤ width

/-- There is a bound for all registered selects. -/
theorem State.exists_relationsWithin (state : State) (n : Nat) :
    ∃ width, n ≤ width ∧ state.RelationsWithin width := by
  refine ⟨n + (state.selects.map fun entry => entry.2.relations.length).sum, Nat.le_add_right _ _,
    fun id related hrelated => ?_⟩
  obtain ⟨front, back, hselects, -⟩ := List.lookup_eq_some_iff.1 hrelated
  have hmem : related.relations.length ∈
      state.selects.map fun entry => entry.2.relations.length :=
    List.mem_map.2 ⟨(id, related), by simp [hselects], rfl⟩
  exact (List.le_sum_of_mem hmem).trans (Nat.le_add_left _ _)

/-- How a select finds the values of relations that it follows through so many levels. -/
def relatedTo (ctx : Option Context) : (depth : Nat) → Option (Related σ)
  | 0 => none
  | depth + 1 => some fun id args => do
      let related ← registeredSelect id
      Select.run ctx depth related args

theorem hydrateProperty_of_absent {related : Option (Related σ)} {row : Row} {l : Mapping.Lookup}
    (h : presentValue? row l.source = none) :
    hydrateProperty related row (.lookup l) = pure none := by
  cases related <;> simp only [hydrateProperty, h]

theorem hydrateProperty_of_present {related : Related σ} {row : Row} {l : Mapping.Lookup}
    {key : Json} (h : presentValue? row l.source = some key) :
    hydrateProperty (some related) row (.lookup l) =
      related l.select (l.arguments key) >>= fun found => pure found.related? := by
  simp only [hydrateProperty, h]

namespace Select

variable {driver : Driver δ} {state : State}

theorem run_eq (ctx : Option Context) (depth : Nat) (s : Select) (args : List Param) :
    (run ctx depth s args : Task σ Selection) = s.runWith ctx (relatedTo ctx depth) args := by
  cases depth <;> rfl

/-- A select leaves the state as it is. -/
theorem run_within_of_eq (ctx : Option Context) (depth : Nat) (s : Select) (args : List Param) :
    (run ctx depth s args : Task σ Selection).Within (· = state) fun _ => True :=
  run_within (Q := fun _ _ => True) (fun _ _ _ => execute_within_of_forall ctx fun _ _ => trivial)
    (fun _ _ _ _ _ _ _ _ _ _ _ => trivial) depth trivial

theorem registered_within_of_eq (ctx : Option Context) (depth : Nat) (id : String)
    (args : List Param) :
    (registeredSelect id >>= fun related => run ctx depth related args : Task σ Selection).Within
      (· = state) fun _ => True := by
  rw [registeredSelect, bind_assoc]
  refine .state_bind fun _ _ => ?_
  split
  · exact run_within_of_eq ctx depth _ args
  · exact .fail _

/-- A run to one level more covers a run: it finds the same once the relations of the lowest level
are cut off. -/
theorem run_covers (hdriver : driver.Steady) (hselects : state.WellMapped) (ctx : Option Context)
    (depth : Nat) {s : Select} (hs : s.WellMapped) (args : List Param) :
    Task.Covers driver state
      (fun found found' => found.HasShape s.shape ∧
        found' = found.mapObjects (s.cut state.selects depth))
      (run ctx (depth + 1) s args : Task σ Selection) (run ctx depth s args) := by
  induction depth generalizing s args with
  | zero =>
      refine runWith_covers (relatedTo ctx 0) (fun row l => ?_) hs hdriver ctx args
      cases hkey : presentValue? row l.source with
      | none =>
          rw [hydrateProperty_of_absent hkey, hydrateProperty_of_absent hkey]
          exact .pure rfl
      | some key =>
          rw [hydrateProperty_of_present hkey]
          refine .skip (registered_within_of_eq ctx 0 _ _) fun found => .pure ?_
          cases found.related? <;> rfl
  | succ depth ih =>
      refine runWith_covers (relatedTo ctx (depth + 1)) (fun row l => ?_) hs hdriver ctx args
      cases hkey : presentValue? row l.source with
      | none =>
          rw [hydrateProperty_of_absent hkey, hydrateProperty_of_absent hkey]
          exact .pure rfl
      | some key =>
          rw [hydrateProperty_of_present hkey, relatedTo, hydrateProperty_of_present hkey]
          rw [registeredSelect, bind_assoc, bind_assoc, bind_assoc, bind_assoc]
          refine .state_bind ?_
          cases hrelated : state.selects.lookup l.select with
          | none => exact .fail _ _
          | some related =>
              refine (ih (hselects _ _ hrelated) _).bind ?_
              rintro found _ ⟨hshape, rfl⟩
              refine .pure ?_
              rw [hshape.related?_mapObjects]
              cases found.related? <;> rfl

end Select

/-! ## Levels and statements of a run -/

/-- The rows of the answer to a statement. -/
def Exchange.rows (x : Exchange) : List Row :=
  match x.answered? with
  | some (_, .ok output) => output.rows
  | _ => []

/-- There are at most `n` exchanges, if no answer has more than so many rows. -/
def Bounded (rows n : Nat) (trace : List Exchange) : Prop :=
  (∀ x ∈ trace, x.rows.length ≤ rows) → trace.length ≤ n

namespace Bounded

variable {rows n m : Nat} {trace trace' : List Exchange}

theorem nil : Bounded rows n [] := fun _ => Nat.zero_le n

theorem mono (h : Bounded rows n trace) (hle : n ≤ m) : Bounded rows m trace :=
  fun hrows => (h hrows).trans hle

theorem append (h : Bounded rows n trace) (h' : Bounded rows m trace') :
    Bounded rows (n + m) (trace ++ trace') := by
  intro hrows
  obtain ⟨hfront, hback⟩ := List.forall_mem_append.1 hrows
  rw [List.length_append]
  exact Nat.add_le_add (h hfront) (h' hback)

/-- An answer takes at most so many more for each of its rows. -/
theorem cons {x : Exchange} (h : Bounded rows (x.rows.length * m) trace) :
    Bounded rows (1 + rows * m) (x :: trace) := by
  intro hrows
  obtain ⟨hfirst, hrest⟩ := List.forall_mem_cons.1 hrows
  have hmore : x.rows.length * m ≤ rows * m := Nat.mul_le_mul_right m hfirst
  have hlength := h hrest
  rw [List.length_cons]
  omega

end Bounded

@[simp]
theorem Route.rows_exchange (route : Route) (st : Statement) (output : Output) :
    (route.exchange st (.ok output)).rows = output.rows := by
  simp [Exchange.rows]

section Levels

variable {I : State → Prop} {related : Option (Related σ)} {P : Mapping.Lookup → Json → Prop}
  {rows n : Nat} {row : Row}

/-- What is looked up for a relation of a row takes at most `n` statements and finds a value of
which `P` holds. -/
def LooksUp (I : State → Prop) (P : Mapping.Lookup → Json → Prop) (rows n : Nat)
    (related : Option (Related σ)) : Prop :=
  ∀ run, related = some run → ∀ (l : Mapping.Lookup) key,
    (run l.select (l.arguments key)).Ensures I fun trace result =>
      Bounded rows n trace ∧ ∀ found v, result = .ok found → found.related? = some v → P l v

variable (h : LooksUp I P rows n related)

include h

/-- The value of a property takes statements only if it is a relation that is followed. -/
theorem hydrateProperty_ensures (property : String) (target : Mapping.Target) :
    (hydrateProperty related row target).Ensures I fun trace result =>
      Bounded rows ((Mapping.mk [(property, target)]).relations.length * n) trace ∧
        ∀ v, result = .ok (some v) → ∀ l, target = .lookup l → related ≠ none ∧ P l v := by
  cases target with
  | column name => exact .pure ⟨.nil, by simp⟩
  | lookup l =>
      have hone : (Mapping.mk [(property, Mapping.Target.lookup l)]).relations.length * n = n := by
        simp [Mapping.relations]
      rw [hone]
      cases hkey : presentValue? row l.source with
      | none =>
          rw [hydrateProperty_of_absent hkey]
          exact .pure ⟨.nil, by simp⟩
      | some key =>
          cases hrelated : related with
          | none => exact .pure ⟨.nil, by simp⟩
          | some run =>
              rw [hydrateProperty_of_present hkey]
              apply Task.Ensures.bind
              apply (h run hrelated l key).mono
              rintro trace result ⟨hbounded, hfound⟩
              cases result with
              | error e => exact ⟨hbounded, by simp⟩
              | ok found =>
                  refine .pure ⟨by simpa using hbounded, ?_⟩
                  rintro v hv _ ⟨⟩
                  exact ⟨by simp, hfound found v rfl (Except.ok.inj hv)⟩

/-- The values of the relations of a row are looked up one by one. -/
theorem hydrateEntries_ensures (entries : List (String × Mapping.Target)) :
    (hydrateEntries related row entries).Ensures I fun trace result =>
      Bounded rows ((Mapping.mk entries).relations.length * n) trace ∧
        ∀ fields, result = .ok fields → ∀ property v, (property, v) ∈ fields →
          ∃ target, (property, target) ∈ entries ∧
            ∀ l, target = .lookup l → related ≠ none ∧ P l v := by
  induction entries with
  | nil => exact .pure ⟨.nil, by simp⟩
  | cons entry entries ih =>
      obtain ⟨property, target⟩ := entry
      have hlength : (Mapping.mk ((property, target) :: entries)).relations.length * n =
          (Mapping.mk [(property, target)]).relations.length * n +
            (Mapping.mk entries).relations.length * n := by
        rw [← Nat.add_mul]
        cases target <;> simp [Mapping.relations, Nat.add_comm]
      rw [hlength]
      apply Task.Ensures.bind
      apply (hydrateProperty_ensures h property target).mono
      rintro front result ⟨hfront, hvalue⟩
      cases result with
      | error e => exact ⟨hfront.mono (Nat.le_add_right _ _), by simp⟩
      | ok value =>
          apply Task.Ensures.bind
          apply ih.mono
          rintro back result ⟨hback, hfields⟩
          cases result with
          | error e => exact ⟨hfront.append hback, by simp⟩
          | ok rest =>
              refine .pure ⟨by simpa using hfront.append hback, ?_⟩
              have hrest : ∀ key v, (key, v) ∈ rest →
                  ∃ target', (key, target') ∈ (property, target) :: entries ∧
                    ∀ l, target' = .lookup l → related ≠ none ∧ P l v := by
                intro key v hmem
                obtain ⟨target', hentry, hP⟩ := hfields rest rfl key v hmem
                exact ⟨target', List.mem_cons_of_mem _ hentry, hP⟩
              rintro fields hfields' key v hmem
              obtain rfl := Except.ok.inj hfields'
              cases value with
              | none => exact hrest key v hmem
              | some first =>
                  rcases List.mem_cons.1 hmem with heq | hmem
                  · obtain ⟨rfl, rfl⟩ := Prod.mk.inj heq
                    exact ⟨target, List.mem_cons_self, hvalue v rfl⟩
                  · exact hrest key v hmem

namespace Select

variable {s : Select} (hs : s.WellMapped)

include hs

theorem hydrate_ensures :
    (s.hydrate related row).Ensures I fun trace result =>
      Bounded rows (s.relations.length * n) trace ∧
        ∀ j, result = .ok j → ∀ l v, s.HasRelation j l v → related ≠ none ∧ P l v := by
  rw [hydrate]
  cases htarget : s.target with
  | none =>
      refine .pure ⟨.nil, ?_⟩
      rintro j - l v ⟨t, fields, property, ht, -⟩
      simp [htarget] at ht
  | some t =>
      have hrelations : s.relations = t.mapping.relations := by rw [relations, htarget]
      rw [hrelations]
      apply Task.Ensures.bind
      apply (hydrateEntries_ensures h t.mapping.entries).mono
      rintro trace result ⟨hbounded, hfields⟩
      cases result with
      | error e => exact ⟨hbounded, by simp⟩
      | ok fields =>
          refine .pure ⟨by simpa using hbounded, ?_⟩
          rintro j hj l v ⟨t', fields', property, ht', rfl, hmem, hget⟩
          obtain rfl := Option.some.inj (htarget.symm.trans ht')
          obtain rfl := Json.obj.inj (Except.ok.inj hj)
          obtain ⟨target, hentry, hP⟩ := hfields fields rfl property v hmem
          refine hP l (Option.some.inj ?_)
          rw [← hget, Mapping.get?, (Keyed.lookup_eq_some_iff_of_nodup (hs t htarget)).2 hentry]

theorem hydrateAll_ensures (found : List Row) :
    (s.hydrateAll related found).Ensures I fun trace result =>
      Bounded rows (found.length * (s.relations.length * n)) trace ∧
        ∀ values, result = .ok values → ∀ j ∈ values, ∀ l v, s.HasRelation j l v →
          related ≠ none ∧ P l v := by
  induction found with
  | nil => exact .pure ⟨.nil, by simp⟩
  | cons row found ih =>
      rw [List.length_cons, Nat.add_mul, Nat.one_mul, Nat.add_comm]
      apply Task.Ensures.bind
      apply (hydrate_ensures h hs).mono
      rintro front result ⟨hfront, hvalue⟩
      cases result with
      | error e => exact ⟨hfront.mono (Nat.le_add_right _ _), by simp⟩
      | ok value =>
          apply Task.Ensures.bind
          apply ih.mono
          rintro back result ⟨hback, hvalues⟩
          cases result with
          | error e => exact ⟨hfront.append hback, by simp⟩
          | ok rest =>
              refine .pure ⟨by simpa using hfront.append hback, ?_⟩
              rintro values hvalues'
              obtain rfl := Except.ok.inj hvalues'
              exact List.forall_mem_cons.2 ⟨hvalue value rfl, hvalues rest rfl⟩

end Select

end Levels

namespace Select

variable {state : State}

/-- A run of a select is one statement and what its rows take. -/
theorem runWith_ensures {related : Option (Related σ)} {P : Mapping.Lookup → Json → Prop}
    {rows n : Nat} (h : LooksUp (· = state) P rows n related) {s : Select} (hs : s.WellMapped)
    (ctx : Option Context) (args : List Param) :
    (s.runWith ctx related args).Ensures (· = state) fun trace result =>
      Bounded rows (1 + rows * (s.relations.length * n)) trace ∧
        ∀ found, result = .ok found → found.HasShape s.shape ∧
          ∀ j ∈ found.objects, ∀ l v, s.HasRelation j l v → related ≠ none ∧ P l v := by
  rw [runWith]
  apply Task.Ensures.bind
  apply (execute_directed state ctx _).mono
  rintro trace result hdirected
  cases hdirected with
  | refused e hroute => exact ⟨.nil, by simp⟩
  | sent route answer hroute =>
      cases result with
      | error e => exact ⟨fun _ => by simp, by simp⟩
      | ok output =>
          have halone : Bounded rows (1 + rows * (s.relations.length * n))
              [route.exchange (.text (s.statementText args)) (.ok output)] := .cons .nil
          have hall : ∀ found : List Row, found.length ≤ output.rows.length →
              (s.hydrateAll related found).Ensures (· = state) fun trace result =>
                Bounded rows (1 + rows * (s.relations.length * n))
                    (route.exchange (.text (s.statementText args)) (.ok output) :: trace) ∧
                  ∀ values, result = .ok values → ∀ j ∈ values, ∀ l v, s.HasRelation j l v →
                    related ≠ none ∧ P l v := by
            intro found hfound
            apply (hydrateAll_ensures h hs found).mono
            rintro back result ⟨hback, hvalues⟩
            refine ⟨.cons (hback.mono ?_), hvalues⟩
            rw [Route.rows_exchange]
            exact Nat.mul_le_mul_right _ hfound
          cases hshape : s.shape with
          | count =>
              refine .pure ⟨halone, ?_⟩
              rintro _ ⟨⟩
              exact ⟨.count _, by simp [Selection.objects]⟩
          | aggregation =>
              refine .pure ⟨halone, ?_⟩
              rintro _ ⟨⟩
              exact ⟨.aggregation _, by simp [Selection.objects]⟩
          | list =>
              apply Task.Ensures.bind
              apply (hall output.rows (Nat.le_refl _)).mono
              rintro back result ⟨hback, hvalues⟩
              cases result with
              | error e => exact ⟨hback, by simp⟩
              | ok values =>
                  refine .pure ⟨by simpa using hback, ?_⟩
                  rintro _ ⟨⟩
                  exact ⟨.list _, hvalues values rfl⟩
          | one =>
              apply Task.Ensures.bind
              apply (hall (output.rows.take 1) (List.length_take_le' _ _)).mono
              rintro back result ⟨hback, hvalues⟩
              cases result with
              | error e => exact ⟨hback, by simp⟩
              | ok values =>
                  refine .pure ⟨by simpa using hback, ?_⟩
                  rintro _ ⟨⟩
                  refine ⟨.one _, fun j hj => hvalues values rfl j ?_⟩
                  exact List.mem_of_mem_head? (Option.mem_toList.1 hj)

/-- The number of statements of a run to a depth, where the rows of an answer have so many relations
together. -/
def callBound (width : Nat) : (depth : Nat) → Nat
  | 0 => 1
  | depth + 1 => 1 + width * callBound width depth

/-- A run has the relations of its levels, and takes so many statements. -/
theorem run_ensures (hselects : state.WellMapped) {width : Nat}
    (hwidth : state.RelationsWithin width) (rows : Nat) (ctx : Option Context) (depth : Nat)
    {s : Select} (hs : s.WellMapped)
    (hlength : s.relations.length ≤ width) (args : List Param) :
    (run ctx depth s args : Task σ Selection).Ensures (· = state) fun trace result =>
      Bounded rows (callBound (rows * width) depth) trace ∧
        ∀ found, result = .ok found → found.HasShape s.shape ∧
          ∀ j ∈ found.objects, ∀ level, s.Nests state.selects level j → level ≤ depth := by
  induction depth generalizing s args with
  | zero =>
      have hnone : LooksUp (σ := σ) (· = state) (fun _ _ => True) rows 0 none :=
        fun run hrun => by cases hrun
      apply (runWith_ensures hnone hs ctx args).mono
      rintro trace result ⟨hbounded, hfound⟩
      refine ⟨by simpa [callBound] using hbounded, fun found hresult => ?_⟩
      obtain ⟨hshape, hrelations⟩ := hfound found hresult
      refine ⟨hshape, fun j hj level hnests => ?_⟩
      cases hnests with
      | relation hrelation => exact absurd rfl (hrelations j hj _ _ hrelation).1
      | nested hrelation => exact absurd rfl (hrelations j hj _ _ hrelation).1
  | succ depth ih =>
      have hlooks : LooksUp (σ := σ) (· = state)
          (fun l v => ∀ related, state.selects.lookup l.select = some related →
            ∀ inner ∈ related.shape.objects v, ∀ level,
              related.Nests state.selects level inner → level ≤ depth)
          rows (callBound (rows * width) depth) (relatedTo ctx (depth + 1)) := by
        rintro run ⟨⟩ l key
        show (registeredSelect l.select >>= fun related =>
          run ctx depth related (l.arguments key) : Task σ Selection).Ensures _ _
        rw [registeredSelect, bind_assoc]
        refine .state_bind fun _ hstate => ?_
        rw [hstate]
        cases hrelated : state.selects.lookup l.select with
        | none => exact .fail ⟨.nil, by simp⟩
        | some related =>
            apply (ih (hselects _ _ hrelated) (hwidth _ _ hrelated) _).mono
            rintro trace result ⟨hbounded, hfound⟩
            refine ⟨hbounded, fun found v hresult hv related' hrelated' => ?_⟩
            obtain rfl := Option.some.inj (hrelated.symm.trans hrelated')
            obtain ⟨hshape, hlevels⟩ := hfound found hresult
            rw [hshape.objects_related hv]
            exact hlevels
      rw [run_eq]
      apply (runWith_ensures hlooks hs ctx args).mono
      rintro trace result ⟨hbounded, hfound⟩
      refine ⟨hbounded.mono ?_, fun found hresult => ?_⟩
      · rw [callBound, Nat.mul_assoc]
        have hrow := Nat.mul_le_mul_right (callBound (rows * width) depth) hlength
        exact Nat.add_le_add_left (Nat.mul_le_mul_left rows hrow) 1
      · obtain ⟨hshape, hrelations⟩ := hfound found hresult
        refine ⟨hshape, fun j hj level hnests => ?_⟩
        cases hnests with
        | relation hrelation => exact Nat.le_add_left 1 depth
        | nested hrelation hrelated hinner hnests =>
            have hle := (hrelations j hj _ _ hrelation).2 _ hrelated _ hinner _ hnests
            omega

/-- Relations are unfolded to the depth of a run.  Where a run to one level more succeeds, so does
the run, with the same result but for the relation properties at the level after its depth, and with
some of the statements.  A cut leaves exactly the relation properties of the levels above it, no
result has relation properties below its depth, and however the relations lead back, the statements
of a run are bounded. -/
theorem run_unfolds {driver : Driver δ} (hdriver : driver.Steady) (hselects : state.WellMapped)
    {s : Select} (hs : s.WellMapped) (ctx : Option Context) (depth : Nat) (args : List Param)
    (l : σ) (d : δ) :
    (∀ deep, ((run ctx (depth + 1) s args : Task σ Selection).run driver l state d).1.1 = .ok deep →
      ∀ l' d',
        ((run ctx depth s args : Task σ Selection).run driver l' state d').1.1 =
            .ok (deep.mapObjects (s.cut state.selects depth)) ∧
          ((run ctx depth s args : Task σ Selection).exchanges driver l' state d').Sublist
            ((run ctx (depth + 1) s args : Task σ Selection).exchanges driver l state d)) ∧
    (∀ j level, s.Nests state.selects level (s.cut state.selects depth j) ↔
      s.Nests state.selects level j ∧ level ≤ depth) ∧
    (∀ found, ((run ctx depth s args : Task σ Selection).run driver l state d).1.1 = .ok found →
      ∀ j ∈ found.objects, ∀ level, s.Nests state.selects level j → level ≤ depth) ∧
    ∀ rows width, s.relations.length ≤ width → state.RelationsWithin width →
      (∀ x ∈ (run ctx depth s args : Task σ Selection).exchanges driver l state d,
        x.rows.length ≤ rows) →
      ((run ctx depth s args : Task σ Selection).exchanges driver l state d).length ≤
        callBound (rows * width) depth := by
  refine ⟨fun deep hdeep l' d' => ?_, fun j level => nests_cut, fun found hfound => ?_,
    fun rows width hlength hwidth => ?_⟩
  · rcases hrun : (run ctx (depth + 1) s args : Task σ Selection).run driver l state d with
      ⟨⟨result, l₁⟩, state₁, d₁⟩
    rw [hrun] at hdeep
    obtain rfl : result = .ok deep := hdeep
    obtain ⟨-, hcovered⟩ := run_covers hdriver hselects ctx depth hs args l d deep l₁ state₁ d₁ hrun
    obtain ⟨found, l₂, d₂, hrun', ⟨-, rfl⟩, hsublist⟩ := hcovered l' d'
    exact ⟨by rw [hrun'], hsublist⟩
  · obtain ⟨width, hlength, hwidth⟩ := state.exists_relationsWithin s.relations.length
    have hensures := run_ensures (σ := σ) hselects hwidth 0 ctx depth hs hlength args
    exact (((hensures l).exchanges driver rfl d).1.2 found hfound).2
  · have hensures := run_ensures (σ := σ) hselects hwidth rows ctx depth hs hlength args
    exact ((hensures l).exchanges driver rfl d).1.1

end Select

/-! ## A relation that leads back -/

namespace Friends

/-- A select that finds a person with a friend, which is found by the same select. -/
def select : Select where
  template := "select * from person where ? = ?"
  target := some ⟨⟨[("friend", .lookup ⟨"friend_id", some "id", "person"⟩), ("id", .column "id")]⟩,
    false⟩
  shape := .one
  depth := defaultDepth
  rawPositions := [0]

/-- The state in which the select is registered. -/
def state : State := { State.initial with pool := .open 0, selects := [("person", select)] }

/-- The row of a person who is a friend of their own. -/
def row : Row := [("id", Json.ofInt 1), ("friend_id", Json.ofInt 1)]

/-- A driver that knows this person only. -/
def driver : Driver Unit where
  answer r d :=
    match r with
    | .poolQuery _ _ => (.ok (Output.ofRows [row]), d)
    | r => (r.granted, d)

/-- The object of the person. -/
def person (friend : Option Json) : Json :=
  .obj ((friend.map ("friend", ·)).toList ++ [("id", Json.ofInt 1)])

theorem wellMapped : select.WellMapped := by
  rintro t ⟨⟩
  decide

theorem state_wellMapped : state.WellMapped := by
  intro id related hrelated
  obtain ⟨front, back, hselects, -⟩ := List.lookup_eq_some_iff.1 hrelated
  have hmem : (id, related) ∈ state.selects := by simp [hselects]
  obtain ⟨-, rfl⟩ := Prod.mk.inj (List.mem_singleton.1 hmem)
  exact wellMapped

end Friends

/-- A person who is a friend of their own is found with a friend, who has no friend there. -/
theorem Select.run_unfolds_friends :
    Friends.driver.Steady ∧ Friends.state.WellMapped ∧ Friends.select.WellMapped ∧
      ((run none 2 Friends.select [.raw "id", .literal (.int 1)] : Task Unit Selection).run
          Friends.driver () Friends.state ()).1.1 =
        .ok (.one (some (Friends.person
          (some (Friends.person (some (Friends.person none))))))) ∧
      ((run none 1 Friends.select [.raw "id", .literal (.int 1)] : Task Unit Selection).run
          Friends.driver () Friends.state ()).1.1 =
        .ok (.one (some (Friends.person (some (Friends.person none))))) := by
  have hdriver : Friends.driver.Steady := fun _ _ _ _ _ => rfl
  have hdeep : ((run none 2 Friends.select [.raw "id", .literal (.int 1)] :
      Task Unit Selection).run Friends.driver () Friends.state ()).1.1 =
        .ok (.one (some (Friends.person
          (some (Friends.person (some (Friends.person none))))))) := rfl
  refine ⟨hdriver, Friends.state_wellMapped, Friends.wellMapped, hdeep, ?_⟩
  exact ((run_unfolds hdriver Friends.state_wellMapped Friends.wellMapped none 1
    [.raw "id", .literal (.int 1)] () ()).1 _ hdeep () ()).1

end Persistence
