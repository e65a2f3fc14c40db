import Persistence.Proofs.Cascade.Growth
import Persistence.Proofs.Cascade.Undoing

/-!
# Cascades end

A cascade has no structure to recurse on: foreign keys may form cycles, and a driver may answer the
same question differently each time.  What ends it are the claims.  A level starts others only by
values of rows that it has claimed itself, so with each level some row is claimed that was not
claimed before; and if the driver finds its rows among finitely many, there are only finitely many
claims to make.

That a level is not reached is said with an arbitrary task in its place: `descend` is a cascade
whose levels below a depth are given, and where its runs do not depend on what is given, none gets
that deep.  That a level makes only certain calls is said in the same way: `Calls` tells them, and
the level runs alike with every two steps that agree on these.

Main results:

- `Dao.run_deleteLevel_congr`: a level starts others only for rows that it has claimed itself.
- `DeleteOperation.run_descend`: there are at most as many levels as there are claims to make.
- `Dao.cascade_terminates`: a cascade ends, for every driver that finds its rows among finitely
  many.
-/

namespace Persistence

variable {σ α β δ : Type} {driver : Driver δ} {s : State} {d : δ} {tx : Context} {claims : Claims}

/-! ## The calls of a level -/

/-- A call that a level of a cascade may make: of the rows that it has read there are some that it
claims, behind the given claims, and the delete of a dependent table is started for their values,
when they have been claimed. -/
structure Dao.Calls (dao : Dao) (s : State) (claims : Claims) (doomed : List Row) (claims' : Claims)
    (delete : DeleteOperation) (q : Query) : Prop where
  claimed : dao.freshRows claims doomed ≠ []
  behind : dao.claimsAfter claims doomed ⊆ claims'
  values : ∃ dep ∈ s.catalog.dependentsOf dao.tableName,
    s.deletes.lookup (deleteQueryId dep.entity) = some delete ∧
      q = scopeQuery dep.property (dep.references (dao.freshRows claims doomed))

/-- Dependents are treated alike by steps that run alike where they are started, if one of them
leaves the state as it is and drops no claim. -/
theorem removeDependents_congr {step step' : CascadeStep} {rows : List Row} {deps : List Dependent}
    (hstate : ∀ delete q claims d, ((step' delete q).run driver claims s d).2.1 = s)
    (hgrows : ∀ delete q, Grows (step' delete q))
    (hcall : ∀ dep ∈ deps, ∀ delete, s.deletes.lookup (deleteQueryId dep.entity) = some delete →
      dep.references rows ≠ [] → ∀ claims', claims ⊆ claims' → ∀ d,
        (step delete (scopeQuery dep.property (dep.references rows))).run driver claims' s d =
          (step' delete (scopeQuery dep.property (dep.references rows))).run driver claims' s d)
    {claims' : Claims} (hclaims : claims ⊆ claims') (d : δ) :
    (removeDependents step rows deps).run driver claims' s d =
      (removeDependents step' rows deps).run driver claims' s d := by
  induction deps generalizing claims' d with
  | nil => rfl
  | cons dep deps ih =>
      obtain ⟨hdep, hdeps⟩ := List.forall_mem_cons.1 hcall
      rw [removeDependents, removeDependents]
      by_cases hnone : dep.references rows = []
      · simp only [hnone, List.isEmpty_nil, if_true]
        exact ih hdeps hclaims d
      · simp only [List.isEmpty_iff, hnone, if_false]
        rw [Task.run_bind_of_ok Task.run_state, Task.run_bind_of_ok Task.run_state]
        cases hlookup : s.deletes.lookup (deleteQueryId dep.entity) with
        | none => exact ih hdeps hclaims d
        | some delete =>
            apply Task.run_bind_congr (hdep delete hlookup hnone claims' hclaims d)
            intro r claims'' s' d' hrun
            obtain rfl : s' = s := by
              have hkept := hstate delete (scopeQuery dep.property (dep.references rows)) claims' d
              rwa [hrun] at hkept
            have hmore : claims ⊆ claims'' := by
              have hgrown := ((hgrows delete (scopeQuery dep.property (dep.references rows))).run
                driver claims' s' d).subset
              rw [hrun] at hgrown
              exact List.Subset.trans hclaims hgrown
            split
            · exact Task.run_bind_congr (ih hdeps hmore d') fun _ _ _ _ _ => rfl
            · rfl

/-- A level starts others only for rows that it has claimed itself: it runs alike with every two
steps that run alike at its calls, if one of them leaves the state as it is and drops no claim. -/
theorem Dao.run_deleteLevel_congr (dao : Dao) {step step' : CascadeStep} (q : Query) (force : Bool)
    (hstate : ∀ delete q claims d, ((step' delete q).run driver claims s d).2.1 = s)
    (hgrows : ∀ delete q, Grows (step' delete q))
    (hcall : ∀ o, ((execute (.rows (dao.scope q)) (some tx) : Task Claims Output).run driver claims
        s d).1.1 = .ok o →
      ∀ claims' delete q', dao.Calls s claims o.rows claims' delete q' → ∀ d',
        (step delete q').run driver claims' s d' = (step' delete q').run driver claims' s d') :
    (dao.deleteLevel step q force tx).run driver claims s d =
      (dao.deleteLevel step' q force tx).run driver claims s d := by
  rw [deleteLevel, deleteLevel, Task.run_bind_of_ok Task.run_state,
    Task.run_bind_of_ok Task.run_state]
  dsimp only
  split
  · rfl
  · apply Task.run_bind_congr rfl
    intro o claims₁ s₁ d₁ hread
    obtain ⟨rfl, rfl, -⟩ := answer_of_run_execute hread
    rw [Task.run_bind_of_ok (dao.run_claimRows _ _), Task.run_bind_of_ok (dao.run_claimRows _ _)]
    split
    · rfl
    · refine Task.run_bind_congr ?_ fun _ _ _ _ _ => rfl
      refine removeDependents_congr hstate hgrows ?_ (List.Subset.refl _) d₁
      intro dep hdep delete hlookup hnone claims' hclaims' d'
      refine hcall o (by rw [hread]) claims' delete _ ?_ d'
      refine ⟨?_, hclaims', dep, hdep, hlookup, rfl⟩
      intro hnil
      exact hnone (by rw [hnil]; rfl)

/-! ## Descending -/

namespace DeleteOperation

/-- A cascade whose levels below the first `n` are given. -/
def descend (below : DeleteOperation → Query → Bool → Option Context → Task Claims DeleteResult) :
    (n : Nat) → DeleteOperation → Query → (force : Bool) → Option Context → Task Claims DeleteResult
  | 0, delete, q, force, ctx => below delete q force ctx
  | _ + 1, .statement d, q, _, ctx => do return DeleteResult.ofWrite (← d.call [.query q] ctx)
  | n + 1, .dao d, q, force, ctx =>
      transaction ctx fun tx =>
        d.deleteLevel (fun delete q => descend below n delete q force (some tx)) q force tx

variable {below : DeleteOperation → Query → Bool → Option Context → Task Claims DeleteResult}

/-- What is below some levels is itself a cascade with levels and more below. -/
theorem descend_add (n k : Nat) (delete : DeleteOperation) (q : Query) (force : Bool)
    (ctx : Option Context) :
    descend below (n + k) delete q force ctx = descend (descend below k) n delete q force ctx := by
  induction n generalizing delete q ctx with
  | zero => rw [Nat.zero_add, descend]
  | succ n ih =>
      rw [Nat.succ_add]
      cases delete with
      | statement d => rfl
      | dao d => simp only [descend, ih]

/-- A cascade has fewer levels below its first ones. -/
theorem cascade_add (n k : Nat) (delete : DeleteOperation) (q : Query) (force : Bool)
    (ctx : Option Context) :
    delete.cascade (n + k) q force ctx =
      descend (fun delete q force ctx => delete.cascade k q force ctx) n delete q force ctx := by
  induction n generalizing delete q ctx with
  | zero => rw [Nat.zero_add, descend]
  | succ n ih =>
      rw [Nat.succ_add]
      cases delete with
      | statement d => simp only [cascade, descend]
      | dao d => simp only [cascade, descend, ih]

end DeleteOperation

/-! ## Claims to make -/

/-- A driver whose answers to reads have only rows of a list. -/
def ReadsFrom (entries : List Entry) (driver : Driver δ) : Prop :=
  ∀ conn scope d o, (driver.answer (.query conn (.rows scope)) d).1 = .ok o →
    ∀ row ∈ o.rows, (⟨scope.table, row⟩ : Entry) ∈ entries

/-- The rows that a statement reads are among those of the list. -/
theorem ReadsFrom.of_execute (h : ReadsFrom entries driver) {scope : Scope} {l : σ} {o : Output}
    (hread : ((execute (.rows scope) (some tx) : Task σ Output).run driver l s d).1.1 = .ok o) :
    ∀ row ∈ o.rows, (⟨scope.table, row⟩ : Entry) ∈ entries := by
  generalize hrun : (execute (.rows scope) (some tx) : Task σ Output).run driver l s d = r at hread
  obtain ⟨⟨result, l'⟩, s', d'⟩ := r
  obtain rfl : result = .ok o := hread
  obtain ⟨-, -, conn, -, hanswer⟩ := answer_of_run_execute hrun
  exact h conn scope d o hanswer

/-- The access object of a delete that has dependents. -/
def DeleteOperation.dao? : DeleteOperation → Option Dao
  | .dao d => some d
  | .statement _ => none

/-- The access objects that a delete may come to: its own and the registered ones. -/
def Dao.within (dao : Dao) (s : State) : List Dao :=
  dao :: s.deletes.filterMap fun registered => registered.2.dao?

theorem Dao.mem_within (dao : Dao) {s : State} {id : String} {dao' : Dao}
    (h : s.deletes.lookup id = some (.dao dao')) : dao' ∈ dao.within s := by
  obtain ⟨before, behind, heq, -⟩ := List.lookup_eq_some_iff.1 h
  refine List.mem_cons_of_mem _ (List.mem_filterMap.2 ⟨(id, .dao dao'), ?_, rfl⟩)
  rw [heq]
  exact List.mem_append_right _ List.mem_cons_self

/-- The claims that some access objects can make for the rows of a list. -/
def claimable (daos : List Dao) (entries : List Entry) : Finset (String × String) :=
  (daos.flatMap fun dao =>
    (entries.filter fun x => x.table = dao.tableName).map fun x => dao.claimOf x.row).toFinset

/-- The number of claims that are left to make. -/
def unclaimed (daos : List Dao) (entries : List Entry) (claims : Claims) : Nat :=
  (claimable daos entries \ claims.toFinset).card

variable {daos : List Dao} {entries : List Entry}

theorem claimOf_mem_claimable {dao : Dao} (hdao : dao ∈ daos) {row : Row}
    (hrow : (⟨dao.tableName, row⟩ : Entry) ∈ entries) :
    dao.claimOf row ∈ claimable daos entries := by
  rw [claimable, List.mem_toFinset, List.mem_flatMap]
  refine ⟨dao, hdao, List.mem_map.2 ⟨_, List.mem_filter.2 ⟨hrow, ?_⟩, rfl⟩⟩
  simp

/-- A claim that succeeded is one less to make. -/
theorem unclaimed_lt {claims claims' : Claims} (hclaims : claims ⊆ claims') {c : String × String}
    (hc : c ∈ claimable daos entries) (hnew : c ∉ claims) (hclaimed : c ∈ claims') :
    unclaimed daos entries claims' < unclaimed daos entries claims := by
  apply Finset.card_lt_card
  rw [Finset.ssubset_iff_of_subset]
  · exact ⟨c, by simp [hc, hnew], by simp [hclaimed]⟩
  · intro x hx
    simp only [Finset.mem_sdiff, List.mem_toFinset] at hx ⊢
    exact ⟨hx.1, fun hmem => hx.2 (hclaims hmem)⟩

/-- A cascade has no more levels than there are claims to make: with more levels given it never
gets below them. -/
theorem DeleteOperation.run_descend
    {below : DeleteOperation → Query → Bool → Option Context → Task Claims DeleteResult}
    (hreads : ReadsFrom entries driver)
    (hdaos : ∀ id delete, s.deletes.lookup id = some (.dao delete) → delete ∈ daos)
    {n : Nat} {delete : DeleteOperation} (hdelete : ∀ dao, delete = .dao dao → dao ∈ daos) (q : Query)
    (force : Bool) {claims : Claims} (hn : unclaimed daos entries claims < n) (d : δ) :
    (descend below n delete q force (some tx)).run driver claims s d =
      (delete.cascade n q force (some tx)).run driver claims s d := by
  induction n generalizing delete q claims d with
  | zero => omega
  | succ n ih =>
      cases delete with
      | statement d => rw [descend, cascade]
      | dao dao =>
          rw [descend, cascade, transaction_some, transaction_some]
          apply dao.run_deleteLevel_congr q force
          · exact fun delete q claims d => run_cascade_state n delete q force tx driver claims s d
          · exact fun delete q => cascade_grows n delete q force (some tx)
          · rintro o hread claims' delete q' ⟨hclaimed, hmore, dep, -, hlookup, rfl⟩ d'
            -- one of the rows that the level claimed is new, so there is a claim less to make
            obtain ⟨row, hrow⟩ := List.exists_mem_of_ne_nil _ hclaimed
            have hmem := (dao.freshRows_sublist claims o.rows).subset hrow
            have hless : unclaimed daos entries claims' < unclaimed daos entries claims := by
              apply unclaimed_lt
              · exact fun c hc => hmore (dao.mem_claimsAfter.2 (.inl hc))
              · exact claimOf_mem_claimable (hdelete dao rfl) (hreads.of_execute hread row hmem)
              · exact dao.claimOf_notMem_of_mem_freshRows hrow
              · exact hmore (dao.claimOf_mem_claimsAfter hmem)
            refine ih ?_ _ (by omega) d'
            rintro dao' rfl
            exact hdaos _ dao' hlookup

/-- Transactions run alike if their work does, in every context and every state with the same
catalog and the same registered deletes. -/
theorem run_transaction_congr {parent : Option Context} {work work' : Context → Task σ α} {l : σ}
    (h : ∀ tx s', s'.catalog = s.catalog → s'.deletes = s.deletes → ∀ d,
      (work tx).run driver l s' d = (work' tx).run driver l s' d) :
    (transaction parent work).run driver l s d = (transaction parent work').run driver l s d := by
  apply Task.run_bind_congr rfl
  intro tx l₁ s₁ d₁ hopen
  have hsame : l₁ = l ∧ s₁.catalog = s.catalog ∧ s₁.deletes = s.deletes := by
    cases parent with
    | some parent =>
        cases hopen
        exact ⟨rfl, rfl, rfl⟩
    | none =>
        rcases startTransaction_cases driver l s d with ⟨e, he⟩ | ⟨pool, conn, d', hstart, -⟩
        · rw [openBracket] at hopen
          rw [hopen] at he
          cases he
        · rw [openBracket, hstart] at hopen
          cases hopen
          exact ⟨rfl, rfl, rfl⟩
  obtain ⟨rfl, hcatalog, hdeletes⟩ := hsame
  apply Task.run_bind_congr
  · rw [Task.run_attempt, Task.run_attempt, h tx s₁ hcatalog hdeletes]
  · exact fun _ _ _ _ _ => rfl

namespace Dao

/-- As many levels as a delete can have, if the rows that the driver finds are among those of a
list: each but the last makes a claim. -/
def depth (dao : Dao) (s : State) (entries : List Entry) : Nat :=
  (claimable (dao.within s) entries).card + 1

/-- A delete in a transaction or without one never gets below as many levels as it can have. -/
theorem run_descend (dao : Dao)
    {below : DeleteOperation → Query → Bool → Option Context → Task Claims DeleteResult}
    (hreads : ReadsFrom entries driver) (q : Query) (force : Bool) (ctx : Option Context) (d : δ) :
    (DeleteOperation.descend below (dao.depth s entries) (.dao dao) q force ctx).run driver [] s d =
      ((DeleteOperation.dao dao).cascade (dao.depth s entries) q force ctx).run driver [] s d := by
  rw [depth, DeleteOperation.descend, DeleteOperation.cascade]
  apply run_transaction_congr
  intro tx s' hcatalog hdeletes d
  have hdaos : ∀ id delete, s'.deletes.lookup id = some (.dao delete) → delete ∈ dao.within s := by
    intro id delete hlookup
    rw [hdeletes] at hlookup
    exact dao.mem_within hlookup
  have hself : ∀ dao', DeleteOperation.dao dao = .dao dao' → dao' ∈ dao.within s := by
    rintro _ ⟨⟩
    exact List.mem_cons_self
  have hless : unclaimed (dao.within s) entries [] < (claimable (dao.within s) entries).card + 1 := by
    simp [unclaimed]
  have hrun : (DeleteOperation.descend below ((claimable (dao.within s) entries).card + 1) (.dao dao)
      q force (some tx)).run driver [] s' d =
        ((DeleteOperation.dao dao).cascade ((claimable (dao.within s) entries).card + 1) q force
          (some tx)).run driver [] s' d :=
    DeleteOperation.run_descend hreads hdaos hself q force hless d
  rwa [DeleteOperation.descend, DeleteOperation.cascade, transaction_some, transaction_some] at hrun

/-- A delete ends, for every driver that finds its rows among finitely many, in every state and with
every catalog.  Its runs have no more levels than there are rows to claim and one: they are the same
for every greater bound, and do not depend on what is below.  No row is claimed twice: a claim
succeeds only if it has not been made, and no cascade drops one or repeats one.  And a level calls
others only by values of rows that it has claimed itself, of which there is one at least: it does
not depend on what is done at other calls. -/
theorem cascade_terminates (dao : Dao) (driver : Driver δ) (hreads : ReadsFrom entries driver)
    (q : Query) (force : Bool) (ctx : Option Context) (l : σ) (s : State) (d : δ) :
    (∀ levels, dao.depth s entries ≤ levels →
      (dao.deleteQuery levels q force ctx).run driver l s d =
        (dao.deleteQuery (dao.depth s entries) q force ctx).run driver l s d) ∧
    (∀ below levels, dao.depth s entries ≤ levels →
      (DeleteOperation.descend below levels (.dao dao) q force ctx).run driver [] s d =
        ((DeleteOperation.dao dao).cascade (dao.depth s entries) q force ctx).run driver [] s d) ∧
    (∀ table key claims s d, (claim table key).run driver claims s d =
      if (table, key) ∈ claims then ((.ok false, claims), s, d)
      else ((.ok true, (table, key) :: claims), s, d)) ∧
    (∀ levels delete q ctx claims s d, Extends claims
      ((DeleteOperation.cascade levels delete q force ctx).run driver claims s d).1.2) ∧
    ∀ (dao : Dao) (levels : Nat) (step : CascadeStep) (q : Query) (tx : Context) (claims : Claims)
      (s : State) (d : δ),
      (∀ o, ((execute (.rows (dao.scope q)) (some tx) : Task Claims Output).run driver claims
          s d).1.1 = .ok o →
        ∀ claims' delete q', dao.Calls s claims o.rows claims' delete q' → ∀ d',
          (step delete q').run driver claims' s d' =
            (delete.cascade levels q' force (some tx)).run driver claims' s d') →
      (dao.deleteLevel step q force tx).run driver claims s d =
        (dao.deleteLevel (fun delete q => delete.cascade levels q force (some tx)) q force tx).run
          driver claims s d := by
  refine ⟨?_, ?_, ?_, ?_, ?_⟩
  · intro levels hlevels
    obtain ⟨more, rfl⟩ := Nat.exists_eq_add_of_le hlevels
    rw [deleteQuery, deleteQuery, Task.run_withLocal, Task.run_withLocal,
      DeleteOperation.cascade_add, dao.run_descend hreads]
  · intro below levels hlevels
    obtain ⟨more, rfl⟩ := Nat.exists_eq_add_of_le hlevels
    rw [DeleteOperation.descend_add, dao.run_descend hreads]
  · exact fun table key claims s d => run_claim table key claims
  · intro levels delete q ctx claims s d
    exact (delete.cascade_grows levels q force ctx).run driver claims s d
  · intro dao levels step q tx claims s d hstep
    apply dao.run_deleteLevel_congr q force
    · exact fun delete q claims d => delete.run_cascade_state levels q force tx driver claims s d
    · exact fun delete q => delete.cascade_grows levels q force (some tx)
    · exact hstep

end Dao

namespace Ring

/-- A driver that answers every second read differently. -/
def waverer : Driver Bool where
  answer r first :=
    match r with
    | .query _ (.rows scope) =>
        let rows := if first then [row 1 2, row 2 1] else [row 1 2, row 3 3]
        (.ok (Output.ofRows (if scope.table = "category" then rows else [])), !first)
    | r => (r.granted, first)

theorem readsFrom_waverer : ReadsFrom [entry 1 2, entry 2 1, entry 3 3] waverer := by
  intro conn scope first o hanswer x hx
  obtain rfl : _ = o := Except.ok.inj hanswer
  by_cases htable : scope.table = "category"
  · cases first <;> simp [Output.ofRows, htable, entry] at hx ⊢ <;> grind
  · simp [Output.ofRows, htable] at hx

end Ring

/-- A delete by a driver that contradicts itself claims three rows, each of them once. -/
theorem Dao.cascade_terminates_ring :
    ReadsFrom [Ring.entry 1 2, Ring.entry 2 1, Ring.entry 3 3] Ring.waverer ∧
      ((((DeleteOperation.dao Ring.dao).cascade 4 Query.empty true none).run Ring.waverer []
        Ring.opening.2.1 true).1.2 = [("category", "3"), ("category", "2"), ("category", "1")]) ∧
      ∀ below, (DeleteOperation.descend below 4 (.dao Ring.dao) Query.empty true none).run
        Ring.waverer [] Ring.opening.2.1 true =
          ((DeleteOperation.dao Ring.dao).cascade 4 Query.empty true none).run Ring.waverer []
            Ring.opening.2.1 true := by
  have hdepth : Ring.dao.depth Ring.opening.2.1
      [Ring.entry 1 2, Ring.entry 2 1, Ring.entry 3 3] = 4 := by
    decide +kernel
  obtain ⟨-, hends, -⟩ := cascade_terminates Ring.dao Ring.waverer Ring.readsFrom_waverer
    Query.empty true none () Ring.opening.2.1 true
  rw [hdepth] at hends
  exact ⟨Ring.readsFrom_waverer, by decide +kernel, fun below => hends below 4 (Nat.le_refl 4)⟩

end Persistence
