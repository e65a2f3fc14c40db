import Persistence.Proofs.Schema.Performing

/-!
# The difference of the live and the declared tables

A plan of the synchronizer is the difference of the tables that are live and those that are
declared, as far as its switches and exceptions allow to remove it.  Where they allow all of it,
there are the declared tables behind the changes, and a plan for these only alters.

Main results:

- `State.syncPlan_isDifference`: the plan is the difference of the two sets of tables.
- `State.IsDifference.mem_tablesAfter`: the tables when the difference has been removed.
-/

namespace Persistence

/-! ## Creation order -/

namespace Table

theorem orderRounds_perm (listed : List String) (rounds : Nat) (done : List String)
    (pending : List Table) : (orderRounds listed rounds done pending).Perm pending := by
  induction rounds generalizing done pending with
  | zero => exact .refl _
  | succ rounds ih =>
      have hsplit := List.filter_append_perm (isReady listed done) pending
      simp only [orderRounds]
      split
      · next hnone =>
          rw [List.isEmpty_iff.1 hnone, List.nil_append] at hsplit
          exact hsplit
      · exact ((ih _ _).append_left _).trans hsplit

/-- Every table is created once, in whatever order. -/
theorem creationOrder_perm (tables : List Table) : (creationOrder tables).Perm tables :=
  orderRounds_perm _ _ _ _

end Table

/-! ## Plans -/

/-- The tables that are excepted everywhere join those of the configuration. -/
theorem SyncConfig.mem_withExceptions (c : SyncConfig) (tables : List String) (name : String) :
    name ∈ (c.withExceptions tables).exceptTables ↔ name ∈ c.exceptTables ∨ name ∈ tables := by
  have hfold : ∀ listed : List String,
      name ∈ tables.foldl (fun listed t => if t ∈ listed then listed else listed ++ [t]) listed ↔
        name ∈ listed ∨ name ∈ tables := by
    induction tables with
    | nil => simp
    | cons t tables ih =>
        intro listed
        rw [List.foldl_cons, ih]
        split <;> simp only [List.mem_append, List.mem_cons, List.not_mem_nil, or_false] <;> grind
  exact hfold c.exceptTables

namespace State

/-- Whether the synchronizer must not touch a table: its configuration says so, or it is excepted
everywhere. -/
def Excepts (s : State) (name : String) : Prop :=
  name ∈ s.sync.exceptTables ∨ name ∈ s.exceptTables

/-- The plan of the synchronizer for some live tables. -/
def syncPlan (s : State) (live : List String) : SyncPlan :=
  SyncPlan.make (s.sync.withExceptions s.exceptTables) live s.catalog.allTables

/-- The difference of the live and the declared tables, as far as the switches and the exceptions
allow to remove it: each of the tables that are live and not declared, of those that are declared
and not live, and of those that are both, once. -/
structure IsDifference (s : State) (live drops : List String) (creates : List Table)
    (alters : List String) : Prop where
  drops_iff : ∀ name, name ∈ drops ↔ s.sync.deleteTables = true ∧ name ∈ live ∧
    name ∉ s.catalog.allTables.map Table.name ∧ ¬ s.Excepts name
  creates_iff : ∀ t, t ∈ creates ↔ t ∈ s.catalog.allTables ∧ t.name ∉ live ∧ ¬ s.Excepts t.name
  alters_iff : ∀ name, name ∈ alters ↔ s.sync.updateTables = true ∧ name ∈ live ∧
    name ∈ s.catalog.allTables.map Table.name ∧ ¬ s.Excepts name
  once : drops.Nodup ∧ (creates.map Table.name).Nodup ∧ alters.Nodup

variable {s : State} {live : List String}

theorem not_excepted_iff {name : String} :
    name ∉ (s.sync.withExceptions s.exceptTables).exceptTables ↔ ¬ s.Excepts name := by
  rw [SyncConfig.mem_withExceptions, Excepts]

theorem mem_syncPlan_drop {name : String} :
    name ∈ (s.syncPlan live).drop ↔ s.sync.deleteTables = true ∧ name ∈ live ∧
      name ∉ s.catalog.allTables.map Table.name ∧ ¬ s.Excepts name := by
  have hswitch : (s.sync.withExceptions s.exceptTables).deleteTables = s.sync.deleteTables := rfl
  rw [← not_excepted_iff, syncPlan, SyncPlan.make, hswitch]
  cases s.sync.deleteTables with
  | false => simp
  | true => simp only [if_true, List.mem_filter, decide_eq_true_eq, true_and, and_assoc]

theorem mem_syncPlan_create {t : Table} :
    t ∈ (s.syncPlan live).create ↔
      t ∈ s.catalog.allTables ∧ t.name ∉ live ∧ ¬ s.Excepts t.name := by
  rw [← not_excepted_iff, syncPlan, SyncPlan.make]
  simp [(Table.creationOrder_perm _).mem_iff, and_assoc]

theorem mem_syncPlan_alter {t : Table} :
    t ∈ (s.syncPlan live).alter ↔ s.sync.updateTables = true ∧ t ∈ s.catalog.allTables ∧
      t.name ∈ live ∧ ¬ s.Excepts t.name := by
  have hswitch : (s.sync.withExceptions s.exceptTables).updateTables = s.sync.updateTables := rfl
  rw [← not_excepted_iff, syncPlan, SyncPlan.make, hswitch]
  cases s.sync.updateTables with
  | false => simp
  | true => simp only [if_true, List.mem_filter, decide_eq_true_eq, true_and, and_assoc]

/-- The plan of the synchronizer is the difference of the two sets of tables. -/
theorem syncPlan_isDifference (hlive : live.Nodup)
    (hdeclared : (s.catalog.allTables.map Table.name).Nodup) :
    s.IsDifference live (s.syncPlan live).drop (s.syncPlan live).create
      ((s.syncPlan live).alter.map Table.name) where
  drops_iff _ := mem_syncPlan_drop
  creates_iff _ := mem_syncPlan_create
  alters_iff name := by
    simp only [List.mem_map, mem_syncPlan_alter]
    constructor
    · rintro ⟨t, ⟨hswitch, ht, hname, hexcept⟩, rfl⟩
      exact ⟨hswitch, hname, ⟨t, ht, rfl⟩, hexcept⟩
    · rintro ⟨hswitch, hname, ⟨t, ht, rfl⟩, hexcept⟩
      exact ⟨t, ⟨hswitch, ht, hname, hexcept⟩, rfl⟩
  once := by
    refine ⟨?_, ?_, ?_⟩
    · rw [syncPlan, SyncPlan.make]
      dsimp only
      split
      · exact (hlive.filter _).filter _
      · exact List.nodup_nil
    · rw [syncPlan, SyncPlan.make]
      refine List.Nodup.sublist (List.filter_sublist.map Table.name) ?_
      rw [((Table.creationOrder_perm _).map Table.name).nodup_iff]
      exact hdeclared.sublist (List.filter_sublist.map Table.name)
    · rw [syncPlan, SyncPlan.make]
      dsimp only
      split
      · exact hdeclared.sublist ((List.filter_sublist.trans List.filter_sublist).map Table.name)
      · exact List.nodup_nil

/-- Every change of a plan is about a table that is not excepted. -/
theorem subject?_of_mem_changes {c : Change} (h : c ∈ (s.syncPlan live).changes) :
    ∃ name, c.subject? = some name ∧ ¬ s.Excepts name := by
  simp only [SyncPlan.changes, List.mem_append, List.mem_map] at h
  rcases h with (⟨name, hname, rfl⟩ | ⟨t, ht, rfl⟩) | ⟨t, ht, rfl⟩
  · exact ⟨name, rfl, (mem_syncPlan_drop.1 hname).2.2.2⟩
  · exact ⟨t.name, rfl, (mem_syncPlan_create.1 ht).2.2⟩
  · exact ⟨t.name, rfl, (mem_syncPlan_alter.1 ht).2.2.2⟩

end State

/-! ## The tables afterwards -/

/-- The names of the tables after some changes. -/
def tablesAfter (live : List String) (changes : List Change) : List String :=
  changes.foldl Change.apply live

/-- After drops, creates and alterations there are the tables that were there and not dropped, and
those that were created. -/
theorem mem_tablesAfter (live drops : List String) (creates : List Table) (alters : List String)
    (name : String) :
    name ∈ tablesAfter live
        (drops.map .drop ++ (creates.map fun t => .create t.name) ++ alters.map .alter) ↔
      name ∈ live ∧ name ∉ drops ∨ name ∈ creates.map Table.name := by
  have hdrops : ∀ live : List String,
      name ∈ tablesAfter live (drops.map .drop) ↔ name ∈ live ∧ name ∉ drops := by
    induction drops with
    | nil => simp [tablesAfter]
    | cons first drops ih =>
        intro live
        show name ∈ tablesAfter (live.filter (· ≠ first)) (drops.map .drop) ↔ _
        rw [ih]
        simp only [List.mem_filter, decide_eq_true_eq, List.mem_cons, not_or, and_assoc]
  have hcreates : ∀ live : List String,
      tablesAfter live (creates.map fun t => .create t.name) =
        live ++ creates.map Table.name := by
    induction creates with
    | nil => simp [tablesAfter]
    | cons first creates ih =>
        intro live
        show tablesAfter (live ++ [first.name]) (creates.map fun t => .create t.name) = _
        rw [ih, List.append_assoc]
        rfl
  have halters : ∀ live : List String, tablesAfter live (alters.map .alter) = live := by
    induction alters with
    | nil => exact fun _ => rfl
    | cons first alters ih => exact ih
  rw [tablesAfter, List.foldl_append, List.foldl_append]
  show name ∈ tablesAfter (tablesAfter (tablesAfter live (drops.map .drop))
    (creates.map fun t => .create t.name)) (alters.map .alter) ↔ _
  rw [halters, hcreates, List.mem_append, hdrops]

namespace State

variable {s s' : State} {live drops alters : List String} {creates : List Table}

/-- The tables after the difference was removed without exceptions are the declared ones. -/
theorem IsDifference.mem_tablesAfter (h : s.IsDifference live drops creates alters)
    (hdelete : s.sync.deleteTables = true) (hexcept : ∀ name, ¬ s.Excepts name) (name : String) :
    name ∈ tablesAfter live
        (drops.map .drop ++ (creates.map fun t => .create t.name) ++ alters.map .alter) ↔
      name ∈ s.catalog.allTables.map Table.name := by
  rw [Persistence.mem_tablesAfter, h.drops_iff]
  simp only [List.mem_map, h.creates_iff]
  constructor
  · rintro (⟨hlive, hkept⟩ | ⟨t, ⟨ht, -, -⟩, rfl⟩)
    · by_contra hdeclared
      exact hkept ⟨hdelete, hlive, hdeclared, hexcept name⟩
    · exact ⟨t, ht, rfl⟩
  · rintro ⟨t, ht, rfl⟩
    by_cases hlive : t.name ∈ live
    · exact .inl ⟨hlive, fun hdropped => hdropped.2.2.1 ⟨t, ht, rfl⟩⟩
    · exact .inr ⟨t, ⟨ht, hlive, hexcept t.name⟩, rfl⟩

/-- A plan for the declared tables only alters. -/
theorem exists_alter_of_mem_changes
    (hlive : ∀ name, name ∈ live ↔ name ∈ s.catalog.allTables.map Table.name) {c : Change}
    (h : c ∈ (s.syncPlan live).changes) : ∃ name, c = .alter name := by
  simp only [SyncPlan.changes, List.mem_append, List.mem_map] at h
  rcases h with (⟨name, hname, rfl⟩ | ⟨t, ht, rfl⟩) | ⟨t, -, rfl⟩
  · obtain ⟨-, hmem, hsurplus, -⟩ := mem_syncPlan_drop.1 hname
    exact absurd ((hlive name).1 hmem) hsurplus
  · obtain ⟨hdeclared, hmissing, -⟩ := mem_syncPlan_create.1 ht
    exact absurd ((hlive t.name).2 (List.mem_map_of_mem hdeclared)) hmissing
  · exact ⟨t.name, rfl⟩

end State

end Persistence
