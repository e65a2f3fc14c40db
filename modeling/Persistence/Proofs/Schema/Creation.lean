import Persistence.Proofs.Schema.Difference

/-!
# Creation in the order of foreign keys

A table waits for the other listed tables that its foreign keys name.  The rounds of the creation
order put a table behind everything that it waits for, unless it waits for tables that wait for
each other: these are still pending when no table is ready, and so is whatever waits for them.

Main results:

- `Table.rounds_creationOrder`: the rounds come to their end by themselves.
- `Table.creationOrder_respects_keys`: where the tables stand in the creation order.
-/

namespace Persistence.Table

variable {tables : List Table} {t u : Table}

/-! ## Waiting -/

/-- A foreign key of one listed table names another one. -/
def WaitsFor (tables : List Table) (t u : Table) : Prop :=
  t ∈ tables ∧ u ∈ tables ∧ u.name ≠ t.name ∧ ∃ entry ∈ t.foreignKeys, entry.2.table = u.name

/-- A table that is on a cycle of foreign keys, or waits for one that is. -/
def WaitsForCycle (tables : List Table) (t : Table) : Prop :=
  ∃ u, Relation.ReflTransGen (WaitsFor tables) t u ∧ Relation.TransGen (WaitsFor tables) u u

/-- What waits for a cycle waits for a table that does. -/
theorem WaitsForCycle.exists_waitsFor (h : WaitsForCycle tables t) :
    ∃ u, WaitsFor tables t u ∧ WaitsForCycle tables u := by
  obtain ⟨u, hreach, hcycle⟩ := h
  rcases hreach.cases_head with rfl | ⟨v, hv, hrest⟩
  · obtain ⟨v, hv, hback⟩ := Relation.TransGen.head'_iff.1 hcycle
    exact ⟨v, hv, t, hback, hcycle⟩
  · exact ⟨v, hv, u, hrest, hcycle⟩

/-- Where every pending table waits for a pending one, all of them wait for a cycle. -/
theorem waitsForCycle_of_forall {pending : List Table}
    (h : ∀ t ∈ pending, ∃ u ∈ pending, WaitsFor tables t u) (ht : t ∈ pending) :
    WaitsForCycle tables t := by
  choose! next hnext hwaits using h
  have hmem : ∀ n, next^[n] t ∈ pending := by
    intro n
    induction n with
    | zero => exact ht
    | succ n ih =>
        rw [Function.iterate_succ_apply']
        exact hnext _ ih
  have hstep : ∀ n, WaitsFor tables (next^[n] t) (next^[n + 1] t) := by
    intro n
    rw [Function.iterate_succ_apply']
    exact hwaits _ (hmem n)
  -- the pending tables are finitely many, so the walk comes back to one of them
  have hfinite : Finite {u // u ∈ pending} := pending.finite_toSet.to_subtype
  obtain ⟨m, n, hne, heq⟩ := Finite.exists_ne_map_eq_of_infinite
    fun n => (⟨next^[n] t, hmem n⟩ : {u // u ∈ pending})
  have hreach : ∀ m k, Relation.ReflTransGen (WaitsFor tables) (next^[m] t) (next^[m + k] t) := by
    intro m k
    induction k with
    | zero => exact .refl
    | succ k ih => exact ih.tail (hstep (m + k))
  have hcycle : ∀ m n, m < n → next^[m] t = next^[n] t → WaitsForCycle tables t := by
    intro m n hlt heq
    obtain ⟨k, rfl⟩ := Nat.exists_eq_add_of_lt hlt
    refine ⟨next^[m] t, by simpa using hreach 0 m, ?_⟩
    have hloop := Relation.TransGen.tail' (hreach m k) (hstep (m + k))
    rwa [← heq] at hloop
  have heq : next^[m] t = next^[n] t := congrArg Subtype.val heq
  rcases Nat.lt_or_gt_of_ne hne with hlt | hlt
  · exact hcycle m n hlt heq
  · exact hcycle n m hlt heq.symm

/-! ## Rounds -/

variable {listed done : List String} {pending order : List Table}

/-- A table that is not ready has a foreign key to another listed table that is not created yet. -/
theorem isReady_eq_false_iff :
    isReady listed done t = false ↔
      ∃ entry ∈ t.foreignKeys, entry.2.table ≠ t.name ∧ entry.2.table ∈ listed ∧
        entry.2.table ∉ done := by
  simp [isReady, and_assoc]

/-- The order in which the rounds create the pending tables, however many rounds there are: each
of them creates the tables that are ready, until no table is pending or none is ready. -/
inductive Rounds (listed : List String) : List String → List Table → List Table → Prop
  | finished {done : List String} : Rounds listed done [] []
  | stuck {done : List String} {pending : List Table} (hpending : pending ≠ [])
      (hnone : pending.filter (isReady listed done) = []) : Rounds listed done pending pending
  | round {done : List String} {pending order : List Table}
      (hsome : pending.filter (isReady listed done) ≠ [])
      (hrest : Rounds listed (done ++ (pending.filter (isReady listed done)).map Table.name)
        (pending.filter fun t => !isReady listed done t) order) :
      Rounds listed done pending (pending.filter (isReady listed done) ++ order)

/-- As many rounds as there are pending tables are enough. -/
theorem rounds_orderRounds {rounds : Nat} (h : pending.length ≤ rounds) :
    Rounds listed done pending (orderRounds listed rounds done pending) := by
  induction rounds generalizing done pending with
  | zero =>
      obtain rfl : pending = [] := List.length_eq_zero_iff.1 (by omega)
      exact .finished
  | succ rounds ih =>
      simp only [orderRounds]
      split
      · next hnone =>
          have hready := List.isEmpty_iff.1 hnone
          have hblocked : pending.filter (fun t => !isReady listed done t) = pending := by
            simpa using hready
          rw [hblocked]
          by_cases hpending : pending = []
          · rw [hpending]
            exact .finished
          · exact .stuck hpending hready
      · next hsome =>
          rw [List.isEmpty_iff] at hsome
          refine .round hsome (ih ?_)
          have hsplit := (List.filter_append_perm (isReady listed done) pending).length_eq
          have hpos := List.length_pos_of_ne_nil hsome
          rw [List.length_append] at hsplit
          omega

/-- The creation order is what the rounds make of the tables when nothing stops them. -/
theorem rounds_creationOrder (tables : List Table) :
    Rounds (tables.map Table.name) [] tables (creationOrder tables) :=
  rounds_orderRounds (Nat.le_refl _)

/-! ## Progress -/

/-- What holds between two rounds: the created tables are those that are not pending any more, and
none of them waits for a cycle. -/
structure Progress (tables : List Table) (done : List String) (pending : List Table) : Prop where
  sublist : pending.Sublist tables
  mem_done_iff : ∀ u ∈ tables, u.name ∈ done ↔ u ∉ pending
  not_waitsForCycle : ∀ u ∈ tables, u ∉ pending → ¬ WaitsForCycle tables u

namespace Progress

theorem start (tables : List Table) : Progress tables [] tables where
  sublist := List.Sublist.refl _
  mem_done_iff u hu := by simp [hu]
  not_waitsForCycle u hu hnot := absurd hu hnot

/-- A table that is ready waits for created tables only. -/
theorem mem_done_of_isReady (hready : isReady (tables.map Table.name) done t = true)
    (hwaits : WaitsFor tables t u) : u.name ∈ done := by
  obtain ⟨-, hu, hne, entry, hentry, hname⟩ := hwaits
  by_contra hnot
  have hblocked : isReady (tables.map Table.name) done t = false := by
    rw [isReady_eq_false_iff]
    refine ⟨entry, hentry, ?_⟩
    rw [hname]
    exact ⟨hne, List.mem_map_of_mem hu, hnot⟩
  simp [hready] at hblocked

/-- A table that becomes ready does not wait for a cycle. -/
theorem not_waitsForCycle_of_isReady (h : Progress tables done pending)
    (hready : isReady (tables.map Table.name) done t = true) : ¬ WaitsForCycle tables t := by
  intro hcycle
  obtain ⟨u, hwaits, hu⟩ := hcycle.exists_waitsFor
  have hmem : u ∈ tables := hwaits.2.1
  have hcreated := (h.mem_done_iff u hmem).1 (mem_done_of_isReady hready hwaits)
  exact h.not_waitsForCycle u hmem hcreated hu

/-- When no table is ready, all pending tables wait for a cycle. -/
theorem waitsForCycle_of_stuck (h : Progress tables done pending)
    (hnone : pending.filter (isReady (tables.map Table.name) done) = []) (ht : t ∈ pending) :
    WaitsForCycle tables t := by
  refine waitsForCycle_of_forall (fun t ht => ?_) ht
  have hblocked : isReady (tables.map Table.name) done t = false := by
    simpa using List.filter_eq_nil_iff.1 hnone t ht
  obtain ⟨entry, hentry, hne, hlisted, hnot⟩ := isReady_eq_false_iff.1 hblocked
  obtain ⟨u, hu, hname⟩ := List.mem_map.1 hlisted
  rw [← hname] at hne hnot
  refine ⟨u, ?_, h.sublist.subset ht, hu, hne, entry, hentry, hname.symm⟩
  by_contra hcreated
  exact hnot ((h.mem_done_iff u hu).2 hcreated)

section Names

variable (hnames : (tables.map Table.name).Nodup)

include hnames

/-- The names of some pending tables are those of no other table. -/
theorem mem_filter_of_mem_names (h : Progress tables done pending) {p : Table → Bool}
    (hu : u ∈ tables) : u.name ∈ (pending.filter p).map Table.name ↔ u ∈ pending.filter p := by
  constructor
  · intro hmem
    obtain ⟨v, hv, hname⟩ := List.mem_map.1 hmem
    have hvmem := h.sublist.subset (List.mem_of_mem_filter hv)
    rwa [← List.inj_on_of_nodup_map hnames hvmem hu hname]
  · intro hmem
    exact List.mem_map_of_mem hmem

/-- A round makes progress. -/
theorem round (h : Progress tables done pending) :
    Progress tables
      (done ++ (pending.filter (isReady (tables.map Table.name) done)).map Table.name)
      (pending.filter fun t => !isReady (tables.map Table.name) done t) where
  sublist := List.filter_sublist.trans h.sublist
  mem_done_iff u hu := by
    rw [List.mem_append, h.mem_filter_of_mem_names hnames hu, h.mem_done_iff u hu]
    by_cases hpending : u ∈ pending <;> simp [hpending]
  not_waitsForCycle u hu hnot := by
    by_cases hpending : u ∈ pending
    · have hready : isReady (tables.map Table.name) done u = true := by
        simpa [hpending] using hnot
      exact h.not_waitsForCycle_of_isReady hready
    · exact h.not_waitsForCycle u hu hpending

end Names

end Progress

/-! ## The order -/

/-- The pending tables in an order that respects foreign keys: first those that do not wait for a
cycle, each behind what it waits for, then the others as they come. -/
structure Ordered (tables : List Table) (done : List String) (pending order : List Table) :
    Prop where
  split : ∃ free cyclic, order = free ++ cyclic ∧ (∀ t ∈ free, ¬ WaitsForCycle tables t) ∧
    (∀ t ∈ cyclic, WaitsForCycle tables t) ∧ cyclic.Sublist pending
  behind : ∀ before t after, order = before ++ t :: after → ¬ WaitsForCycle tables t →
    ∀ u, WaitsFor tables t u → u.name ∈ done ∨ u ∈ before

/-- The tables of one round in front of those of the following rounds. -/
theorem Ordered.round (hnames : (tables.map Table.name).Nodup) (h : Progress tables done pending)
    (hrest : Ordered tables
      (done ++ (pending.filter (isReady (tables.map Table.name) done)).map Table.name)
      (pending.filter fun t => !isReady (tables.map Table.name) done t) order) :
    Ordered tables done pending
      (pending.filter (isReady (tables.map Table.name) done) ++ order) := by
  generalize hready : pending.filter (isReady (tables.map Table.name) done) = ready at hrest ⊢
  have hisReady : ∀ t ∈ ready, isReady (tables.map Table.name) done t = true := by
    intro t ht
    rw [← hready] at ht
    exact (List.mem_filter.1 ht).2
  obtain ⟨⟨free, cyclic, rfl, hfree, hcyclic, hsublist⟩, hbehind⟩ := hrest
  have hlater : ∀ middle t after, free ++ cyclic = middle ++ t :: after →
      ¬ WaitsForCycle tables t →
        ∀ u, WaitsFor tables t u → u.name ∈ done ∨ u ∈ ready ++ middle := by
    intro middle t after heq hnot u hwaits
    rcases hbehind middle t after heq hnot u hwaits with hcreated | hu
    · rcases List.mem_append.1 hcreated with hdone | hnow
      · exact .inl hdone
      · rw [← hready, h.mem_filter_of_mem_names hnames hwaits.2.1, hready] at hnow
        exact .inr (List.mem_append_left _ hnow)
    · exact .inr (List.mem_append_right _ hu)
  constructor
  · refine ⟨ready ++ free, cyclic, (List.append_assoc _ _ _).symm, ?_, hcyclic,
      hsublist.trans List.filter_sublist⟩
    intro t ht
    rcases List.mem_append.1 ht with ht | ht
    · exact h.not_waitsForCycle_of_isReady (hisReady t ht)
    · exact hfree t ht
  · intro before t after heq hnot u hwaits
    -- the table is created in a later round, or in this one
    rcases List.append_eq_append_iff.1 heq with ⟨middle, rfl, hrest⟩ | ⟨middle, hmiddle, hrest⟩
    · exact hlater middle t after hrest hnot u hwaits
    · cases middle with
      | nil =>
          have hbefore : before = ready ++ [] := by simp [hmiddle]
          rw [hbefore]
          exact hlater [] t after hrest.symm hnot u hwaits
      | cons v middle =>
          obtain ⟨rfl, -⟩ := List.cons.inj hrest
          have hmem : t ∈ ready := by simp [hmiddle]
          exact .inl (Progress.mem_done_of_isReady (hisReady t hmem) hwaits)

/-- From a state with progress on, the rounds respect foreign keys. -/
theorem Rounds.ordered (hnames : (tables.map Table.name).Nodup)
    (hrounds : Rounds (tables.map Table.name) done pending order)
    (h : Progress tables done pending) : Ordered tables done pending order := by
  induction hrounds with
  | finished => exact ⟨⟨[], [], by simp⟩, by simp⟩
  | @stuck done pending _ hnone =>
      have hall : ∀ t ∈ pending, WaitsForCycle tables t := by
        intro t ht
        exact h.waitsForCycle_of_stuck hnone ht
      refine ⟨⟨[], pending, rfl, by simp, hall, List.Sublist.refl _⟩, ?_⟩
      intro before t after heq hfree
      exact absurd (hall t (by simp [heq])) hfree
  | round _ _ ih => exact .round hnames h (ih (h.round hnames))

/-- The creation order of tables with distinct names: its rounds come to an end, each table is in
it once, and of two parts the first has the tables that wait for no cycle, each behind the other
listed tables that its foreign keys name, and the second the tables that do, as they were
listed. -/
theorem creationOrder_respects_keys (hnames : (tables.map Table.name).Nodup) :
    Rounds (tables.map Table.name) [] tables (creationOrder tables) ∧
      (creationOrder tables).Perm tables ∧
      (∃ free cyclic, creationOrder tables = free ++ cyclic ∧
        (∀ t ∈ free, ¬ WaitsForCycle tables t) ∧ (∀ t ∈ cyclic, WaitsForCycle tables t) ∧
        cyclic.Sublist tables) ∧
      ∀ before t after, creationOrder tables = before ++ t :: after → ¬ WaitsForCycle tables t →
        ∀ entry ∈ t.foreignKeys, entry.2.table ≠ t.name → entry.2.table ∈ tables.map Table.name →
          entry.2.table ∈ before.map Table.name := by
  have hrounds := rounds_creationOrder tables
  have hperm := creationOrder_perm tables
  have hordered := hrounds.ordered hnames (.start tables)
  refine ⟨hrounds, hperm, hordered.split, ?_⟩
  intro before t after heq hfree entry hentry hne hlisted
  obtain ⟨u, hu, hname⟩ := List.mem_map.1 hlisted
  have ht : t ∈ tables := hperm.subset (by simp [heq])
  have hwaits : WaitsFor tables t u := ⟨ht, hu, by rwa [hname], entry, hentry, hname.symm⟩
  rcases hordered.behind before t after heq hfree u hwaits with hnone | hmem
  · simp at hnone
  · rw [← hname]
    exact List.mem_map_of_mem hmem

namespace Shop

/-- A table with a name and foreign keys to tables with names. -/
def table (name : String) (targets : List String) : Table where
  name
  charset := defaultCharset
  collate := defaultCollate
  engine := defaultEngine
  softDelete := false
  columns := []
  primaryKeys := []
  uniqueKeys := []
  foreignKeys := targets.map fun target => (target, ⟨target, "id", .cascade⟩)

/-- Customers name each other and a table that is not listed. -/
def customer : Table := table "customer" ["customer", "region"]

def invoice : Table := table "invoice" ["customer"]

/-- Products and suppliers name each other, and lines name products. -/
def all : List Table :=
  [table "line" ["invoice", "product"], invoice, table "product" ["supplier"], customer,
   table "supplier" ["product"]]

theorem name_of_waitsFor {name : String} {targets : List String} {u : Table}
    (h : WaitsFor all (table name targets) u) :
    u ∈ all ∧ u.name ≠ name ∧ u.name ∈ targets := by
  obtain ⟨-, hu, hne, entry, hentry, hname⟩ := h
  obtain ⟨target, htarget, rfl⟩ := List.mem_map.1 hentry
  exact ⟨hu, hne, hname ▸ htarget⟩

theorem not_waitsForCycle_invoice : ¬ WaitsForCycle all invoice := by
  intro h
  obtain ⟨u, hwaits, hcycle⟩ := h.exists_waitsFor
  obtain ⟨hu, -, hname⟩ := name_of_waitsFor hwaits
  obtain rfl : u = customer := by
    simp only [all, List.mem_cons, List.not_mem_nil, or_false] at hu
    rcases hu with rfl | rfl | rfl | rfl | rfl <;> simp_all [table, invoice]
  obtain ⟨v, hwaits, -⟩ := hcycle.exists_waitsFor
  obtain ⟨hv, hne, hname⟩ := name_of_waitsFor hwaits
  simp only [all, List.mem_cons, List.not_mem_nil, or_false] at hv
  rcases hv with rfl | rfl | rfl | rfl | rfl <;> simp_all [table, invoice, customer]

end Shop

/-- An invoice is created behind the customers; what waits for products comes last. -/
theorem creationOrder_respects_keys_shop :
    (Shop.all.map Table.name).Nodup ∧
      (creationOrder Shop.all).map Table.name =
        ["customer", "invoice", "line", "product", "supplier"] ∧
      creationOrder Shop.all =
        [Shop.customer] ++ Shop.invoice :: (creationOrder Shop.all).drop 2 ∧
      ¬ WaitsForCycle Shop.all Shop.invoice ∧
      "customer" ∈ [Shop.customer].map Table.name := by
  have hnames : (Shop.all.map Table.name).Nodup := by decide
  obtain ⟨-, -, -, hbehind⟩ := creationOrder_respects_keys hnames
  refine ⟨hnames, by decide, rfl, Shop.not_waitsForCycle_invoice, ?_⟩
  exact hbehind [Shop.customer] Shop.invoice _ rfl Shop.not_waitsForCycle_invoice
    ("customer", ⟨"customer", "id", .cascade⟩) (by simp [Shop.invoice, Shop.table]) (by decide)
    (by decide)

end Persistence.Table
