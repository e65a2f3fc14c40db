import Persistence.Proofs.Cascade.Setting
import Persistence.Proofs.Json.Text

/-!
# The progress of a cascade

While a cascade runs, an entry is touched when some level has claimed it or removed it, and gone
when it has been removed.  `Progress` relates both sets to the claims and to the store.  A level
that succeeds spreads them: what it touches first has gone when it is done, together with every
row that refers to it.

What a delete has done when it succeeds and why it is refused otherwise are the two cases of
`Outcome`.  A refusal always names a row that the delete would have reached but that was not its
own.

Main results:

- `Setting.WellFormed.claimOf_inj`: a claim stands for one live row.
- `Setting.hits_keyScope`: a narrowed query selects the rows that it was made from.
- `Progress.claim`, `Progress.delete`: what claiming and deleting rows preserve.
- `Progress.mem_freshRows`: the fresh rows of a level are the ones that nobody has touched.
-/

namespace Persistence

namespace Setting

variable {w : Setting} {dao : Dao} {row other : Row}

/-! ## Row keys -/

/-- The key of a live row is not null. -/
theorem Identifies.isNull_key (h : w.Identifies dao) {key : KeyColumn}
    (hkey : dao.primaryKey = some key) (hrow : ⟨dao.tableName, row⟩ ∈ w.live) :
    (row.cell key.column).isNull = false :=
  Collation.isNull_of_equal ((h key hkey row row hrow hrow).2 rfl)

/-- The row key of a live row of a table with a primary key is the text of its key. -/
theorem Identifies.rowKey_eq (h : w.Identifies dao) {key : KeyColumn}
    (hkey : dao.primaryKey = some key) (hrow : ⟨dao.tableName, row⟩ ∈ w.live) :
    dao.rowKey row = (row.cell key.column).text := by
  have hnull := h.isNull_key hkey hrow
  rw [Dao.rowKey, hkey, Option.bind_some]
  cases hlookup : List.lookup key.column row with
  | none =>
      rw [Row.cell, hlookup] at hnull
      simp [Json.isNull] at hnull
  | some j => rw [Row.cell, hlookup, Option.getD_some]

/-- Live rows of one table with the same row key are the same. -/
theorem Identifies.rowKey_inj (h : w.Identifies dao) (hrow : ⟨dao.tableName, row⟩ ∈ w.live)
    (hother : ⟨dao.tableName, other⟩ ∈ w.live) (hsame : dao.rowKey row = dao.rowKey other) :
    row = other := by
  cases hkey : dao.primaryKey with
  | none =>
      simp only [Dao.rowKey, hkey, Option.bind_none] at hsame
      exact Json.obj.inj (Json.text_injective hsame)
  | some key =>
      rw [h.rowKey_eq hkey hrow, h.rowKey_eq hkey hother] at hsame
      have hcell := Json.text_injective hsame
      have hself := (h key hkey row row hrow hrow).2 rfl
      refine (h key hkey row other hrow hother).1 ?_
      rw [← hcell]
      exact hself

/-- A claim stands for one live row. -/
theorem WellFormed.claimOf_inj (hw : w.WellFormed) (hdao : dao ∈ w.daos) (h : w.Identifies dao)
    (hrow : ⟨dao.tableName, row⟩ ∈ w.live) {dao' : Dao} (hdao' : dao' ∈ w.daos)
    (hother : ⟨dao'.tableName, other⟩ ∈ w.live) (hsame : dao.claimOf row = dao'.claimOf other) :
    dao = dao' ∧ row = other := by
  obtain ⟨htable, hkey⟩ := Prod.mk.inj hsame
  obtain rfl := hw.dao_eq hdao hdao' htable
  exact ⟨rfl, h.rowKey_inj hrow hother hkey⟩

/-! ## Narrowed queries -/

/-- The entries of some rows of a table. -/
def entries (table : String) (rows : List Row) : Set Entry := {x | x.table = table ∧ x.row ∈ rows}

@[simp]
theorem mem_entries {table : String} {rows : List Row} {x : Entry} :
    x ∈ entries table rows ↔ x.table = table ∧ x.row ∈ rows := Iff.rfl

theorem entries_eq_empty (table : String) {rows : List Row} :
    entries table rows = ∅ ↔ rows = [] := by
  constructor
  · intro h
    rw [List.eq_nil_iff_forall_not_mem]
    intro row hrow
    have hmem : (⟨table, row⟩ : Entry) ∈ entries table rows := ⟨rfl, hrow⟩
    rw [h] at hmem
    exact hmem
  · rintro rfl
    ext x
    simp

theorem entries_nonempty (table : String) {rows : List Row} :
    (entries table rows).Nonempty ↔ rows ≠ [] := by
  rw [Set.nonempty_iff_ne_empty, ne_eq, entries_eq_empty]

/-- A query selects live rows of its table by its conditions. -/
theorem mem_hits (hw : w.WellFormed) (hdao : dao ∈ w.daos) {q : Query} :
    ⟨dao.tableName, row⟩ ∈ w.hits dao q ↔
      ⟨dao.tableName, row⟩ ∈ w.live ∧ q.holds w.collation dao.target.mapping row = true := by
  have hlive : ⟨dao.tableName, row⟩ ∈ w.live ↔
      row ∈ w.start dao.tableName ∧ dao.target.sees w.collation row = true := by
    constructor
    · rintro ⟨dao', hdao', htable, hrow, hsees⟩
      obtain rfl := hw.dao_eq hdao' hdao htable
      exact ⟨hrow, hsees⟩
    · rintro ⟨hrow, hsees⟩
      exact ⟨dao, hdao, rfl, hrow, hsees⟩
  rw [hlive, hits, Set.mem_ofPred_eq, Scope.selects, Bool.and_eq_true, and_assoc]
  simp [Dao.scope]

/-- A narrowed query selects the rows that it was made from. -/
theorem hits_keyScope (hw : w.WellFormed) (hdao : dao ∈ w.daos) (h : w.Identifies dao)
    {key : KeyColumn} (hkey : dao.primaryKey = some key) {rows : List Row}
    (hrows : entries dao.tableName rows ⊆ w.live) :
    w.hits dao (scopeQuery key.property (Dao.keyValues key rows)) = entries dao.tableName rows := by
  have hmem : ∀ row ∈ rows, ⟨dao.tableName, row⟩ ∈ w.live := fun row hrow => hrows ⟨rfl, hrow⟩
  have hkeys : ∀ row ∈ rows, (Row.cell row key.column).isNull = false :=
    fun row hrow => h.isNull_key hkey (hmem row hrow)
  have hholds := Dao.holds_keyScope w.collation dao (hw.keyColumn dao hdao key hkey) hkeys
  ext ⟨table, row⟩
  constructor
  · intro hx
    obtain rfl : table = dao.tableName := hx.1
    obtain ⟨hlive, hq⟩ := (mem_hits hw hdao).1 hx
    obtain ⟨other, hother, heq⟩ := (hholds row).1 hq
    obtain rfl := (h key hkey row other hlive (hmem other hother)).1 heq
    exact ⟨rfl, hother⟩
  · rintro ⟨htable, hrow⟩
    obtain rfl : table = dao.tableName := htable
    have hlive := hmem row hrow
    refine (mem_hits hw hdao).2 ⟨hlive, (hholds row).2 ⟨row, hrow, ?_⟩⟩
    exact (h key hkey row row hlive hlive).2 rfl

/-! ## References -/

/-- The query of a dependent selects the live rows that refer to the given ones by it. -/
theorem mem_hits_references (hw : w.WellFormed) (hdao : dao ∈ w.daos) {dep : Dependent}
    (htable : dao.tableName = dep.table) {table : String} {rows : List Row} {y : Entry} :
    y ∈ w.hits dao (scopeQuery dep.property (dep.references rows)) ↔
      y ∈ w.live ∧ ∃ x ∈ entries table rows, w.RefersBy dep y x := by
  obtain ⟨ytable, row⟩ := y
  have hholds := Dependent.holds_references w.collation dao.target.mapping dep rows row
  constructor
  · intro hy
    obtain rfl : ytable = dao.tableName := hy.1
    obtain ⟨hlive, hq⟩ := (mem_hits hw hdao).1 hy
    obtain ⟨target, htarget, j, hj, heq⟩ := hholds.1 hq
    exact ⟨hlive, ⟨table, target⟩, ⟨rfl, htarget⟩, htable, dao, hdao, htable, j, hj, heq⟩
  · rintro ⟨hlive, x, hx, hytable, dao', hdao', htable', j, hj, heq⟩
    obtain rfl := hw.dao_eq hdao' hdao (htable'.trans htable.symm)
    obtain rfl : ytable = dao'.tableName := hytable.trans htable.symm
    exact (mem_hits hw hdao).2 ⟨hlive, hholds.2 ⟨x.row, hx.2, j, hj, heq⟩⟩

/-- Without references nothing refers to the rows by a dependent. -/
theorem not_refersBy_of_references_eq_nil {dep : Dependent} {rows : List Row}
    (h : dep.references rows = []) {table : String} {x y : Entry} (hx : x ∈ entries table rows) :
    ¬w.RefersBy dep y x := by
  rintro ⟨-, -, -, -, j, hj, -⟩
  obtain ⟨v, hv, -⟩ := Dependent.exists_mem_references hx.2 hj
  rw [h] at hv
  exact List.not_mem_nil hv

/-! ## What is left to touch -/

theorem live_finite (w : Setting) : w.live.Finite := by
  have hsub : w.live ⊆ ⋃ dao ∈ w.daos, entries dao.tableName (w.start dao.tableName) := by
    rintro x ⟨dao, hdao, htable, hrow, -⟩
    refine Set.mem_biUnion hdao ⟨htable.symm, ?_⟩
    rwa [htable]
  refine Set.Finite.subset (Set.Finite.biUnion w.daos.finite_toSet fun dao _ => ?_) hsub
  refine ((w.start dao.tableName).finite_toSet.image fun row => ⟨dao.tableName, row⟩).subset ?_
  rintro ⟨table, row⟩ ⟨rfl, hrow⟩
  exact ⟨row, hrow, rfl⟩

/-- The number of live rows outside of a set. -/
noncomputable def untouched (w : Setting) (touched : Set Entry) : Nat := (w.live \ touched).ncard

theorem untouched_anti {touched touched' : Set Entry} (h : touched ⊆ touched') :
    w.untouched touched' ≤ w.untouched touched :=
  Set.ncard_le_ncard (Set.sdiff_subset_sdiff_right h) w.live_finite.sdiff

/-- Touching live rows, some of them for the first time, leaves less to touch. -/
theorem untouched_union_lt {touched hit : Set Entry} (hlive : hit ⊆ w.live)
    (hnew : (hit \ touched).Nonempty) : w.untouched (touched ∪ hit) < w.untouched touched := by
  obtain ⟨x, hx, hnot⟩ := hnew
  have hsub : w.live \ (touched ∪ hit) ⊆ w.live \ touched :=
    Set.sdiff_subset_sdiff_right Set.subset_union_left
  refine Set.ncard_lt_ncard ⟨hsub, fun hback => ?_⟩ w.live_finite.sdiff
  exact (hback ⟨hlive hx, hnot⟩).2 (.inr hx)

end Setting

/-! ## Progress -/

/-- How far a cascade has come: what its claims and the store say about the entries that it has
touched and about those that have gone. -/
structure Progress (w : Setting) (claims : Claims) (session : Session)
    (touched gone : Set Entry) : Prop where
  leaves : w.Leaves gone session.current
  saved : session.saved = w.start
  gone_subset : gone ⊆ touched
  touched_subset : touched ⊆ w.live
  claimed : ∀ dao ∈ w.daos, ∀ row, ⟨dao.tableName, row⟩ ∈ w.live → ⟨dao.tableName, row⟩ ∉ gone →
    (dao.claimOf row ∈ claims ↔ ⟨dao.tableName, row⟩ ∈ touched)
  /-- Tables without dependents do not claim. -/
  leaf : ∀ x ∈ touched, w.dependents x.table = [] → x ∈ gone

namespace Progress

variable {w : Setting} {claims : Claims} {session : Session} {touched gone : Set Entry} {dao : Dao}

/-- At the start nothing is touched. -/
theorem start (w : Setting) : Progress w [] ⟨w.start, w.start⟩ ∅ ∅ where
  leaves := w.leaves_start
  saved := rfl
  gone_subset := Set.Subset.rfl
  touched_subset := Set.empty_subset _
  claimed := by simp
  leaf := by simp

/-- The fresh rows of a level are the ones that nobody has touched. -/
theorem mem_freshRows (h : Progress w claims session touched gone) (hdao : dao ∈ w.daos)
    (hid : w.Identifies dao) {rows : List Row}
    (hrows : ∀ row ∈ rows, ⟨dao.tableName, row⟩ ∈ w.live \ gone) {row : Row} :
    row ∈ dao.freshRows claims rows ↔ row ∈ rows ∧ ⟨dao.tableName, row⟩ ∉ touched := by
  have hclaimed : ∀ row ∈ rows, (dao.claimOf row ∈ claims ↔ ⟨dao.tableName, row⟩ ∈ touched) :=
    fun row hrow => h.claimed dao hdao row (hrows row hrow).1 (hrows row hrow).2
  constructor
  · intro hfresh
    have hrow := (dao.freshRows_sublist claims rows).mem hfresh
    refine ⟨hrow, fun htouched => ?_⟩
    exact dao.claimOf_notMem_of_mem_freshRows hfresh ((hclaimed row hrow).2 htouched)
  · rintro ⟨hrow, hnot⟩
    obtain ⟨other, hother, heq⟩ :=
      dao.exists_mem_freshRows hrow fun hmem => hnot ((hclaimed row hrow).1 hmem)
    have hmem := (dao.freshRows_sublist claims rows).mem hother
    have hsame := hid.rowKey_inj (hrows other hmem).1 (hrows row hrow).1 (Prod.mk.inj heq).2
    rwa [hsame] at hother

/-- The entries of the fresh rows of a level are the entries that it touches first. -/
theorem entries_freshRows (h : Progress w claims session touched gone) (hdao : dao ∈ w.daos)
    (hid : w.Identifies dao) {rows : List Row}
    (hrows : ∀ row ∈ rows, ⟨dao.tableName, row⟩ ∈ w.live \ gone) :
    Setting.entries dao.tableName (dao.freshRows claims rows) =
      Setting.entries dao.tableName rows \ touched := by
  ext ⟨table, row⟩
  constructor
  · rintro ⟨rfl, hrow⟩
    obtain ⟨hmem, hnot⟩ := (h.mem_freshRows hdao hid hrows).1 hrow
    exact ⟨⟨rfl, hmem⟩, hnot⟩
  · rintro ⟨⟨htable, hrow⟩, hnot⟩
    obtain rfl : table = dao.tableName := htable
    exact ⟨rfl, (h.mem_freshRows hdao hid hrows).2 ⟨hrow, hnot⟩⟩

/-- Claiming rows touches them. -/
theorem claim (hw : w.WellFormed) (h : Progress w claims session touched gone)
    (hdao : dao ∈ w.daos) (hdeps : w.dependents dao.tableName ≠ []) {rows : List Row}
    (hrows : ∀ row ∈ rows, ⟨dao.tableName, row⟩ ∈ w.live \ gone) :
    Progress w (dao.claimsAfter claims rows) session
      (touched ∪ Setting.entries dao.tableName rows) gone where
  leaves := h.leaves
  saved := h.saved
  gone_subset := h.gone_subset.trans Set.subset_union_left
  touched_subset := by
    refine Set.union_subset h.touched_subset ?_
    rintro ⟨table, row⟩ ⟨rfl, hrow⟩
    exact (hrows row hrow).1
  claimed dao' hdao' row hlive hgone := by
    rw [Dao.mem_claimsAfter, h.claimed dao' hdao' row hlive hgone, Set.mem_union]
    have hid := hw.identifies dao hdao hdeps
    refine or_congr_right' fun hnot => ?_
    constructor
    · rintro ⟨other, hother, heq⟩
      obtain ⟨hmem, -⟩ := (h.mem_freshRows hdao hid hrows).1 hother
      obtain ⟨rfl, rfl⟩ := hw.claimOf_inj hdao hid (hrows other hmem).1 hdao' hlive heq
      exact ⟨rfl, hmem⟩
    · rintro ⟨htable, hrow⟩
      obtain rfl := hw.dao_eq hdao' hdao htable
      exact ⟨row, (h.mem_freshRows hdao hid hrows).2 ⟨hrow, hnot⟩, rfl⟩
  leaf := by
    rintro x (hx | ⟨htable, -⟩) hnone
    · exact h.leaf x hx hnone
    · rw [htable] at hnone
      exact absurd hnone hdeps

/-- Deleting the rows of a query touches and removes them. -/
theorem delete (h : Progress w claims session touched gone) (hdao : dao ∈ w.daos) {q : Query}
    {store : Store} (hstore : w.Leaves (gone ∪ w.hits dao q) store) :
    Progress w claims { session with current := store } (touched ∪ w.hits dao q)
      (gone ∪ w.hits dao q) where
  leaves := hstore
  saved := h.saved
  gone_subset := Set.union_subset_union_left _ h.gone_subset
  touched_subset := Set.union_subset h.touched_subset (Setting.hits_subset_live hdao q)
  claimed dao' hdao' row hlive hgone := by
    rw [Set.mem_union, not_or] at hgone
    rw [h.claimed dao' hdao' row hlive hgone.1, Set.mem_union, or_iff_left hgone.2]
  leaf := by
    rintro x (hx | hx) hnone
    · exact .inl (h.leaf x hx hnone)
    · exact .inr hx

end Progress

end Persistence
