import Persistence.Proofs.Cascade.Opened
import Persistence.Proofs.Cascade.Preview

/-!
# What a refused delete lists

A delete that is refused lists rows of dependent tables, and the delete with force lists those that
it removes.  Both come from the same start, so the first list is what the second one foretells.  It
is all of it where no level below the first one refuses, and that can be seen in the store: a delete
is shallow if the rows that refer to the selected ones have no dependents of their own.

The argument for shallow deletes goes two levels down.  On the second level below the first all rows
have been touched, so nothing is done there; a level whose dependents do nothing succeeds; and a
first level whose dependents succeed has seen all of their rows when it refuses.

Main results:

- `Dao.run_deleteLevel_idle`, `Dao.run_deleteLevel_succeeds`, `Dao.run_deleteLevel_shallow`: the three
  levels of a shallow delete.
- `Dao.deleteQuery_relations_eq_iff`: the lists of the refused delete and of the forced one.
-/

namespace Persistence

section Runs

variable {σ δ : Type} {driver : Driver δ} {session : δ → Session} {w : Setting} {s : State} {d : δ}
  {claims : Claims} {dao : Dao}

/-! ## Dependents that succeed -/

/-- Without rows there is nothing to remove in dependents. -/
theorem removeDependents_nil (step : CascadeStep) (deps : List Dependent) :
    removeDependents step [] deps = pure ⟨true, []⟩ := by
  induction deps with
  | nil => rfl
  | cons dep deps ih => rw [removeDependents_of_references_eq_nil step rfl, ih]

/-- The deletes of some dependents of some rows have results with `P`, whatever they touch when
`touched` has been touched. -/
def DependentsYield (driver : Driver δ) (session : δ → Session) (w : Setting) (s : State)
    (bound : Nat) (step : CascadeStep) (rows : List Row) (touched : Set Entry)
    (P : DeleteResult → Prop) (deps : List Dependent) : Prop :=
  ∀ dep ∈ deps, ∀ dao ∈ w.daos, dao.tableName = dep.table → ∀ claims d touched' gone,
    Progress w claims (session d) touched' gone → touched ⊆ touched' →
      w.untouched touched' < bound → ∃ r claims' d',
        (step (.dao dao) (scopeQuery dep.property (dep.references rows))).run driver claims s d =
          ((.ok r, claims'), s, d') ∧ P r

/-- If the delete of every dependent succeeds, the removals are complete, and their relations are
the counts of the results. -/
theorem run_removeDependents_complete (hs : s.Serves w) {force : Bool} {bound : Nat}
    {step : CascadeStep} (hstep : Cascades driver session w s force bound step) {table : String}
    {rows : List Row} {touched gone : Set Entry} {P : DeleteResult → Prop}
    (hP : ∀ r, P r → r.success = true) {deps : List Dependent}
    (hdeps : ∀ dep ∈ deps, dep ∈ w.dependents table)
    (hbound : rows ≠ [] → w.untouched touched < bound)
    (hyield : DependentsYield driver session w s bound step rows touched P deps)
    {touched' : Set Entry} (h : Progress w claims (session d) touched' gone)
    (hsub : touched ⊆ touched') :
    ∃ r claims' d', (removeDependents step rows deps).run driver claims s d =
        ((.ok r, claims'), s, d') ∧ r.complete = true ∧
      (∃ touched gone, Progress w claims' (session d') touched gone) ∧
      ∀ c ∈ r.relations, ∃ (dep : Dependent) (r' : DeleteResult), P r' ∧ c ∈ dep.counts r' := by
  induction deps generalizing claims d touched' gone with
  | nil => exact ⟨⟨true, []⟩, claims, d, rfl, rfl, ⟨_, _, h⟩, List.forall_mem_nil _⟩
  | cons dep deps ih =>
      obtain ⟨hdep, hrest⟩ := List.forall_mem_cons.1 hdeps
      obtain ⟨hfirst, hothers⟩ := List.forall_mem_cons.1 hyield
      by_cases hnone : dep.references rows = []
      · rw [removeDependents_of_references_eq_nil step hnone]
        exact ih hrest hothers h hsub
      · have hrows : rows ≠ [] := by
          rintro rfl
          exact hnone rfl
        have hless := (Setting.untouched_anti (w := w) hsub).trans_lt (hbound hrows)
        obtain ⟨dao, hdao, htable, hlookup⟩ := hs.deletes table dep hdep
        obtain ⟨r, claims₁, d₁, hrun, hr⟩ :=
          hfirst dao hdao htable claims d touched' gone h hsub hless
        obtain ⟨r', claims₂, d₂, hrun₂, hout⟩ := hstep dao hdao _
          (plain_scopeQuery dep.property (dep.references rows)) claims d touched' gone h hless
        rw [hrun] at hrun₂
        cases hrun₂
        cases hout with
        | refused hfail _ _ _ _ => simp [hP r hr] at hfail
        | deleted hsuccess hprogress hdeleted =>
            obtain ⟨rest, claims₃, d₃, hrun₃, hcomplete, hafter, hrelations⟩ :=
              ih hrest hothers hprogress (hsub.trans hdeleted.spread.touched_subset)
            rw [run_removeDependents_of_success hnone hlookup hrun hsuccess,
              Task.run_bind_of_ok hrun₃]
            refine ⟨_, claims₃, d₃, rfl, hcomplete, hafter, ?_⟩
            intro c hc
            rcases List.mem_append.1 hc with hc | hc
            · exact ⟨dep, r, hr, hc⟩
            · exact hrelations c hc

/-- What the query of a dependent selects refers to the rows. -/
theorem Setting.refers_of_mem_hits (hw : w.WellFormed) (hdao : dao ∈ w.daos) {dep : Dependent}
    (htable : dao.tableName = dep.table) {table : String} (hdep : dep ∈ w.dependents table)
    {rows : List Row} {y : Entry}
    (hy : y ∈ w.hits dao (scopeQuery dep.property (dep.references rows))) :
    y ∈ w.live ∧ ∃ x ∈ Setting.entries table rows, w.Refers y x := by
  rw [Setting.mem_hits_references hw hdao htable] at hy
  obtain ⟨hlive, x, hx, href⟩ := hy
  refine ⟨hlive, x, hx, dep, ?_, href⟩
  rw [hx.1]
  exact hdep

/-- The rows that are hit first are referred to by rows that are hit or touched. -/
def Setting.Enclosed (w : Setting) (touched hit : Set Entry) : Prop :=
  ∀ x ∈ hit \ touched, ∀ y ∈ w.live, w.Refers y x → y ∈ touched ∪ hit

/-- A row that refers to a row of a set, but is not in it, is referred to by rows of the set and by
itself only: the rows have dependents, but these have none of their own. -/
def Shallow (live : Set Entry) (refers : Entry → Entry → Prop) (hits : Set Entry) : Prop :=
  ∀ x ∈ live, x ∉ hits → (∃ z ∈ hits, refers x z) → ∀ y ∈ live, refers y x → y ∈ hits ∨ y = x

/-- Where a delete is shallow, the rows that refer to the selected ones are enclosed. -/
theorem Shallow.enclosed {hits : Set Entry} (hshallow : Shallow w.live w.Refers hits)
    (hw : w.WellFormed) (hdao : dao ∈ w.daos) {dep : Dependent} (htable : dao.tableName = dep.table)
    {table : String} (hdep : dep ∈ w.dependents table) {rows : List Row}
    (hrows : Setting.entries table rows = hits) {touched gone : Set Entry} (hsub : hits ⊆ touched) :
    w.Enclosed touched (w.hits dao (scopeQuery dep.property (dep.references rows)) \ gone) := by
  rintro x ⟨⟨hx, hgone⟩, hnew⟩ y hy href
  obtain ⟨hlive, z, hz, hrefers⟩ := Setting.refers_of_mem_hits hw hdao htable hdep hx
  rw [hrows] at hz
  rcases hshallow x hlive (fun hmem => hnew (hsub hmem)) ⟨z, hz, hrefers⟩ y hy href with hmem | rfl
  · exact .inl (hsub hmem)
  · exact .inr ⟨hx, hgone⟩

/-- The own deletes of a level list alike with force and without. -/
theorem Dao.relations_deleteRows (dao : Dao) {q : Query} {relations : List RelationCount}
    {tx : Context} {u f : DeleteResult} {claims₁ claims₂ : Claims} {d₁ d₂ : δ}
    (hu : (dao.deleteRows q false relations tx).run driver claims s d = ((.ok u, claims₁), s, d₁))
    (hf : (dao.deleteRows q true relations tx).run driver claims s d = ((.ok f, claims₂), s, d₂)) :
    u.relations = f.relations := by
  rw [(dao.deleteRows_yields q false relations tx).run hu,
    (dao.deleteRows_yields q true relations tx).run hf]

/-! ## Levels of a shallow delete -/

section Levels

variable {tx : Context} {conn : Nat} {q : Query} {touched gone : Set Entry} (hw : w.WellFormed)
  (hdriver : AnswersAsStore w.collation driver session) (hs : s.Serves w)
  (hconn : s.connection? tx = some conn)

include hw hdriver hconn

/-- The delete of rows that have gone does nothing. -/
theorem Dao.run_deleteRows_idle (hdao : dao ∈ w.daos) (hq : q.Plain)
    (h : Progress w claims (session d) touched gone) (force : Bool) (hgone : w.hits dao q ⊆ gone) :
    ∃ d', (dao.deleteRows q force [] tx).run driver claims s d =
      ((.ok ⟨true, 0, []⟩, claims), s, d') := by
  obtain ⟨n, d', hcount, hrun⟩ := run_deleteRows hw hdriver hconn hdao hq h force []
  rw [Set.union_eq_self_of_subset_right hgone] at hcount
  obtain rfl : n = 0 := by omega
  rw [if_neg (by simp)] at hrun
  exact ⟨d', hrun.1⟩

include hs

/-- A level whose rows have all been touched does nothing. -/
theorem Dao.run_deleteLevel_idle (step : CascadeStep) (hdao : dao ∈ w.daos) (hq : q.Plain)
    (h : Progress w claims (session d) touched gone) (force : Bool)
    (htouched : w.hits dao q \ gone ⊆ touched) :
    ∃ claims' d', (dao.deleteLevel step q force tx).run driver claims s d =
      ((.ok ⟨true, 0, []⟩, claims'), s, d') := by
  by_cases hleaf : w.dependents dao.tableName = []
  · have hgone : w.hits dao q ⊆ gone := by
      intro x hx
      by_contra hnot
      refine hnot (h.leaf x (htouched ⟨hx, hnot⟩) ?_)
      rw [hx.1]
      exact hleaf
    obtain ⟨d', hrun⟩ := run_deleteRows_idle hw hdriver hconn hdao hq h force hgone
    rw [run_deleteLevel_of_leaf hs hleaf, hrun]
    exact ⟨claims, d', rfl⟩
  · cases starts hw hdriver hs hconn hdao hleaf hq h with
    | left hrun _ _ => exact ⟨_, _, hrun step force⟩
    | @found rows q' _ _ hrun hclaim hrows hplain _ hwiden hnew =>
        rw [Set.sdiff_eq_empty.2 htouched, Setting.entries_eq_empty] at hrows
        subst hrows
        have hgone : w.hits dao q' ⊆ gone :=
          hwiden.trans (Set.sdiff_eq_empty.1 (hnew.resolve_right (fun hne => hne rfl)))
        obtain ⟨d', hdone⟩ := run_deleteRows_idle hw hdriver hconn hdao hplain hclaim force hgone
        rw [hrun step force, removeDependents_nil, Task.run_bind_of_ok (Task.run_pure _),
          afterRemoval, if_pos rfl, hdone]
        exact ⟨_, d', rfl⟩

/-- Where new rows are enclosed, the deletes of their dependents do nothing. -/
theorem dependentsYield_idle {table : String} {rows : List Row} {hit : Set Entry} {levels : Nat}
    (force : Bool) (hrows : Setting.entries table rows = hit \ touched)
    (henclosed : w.Enclosed touched hit) :
    DependentsYield driver session w s levels
      (fun delete q => delete.cascade levels q force (some tx)) rows (touched ∪ hit)
      (· = ⟨true, 0, []⟩) (w.dependents table) := by
  intro dep hdep dao hdao htable claims d touched' gone h hsub hless
  obtain ⟨levels, rfl⟩ : ∃ n, levels = n + 1 := ⟨levels - 1, by omega⟩
  have htouched : w.hits dao (scopeQuery dep.property (dep.references rows)) \ gone ⊆ touched' := by
    rintro y ⟨hy, -⟩
    obtain ⟨hlive, x, hx, href⟩ := Setting.refers_of_mem_hits hw hdao htable hdep hy
    rw [hrows] at hx
    exact hsub (henclosed x hx y hlive href)
  simp only [DeleteOperation.cascade, transaction_some]
  obtain ⟨claims', d', hrun⟩ := Dao.run_deleteLevel_idle hw hdriver hs hconn
    (fun delete q => delete.cascade levels q force (some tx)) hdao
    (plain_scopeQuery dep.property (dep.references rows)) h force htouched
  exact ⟨_, claims', d', hrun, rfl⟩

/-- A level that is not forced succeeds if its new rows are enclosed. -/
theorem Dao.run_deleteLevel_succeeds {levels : Nat} (hdao : dao ∈ w.daos) (hq : q.Plain)
    (h : Progress w claims (session d) touched gone) (hbound : w.untouched touched ≤ levels)
    (henclosed : w.Enclosed touched (w.hits dao q \ gone)) :
    ∃ r claims' d', (dao.deleteLevel (fun delete q => delete.cascade levels q false (some tx)) q false
      tx).run driver claims s d = ((.ok r, claims'), s, d') ∧ r.success = true := by
  by_cases hleaf : w.dependents dao.tableName = []
  · obtain ⟨n, d', -, hrun⟩ := run_deleteRows hw hdriver hconn hdao hq h false []
    rw [if_neg (by simp)] at hrun
    rw [run_deleteLevel_of_leaf hs hleaf, hrun.1]
    exact ⟨_, _, d', rfl, rfl⟩
  · cases starts hw hdriver hs hconn hdao hleaf hq h with
    | left hrun _ _ => exact ⟨_, _, _, hrun _ false, rfl⟩
    | @found rows q' claims₁ d₁ hrun hclaim hrows hplain _ _ _ =>
        obtain ⟨removal, claims₂, d₂, hremove, hcomplete, ⟨touched₂, gone₂, hprogress⟩, hcounts⟩ :=
          run_removeDependents_complete hs
            (DeleteOperation.run_cascade hw hdriver hs hconn false levels) (fun r hr => by rw [hr])
            (fun _ hdep => hdep) (untouched_claimed_lt hdao hrows hbound)
            (dependentsYield_idle hw hdriver hs hconn false hrows henclosed) hclaim subset_rfl
        have hnone : removal.relations = [] := by
          rw [List.eq_nil_iff_forall_not_mem]
          intro c hc
          obtain ⟨dep, r, rfl, hc⟩ := hcounts c hc
          simp [Dependent.counts] at hc
        obtain ⟨n, d₃, -, hdelete⟩ := run_deleteRows hw hdriver hconn hdao hplain hprogress false []
        rw [if_neg (by simp)] at hdelete
        rw [hrun, Task.run_bind_of_ok hremove, afterRemoval, if_pos hcomplete, hnone, hdelete.1]
        exact ⟨_, claims₂, d₃, rfl, rfl⟩

/-- Where a delete is shallow, the deletes of the dependents of the selected rows succeed. -/
theorem dependentsYield_success {table : String} {rows : List Row} {hits : Set Entry} {levels : Nat}
    (hrows : Setting.entries table rows = hits) (hshallow : Shallow w.live w.Refers hits) :
    DependentsYield driver session w s levels
      (fun delete q => delete.cascade levels q false (some tx)) rows hits (·.success = true)
      (w.dependents table) := by
  intro dep hdep dao hdao htable claims d touched' gone h hsub hless
  obtain ⟨levels, rfl⟩ : ∃ n, levels = n + 1 := ⟨levels - 1, by omega⟩
  simp only [DeleteOperation.cascade, transaction_some]
  exact Dao.run_deleteLevel_succeeds hw hdriver hs hconn hdao
    (plain_scopeQuery dep.property (dep.references rows)) h (Nat.le_of_lt_succ hless)
    (hshallow.enclosed hw hdao htable hdep hrows hsub)

/-- A first level that is shallow lists what the forced one does. -/
theorem Dao.run_deleteLevel_shallow {levels : Nat} (hdao : dao ∈ w.daos) (hq : q.Plain)
    (h : Progress w claims (session d) ∅ ∅) (hbound : w.untouched ∅ ≤ levels)
    (hshallow : Shallow w.live w.Refers (w.hits dao q)) {u f : DeleteResult}
    {claims₁ claims₂ : Claims} {d₁ d₂ : δ}
    (hu : (dao.deleteLevel (fun delete q => delete.cascade levels q false (some tx)) q false tx).run
      driver claims s d = ((.ok u, claims₁), s, d₁))
    (hf : (dao.deleteLevel (fun delete q => delete.cascade levels q true (some tx)) q true tx).run
      driver claims s d = ((.ok f, claims₂), s, d₂)) :
    u.relations = f.relations := by
  by_cases hleaf : w.dependents dao.tableName = []
  · rw [run_deleteLevel_of_leaf hs hleaf] at hu hf
    exact dao.relations_deleteRows hu hf
  cases starts hw hdriver hs hconn hdao hleaf hq h with
  | left hrun _ _ =>
      rw [hrun] at hu hf
      cases hu
      cases hf
      rfl
  | @found rows q' claims₁ d₁ hrun hclaim hrows hplain _ _ _ =>
      have hless := untouched_claimed_lt hdao hrows hbound
      rw [Set.sdiff_empty, Set.sdiff_empty] at hrows
      rw [Set.sdiff_empty, Set.empty_union] at hclaim hless
      have hunforced := DeleteOperation.run_cascade hw hdriver hs hconn false levels
      obtain ⟨removal, claims₂, d₂, hremove, hcomplete, -⟩ :=
        run_removeDependents_complete hs hunforced (fun _ hr => hr) (fun _ hdep => hdep) hless
          (dependentsYield_success hw hdriver hs hconn hrows hshallow) hclaim subset_rfl
      rw [hrun] at hu hf
      cases run_removeDependents_preview hw hs hunforced
        (DeleteOperation.run_cascade hw hdriver hs hconn true levels)
        (fun delete q => delete.cascade_yields levels q true tx)
        (DeleteOperation.run_cascade_preview hw hdriver hs hconn levels) dao.tableName
        (w.dependents dao.tableName) (fun _ hdep => hdep) hclaim hless with
      | cut hcut _ _ =>
          -- complete removals are not cut
          rw [hremove] at hcut
          cases hcut
          cases hcomplete
      | same hfirst _ hsecond =>
          rw [hremove] at hfirst
          cases hfirst
          rw [Task.run_bind_of_ok hremove, afterRemoval, if_pos hcomplete] at hu
          rw [Task.run_bind_of_ok hsecond, afterRemoval, if_pos hcomplete] at hf
          exact dao.relations_deleteRows hu hf

end Levels

/-! ## Deletes -/

/-- A delete in a transaction of its own, behind which there is a store, previews the forced one, and
lists what it does if it is shallow. -/
theorem Dao.run_deleteQuery_preview {l : σ} {pool : Nat} (hw : w.WellFormed)
    (hdriver : AnswersAsStore w.collation driver session) (hs : s.Serves w)
    (hpool : s.pool = .open pool) (hstart : (session d).current = w.start) (hdao : dao ∈ w.daos)
    {q : Query} (hq : q.Plain) {levels : Nat} (hlevels : w.live.ncard < levels) :
    ∃ u f s' d₁ d₂, (dao.deleteQuery levels q false none).run driver l s d = ((.ok u, l), s', d₁) ∧
      (dao.deleteQuery levels q true none).run driver l s d = ((.ok f, l), s', d₂) ∧
      ((u.success = true ∧ f = u) ∨ Foretells u f) ∧
      (Shallow w.live w.Refers (w.hits dao q) → u.relations = f.relations) := by
  obtain ⟨levels, rfl⟩ : ∃ n, levels = n + 1 := ⟨levels - 1, by omega⟩
  obtain ⟨conn, d', hd', hquery⟩ :=
    Dao.run_deleteQuery_of_level (l := l) (d := d) hdriver hpool dao q levels
  have hserves : (s.addContext conn).Serves w := ⟨hs.dependents, hs.deletes⟩
  have hconn := s.connection?_addContext conn
  have hprogress : Progress w [] (session d') ∅ ∅ := by
    rw [hd', Session.settled, hstart]
    exact Progress.start w
  have huntouched : w.untouched ∅ ≤ levels := by
    rw [Setting.untouched, Set.sdiff_empty]
    exact Nat.le_of_lt_succ hlevels
  cases Dao.run_deleteLevel_preview hw hserves
    (DeleteOperation.run_cascade hw hdriver hserves hconn false levels)
    (DeleteOperation.run_cascade hw hdriver hserves hconn true levels)
    (fun delete q => delete.cascade_yields levels q true _)
    (DeleteOperation.run_cascade_preview hw hdriver hserves hconn levels) hdriver hconn hdao hq
    hprogress huntouched with
  | @same u claims₁ d₁ hrun hsuccess hrun' =>
      obtain ⟨d₂, hdelete, -⟩ := hquery false u claims₁ d₁ hrun
      obtain ⟨d₃, hdelete', -⟩ := hquery true u claims₁ d₁ hrun'
      exact ⟨u, u, _, d₂, d₃, hdelete, hdelete', .inl ⟨hsuccess, rfl⟩, fun _ => rfl⟩
  | @refused u f claims₁ claims₂ d₁ d₂ hrun hrun' hforetells =>
      obtain ⟨d₃, hdelete, -⟩ := hquery false u claims₁ d₁ hrun
      obtain ⟨d₄, hdelete', -⟩ := hquery true f claims₂ d₂ hrun'
      exact ⟨u, f, _, d₃, d₄, hdelete, hdelete', .inr hforetells, fun hshallow =>
        Dao.run_deleteLevel_shallow hw hdriver hserves hconn hdao hq hprogress huntouched hshallow
          hrun hrun'⟩

section Opened

variable {k : Collation} {es : List (Entity × Codec)} {daos : List Dao} {l : σ} {pool levels : Nat}
  {q : Query}

/-- What a refused delete lists, over entity types opened in any order, behind which there is a
store.  Of what the forced delete would list nothing is listed in another place or with another
count; it is all listed exactly if no count is zero and the counts add up to as much; and this is
so if the rows that refer to the selected ones have no dependents but themselves and the selected
ones.  A delete that is not refused is the forced one. -/
theorem Dao.deleteQuery_relations_eq_iff (hopened : Opened es daos s)
    (hall : DeclaredTogether (es.map Prod.fst)) (hdao : dao ∈ daos) (hq : q.Plain)
    (hstore : StandsBehind (es.map Prod.fst) dao q driver session k)
    (hkeys : KeysIdentify k (es.map Prod.fst) (session d).current) (hpool : s.pool = .open pool)
    (hlevels : (liveEntries k (es.map Prod.fst) (session d).current).ncard < levels) :
    ∃ u f s' d₁ d₂, (dao.deleteQuery levels q false none).run driver l s d = ((.ok u, l), s', d₁) ∧
      (dao.deleteQuery levels q true none).run driver l s d = ((.ok f, l), s', d₂) ∧
      f.success = true ∧ (u.success = true → f = u) ∧
      (u.success = false →
        (u.relations.filter fun c => 0 < c.count).Sublist f.relations ∧
        (u.relations = f.relations ↔
          Counted u.relations ∧ u.relationCount = f.relationCount) ∧
        (Shallow (liveEntries k (es.map Prod.fst) (session d).current)
            (CascadeRefers k (es.map Prod.fst)) (dao.selected k q (session d).current) →
          u.relations = f.relations)) := by
  have hwell := hopened.openedWell hall
  obtain ⟨δ', driver', session', enter, hdriver, hsession, hback⟩ :=
    hwell.exists_store hall hdao hq hstore
  rw [← hsession] at hkeys hlevels ⊢
  have hlive := hwell.live_setting k (session' (enter d)).current
  have hrefers := hwell.refers_setting hall k (session' (enter d)).current
  rw [← hlive] at hlevels
  obtain ⟨u, f, s', x, y, hrun, hrun', hpreview, hshallow⟩ :=
    Dao.run_deleteQuery_preview (l := l) (hwell.wellFormed hall hkeys) hdriver
      (hwell.serves hall k (session' (enter d)).current) hpool rfl hdao hq hlevels
  obtain ⟨d₁, hrun, -⟩ := hback hrun
  obtain ⟨d₂, hrun', -⟩ := hback hrun'
  rw [hlive, hrefers] at hshallow
  refine ⟨u, f, s', d₁, d₂, hrun, hrun', ?_, ?_, ?_⟩
  · rcases hpreview with ⟨hsuccess, rfl⟩ | hforetells
    · exact hsuccess
    · exact hforetells.success.2
  · intro hsuccess
    rcases hpreview with ⟨-, hsame⟩ | hforetells
    · exact hsame
    · simp [hforetells.success.1] at hsuccess
  · intro hrefused
    rcases hpreview with ⟨hsuccess, -⟩ | hforetells
    · simp [hrefused] at hsuccess
    · rw [u.relationCount_eq, f.relationCount_eq]
      exact ⟨hforetells.sublist, hforetells.relations_eq_iff, hshallow⟩

end Opened

end Runs

/-- In the ring the rows that refer to the first one have no dependents but it. -/
theorem Ring.shallow {dao : Dao} (hdao : IsDaoOf entity dao) :
    Shallow (liveEntries .scalar [entity] store) (CascadeRefers .scalar [entity])
      (dao.selected .scalar (Query.empty.eq "id" (.int 1)) store) := by
  have hfirst : entry 1 2 ∈ dao.selected .scalar (Query.empty.eq "id" (.int 1)) store :=
    (mem_selected hdao 1).2 ⟨mem_live.2 (.inl rfl), by decide⟩
  rintro x hx hnot - y hy href
  have hequal := refers href
  rcases mem_live.1 hy with rfl | rfl | rfl
  · exact .inl hfirst
  · rcases mem_live.1 hx with rfl | rfl | rfl
    · exact absurd hfirst hnot
    · exact .inr rfl
    · exact absurd hequal (by decide)
  · rcases mem_live.1 hx with rfl | rfl | rfl
    · exact absurd hfirst hnot
    · exact absurd hequal (by decide)
    · exact .inr rfl

/-- The first row of the ring is not all that it reaches. -/
theorem Ring.reached_one_ne {dao : Dao} (hdao : IsDaoOf entity dao) :
    dao.reached .scalar [entity] (Query.empty.eq "id" (.int 1)) store ≠
      dao.selected .scalar (Query.empty.eq "id" (.int 1)) store := by
  rw [reached_one Collation.isNumeric_scalar hdao]
  intro heq
  have hmem : entry 2 1 ∈ dao.selected .scalar (Query.empty.eq "id" (.int 1)) store :=
    heq ▸ .inr rfl
  exact absurd ((mem_selected hdao 1).1 hmem).2 (by decide)

/-- Of the ring, a refused delete of the first row lists what the forced one removes. -/
theorem Dao.deleteQuery_relations_ring : ∃ dao s, Opened [(Ring.entity, .any)] [dao] s ∧
    ∃ u f s' d₁ d₂, (dao.deleteQuery 4 (Query.empty.eq "id" (.int 1)) false none).run
        (Store.driver .scalar) () s Ring.session = ((.ok u, ()), s', d₁) ∧
      (dao.deleteQuery 4 (Query.empty.eq "id" (.int 1)) true none).run
        (Store.driver .scalar) () s Ring.session = ((.ok f, ()), s', d₂) ∧
      u.success = false ∧ u.relations = f.relations := by
  obtain ⟨dao, s, hopened, hof, hpool⟩ := Ring.exists_opened
  obtain ⟨u, f, s', d₁, d₂, hrun, hrun', -, -, hrefused⟩ :=
    Dao.deleteQuery_relations_eq_iff (l := ()) (d := Ring.session) hopened Ring.declared
      (List.mem_singleton_self dao) (Query.plain_empty.eq "id" (.int 1))
      (.scopes (Store.driver_answersAsStore .scalar))
      (Ring.keysIdentify Collation.isNumeric_scalar) hpool Ring.ncard_live
  obtain ⟨r, s₁, d₃, hsame, hverdict, -⟩ :=
    dao.run_deleteQuery_opened (l := ()) (d := Ring.session) hopened Ring.declared
      (List.mem_singleton_self dao) (Query.plain_empty.eq "id" (.int 1))
      (.scopes (Store.driver_answersAsStore .scalar))
      (Ring.keysIdentify Collation.isNumeric_scalar) hpool false Ring.ncard_live
  rw [hrun] at hsame
  cases hsame
  have hfail : u.success = false := by
    rw [Bool.eq_false_iff, ne_eq, hverdict.success]
    rintro (hforce | heq)
    · cases hforce
    · exact Ring.reached_one_ne hof heq
  exact ⟨dao, s, hopened, u, f, s', d₁, d₂, hrun, hrun', hfail,
    (hrefused hfail).2.2 (Ring.shallow hof)⟩

/-! ## A chain of rows -/

namespace Chain

/-- The first row of the chain refers to none. -/
def root : Row := [("id", Json.ofInt 1), ("parent_id", .null)]

/-- Four rows, each of which but the first refers to the one before. -/
def store : Store := fun table =>
  if table = "category" then [root, Ring.row 2 1, Ring.row 3 2, Ring.row 4 3] else []

/-- The session with the rows. -/
def session : Session := ⟨store, store⟩

/-- The opening of the entity type over the rows. -/
def opening : (Except DbError (Option Dao) × Unit) × State × Session :=
  (openDao Ring.entity .any : Task Unit (Option Dao)).run (Store.driver .scalar) ()
    { State.initial with pool := .open 0 } session

/-- The state behind it. -/
def state : State := opening.2.1

/-- The table of the entity type. -/
def table : Table :=
  (Table.ofEntity? Ring.entity (Catalog.empty.withEntity Ring.entity).entity?).get rfl

/-- The access object of the entity type. -/
def dao : Dao := Dao.ofEntity Ring.entity table .any

theorem opened : Opened [(Ring.entity, .any)] [dao] state := by
  have hrun : (openDao Ring.entity .any : Task Unit (Option Dao)).run (Store.driver .scalar) ()
      { State.initial with pool := .open 0 } session = ((.ok (some dao), ()), state, session) := rfl
  exact Opened.openDao (Opened.start rfl rfl) hrun

theorem mem_live {x : Entry} (hx : x ∈ liveEntries .scalar [Ring.entity] store) :
    x.row = root ∨ x.row = Ring.row 2 1 ∨ x.row = Ring.row 3 2 ∨ x.row = Ring.row 4 3 := by
  obtain ⟨e, he, htable, hrow, -⟩ := hx
  obtain rfl := List.mem_singleton.1 he
  obtain ⟨table, row⟩ := x
  obtain rfl : "category" = table := Option.some.inj htable
  simpa [store] using hrow

theorem keysIdentify : KeysIdentify .scalar [Ring.entity] store where
  self e he _ p c hpc table htable row hrow := by
    obtain rfl := List.mem_singleton.1 he
    rw [Ring.name_of_primaryKey hpc]
    rcases mem_live hrow with rfl | rfl | rfl | rfl <;> decide
  unique e he _ p c hpc table htable row other hrow hother hequal := by
    obtain rfl := List.mem_singleton.1 he
    rw [Ring.name_of_primaryKey hpc] at hequal
    rcases mem_live hrow with rfl | rfl | rfl | rfl <;>
      rcases mem_live hother with rfl | rfl | rfl | rfl <;>
        first | rfl | exact absurd hequal (by decide)

/-- Whether a scope selects a row, computed at once where its query is one comparison. -/
def picks (scope : Scope) (row : Row) : Bool :=
  match scope.query.links with
  | [.condition (.compare .eq field v), .connector .and] =>
      scope.target.sees .scalar row &&
        Collation.scalar.equal (row.cell (scope.target.mapping.columnName field)) v
  | _ => scope.selects .scalar row

theorem picks_eq (scope : Scope) : picks scope = scope.selects .scalar := by
  funext row
  rw [picks]
  split
  · next field v hlinks =>
      rw [Scope.selects, Query.holds, hlinks]
      simp [truths, joinTruths, anyGroup, Condition.holds, Collation.equal]
      cases Collation.scalar.order (row.cell (scope.target.mapping.columnName field)) v <;>
        simp [Comparison.accepts]
  · rfl

/-- The answer of a session to a statement, computed. -/
def respond (s : Session) : Statement → Except DbError Output × Session
  | .rows scope => (.ok (Output.ofRows ((s.current scope.table).filter (picks scope))), s)
  | .remove scope =>
      (.ok (Output.affected ((s.current scope.table).filter (picks scope)).length),
        { s with current := fun table =>
            if table = scope.table then (s.current table).filter fun row => !picks scope row
            else s.current table })
  | statement => Store.respond .scalar s statement

theorem respond_eq (s : Session) (statement : Statement) :
    respond s statement = Store.respond .scalar s statement := by
  cases statement <;> simp only [respond, picks_eq] <;> rfl

/-- The driver made of a store, computed. -/
def driver : Driver Session where
  answer r s :=
    match r with
    | .query _ statement => respond s statement
    | r => Store.answer .scalar r s

theorem driver_eq : driver = Store.driver .scalar := by
  rw [driver, Store.driver]
  congr 1
  funext r s
  cases r <;> first | rfl | exact respond_eq s _

/-- The result of a delete of the first row.  Without force the third row refuses, since the fourth
depends on it, and the second one is stopped. -/
def result (force : Bool) : DeleteResult :=
  if force then ⟨true, 1, [⟨"category", 1⟩, ⟨"category", 1⟩, ⟨"category", 1⟩]⟩
  else ⟨false, 0, [⟨"category", 0⟩, ⟨"category", 1⟩, ⟨"category", 1⟩]⟩

theorem run_delete (force : Bool) : ∃ c,
    (dao.deleteQuery 5 (Query.empty.eq "id" (.int 1)) force none).run (Store.driver .scalar) ()
      state session = ((.ok (result force), ()), c) := by
  have hresult : ((dao.deleteQuery 5 (Query.empty.eq "id" (.int 1)) force none).run
      (Store.driver .scalar) () state session).1.1.toOption = some (result force) := by
    rw [← driver_eq]
    cases force <;> decide +kernel
  generalize Task.run (Store.driver .scalar) _ () state session = run at hresult ⊢
  obtain ⟨⟨outcome, _⟩, c⟩ := run
  cases outcome with
  | error e => cases hresult
  | ok r =>
      cases hresult
      exact ⟨c, rfl⟩

end Chain

/-- Of the chain, a refused delete of the first row does not list what the forced one removes: it
has no count for the second row. -/
theorem Dao.deleteQuery_relations_chain : ∃ dao s, Opened [(Ring.entity, .any)] [dao] s ∧
    DeclaredTogether [Ring.entity] ∧ AnswersAsStore .scalar (Store.driver .scalar) id ∧
    KeysIdentify .scalar [Ring.entity] Chain.store ∧ Chain.session.current = Chain.store ∧
    ∃ u f c c', (dao.deleteQuery 5 (Query.empty.eq "id" (.int 1)) false none).run
        (Store.driver .scalar) () s Chain.session = ((.ok u, ()), c) ∧
      (dao.deleteQuery 5 (Query.empty.eq "id" (.int 1)) true none).run
        (Store.driver .scalar) () s Chain.session = ((.ok f, ()), c') ∧
      u.success = false ∧ f.success = true ∧
      u.relations = [⟨"category", 0⟩, ⟨"category", 1⟩, ⟨"category", 1⟩] ∧
      f.relations = [⟨"category", 1⟩, ⟨"category", 1⟩, ⟨"category", 1⟩] := by
  obtain ⟨c, hrun⟩ := Chain.run_delete false
  obtain ⟨c', hrun'⟩ := Chain.run_delete true
  exact ⟨Chain.dao, Chain.state, Chain.opened, Ring.declared, Store.driver_answersAsStore .scalar,
    Chain.keysIdentify, rfl, _, _, c, c', hrun, hrun', rfl, rfl, rfl, rfl⟩

end Persistence
