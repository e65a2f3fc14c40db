import Persistence.Proofs.Cascade.Level

/-!
# Cascading deletes

A delete with its dependents, in a transaction of its own.  The rows that a query reaches are the
ones that it selects and every live row that refers to a row that is reached.  A forced delete
removes exactly those.  A delete that is not forced succeeds exactly if nothing but the selected
rows is reached, and changes nothing otherwise.

Main results:

- `Reached.subset_of_closed`: the rows that are reached are the least closed set.
- `Dao.run_deleteQuery`: both outcomes of a delete.
-/

namespace Persistence

/-! ## Reached rows -/

/-- The entries that are reached from some entries: themselves, and the live rows that refer to an
entry that is reached. -/
inductive Reached (live : Set Entry) (refers : Entry → Entry → Prop) (hits : Set Entry) :
    Entry → Prop
  | hit {x : Entry} : x ∈ hits → Reached live refers hits x
  | refers {x y : Entry} : Reached live refers hits x → y ∈ live → refers y x →
      Reached live refers hits y

/-- The set of entries that are reached from some entries. -/
def reachedSet (live : Set Entry) (refers : Entry → Entry → Prop) (hits : Set Entry) : Set Entry :=
  {x | Reached live refers hits x}

namespace Setting

variable {w : Setting} {hits : Set Entry}

/-- The entries that are reached from some entries in a setting. -/
def reached (w : Setting) (hits : Set Entry) : Set Entry := reachedSet w.live w.Refers hits

theorem subset_reached (w : Setting) (hits : Set Entry) : hits ⊆ w.reached hits :=
  fun _ hx => .hit hx

theorem closed_reached (w : Setting) (hits : Set Entry) : w.Closed (w.reached hits) :=
  fun _ hx _ hy href => .refers hx hy href

/-- The entries that are reached are in every closed set that has the given ones. -/
theorem reached_subset {entries : Set Entry} (hclosed : w.Closed entries) (h : hits ⊆ entries) :
    w.reached hits ⊆ entries := by
  intro x hx
  induction hx with
  | hit hx => exact h hx
  | refers _ hy href ih => exact hclosed _ ih _ hy href

end Setting

/-! ## Verdicts -/

/-- The verdict over a delete of the rows in `hits`, where `reached` is what is reached from them:
whether it succeeds, and what has gone from the store afterwards.  Without force it succeeds if
nothing but the rows themselves is reached. -/
structure Verdict (w : Setting) (force : Bool) (hits reached : Set Entry) (r : DeleteResult)
    (store : Store) : Prop where
  success : r.success = true ↔ force = true ∨ reached = hits
  leaves : r.success = true → w.Leaves reached store
  count : r.success = true → r.count + r.relationCount = w.count reached
  unforced : force = false → (r.success = true ↔ r.relations = [])
  refused : r.success = false → store = w.start

variable {δ : Type} {driver : Driver δ} {session : δ → Session} {w : Setting} {force : Bool}
  {hits : Set Entry} {r : DeleteResult} {claims : Claims} {store : Session}

theorem Setting.count_empty (w : Setting) : w.count ∅ = 0 := by
  rw [count, List.sum_eq_zero_iff]
  intro n hn
  obtain ⟨dao, -, rfl⟩ := List.mem_map.1 hn
  simp [List.countP_eq_zero]

/-- The outcome of a delete that starts a cascade is the verdict over it. -/
theorem Outcome.verdict (h : Outcome w force ∅ ∅ hits r claims store) :
    Verdict w force hits (w.reached hits) r store.current := by
  cases h with
  | @deleted touched gone hsuccess hprogress hdeleted =>
      have hsame : touched = gone := by
        refine Set.Subset.antisymm ?_ hprogress.gone_subset
        exact hdeleted.spread.fresh_subset.trans (Set.union_subset (Set.empty_subset _) subset_rfl)
      subst hsame
      have hclosed : w.Closed touched := fun x hx y hy href =>
        hdeleted.spread.referred x hx (Set.notMem_empty x) y hy href
      have hreached : touched = w.reached hits := by
        refine Set.Subset.antisymm ?_ (Setting.reached_subset hclosed hdeleted.hit_subset)
        have hsound := hdeleted.sound _ (w.closed_reached hits) (w.subset_reached hits)
        rwa [Set.empty_union] at hsound
      have hsuccess' : force = true ∨ w.reached hits = hits := by
        cases hforce : force with
        | true => exact .inl rfl
        | false =>
            have hback := (hdeleted.unforced hforce).2
            rw [Set.empty_union, hreached] at hback
            exact .inr (Set.Subset.antisymm hback (w.subset_reached hits))
      have hcount := hdeleted.count
      rw [Setting.count_empty, Nat.zero_add] at hcount
      refine ⟨iff_of_true hsuccess hsuccess', fun _ => ?_, fun _ => ?_, fun hforce => ?_, ?_⟩
      · rw [← hreached]
        exact hprogress.leaves
      · rw [← hreached, hcount]
      · exact iff_of_true hsuccess (hdeleted.unforced hforce).1
      · intro hfalse
        simp [hsuccess] at hfalse
  | refused hsuccess hforce hne hsession hbeyond =>
      obtain ⟨y, hnot, hy⟩ := hbeyond
      have hreached := hy _ (w.closed_reached hits) (w.subset_reached hits)
      have hmore : w.reached hits ≠ hits := by
        intro heq
        rw [heq] at hreached
        exact hnot (.inr hreached)
      refine ⟨?_, ?_, ?_, fun _ => ?_, fun _ => ?_⟩
      · simp [hsuccess, hforce, hmore]
      · simp [hsuccess]
      · simp [hsuccess]
      · simp [hsuccess, hne]
      · rw [hsession]

/-! ## Runs -/

/-- The state after a context was made and ended. -/
theorem State.endContext_addContext (s : State) (conn : Nat) :
    (s.addContext conn).endContext ⟨s.contexts.length⟩ =
      { s with contexts := s.contexts ++ [none] } := by
  simp [addContext, endContext]

/-- A delete begins a transaction, and its result is that of its first level, which lasts. -/
theorem Dao.run_deleteQuery_of_level {σ : Type} {l : σ} {s : State} {d : δ} {pool : Nat}
    {collation : Collation} (hdriver : AnswersAsStore collation driver session)
    (hpool : s.pool = .open pool) (dao : Dao) (q : Query) (levels : Nat) :
    ∃ conn d', session d' = (session d).settled ∧ ∀ force r claims d'',
      (dao.deleteLevel (fun delete q => delete.cascade levels q force (some ⟨s.contexts.length⟩)) q
        force ⟨s.contexts.length⟩).run driver [] (s.addContext conn) d' =
          ((.ok r, claims), s.addContext conn, d'') →
      ∃ d''', (dao.deleteQuery (levels + 1) q force none).run driver l s d =
          ((.ok r, l), { s with contexts := s.contexts ++ [none] }, d''') ∧
        session d''' = (session d'').settled := by
  obtain ⟨conn, d₁, hacquire, hd₁⟩ := hdriver.acquire pool d
  obtain ⟨d₂, hbegin, hd₂⟩ := hdriver.begin conn d₁
  refine ⟨conn, d₂, by rw [hd₂, hd₁], ?_⟩
  intro force r claims d₃ hwork
  obtain ⟨d₄, hcommit, hd₄⟩ := hdriver.commit conn d₃
  obtain ⟨d₅, hrelease, hd₅⟩ := hdriver.release conn d₄
  have hrun : (transaction none fun tx => dao.deleteLevel
      (fun delete q => delete.cascade levels q force (some tx)) q force tx).run driver [] s d =
        ((.ok r, claims), { s with contexts := s.contexts ++ [none] }, d₅) := by
    rw [← s.endContext_addContext conn]
    exact run_transaction_of_ok hpool hacquire hbegin hwork hcommit hrelease
  refine ⟨d₅, ?_, by rw [hd₅, hd₄]⟩
  rw [deleteQuery, Task.run_withLocal, DeleteOperation.cascade, hrun]

/-- A delete of the rows of a query, in a transaction of its own, behind which there is a store:
it comes to the verdict over the rows that are reached, and its outcome lasts. -/
theorem Dao.run_deleteQuery {σ : Type} {l : σ} {s : State} {d : δ} {dao : Dao} {pool : Nat}
    (hw : w.WellFormed) (hdriver : AnswersAsStore w.collation driver session) (hs : s.Serves w)
    (hpool : s.pool = .open pool) (hstart : (session d).current = w.start) (hdao : dao ∈ w.daos)
    {q : Query} (hq : q.Plain) (force : Bool) {levels : Nat} (hlevels : w.live.ncard < levels) :
    ∃ r d', (dao.deleteQuery levels q force none).run driver l s d =
        ((.ok r, l), { s with contexts := s.contexts ++ [none] }, d') ∧
      Verdict w force (w.hits dao q) (w.reached (w.hits dao q)) r (session d').current ∧
      session d' = (session d').settled := by
  obtain ⟨levels, rfl⟩ : ∃ n, levels = n + 1 := ⟨levels - 1, by omega⟩
  obtain ⟨conn, d₂, hd₂, hquery⟩ :=
    Dao.run_deleteQuery_of_level (l := l) (d := d) hdriver hpool dao q levels
  have hserves : (s.addContext conn).Serves w := ⟨hs.dependents, hs.deletes⟩
  have hprogress : Progress w [] (session d₂) ∅ ∅ := by
    rw [hd₂, Session.settled, hstart]
    exact Progress.start w
  have huntouched : w.untouched ∅ ≤ levels := by
    rw [Setting.untouched, Set.sdiff_empty]
    exact Nat.le_of_lt_succ hlevels
  obtain ⟨r, claims, d₃, hwork, hout⟩ :=
    Dao.run_deleteLevel hw hdriver hserves (s.connection?_addContext conn)
      (DeleteOperation.run_cascade hw hdriver hserves (s.connection?_addContext conn) force levels)
      hdao hq hprogress huntouched
  rw [Set.sdiff_empty] at hout
  obtain ⟨d₅, hrun, hlast⟩ := hquery force r claims d₃ hwork
  refine ⟨r, d₅, hrun, ?_, ?_⟩
  · rw [hlast]
    exact hout.verdict
  · rw [hlast]
    rfl

end Persistence
