import Persistence.Proofs.Cascade.Progress

/-!
# Outcomes of deletes

What a delete inside a cascade amounts to, in terms of the entries that it touches and of those
that have gone when it is done.  A delete that succeeds touches what its query selects and what is
reached from there, and nothing else; a delete that is refused was reaching for a row that was
neither selected nor touched before.  The removals of several dependents are put together one
after the other, and a level puts its own delete behind those of its dependents.

Main results:

- `Removed.cons`: the removal of a dependent in front of the removals of others.
- `Deleted.of_removed`: the delete of a level behind the removals of its dependents.
-/

namespace Persistence

variable {w : Setting} {force : Bool}

/-! ## Counts -/

/-- The number of rows in some counts. -/
def totalCount (relations : List RelationCount) : Nat := (relations.map RelationCount.count).sum

@[simp]
theorem totalCount_nil : totalCount [] = 0 := rfl

@[simp]
theorem totalCount_cons (c : RelationCount) (relations : List RelationCount) :
    totalCount (c :: relations) = c.count + totalCount relations := by
  simp [totalCount]

@[simp]
theorem totalCount_append (front back : List RelationCount) :
    totalCount (front ++ back) = totalCount front + totalCount back := by
  simp [totalCount]

/-- The dependent rows of a result are those of its counts. -/
theorem DeleteResult.relationCount_eq (r : DeleteResult) :
    r.relationCount = totalCount r.relations := by
  rw [relationCount, totalCount, List.sum_eq_foldl, List.foldl_map]

/-- A dependent adds its own rows and those of its dependents. -/
theorem Dependent.totalCount_counts (dep : Dependent) (r : DeleteResult) :
    totalCount (dep.counts r) = r.count + r.relationCount := by
  rw [counts, r.relationCount_eq, totalCount_append]
  split
  · simp
  · next h =>
      have hzero : r.count = 0 := Nat.eq_zero_of_not_pos h
      simp [hzero]

/-! ## Spreading -/

/-- What a part of a cascade does to the entries that are touched and to those that have gone:
what it touches first has gone when it is done, and what refers to that is touched. -/
structure Spread (w : Setting) (touched gone touched' gone' : Set Entry) : Prop where
  touched_subset : touched ⊆ touched'
  gone_subset : gone ⊆ gone'
  fresh_subset : touched' ⊆ touched ∪ gone'
  referred : ∀ x ∈ touched', x ∉ touched → ∀ y ∈ w.live, w.Refers y x → y ∈ touched'

namespace Spread

variable {touched gone touched' gone' touched'' gone'' : Set Entry}

theorem refl (w : Setting) (touched gone : Set Entry) : Spread w touched gone touched gone where
  touched_subset := Set.Subset.rfl
  gone_subset := Set.Subset.rfl
  fresh_subset := Set.subset_union_left
  referred _ hx hnot := absurd hx hnot

theorem trans (h : Spread w touched gone touched' gone')
    (h' : Spread w touched' gone' touched'' gone'') :
    Spread w touched gone touched'' gone'' where
  touched_subset := h.touched_subset.trans h'.touched_subset
  gone_subset := h.gone_subset.trans h'.gone_subset
  fresh_subset := by
    intro x hx
    rcases h'.fresh_subset hx with hx | hx
    · rcases h.fresh_subset hx with hx | hx
      · exact .inl hx
      · exact .inr (h'.gone_subset hx)
    · exact .inr hx
  referred := by
    intro x hx hnot y hy href
    by_cases hmem : x ∈ touched'
    · exact h'.touched_subset (h.referred x hmem hnot y hy href)
    · exact h'.referred x hx hmem y hy href

end Spread

/-! ## Removals in dependents -/

/-- Some row is reached from the given rows that is not in the set `within`. -/
def Beyond (w : Setting) (within rows : Set Entry) : Prop :=
  ∃ y, y ∉ within ∧ ∀ entries, w.Closed entries → rows ⊆ entries → y ∈ entries

/-- A row beyond a set is beyond its parts, and what some rows reach is reached from the rows that
reach them. -/
theorem Beyond.mono {within within' rows rows' : Set Entry} (h : Beyond w within' rows')
    (hwithin : within ⊆ within')
    (hrows : ∀ entries, w.Closed entries → rows ⊆ entries → rows' ⊆ entries) :
    Beyond w within rows := by
  obtain ⟨y, hnot, hy⟩ := h
  refine ⟨y, fun hmem => hnot (hwithin hmem), ?_⟩
  intro entries hclosed hsub
  exact hy entries hclosed (hrows entries hclosed hsub)

/-- What a delete of the rows in `hit` has done when it succeeded. -/
structure Deleted (w : Setting) (force : Bool) (touched gone touched' gone' hit : Set Entry)
    (r : DeleteResult) : Prop where
  spread : Spread w touched gone touched' gone'
  hit_subset : hit ⊆ touched'
  sound : ∀ entries, w.Closed entries → hit ⊆ entries → touched' ⊆ touched ∪ entries
  count : w.count gone' = w.count gone + (r.count + r.relationCount)
  fresh : 0 < r.count → ∃ y ∈ hit, y ∉ touched
  unforced : force = false → r.relations = [] ∧ gone' ⊆ gone ∪ hit

/-- What the deletes of some dependents have done when all of them succeeded, where `rows` are the
rows that the dependents refer to. -/
structure Removed (w : Setting) (force : Bool) (touched gone touched' gone' rows : Set Entry)
    (deps : List Dependent) (relations : List RelationCount) : Prop where
  spread : Spread w touched gone touched' gone'
  referred : ∀ x ∈ rows, ∀ dep ∈ deps, ∀ y ∈ w.live, w.RefersBy dep y x → y ∈ touched'
  sound : ∀ entries, w.Closed entries → rows ⊆ entries → touched' ⊆ touched ∪ entries
  count : w.count gone' = w.count gone + totalCount relations
  unforced : force = false → ∀ c ∈ relations, 0 < c.count
  beyond : force = false → relations ≠ [] → Beyond w touched rows

namespace Removed

variable {touched gone touched' gone' touched'' gone'' rows hits : Set Entry} {dep : Dependent}
  {deps : List Dependent} {relations : List RelationCount} {r : DeleteResult}

/-- Without dependents nothing is removed in them. -/
theorem nil (w : Setting) (force : Bool) (touched gone rows : Set Entry) :
    Removed w force touched gone touched gone rows [] [] where
  spread := Spread.refl w touched gone
  referred := by simp
  sound _ _ _ := Set.subset_union_left
  count := by simp
  unforced := by simp
  beyond := by simp

/-- A dependent by which nothing refers to the rows can be passed over. -/
theorem pass (hnone : ∀ x ∈ rows, ∀ y, ¬w.RefersBy dep y x)
    (h : Removed w force touched gone touched' gone' rows deps relations) :
    Removed w force touched gone touched' gone' rows (dep :: deps) relations where
  spread := h.spread
  referred := by
    intro x hx other hother y hy href
    rcases List.mem_cons.1 hother with rfl | hother
    · exact absurd href (hnone x hx y)
    · exact h.referred x hx other hother y hy href
  sound := h.sound
  count := h.count
  unforced := h.unforced
  beyond := h.beyond

/-- The rows that refer to some rows of a table by a dependent belong to every closed set. -/
theorem hits_subset {table : String} (hdep : dep ∈ w.dependents table)
    (hrows : ∀ x ∈ rows, x.table = table)
    (hhits : ∀ y ∈ hits, y ∈ w.live ∧ ∃ x ∈ rows, w.RefersBy dep y x) {entries : Set Entry}
    (hclosed : w.Closed entries) (hsub : rows ⊆ entries) : hits ⊆ entries := by
  intro y hy
  obtain ⟨hlive, x, hx, href⟩ := hhits y hy
  refine hclosed x (hsub hx) y hlive ⟨dep, ?_, href⟩
  rw [hrows x hx]
  exact hdep

/-- The removal of a dependent in front of the removals of others. -/
theorem cons {table : String} (hdep : dep ∈ w.dependents table)
    (hrows : ∀ x ∈ rows, x.table = table) (hgone : gone ⊆ touched)
    (hhits : ∀ y, y ∈ hits ↔ y ∈ w.live ∧ ∃ x ∈ rows, w.RefersBy dep y x)
    (hfirst : Deleted w force touched gone touched' gone' (hits \ gone) r)
    (h : Removed w force touched' gone' touched'' gone'' rows deps relations) :
    Removed w force touched gone touched'' gone'' rows (dep :: deps)
      (dep.counts r ++ relations) := by
  have hreach : ∀ entries, w.Closed entries → rows ⊆ entries → hits \ gone ⊆ entries :=
    fun entries hclosed hsub => Set.sdiff_subset.trans
      (hits_subset hdep hrows (fun y hy => (hhits y).1 hy) hclosed hsub)
  constructor
  · exact hfirst.spread.trans h.spread
  · intro x hx other hother y hy href
    rcases List.mem_cons.1 hother with rfl | hother
    · have hhit : y ∈ hits := (hhits y).2 ⟨hy, x, hx, href⟩
      by_cases hy' : y ∈ gone
      · exact h.spread.touched_subset (hfirst.spread.touched_subset (hgone hy'))
      · exact h.spread.touched_subset (hfirst.hit_subset ⟨hhit, hy'⟩)
    · exact h.referred x hx other hother y hy href
  · intro entries hclosed hsub
    have hone := hfirst.sound entries hclosed (hreach entries hclosed hsub)
    have htwo := h.sound entries hclosed hsub
    exact htwo.trans (Set.union_subset hone Set.subset_union_right)
  · rw [h.count, hfirst.count, totalCount_append, dep.totalCount_counts]
    omega
  · intro hforce c hc
    rw [Dependent.counts, (hfirst.unforced hforce).1, List.append_nil] at hc
    rcases List.mem_append.1 hc with hc | hc
    · split at hc
      · next hpos =>
          obtain rfl := List.mem_singleton.1 hc
          exact hpos
      · simp at hc
    · exact h.unforced hforce c hc
  · intro hforce hne
    by_cases hpos : 0 < r.count
    · obtain ⟨y, hy, hnot⟩ := hfirst.fresh hpos
      exact ⟨y, hnot, fun entries hclosed hsub => hreach entries hclosed hsub hy⟩
    · have hcounts : dep.counts r = [] := by
        simp [Dependent.counts, hpos, (hfirst.unforced hforce).1]
      rw [hcounts, List.nil_append] at hne
      exact (h.beyond hforce hne).mono hfirst.spread.touched_subset fun _ _ hsub => hsub

end Removed

/-! ## Levels -/

namespace Deleted

variable {touched gone touched' gone' hit hits : Set Entry}

/-- A level that finds all of its rows touched leaves them to others. -/
theorem nothing (hhit : hit ⊆ touched) :
    Deleted w force touched gone (touched ∪ hit) gone hit ⟨true, 0, []⟩ := by
  rw [Set.union_eq_self_of_subset_right hhit]
  constructor
  · exact Spread.refl w touched gone
  · exact hhit
  · intro entries _ _
    exact Set.subset_union_left
  · rfl
  · intro hpos
    exact absurd hpos (Nat.lt_irrefl 0)
  · intro _
    exact ⟨rfl, Set.subset_union_left⟩

/-- The delete of a level behind the removals of its dependents.  The rows of the delete are rows
that the level found, and all that it touched first are among them. -/
theorem of_removed {relations : List RelationCount} {table : String} {n : Nat}
    (hgone : gone ⊆ touched) (htable : ∀ x ∈ hit, x.table = table)
    (hfresh : hit \ touched ⊆ hits) (hhits : hits ⊆ gone ∪ hit)
    (hnew : hit = ∅ ∨ (hit \ touched).Nonempty) (hlive : gone' ⊆ w.live)
    (h : Removed w force (touched ∪ hit) gone touched' gone' (hit \ touched)
      (w.dependents table) relations)
    (hcount : w.count (gone' ∪ hits) = w.count gone' + n)
    (hforce : force = false → relations = []) :
    Deleted w force touched gone (touched' ∪ hits) (gone' ∪ hits) hit ⟨true, n, relations⟩ := by
  have hfound : hits ⊆ touched ∪ hit := hhits.trans (Set.union_subset_union_left _ hgone)
  have hreferred : ∀ x ∈ hit, x ∉ touched → ∀ y ∈ w.live, w.Refers y x → y ∈ touched' := by
    rintro x hx hnot y hy ⟨dep, hdep, href⟩
    rw [htable x hx] at hdep
    exact h.referred x ⟨hx, hnot⟩ dep hdep y hy href
  refine ⟨⟨?_, ?_, ?_, ?_⟩, ?_, ?_, ?_, ?_, ?_⟩
  · exact (Set.subset_union_left.trans h.spread.touched_subset).trans Set.subset_union_left
  · exact h.spread.gone_subset.trans Set.subset_union_left
  · rintro x (hx | hx)
    · rcases h.spread.fresh_subset hx with (hx | hx) | hx
      · exact .inl hx
      · by_cases hnot : x ∈ touched
        · exact .inl hnot
        · exact .inr (.inr (hfresh ⟨hx, hnot⟩))
      · exact .inr (.inl hx)
    · exact .inr (.inr hx)
  · intro x hx hnot y hy href
    by_cases hhit : x ∈ hit
    · exact .inl (hreferred x hhit hnot y hy href)
    · have hout : x ∉ touched ∪ hit := by simp [hnot, hhit]
      rcases hx with hx | hx
      · exact .inl (h.spread.referred x hx hout y hy href)
      · exact absurd (hfound hx) hout
  · exact (Set.subset_union_right.trans h.spread.touched_subset).trans Set.subset_union_left
  · intro entries hclosed hsub
    have hbelow := h.sound entries hclosed (Set.sdiff_subset.trans hsub)
    have hown : touched ∪ hit ⊆ touched ∪ entries := Set.union_subset_union_right _ hsub
    refine Set.union_subset (hbelow.trans ?_) (hfound.trans hown)
    exact Set.union_subset hown Set.subset_union_right
  · rw [hcount, h.count, DeleteResult.relationCount_eq]
    show w.count gone + totalCount relations + n = w.count gone + (n + totalCount relations)
    omega
  · intro hpos
    rcases hnew with hnone | ⟨y, hy, hnot⟩
    · rw [hnone, Set.union_empty] at hhits
      rw [Set.union_eq_self_of_subset_right (hhits.trans h.spread.gone_subset)] at hcount
      have hzero : n = 0 := by omega
      exact absurd hpos (by simp [hzero])
    · exact ⟨y, hy, hnot⟩
  · intro hunforced
    have hnil := hforce hunforced
    have hsame : w.count gone' = w.count gone := by
      rw [h.count, hnil, totalCount_nil, Nat.add_zero]
    have hback := Setting.subset_of_count_eq h.spread.gone_subset hlive hsame
    refine ⟨hnil, Set.union_subset (hback.trans Set.subset_union_left) hhits⟩

end Deleted

/-! ## Outcomes of runs -/

/-- The outcome of a delete of the rows in `hit`: it succeeds, or everything is undone because of
a row beyond. -/
inductive Outcome (w : Setting) (force : Bool) (touched gone hit : Set Entry) (r : DeleteResult)
    (claims : Claims) (session : Session) : Prop
  | deleted {touched' gone' : Set Entry} :
      r.success = true → Progress w claims session touched' gone' →
        Deleted w force touched gone touched' gone' hit r →
          Outcome w force touched gone hit r claims session
  | refused : r.success = false → force = false → r.relations ≠ [] →
      session = ⟨w.start, w.start⟩ → Beyond w (touched ∪ hit) hit →
        Outcome w force touched gone hit r claims session

/-- The outcome of the removals in the dependents of some rows. -/
inductive RemovalOutcome (w : Setting) (force : Bool) (touched gone rows : Set Entry)
    (deps : List Dependent) (r : Removal) (claims : Claims) (session : Session) : Prop
  | removed {touched' gone' : Set Entry} :
      r.complete = true → Progress w claims session touched' gone' →
        Removed w force touched gone touched' gone' rows deps r.relations →
          RemovalOutcome w force touched gone rows deps r claims session
  | refused : r.complete = false → force = false → r.relations ≠ [] →
      session = ⟨w.start, w.start⟩ → Beyond w touched rows →
        RemovalOutcome w force touched gone rows deps r claims session

namespace RemovalOutcome

variable {touched gone touched' gone' rows hits : Set Entry} {dep : Dependent}
  {deps : List Dependent} {r : Removal} {claims : Claims} {session : Session}

/-- A dependent by which nothing refers to the rows can be passed over. -/
theorem pass (hnone : ∀ x ∈ rows, ∀ y, ¬w.RefersBy dep y x)
    (h : RemovalOutcome w force touched gone rows deps r claims session) :
    RemovalOutcome w force touched gone rows (dep :: deps) r claims session := by
  cases h with
  | removed hcomplete hprogress hremoved =>
      exact .removed hcomplete hprogress (hremoved.pass hnone)
  | refused hcomplete hforce hne hsession hbeyond =>
      exact .refused hcomplete hforce hne hsession hbeyond

/-- The outcome behind a dependent that has been deleted. -/
theorem cons {table : String} {first : DeleteResult} (hdep : dep ∈ w.dependents table)
    (hrows : ∀ x ∈ rows, x.table = table) (hgone : gone ⊆ touched)
    (hhits : ∀ y, y ∈ hits ↔ y ∈ w.live ∧ ∃ x ∈ rows, w.RefersBy dep y x)
    (hfirst : Deleted w force touched gone touched' gone' (hits \ gone) first)
    (h : RemovalOutcome w force touched' gone' rows deps r claims session) :
    RemovalOutcome w force touched gone rows (dep :: deps)
      ⟨r.complete, dep.counts first ++ r.relations⟩ claims session := by
  cases h with
  | removed hcomplete hprogress hremoved =>
      exact .removed hcomplete hprogress (hremoved.cons hdep hrows hgone hhits hfirst)
  | refused hcomplete hforce hne hsession hbeyond =>
      refine .refused hcomplete hforce (by simp [hne]) hsession ?_
      exact hbeyond.mono hfirst.spread.touched_subset fun _ _ hsub => hsub

end RemovalOutcome

end Persistence
