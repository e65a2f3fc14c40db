import Persistence.Proofs.Cascade.Deletion
import Persistence.Proofs.Program.Exchanges

/-!
# Previews

A delete without force lists what the delete with force would remove in dependent tables, as far as
it comes: a level below that finds dependent rows of its own refuses, and the levels above it stop
at once.  They keep what was removed before, list the level that refused without a count of its
own unless it is the one that found the rows, and look at no further dependent.

`Foretells` is this relation between the results of the two deletes.  It is followed along both
runs from the same start: they are one run up to the first refusal, and from there on the forced
one is known by its outcome.

Main results:

- `Foretells.sublist`, `Foretells.relations_eq_iff`: the list of a refused delete is a part of the
  list of the forced one, and when it is all of it.
- `run_removeDependents_preview`: the removals in dependents up to the first refusal.
- `DeleteOperation.run_cascade_preview`: a cascade foretells the forced one.
-/

namespace Persistence

variable {σ α β δ : Type}

/-! ## Counted relations -/

/-- Counts of rows without zeros. -/
def Counted (relations : List RelationCount) : Prop := ∀ c ∈ relations, 0 < c.count

theorem counted_nil : Counted [] := List.forall_mem_nil _

theorem Counted.append {front back : List RelationCount} (h : Counted front) (h' : Counted back) :
    Counted (front ++ back) :=
  List.forall_mem_append.2 ⟨h, h'⟩

theorem Dependent.counted_counts (dep : Dependent) {r : DeleteResult} (h : Counted r.relations) :
    Counted (dep.counts r) := by
  rw [counts]
  refine Counted.append ?_ h
  split
  · simpa [Counted]
  · exact counted_nil

/-- A part of some counts adds up to as much only if it is all of them. -/
theorem eq_of_sublist_of_totalCount_eq {part relations : List RelationCount}
    (h : part.Sublist relations) (hcounted : Counted relations)
    (htotal : totalCount part = totalCount relations) : part = relations := by
  induction h with
  | slnil => rfl
  | @cons part relations c hsub ih =>
      obtain ⟨hc, -⟩ := List.forall_mem_cons.1 hcounted
      have hle : totalCount part ≤ totalCount relations :=
        (hsub.map RelationCount.count).sum_le_sum fun _ _ => Nat.zero_le _
      rw [totalCount_cons] at htotal
      omega
  | @cons_cons part relations c hsub ih =>
      obtain ⟨-, hrest⟩ := List.forall_mem_cons.1 hcounted
      rw [totalCount_cons, totalCount_cons] at htotal
      rw [ih hrest (by omega)]

/-! ## Foretelling -/

/-- What the result of a refused delete says about the forced one.  A delete that refuses itself has
seen everything.  One that was stopped by a dependent has the counts up to there, the count that the
dependent reports and the dependent's relations; the rest is missing. -/
inductive Foretells : DeleteResult → DeleteResult → Prop
  | whole {count : Nat} {relations : List RelationCount} : Counted relations →
      Foretells ⟨false, count, relations⟩ ⟨true, count, relations⟩
  | cut {dep : Dependent} {front rest : List RelationCount} {u f : DeleteResult} {count : Nat} :
      Counted front → Counted rest → Foretells u f →
        Foretells ⟨false, 0, front ++ ⟨dep.table, u.count⟩ :: u.relations⟩
          ⟨true, count, front ++ (dep.counts f ++ rest)⟩

namespace Foretells

variable {u f : DeleteResult}

theorem success (h : Foretells u f) : u.success = false ∧ f.success = true := by
  cases h <;> exact ⟨rfl, rfl⟩

theorem counted (h : Foretells u f) : Counted f.relations := by
  induction h with
  | whole hcounted => exact hcounted
  | @cut dep _ _ _ _ _ hfront hrest _ ih => exact hfront.append ((dep.counted_counts ih).append hrest)

/-- A refused delete reports the count of the forced one or none. -/
theorem count (h : Foretells u f) : u.count = 0 ∨ u.count = f.count := by
  cases h with
  | whole _ => exact .inr rfl
  | cut _ _ _ => exact .inl rfl

/-- What is listed with a count would be removed, in that order. -/
theorem sublist (h : Foretells u f) :
    (u.relations.filter fun c => 0 < c.count).Sublist f.relations := by
  induction h with
  | whole _ => exact List.filter_sublist
  | @cut dep front rest u f _ _ _ h ih =>
      have hown : ([⟨dep.table, u.count⟩].filter fun c : RelationCount => 0 < c.count).Sublist
          (if 0 < f.count then [⟨dep.table, f.count⟩] else []) := by
        rcases h.count with hzero | hsame
        · simp [hzero]
        · by_cases hpos : 0 < f.count <;> simp [hsame, hpos]
      rw [← List.singleton_append, List.filter_append, List.filter_append, Dependent.counts]
      exact List.filter_sublist.append ((hown.append ih).trans (List.sublist_append_left _ _))

/-- A refused delete lists what would be removed exactly if it lists no zero and its counts add up
to as much. -/
theorem relations_eq_iff (h : Foretells u f) :
    u.relations = f.relations ↔
      Counted u.relations ∧ totalCount u.relations = totalCount f.relations := by
  constructor
  · intro heq
    rw [heq]
    exact ⟨h.counted, rfl⟩
  · rintro ⟨hcounted, htotal⟩
    have hall : u.relations.filter (fun c => 0 < c.count) = u.relations :=
      List.filter_eq_self.2 fun c hc => decide_eq_true (hcounted c hc)
    have hsub := h.sublist
    rw [hall] at hsub
    exact eq_of_sublist_of_totalCount_eq hsub h.counted htotal

end Foretells

/-- The relations of a removal that was stopped, and those of the removal that went on. -/
def Cut (us fs : List RelationCount) : Prop :=
  ∃ (dep : Dependent) (front rest : List RelationCount) (u f : DeleteResult),
    Counted front ∧ Counted rest ∧ Foretells u f ∧
      us = front ++ ⟨dep.table, u.count⟩ :: u.relations ∧ fs = front ++ (dep.counts f ++ rest)

theorem Foretells.of_cut {us fs : List RelationCount} (h : Cut us fs) (count : Nat) :
    Foretells ⟨false, 0, us⟩ ⟨true, count, fs⟩ := by
  obtain ⟨dep, front, rest, u, f, hfront, hrest, hforetells, rfl, rfl⟩ := h
  exact .cut hfront hrest hforetells

/-- What was removed before a removal was stopped stands in front. -/
theorem Cut.prepend {front us fs : List RelationCount} (hfront : Counted front) (h : Cut us fs) :
    Cut (front ++ us) (front ++ fs) := by
  obtain ⟨dep, more, rest, u, f, hmore, hrest, hforetells, rfl, rfl⟩ := h
  refine ⟨dep, front ++ more, rest, u, f, hfront.append hmore, hrest, hforetells, ?_, ?_⟩ <;>
    rw [List.append_assoc]

/-! ## Results of tasks -/

/-- Whatever a task is answered, `P` holds of its result. -/
def Yields (P : α → Prop) (t : Task σ α) : Prop :=
  t.Ensures (fun _ => True) fun _ result => ∀ a, result = .ok a → P a

namespace Yields

variable {P : α → Prop} {Q : β → Prop} {t : Task σ α}

theorem any (t : Task σ α) : Yields (fun _ => True) t := by
  intro l
  induction t l with
  | done a => exact fun _ _ => trivial
  | read next ih => exact fun s _ => ih s
  | write s next ih => exact ⟨trivial, ih⟩
  | call r next ih => exact fun answer => ih answer

theorem pure {a : α} (h : P a) : Yields P (Pure.pure a : Task σ α) :=
  Task.Ensures.pure fun _ heq => Except.ok.inj heq ▸ h

theorem bind {f : α → Task σ β} (ht : Yields P t) (hf : ∀ a, P a → Yields Q (f a)) :
    Yields Q (t >>= f) := by
  refine Task.Ensures.bind (ht.mono ?_)
  intro trace result hresult
  cases result with
  | error e => exact fun _ heq => nomatch heq
  | ok a => exact hf a (hresult a rfl)

theorem bind_any {f : α → Task σ β} (hf : ∀ a, Yields Q (f a)) : Yields Q (t >>= f) :=
  (any t).bind fun a _ => hf a

theorem run (h : Yields P t) {driver : Driver δ} {l l' : σ} {s s' : State} {d d' : δ} {a : α}
    (hrun : t.run driver l s d = ((.ok a, l'), s', d')) : P a := by
  have hyields := ((h l).exchanges driver (s := s) trivial d).1
  rw [show (t l).run driver s d = ((.ok a, l'), s', d') from hrun] at hyields
  exact hyields a rfl

end Yields

/-- The delete of a level lists the relations that it was given. -/
theorem Dao.deleteRows_yields (dao : Dao) (q : Query) (force : Bool)
    (relations : List RelationCount) (tx : Context) :
    Yields (fun r => r.relations = relations) (dao.deleteRows q force relations tx) := by
  refine .bind_any fun st => .bind_any fun o => ?_
  dsimp only
  split
  · exact .bind_any fun _ => .pure rfl
  · exact .pure rfl

/-- What dependents removed is counted, if each of them counts. -/
theorem removeDependents_yields {step : CascadeStep}
    (hstep : ∀ delete q, Yields (fun r => r.success = true → Counted r.relations) (step delete q))
    (rows : List Row) (deps : List Dependent) :
    Yields (fun r => r.complete = true → Counted r.relations) (removeDependents step rows deps) := by
  induction deps with
  | nil => exact .pure fun _ => counted_nil
  | cons dep deps ih =>
      rw [removeDependents]
      split
      · exact ih
      · refine .bind_any fun s => ?_
        split
        · exact ih
        · refine (hstep _ _).bind fun r hr => ?_
          split
          · next hsuccess =>
              exact ih.bind fun rest hrest => .pure fun hcomplete =>
                (dep.counted_counts (hr hsuccess)).append (hrest hcomplete)
          · exact .pure fun hcomplete => by cases hcomplete

/-- A level that succeeds counts. -/
theorem Dao.deleteLevel_yields (dao : Dao) {step : CascadeStep}
    (hstep : ∀ delete q, Yields (fun r => r.success = true → Counted r.relations) (step delete q))
    (q : Query) (force : Bool) (tx : Context) :
    Yields (fun r => r.success = true → Counted r.relations)
      (dao.deleteLevel step q force tx) := by
  have hrows : ∀ q relations, Counted relations →
      Yields (fun r => r.success = true → Counted r.relations)
        (dao.deleteRows q force relations tx) := by
    intro q relations hcounted
    refine (dao.deleteRows_yields q force relations tx).mono ?_
    rintro trace result hresult r hr -
    rwa [hresult r hr]
  refine .bind_any fun s => ?_
  dsimp only
  split
  · exact hrows q [] counted_nil
  · refine .bind_any fun o => .bind_any fun rows => ?_
    split
    · exact .pure fun _ => counted_nil
    · refine (removeDependents_yields hstep rows _).bind fun removal hremoval => ?_
      split
      · next hcomplete => exact hrows _ _ (hremoval hcomplete)
      · exact .pure fun hsuccess => by cases hsuccess

/-- A cascade that succeeds counts. -/
theorem DeleteOperation.cascade_yields (levels : Nat) (delete : DeleteOperation) (q : Query)
    (force : Bool) (tx : Context) :
    Yields (fun r => r.success = true → Counted r.relations)
      (delete.cascade levels q force (some tx)) := by
  induction levels generalizing delete q with
  | zero =>
      cases delete with
      | statement d =>
          rw [cascade]
          exact .bind_any fun _ => .pure fun _ => counted_nil
      | dao d => exact fun _ => by rintro _ ⟨⟩
  | succ levels ih =>
      cases delete with
      | statement d =>
          rw [cascade]
          exact .bind_any fun _ => .pure fun _ => counted_nil
      | dao d =>
          rw [cascade, transaction_some]
          exact d.deleteLevel_yields (fun delete q => ih delete q) q force tx

/-! ## Two runs from one start -/

variable {driver : Driver δ} {session : δ → Session} {w : Setting} {s : State} {d : δ}
  {claims : Claims} {dao : Dao}

/-- A delete previews another one from the same start: it succeeds and the other one is the same
run, or it is refused and foretells the other one. -/
inductive Preview (driver : Driver δ) (claims : Claims) (s : State) (d : δ)
    (t t' : Task Claims DeleteResult) : Prop
  | same {u : DeleteResult} {claims₁ : Claims} {d₁ : δ} :
      t.run driver claims s d = ((.ok u, claims₁), s, d₁) → u.success = true →
        t'.run driver claims s d = ((.ok u, claims₁), s, d₁) → Preview driver claims s d t t'
  | refused {u f : DeleteResult} {claims₁ claims₂ : Claims} {d₁ d₂ : δ} :
      t.run driver claims s d = ((.ok u, claims₁), s, d₁) →
        t'.run driver claims s d = ((.ok f, claims₂), s, d₂) → Foretells u f →
          Preview driver claims s d t t'

/-- The removals of some dependents preview others: all are complete and it is the same run, or the
first are cut. -/
inductive RemovalPreview (driver : Driver δ) (claims : Claims) (s : State) (d : δ)
    (t t' : Task Claims Removal) : Prop
  | same {r : Removal} {claims₁ : Claims} {d₁ : δ} :
      t.run driver claims s d = ((.ok r, claims₁), s, d₁) → r.complete = true →
        t'.run driver claims s d = ((.ok r, claims₁), s, d₁) → RemovalPreview driver claims s d t t'
  | cut {us fs : List RelationCount} {claims₁ claims₂ : Claims} {d₁ d₂ : δ} :
      t.run driver claims s d = ((.ok ⟨false, us⟩, claims₁), s, d₁) →
        t'.run driver claims s d = ((.ok ⟨true, fs⟩, claims₂), s, d₂) → Cut us fs →
          RemovalPreview driver claims s d t t'

/-- A way to delete the rows of a query previews another one, as long as fewer than `bound` live
rows are untouched. -/
def Previews (driver : Driver δ) (session : δ → Session) (w : Setting) (s : State) (bound : Nat)
    (step step' : CascadeStep) : Prop :=
  ∀ dao ∈ w.daos, ∀ q : Query, q.Plain → ∀ claims d touched gone,
    Progress w claims (session d) touched gone → w.untouched touched < bound →
      Preview driver claims s d (step (.dao dao) q) (step' (.dao dao) q)

/-- A delete that is forced is not refused. -/
theorem Outcome.of_forced {touched gone hit : Set Entry} {r : DeleteResult} {store : Session}
    (h : Outcome w true touched gone hit r claims store) :
    r.success = true ∧ ∃ touched' gone', Progress w claims store touched' gone' ∧
      touched ⊆ touched' := by
  cases h with
  | deleted hsuccess hprogress hdeleted =>
      exact ⟨hsuccess, _, _, hprogress, hdeleted.spread.touched_subset⟩
  | refused _ hforce _ _ _ => cases hforce

theorem RemovalOutcome.of_forced {touched gone rows : Set Entry} {deps : List Dependent}
    {r : Removal} {store : Session}
    (h : RemovalOutcome w true touched gone rows deps r claims store) :
    r.complete = true ∧ ∃ touched' gone', Progress w claims store touched' gone' := by
  cases h with
  | removed hcomplete hprogress _ => exact ⟨hcomplete, _, _, hprogress⟩
  | refused _ hforce _ _ _ => cases hforce

theorem Preview.congr {t t' t₁ t₁' : Task Claims DeleteResult} {claims' : Claims} {d' : δ}
    (h : Preview driver claims' s d' t t')
    (ht : t₁.run driver claims s d = t.run driver claims' s d')
    (ht' : t₁'.run driver claims s d = t'.run driver claims' s d') :
    Preview driver claims s d t₁ t₁' := by
  cases h with
  | same hrun hsuccess hrun' => exact .same (ht.trans hrun) hsuccess (ht'.trans hrun')
  | refused hrun hrun' hforetells => exact .refused (ht.trans hrun) (ht'.trans hrun') hforetells

/-- The delete of a level previews the forced one.  It refuses if there are relations, and has seen
all of them. -/
theorem Dao.run_deleteRows_preview (hw : w.WellFormed)
    (hdriver : AnswersAsStore w.collation driver session) {tx : Context} {conn : Nat}
    (hconn : s.connection? tx = some conn) (hdao : dao ∈ w.daos) {q : Query} (hq : q.Plain)
    {touched gone : Set Entry} (h : Progress w claims (session d) touched gone)
    {relations : List RelationCount} (hcounted : Counted relations) :
    Preview driver claims s d (dao.deleteRows q false relations tx)
      (dao.deleteRows q true relations tx) := by
  obtain ⟨n, d₁, hn, hrun⟩ := run_deleteRows hw hdriver hconn hdao hq h false relations
  obtain ⟨n', d₂, hn', hrun'⟩ := run_deleteRows hw hdriver hconn hdao hq h true relations
  obtain rfl : n' = n := by omega
  rw [if_neg (by simp)] at hrun'
  cases relations with
  | nil =>
      rw [if_neg (by simp)] at hrun
      refine .same hrun.1 rfl ?_
      rw [← hrun.1]
      rfl
  | cons c relations =>
      have hc : 0 < c.count := hcounted c List.mem_cons_self
      rw [if_pos (by simp [hc])] at hrun
      exact .refused hrun.1 hrun'.1 (.whole hcounted)

section Runs

variable (hw : w.WellFormed) (hs : s.Serves w) {bound : Nat} {step step' : CascadeStep}
  (hstep : Cascades driver session w s false bound step)
  (hstep' : Cascades driver session w s true bound step')
  (hcounted : ∀ delete q, Yields (fun r => r.success = true → Counted r.relations) (step' delete q))
  (hpreview : Previews driver session w s bound step step')

include hw hs hstep hstep' hcounted hpreview

/-- The removals of some dependents preview the forced ones, if each of them does. -/
theorem run_removeDependents_preview (table : String) {rows : List Row} (deps : List Dependent)
    (hdeps : ∀ dep ∈ deps, dep ∈ w.dependents table) {touched gone : Set Entry}
    (h : Progress w claims (session d) touched gone)
    (hbound : rows ≠ [] → w.untouched touched < bound) :
    RemovalPreview driver claims s d (removeDependents step rows deps)
      (removeDependents step' rows deps) := by
  induction deps generalizing claims d touched gone with
  | nil => exact .same (r := ⟨true, []⟩) rfl rfl rfl
  | cons dep deps ih =>
      obtain ⟨hdep, hrest⟩ := List.forall_mem_cons.1 hdeps
      by_cases hnone : dep.references rows = []
      · rw [removeDependents_of_references_eq_nil step hnone,
          removeDependents_of_references_eq_nil step' hnone]
        exact ih hrest h hbound
      · have hrows : rows ≠ [] := by
          rintro rfl
          exact hnone rfl
        obtain ⟨dao, hdao, -, hlookup⟩ := hs.deletes table dep hdep
        have hq := plain_scopeQuery dep.property (dep.references rows)
        cases hpreview dao hdao _ hq claims d touched gone h (hbound hrows) with
        | @same u claims₁ d₁ hrun hsuccess hrun' =>
            -- it is one run so far, and what is behind it goes on from one place
            obtain ⟨r, claims₂, d₂, hrun₂, hout⟩ := hstep dao hdao _ hq claims d touched gone h
              (hbound hrows)
            rw [hrun] at hrun₂
            cases hrun₂
            cases hout with
            | refused hfail _ _ _ _ => simp [hsuccess] at hfail
            | deleted _ hprogress hdeleted =>
                have hfront : Counted (dep.counts u) := by
                  refine dep.counted_counts ?_
                  rw [(hdeleted.unforced rfl).1]
                  exact counted_nil
                have hless := Setting.untouched_anti (w := w) hdeleted.spread.touched_subset
                have hgo := run_removeDependents_of_success hnone hlookup hrun hsuccess deps
                have hgo' := run_removeDependents_of_success hnone hlookup hrun' hsuccess deps
                cases ih hrest hprogress fun hne => hless.trans_lt (hbound hne) with
                | same hfirst hcomplete hsecond =>
                    rw [Task.run_bind_of_ok hfirst, Task.run_pure] at hgo
                    rw [Task.run_bind_of_ok hsecond, Task.run_pure] at hgo'
                    exact .same hgo hcomplete hgo'
                | cut hfirst hsecond hcut =>
                    rw [Task.run_bind_of_ok hfirst, Task.run_pure] at hgo
                    rw [Task.run_bind_of_ok hsecond, Task.run_pure] at hgo'
                    exact .cut hgo hgo' (hcut.prepend hfront)
        | @refused u f claims₁ claims₂ d₁ d₂ hrun hrun' hforetells =>
            -- the forced run goes on, and whatever it removes is counted
            obtain ⟨r, claims₃, d₃, hrun₃, hout⟩ := hstep' dao hdao _ hq claims d touched gone h
              (hbound hrows)
            rw [hrun'] at hrun₃
            cases hrun₃
            obtain ⟨-, touched', gone', hprogress, hmore⟩ := hout.of_forced
            have hless := Setting.untouched_anti (w := w) hmore
            obtain ⟨rest, claims₄, d₄, hrest', hout'⟩ := run_removeDependents hw hs hstep' table
              deps hrest hprogress fun hne => hless.trans_lt (hbound hne)
            have hcomplete := hout'.of_forced.1
            have hgo := run_removeDependents_of_refusal hnone hlookup hrun hforetells.success.1 deps
            have hgo' := run_removeDependents_of_success hnone hlookup hrun' hforetells.success.2 deps
            rw [Task.run_bind_of_ok hrest', Task.run_pure, hcomplete] at hgo'
            refine .cut hgo hgo' ⟨dep, [], rest.relations, u, f, counted_nil, ?_, hforetells, rfl, rfl⟩
            exact (removeDependents_yields hcounted rows deps).run hrest' hcomplete

/-- A level previews the forced one, if the levels below do. -/
theorem Dao.run_deleteLevel_preview (hdriver : AnswersAsStore w.collation driver session)
    {tx : Context} {conn : Nat} (hconn : s.connection? tx = some conn) (hdao : dao ∈ w.daos)
    {q : Query} (hq : q.Plain) {touched gone : Set Entry}
    (h : Progress w claims (session d) touched gone) (hbound : w.untouched touched ≤ bound) :
    Preview driver claims s d (dao.deleteLevel step q false tx) (dao.deleteLevel step' q true tx) := by
  by_cases hleaf : w.dependents dao.tableName = []
  · have hpreview := run_deleteRows_preview hw hdriver hconn hdao hq h counted_nil
    exact hpreview.congr (run_deleteLevel_of_leaf hs hleaf step q false tx)
      (run_deleteLevel_of_leaf hs hleaf step' q true tx)
  cases starts hw hdriver hs hconn hdao hleaf hq h with
  | left hrun _ _ => exact .same (hrun step false) rfl (hrun step' true)
  | @found rows q' _ _ hrun hclaim hrows hplain _ _ _ =>
      have hless := untouched_claimed_lt hdao hrows hbound
      have hdeps : ∀ dep ∈ w.dependents dao.tableName, dep ∈ w.dependents dao.tableName :=
        fun _ hdep => hdep
      have hlevel := hrun step false
      have hlevel' := hrun step' true
      cases run_removeDependents_preview hw hs hstep hstep' hcounted hpreview dao.tableName _ hdeps
        hclaim hless with
      | @same removal claims₁ d₁ hremove hcomplete hremove' =>
          obtain ⟨r, claims₂, d₂, hrun₂, hout⟩ := run_removeDependents hw hs hstep dao.tableName _
            hdeps hclaim hless
          rw [hremove] at hrun₂
          cases hrun₂
          cases hout with
          | refused hfail _ _ _ _ => simp [hcomplete] at hfail
          | removed _ hprogress hremoved =>
              rw [Task.run_bind_of_ok hremove, afterRemoval, if_pos hcomplete] at hlevel
              rw [Task.run_bind_of_ok hremove', afterRemoval, if_pos hcomplete] at hlevel'
              exact (run_deleteRows_preview hw hdriver hconn hdao hplain hprogress
                (hremoved.unforced rfl)).congr hlevel hlevel'
      | @cut us fs claims₁ claims₂ d₁ d₂ hremove hremove' hcut =>
          obtain ⟨r, claims₃, d₃, hrun₃, hout⟩ := run_removeDependents hw hs hstep' dao.tableName _
            hdeps hclaim hless
          rw [hremove'] at hrun₃
          cases hrun₃
          obtain ⟨-, touched', gone', hprogress⟩ := hout.of_forced
          obtain ⟨n, d₄, -, hforced⟩ := run_deleteRows hw hdriver hconn hdao hplain hprogress true fs
          rw [if_neg (by simp)] at hforced
          rw [Task.run_bind_of_ok hremove, afterRemoval, if_neg (by simp), Task.run_pure] at hlevel
          rw [Task.run_bind_of_ok hremove', afterRemoval, if_pos rfl, hforced.1] at hlevel'
          exact .refused hlevel hlevel' (.of_cut hcut n)

end Runs

/-- A cascade that may go as deep as there are untouched live rows previews the forced one. -/
theorem DeleteOperation.run_cascade_preview (hw : w.WellFormed)
    (hdriver : AnswersAsStore w.collation driver session) (hs : s.Serves w) {tx : Context}
    {conn : Nat} (hconn : s.connection? tx = some conn) (levels : Nat) :
    Previews driver session w s levels (fun delete q => delete.cascade levels q false (some tx))
      fun delete q => delete.cascade levels q true (some tx) := by
  induction levels with
  | zero =>
      intro dao hdao q hq claims d touched gone h hbound
      exact absurd hbound (Nat.not_lt_zero _)
  | succ levels ih =>
      intro dao hdao q hq claims d touched gone h hbound
      simp only [cascade, transaction_some]
      exact Dao.run_deleteLevel_preview hw hs (run_cascade hw hdriver hs hconn false levels)
        (run_cascade hw hdriver hs hconn true levels)
        (fun delete q => delete.cascade_yields levels q true tx) ih hdriver hconn hdao hq h
        (Nat.le_of_lt_succ hbound)

end Persistence
