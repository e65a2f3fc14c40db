import Persistence.Dao.Delete
import Persistence.Proofs.Program.Running
import Persistence.Proofs.Query.Building
import Persistence.Proofs.Store.Session

/-!
# Claims and references

The parts of a level of a cascade that do not go deeper: claiming rows, and the queries that lead
from rows to the rows that refer to them and from rows to themselves.

Main results:

- `Dao.run_claimRows`: the rows that a level claims, and the claims behind it.
- `Dependent.holds_references`: the query of a dependent holds of the rows that refer to the given
  ones.
- `Dao.holds_keyScope`: a narrowed query holds of the rows that share their first key with one of
  the given ones.
-/

namespace Persistence

variable {δ : Type} {driver : Driver δ} {s : State} {d : δ}

/-! ## Claiming -/

namespace Dao

/-- What a row of the table is claimed by. -/
def claimOf (dao : Dao) (row : Row) : String × String := (dao.tableName, dao.rowKey row)

/-- The rows that are claimed by none of some claims and by none before them. -/
def freshRows (dao : Dao) (claims : Claims) : List Row → List Row
  | [] => []
  | row :: rows =>
      if claims.contains (dao.claimOf row) then dao.freshRows claims rows
      else row :: dao.freshRows (dao.claimOf row :: claims) rows

/-- The claims after rows were claimed. -/
def claimsAfter (dao : Dao) (claims : Claims) : List Row → Claims
  | [] => claims
  | row :: rows =>
      if claims.contains (dao.claimOf row) then dao.claimsAfter claims rows
      else dao.claimsAfter (dao.claimOf row :: claims) rows

end Dao

/-- A claim succeeds if it is not there yet, and is there afterwards. -/
theorem run_claim (table key : String) (claims : Claims) :
    (claim table key).run driver claims s d =
      if (table, key) ∈ claims then ((.ok false, claims), s, d)
      else ((.ok true, (table, key) :: claims), s, d) := by
  rw [claim, Task.run_bind_of_ok Task.run_localState]
  by_cases h : (table, key) ∈ claims
  · rw [if_pos h, if_pos h, Task.run_pure]
  · rw [if_neg h, if_neg h, Task.run_bind_of_ok (Task.run_setLocal _), Task.run_pure]

namespace Dao

/-- Claiming rows asks nothing of the driver. -/
theorem run_claimRows (dao : Dao) (claims : Claims) (rows : List Row) :
    (dao.claimRows rows).run driver claims s d =
      ((.ok (dao.freshRows claims rows), dao.claimsAfter claims rows), s, d) := by
  induction rows generalizing claims with
  | nil => rfl
  | cons row rows ih =>
      have hclaim : (claim dao.tableName (dao.rowKey row)).run driver claims s d =
          if dao.claimOf row ∈ claims then ((.ok false, claims), s, d)
          else ((.ok true, dao.claimOf row :: claims), s, d) := run_claim _ _ claims
      by_cases h : dao.claimOf row ∈ claims
      · rw [if_pos h] at hclaim
        rw [claimRows, Task.run_bind_of_ok hclaim, Task.run_bind_of_ok (ih claims)]
        simp [freshRows, claimsAfter, h]
      · rw [if_neg h] at hclaim
        rw [claimRows, Task.run_bind_of_ok hclaim, Task.run_bind_of_ok (ih _)]
        simp [freshRows, claimsAfter, h]

theorem freshRows_sublist (dao : Dao) (claims : Claims) (rows : List Row) :
    (dao.freshRows claims rows).Sublist rows := by
  induction rows generalizing claims with
  | nil => exact List.Sublist.refl _
  | cons row rows ih =>
      rw [freshRows]
      split
      · exact (ih claims).cons row
      · exact (ih _).cons_cons row

/-- A fresh row is claimed by none of the claims. -/
theorem claimOf_notMem_of_mem_freshRows (dao : Dao) {claims : Claims} {rows : List Row} {row : Row}
    (h : row ∈ dao.freshRows claims rows) : dao.claimOf row ∉ claims := by
  induction rows generalizing claims with
  | nil => simp [freshRows] at h
  | cons first rows ih =>
      rw [freshRows] at h
      split at h
      · exact ih h
      · next hfirst =>
          rcases List.mem_cons.1 h with rfl | h
          · exact fun hmem => hfirst (List.contains_iff_mem.2 hmem)
          · exact fun hmem => ih h (List.mem_cons_of_mem _ hmem)

/-- The claims behind a level are the ones before it and those of its fresh rows. -/
theorem mem_claimsAfter (dao : Dao) {claims : Claims} {rows : List Row} {c : String × String} :
    c ∈ dao.claimsAfter claims rows ↔
      c ∈ claims ∨ ∃ row ∈ dao.freshRows claims rows, dao.claimOf row = c := by
  induction rows generalizing claims with
  | nil => simp [claimsAfter, freshRows]
  | cons row rows ih =>
      rw [claimsAfter, freshRows]
      split
      · exact ih
      · rw [ih]
        simp only [List.mem_cons, exists_eq_or_imp]
        constructor
        · rintro ((rfl | h) | h)
          · exact .inr (.inl rfl)
          · exact .inl h
          · exact .inr (.inr h)
        · rintro (h | h | h)
          · exact .inl (.inr h)
          · exact .inl (.inl h.symm)
          · exact .inr h

/-- Every row is claimed afterwards, by itself or by another one. -/
theorem claimOf_mem_claimsAfter (dao : Dao) {claims : Claims} {rows : List Row} {row : Row}
    (h : row ∈ rows) : dao.claimOf row ∈ dao.claimsAfter claims rows := by
  induction rows generalizing claims with
  | nil => simp at h
  | cons first rows ih =>
      rw [claimsAfter]
      rcases List.mem_cons.1 h with rfl | h
      · split
        · next hmem => exact (mem_claimsAfter dao).2 (.inl (List.contains_iff_mem.1 hmem))
        · exact (mem_claimsAfter dao).2 (.inl List.mem_cons_self)
      · split
        · exact ih h
        · exact ih h

/-- Of the rows with one claim that is not there yet, one is fresh. -/
theorem exists_mem_freshRows (dao : Dao) {claims : Claims} {rows : List Row} {row : Row}
    (h : row ∈ rows) (hfresh : dao.claimOf row ∉ claims) :
    ∃ other ∈ dao.freshRows claims rows, dao.claimOf other = dao.claimOf row :=
  ((mem_claimsAfter dao).1 (claimOf_mem_claimsAfter dao h)).resolve_left hfresh

end Dao

/-! ## Values as they are compared -/

/-- Keeping one value of each kind loses none up to sameness. -/
theorem exists_mem_distinctValues (seen : List Value) {values : List Value} {v : Value}
    (h : v ∈ values) :
    ∃ w, (w ∈ seen ∨ w ∈ distinctValues seen values) ∧ (w = v ∨ w.same v = true) := by
  induction values generalizing seen with
  | nil => simp at h
  | cons first values ih =>
      rw [distinctValues]
      rcases List.mem_cons.1 h with rfl | h
      · split
        · next hseen =>
            obtain ⟨w, hw, hsame⟩ := List.any_eq_true.1 hseen
            exact ⟨w, .inl hw, .inr hsame⟩
        · exact ⟨v, .inr List.mem_cons_self, .inl rfl⟩
      · split
        · exact ih seen h
        · obtain ⟨w, hw, hsame⟩ := ih (seen ++ [first]) h
          refine ⟨w, ?_, hsame⟩
          rcases hw with hw | hw
          · rcases List.mem_append.1 hw with hw | hw
            · exact .inl hw
            · rw [List.mem_singleton.1 hw]
              exact .inr List.mem_cons_self
          · exact .inr (List.mem_cons_of_mem _ hw)

theorem mem_of_mem_distinctValues {seen values : List Value} {v : Value}
    (h : v ∈ distinctValues seen values) : v ∈ values := by
  induction values generalizing seen with
  | nil => simp [distinctValues] at h
  | cons first values ih =>
      rw [distinctValues] at h
      split at h
      · exact List.mem_cons_of_mem _ (ih h)
      · rcases List.mem_cons.1 h with rfl | h
        · exact List.mem_cons_self
        · exact List.mem_cons_of_mem _ (ih h)

/-! ## Scopes of values -/

/-- The scope of some values is made of conditions only. -/
theorem plain_scopeQuery (property : String) (values : List Value) :
    (scopeQuery property values).Plain := by
  unfold scopeQuery
  split
  · exact Query.plain_empty.eq _ _
  · exact Query.plain_empty.among _ _ _

/-- The scope of some values holds of the rows that have one of them. -/
theorem holds_scopeQuery (k : Collation) (m : Mapping) (row : Row) (property : String)
    {values : List Value} (hnull : ∀ v ∈ values, v.isNull = false) :
    (scopeQuery property values).holds k m row =
      values.any fun v => k.equal (row.cell (m.columnName property)) v := by
  unfold scopeQuery
  split
  · next v =>
      rw [Query.holds_eq k m row property (hnull v (List.mem_singleton.2 rfl))]
      simp
  · exact Query.holds_among k m row property _

/-! ## References -/

/-- The value of a column by which other rows may refer to a row. -/
theorem presentValue?_eq_some {row : Row} {column : String} {j : Json} :
    presentValue? row column = some j ↔ row.lookup column = some j ∧ j.isNull = false := by
  simp [presentValue?, Option.filter_eq_some_iff]

namespace Dependent

/-- The values of references are those of the rows, without nulls. -/
theorem mem_references {dep : Dependent} {rows : List Row} {v : Value}
    (h : v ∈ dep.references rows) :
    ∃ row ∈ rows, ∃ j, presentValue? row dep.targetColumn = some j ∧ Value.ofJson j = v := by
  obtain ⟨j, hj, rfl⟩ := List.mem_map.1 (mem_of_mem_distinctValues h)
  obtain ⟨row, hrow, hj⟩ := List.mem_filterMap.1 hj
  exact ⟨row, hrow, j, hj, rfl⟩

/-- A row whose reference is not null is referred to by some value. -/
theorem exists_mem_references {dep : Dependent} {rows : List Row} {row : Row} {j : Json}
    (hrow : row ∈ rows) (hj : presentValue? row dep.targetColumn = some j) :
    ∃ w ∈ dep.references rows, w = Value.ofJson j ∨ w.same (Value.ofJson j) = true := by
  have hmem : Value.ofJson j ∈
      (rows.filterMap fun row => presentValue? row dep.targetColumn).map Value.ofJson :=
    List.mem_map_of_mem (List.mem_filterMap.2 ⟨row, hrow, hj⟩)
  obtain ⟨w, hw, hsame⟩ := exists_mem_distinctValues [] hmem
  exact ⟨w, hw.resolve_left List.not_mem_nil, hsame⟩

theorem isNull_of_mem_references {dep : Dependent} {rows : List Row} {v : Value}
    (h : v ∈ dep.references rows) : v.isNull = false := by
  obtain ⟨row, -, j, hj, rfl⟩ := mem_references h
  rw [Value.isNull_ofJson]
  exact (presentValue?_eq_some.1 hj).2

/-- The query of a dependent holds of the rows that refer to one of the given ones. -/
theorem holds_references (k : Collation) (m : Mapping) (dep : Dependent) (rows : List Row)
    (row : Row) :
    (scopeQuery dep.property (dep.references rows)).holds k m row = true ↔
      ∃ target ∈ rows, ∃ j, presentValue? target dep.targetColumn = some j ∧
        k.equal (row.cell (m.columnName dep.property)) (Value.ofJson j) = true := by
  rw [holds_scopeQuery k m row dep.property fun v hv => isNull_of_mem_references hv,
    List.any_eq_true]
  constructor
  · rintro ⟨v, hv, heq⟩
    obtain ⟨target, htarget, j, hj, rfl⟩ := mem_references hv
    exact ⟨target, htarget, j, hj, heq⟩
  · rintro ⟨target, htarget, j, hj, heq⟩
    obtain ⟨w, hw, hsame⟩ := exists_mem_references htarget hj
    refine ⟨w, hw, ?_⟩
    rcases hsame with rfl | hsame
    · exact heq
    · rw [k.equal_same _ hsame]
      exact heq

end Dependent

/-! ## Keys -/

namespace Dao

/-- The values by which rows are selected again when a level narrows its query. -/
def keyValues (key : KeyColumn) (rows : List Row) : List Value :=
  (rows.filterMap fun row => row.lookup key.column).map Value.ofJson

theorem mem_keyValues {key : KeyColumn} {rows : List Row} {v : Value} :
    v ∈ keyValues key rows ↔
      ∃ row ∈ rows, ∃ j, row.lookup key.column = some j ∧ Value.ofJson j = v := by
  simp only [keyValues, List.mem_map, List.mem_filterMap]
  constructor
  · rintro ⟨j, ⟨row, hrow, hj⟩, rfl⟩
    exact ⟨row, hrow, j, hj, rfl⟩
  · rintro ⟨row, hrow, j, hj, rfl⟩
    exact ⟨j, ⟨row, hrow, hj⟩, rfl⟩

/-- A narrowed query holds of the rows that share their first key with one of the given ones. -/
theorem holds_keyScope (k : Collation) (dao : Dao) {key : KeyColumn} {rows : List Row}
    (hcolumn : dao.target.mapping.columnName key.property = key.column)
    (hkeys : ∀ row ∈ rows, (Row.cell row key.column).isNull = false) (row : Row) :
    (scopeQuery key.property (keyValues key rows)).holds k dao.target.mapping row = true ↔
      ∃ other ∈ rows,
        k.equal (row.cell key.column) (Value.ofJson (Row.cell other key.column)) = true := by
  have hnull : ∀ v ∈ keyValues key rows, v.isNull = false := by
    intro v hv
    obtain ⟨other, hother, j, hj, rfl⟩ := mem_keyValues.1 hv
    have hcell := hkeys other hother
    rw [Row.cell, hj] at hcell
    rw [Value.isNull_ofJson]
    exact hcell
  rw [holds_scopeQuery k _ row key.property hnull, hcolumn, List.any_eq_true]
  constructor
  · rintro ⟨v, hv, heq⟩
    obtain ⟨other, hother, j, hj, rfl⟩ := mem_keyValues.1 hv
    refine ⟨other, hother, ?_⟩
    rw [Row.cell, Row.cell, hj]
    exact heq
  · rintro ⟨other, hother, heq⟩
    have hcell := hkeys other hother
    cases hj : List.lookup key.column other with
    | none =>
        rw [Row.cell, hj] at hcell
        simp [Json.isNull] at hcell
    | some j =>
        refine ⟨Value.ofJson j, mem_keyValues.2 ⟨other, hother, j, hj, rfl⟩, ?_⟩
        rw [Row.cell, Row.cell, hj] at heq
        exact heq

end Dao

end Persistence
