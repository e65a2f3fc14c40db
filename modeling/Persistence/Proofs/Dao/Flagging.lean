import Persistence.Proofs.Dao.Sparing
import Persistence.Proofs.Sql.Finished

/-!
# Delete values in the statement that flags rows

The statement that flags rows as deleted is made of a template that has its values in it.  A value
may be anything: text with placeholders and quotes, a document, a list.  None of it is seen by the
scanner that looks for placeholders, so the clauses of the query always go where the template has
its own placeholder.

Main results:

- `templateOf_flagStretches`: the template of the statement, with the values as finished text.
- `standOutside_flagStretches`: the scanner stands outside quotes in front of every value.
- `Dao.sql_flag_of_passes`: the statement, whatever its values are.
- `finished_text_stays`: finished text is passed over, and a template is filled as if it were not
  there.
-/

namespace Persistence

open Sql

/-! ## The stretches of the template -/

/-- The assignments to the columns of deleted rows.  The values are finished text. -/
def assignedStretches : List (String × Value) → List Stretch
  | [] => []
  | [(column, v)] => [.marked (column ++ " = "), .finished (.literal v)]
  | (column, v) :: set :: sets =>
      .marked (column ++ " = ") :: .finished (.literal v) :: .marked "," ::
        assignedStretches (set :: sets)

/-- The template of the statement that flags rows. -/
def flagStretches (table : String) (sets : List (String × Value)) : List Stretch :=
  .marked ("update " ++ table ++ " set ") :: (assignedStretches sets ++ [.marked " ?"])

variable {table : String} {sets : List (String × Value)}

theorem templateOf_assignedStretches (sets : List (String × Value)) :
    Stretch.templateOf (assignedStretches sets) =
      ",".intercalate (sets.map fun (column, v) => assignmentText column v) := by
  induction sets with
  | nil => rfl
  | cons set sets ih =>
      cases sets with
      | nil => simp [assignedStretches, assignmentText, Stretch.text, Finished.text]
      | cons next sets =>
          rw [List.map_cons, String.intercalate_cons_of_ne_nil (by simp), ← ih]
          simp only [assignedStretches, Stretch.templateOf_cons, Stretch.text, Finished.text,
            assignmentText, String.append_assoc]

theorem templateOf_flagStretches (table : String) (sets : List (String × Value)) :
    Stretch.templateOf (flagStretches table sets) =
      "update " ++ table ++ " set " ++
        ",".intercalate (sets.map fun (column, v) => assignmentText column v) ++ " ?" := by
  rw [flagStretches, Stretch.templateOf_cons, Stretch.templateOf_append,
    templateOf_assignedStretches]
  simp only [Stretch.templateOf_cons, Stretch.templateOf_nil, Stretch.text, String.append_assoc,
    String.append_empty]

/-- Behind names that leave it outside quotes the scanner stands outside quotes in front of every
value. -/
theorem standOutside_assignedStretches
    (h : ∀ set ∈ sets, Region.outside.after set.1.toList = .outside) (text : String) :
    Stretch.standOutside .outside (assignedStretches sets ++ [.marked text]) = true := by
  have hequals : Region.outside.after " = ".toList = .outside := rfl
  have hcomma : Region.outside.after ",".toList = .outside := rfl
  induction sets with
  | nil => rfl
  | cons set sets ih =>
      obtain ⟨hset, hsets⟩ := List.forall_mem_cons.1 h
      cases sets with
      | nil =>
          simp only [assignedStretches, List.cons_append, List.nil_append, Stretch.standOutside,
            String.toList_append, Region.after_append, hset, hequals]
          rfl
      | cons next sets =>
          simp only [assignedStretches, List.cons_append, Stretch.standOutside,
            String.toList_append, Region.after_append, hset, hequals, hcomma, ih hsets]
          rfl

theorem standOutside_flagStretches (htable : Region.outside.after table.toList = .outside)
    (h : ∀ set ∈ sets, Region.outside.after set.1.toList = .outside) :
    Stretch.standOutside .outside (flagStretches table sets) = true := by
  have hupdate : Region.outside.after "update ".toList = .outside := rfl
  have hset : Region.outside.after " set ".toList = .outside := rfl
  rw [flagStretches, Stretch.standOutside, String.toList_append, String.toList_append,
    Region.after_append, Region.after_append, hupdate, htable, hset]
  exact standOutside_assignedStretches h " ?"

/-! ## The statement -/

/-- A template is filled stretch by stretch with its arguments, and its marked stretches are filled
as they are without the finished text. -/
theorem format_templateOf {stretches : List Stretch}
    (h : Stretch.standOutside .outside stretches = true) (params : List Param) :
    format (Stretch.templateOf stretches) params =
        Stretch.templateOf
          (Stretch.filled .outside (params.map fun p => p.text.toList) stretches) ∧
      format (Stretch.templateOf (stretches.filter Stretch.isMarked)) params =
        Stretch.templateOf ((Stretch.filled .outside (params.map fun p => p.text.toList)
          stretches).filter Stretch.isMarked) := by
  have htexts : (params.map Param.text).map String.toList =
      params.map fun p => p.text.toList := List.map_map
  rw [← htexts]
  constructor
  · exact Stretch.fill_templateOf h _
  · exact Stretch.fill_templateOf_filter stretches _

namespace Dao

variable {dao : Dao}

/-- Where deletion is soft, a delete sets values in the columns that have one for deleted rows. -/
theorem run_deleteStatement (q : Query) (hsoft : dao.table.softDelete = true) {δ : Type}
    (driver : Driver δ) (claims : Claims) (s : State) (x : δ) :
    ∃ sets, ((dao.deleteStatement q).run driver claims s x).1.1 =
      .ok (.flag (dao.scope q) sets) ∧ DeleteSets dao.table.columns sets := by
  have hensures : (dao.deleteStatement q).Ensures (fun _ => True) _ :=
    dao.deleteStatement_ensures q
  obtain ⟨⟨-, st, hrun, hdeletes⟩, -⟩ := (hensures claims).exchanges driver (s := s) trivial x
  cases hdeletes with
  | remove hhard => simp [hsoft] at hhard
  | flag _ hsets => exact ⟨_, hrun, hsets⟩

/-- With names that are passed over, the clauses of a query stand behind all assignments. -/
theorem sql_flag_of_passes (htable : Passes .outside dao.tableName.toList .outside)
    (hsets : ∀ set ∈ sets, Passes .outside set.1.toList .outside) (q : Query) :
    (Statement.flag (dao.scope q) sets).sql =
      "update " ++ dao.tableName ++ " set " ++
        ",".intercalate (sets.map fun (column, v) => assignmentText column v) ++ " " ++
          (dao.scope q).clause := by
  have hupdate : IsBalanced "update " := .of_open rfl
  have hset : IsBalanced " set " := .of_open rfl
  apply sql_flag_of_isFixed ((hupdate.isFixed.append htable.isFixed).append hset.isFixed)
  apply isFixed_assignments
  intro set hmem
  exact (hsets set hmem).isFixed

end Dao

/-! ## Finished text -/

/-- The scanner passes over literals of all values and over all quoted names.  A template with such
text outside quotes is filled as if the text were not there: its other stretches are filled as they
are in the template without it.  The statement that flags rows is made of a template of this kind,
and whatever values it sets, the clauses of the query go where its placeholder is. -/
theorem finished_text_stays :
    (∀ f : Finished, Passes .outside f.text.toList .outside ∧
      ∀ texts rest, fillFrom .outside texts (f.text.toList ++ rest) =
        f.text.toList ++ fillFrom .outside texts rest) ∧
    (∀ (stretches : List Stretch) (params : List Param),
      Stretch.standOutside .outside stretches = true →
        format (Stretch.templateOf stretches) params =
          Stretch.templateOf
            (Stretch.filled .outside (params.map fun p => p.text.toList) stretches) ∧
        format (Stretch.templateOf (stretches.filter Stretch.isMarked)) params =
          Stretch.templateOf ((Stretch.filled .outside (params.map fun p => p.text.toList)
            stretches).filter Stretch.isMarked)) ∧
    ∀ (dao : Dao) (q : Query), dao.table.softDelete = true →
      ∀ {δ : Type} (driver : Driver δ) (claims : Claims) (s : State) (x : δ), ∃ sets,
        ((dao.deleteStatement q).run driver claims s x).1.1 = .ok (.flag (dao.scope q) sets) ∧
        DeleteSets dao.table.columns sets ∧
        (Statement.flag (dao.scope q) sets).sql =
          format (Stretch.templateOf (flagStretches dao.tableName sets))
            [.raw (dao.scope q).clause] ∧
        (Region.outside.after dao.tableName.toList = .outside →
          (∀ c ∈ dao.table.columns, Region.outside.after c.name.toList = .outside) →
            Stretch.standOutside .outside (flagStretches dao.tableName sets) = true) ∧
        (Passes .outside dao.tableName.toList .outside →
          (∀ c ∈ dao.table.columns, Passes .outside c.name.toList .outside) →
            (Statement.flag (dao.scope q) sets).sql =
              "update " ++ dao.tableName ++ " set " ++
                ",".intercalate (sets.map fun (column, v) => assignmentText column v) ++ " " ++
                  (dao.scope q).clause) := by
  refine ⟨fun f => ⟨f.passes, f.passes.fillFrom_append⟩, ?_, ?_⟩
  · intro stretches params h
    exact format_templateOf h params
  · intro dao q hsoft δ driver claims s x
    obtain ⟨sets, hrun, hsets⟩ := dao.run_deleteStatement q hsoft driver claims s x
    refine ⟨sets, hrun, hsets, ?_, ?_, ?_⟩
    · rw [templateOf_flagStretches]
      rfl
    · intro htable hcolumns
      apply standOutside_flagStretches htable
      exact hsets.forall_fst (fun name => Region.outside.after name.toList = .outside) hcolumns
    · intro htable hcolumns
      apply Dao.sql_flag_of_passes htable
      exact hsets.forall_fst (fun name => Passes .outside name.toList .outside) hcolumns

namespace Notes

/-- A driver whose producers yield text with a quote and a placeholder. -/
def marking : Driver Unit where
  answer r _ :=
    (match r with
      | .produce _ => .string "'?"
      | r => r.granted, ())

end Notes

/-- A nested list and a name with a backtick stay as they are between two placeholders, and the
clauses of a delete of notes stand behind what the producer yields. -/
theorem finished_text_stays_notes :
    format (Stretch.templateOf
        [.marked "select ?, ", .finished (.literal (.list [.string "it's ?", .list [.string "\\"]])),
          .finished (.identifier "a`?"), .marked " '?' ?"]) [.literal (.string "?"), .raw "b"] =
      "select '?', 'it\\'s ?', ('\\\\')`a``?` '?' b" ∧
    Notes.dao.table.softDelete = true ∧
    Passes .outside Notes.dao.tableName.toList .outside ∧
    (∀ c ∈ Notes.dao.table.columns, Passes .outside c.name.toList .outside) ∧
    ∃ sets, ((Notes.dao.deleteStatement Notes.query).run Notes.marking [] Notes.state ()).1.1 =
        .ok (.flag (Notes.dao.scope Notes.query) sets) ∧
      (Statement.flag (Notes.dao.scope Notes.query) sets).sql =
        "update note set deleted_at = '\\'?',_is_delete = 1 " ++
          (Notes.dao.scope Notes.query).clause := by
  obtain ⟨-, hfilled, hflagged⟩ := finished_text_stays
  have htable : Passes .outside Notes.dao.tableName.toList .outside := by decide
  have hcolumns : ∀ c ∈ Notes.dao.table.columns, Passes .outside c.name.toList .outside := by decide
  obtain ⟨sets, hrun, -, -, -, hsql⟩ :=
    hflagged Notes.dao Notes.query rfl Notes.marking [] Notes.state ()
  have hyielded : ((Notes.dao.deleteStatement Notes.query).run Notes.marking [] Notes.state ()).1.1 =
      .ok (.flag (Notes.dao.scope Notes.query)
        [("deleted_at", .string "'?"), (softDeleteColumn, .int 1)]) := rfl
  have hsets : sets = [("deleted_at", .string "'?"), (softDeleteColumn, .int 1)] := by
    simpa using hrun.symm.trans hyielded
  have hassigned : "update " ++ Notes.dao.tableName ++ " set " ++
      ",".intercalate ([("deleted_at", Value.string "'?"), (softDeleteColumn, .int 1)].map
        fun (column, v) => assignmentText column v) ++ " " =
      "update note set deleted_at = '\\'?',_is_delete = 1 " := rfl
  refine ⟨(hfilled _ _ rfl).1, rfl, htable, hcolumns, sets, hrun, ?_⟩
  rw [hsql htable hcolumns, hsets, hassigned]

end Persistence
