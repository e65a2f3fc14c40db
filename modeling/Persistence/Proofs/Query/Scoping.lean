import Persistence.Proofs.Query.Reading
import Persistence.Proofs.Sql.Literal

/-!
# The clauses of restricted queries

A query that is restricted to the rows that are not deleted keeps that restriction whatever its own
conditions are: they stand in parentheses, and the operands in them are quoted or words.

Main results:

- `Query.isBalanced_whereText`: the condition of a query over bare names is balanced, for all
  operands.
- `Query.restricts_clauseText`: the clauses of a restricted query leave out deleted rows.
-/

namespace Persistence

open Sql

variable {m : Mapping}

/-! ## Names in queries -/

/-- The field that a condition is on. -/
def Condition.field : Condition → String
  | compare _ field _ => field
  | between _ field _ _ => field
  | like _ _ field _ => field
  | isNull _ field => field
  | among _ field _ => field
  | includes field _ => field

namespace Query

/-- The fields that a query names. -/
def fields (q : Query) : List String :=
  (conditions q.links).map Condition.field ++ q.groupBy ++ q.orderBy

/-- A query whose fields are kept in columns with bare names. -/
def Named (m : Mapping) (q : Query) : Prop :=
  ∀ field ∈ q.fields, isBareName (m.columnName field) = true

end Query

/-! ## Conditions -/

theorem isBalanced_name {s : String} (h : isBareName s = true) : IsBalanced s :=
  (Calm.of_name h).isBalanced

theorem isBalanced_negation (negated : Bool) : IsBalanced (negation negated) := by
  cases negated with
  | true => exact .of_open rfl
  | false => exact .of_open rfl

theorem isBalanced_literal (v : Value) : IsBalanced v.literal := v.calm_literal.isBalanced

theorem isBalanced_listText {v : Value} {text : String} (h : listText? v = some text) :
    IsBalanced text := by
  have htext : text = v.literal := by
    unfold listText? at h
    split at h
    · cases h
    · exact (Option.some.inj h).symm
  rw [htext]
  exact isBalanced_literal v

/-- A condition is balanced whatever its operands are. -/
theorem Condition.isBalanced_text {c : Condition} (h : isBareName (m.columnName c.field) = true) :
    IsBalanced (c.text m) := by
  have hname := isBalanced_name h
  have hblank : IsBalanced " " := .of_open rfl
  cases c with
  | compare op field value =>
      have hop : IsBalanced op.text := by cases op <;> exact .of_open rfl
      exact (((hname.append hblank).append hop).append hblank).append (isBalanced_literal value)
  | between negated field low high =>
      have hbetween : IsBalanced "between " ∧ IsBalanced " and " := by
        constructor <;> exact .of_open rfl
      exact (((((hname.append hblank).append (isBalanced_negation negated)).append
        hbetween.1).append (isBalanced_literal low)).append hbetween.2).append
          (isBalanced_literal high)
  | like negated openness field value =>
      have hlike : IsBalanced "like binary " := .of_open rfl
      exact (((hname.append hblank).append (isBalanced_negation negated)).append hlike).append
        (calm_stringLiteral _).isBalanced
  | isNull negated field =>
      have hwords : IsBalanced " is " ∧ IsBalanced "null" := by
        constructor <;> exact .of_open rfl
      exact ((hname.append hwords.1).append (isBalanced_negation negated)).append hwords.2
  | among negated field values =>
      rw [text]
      split
      · next texts htexts =>
        have hin : IsBalanced "in " := .of_open rfl
        have hlist := (isBalanced_listText htexts).parens
        have hall := (((hname.append hblank).append (isBalanced_negation negated)).append
          hin).append hlist
        have hopening : "in (" = "in " ++ "(" := rfl
        rw [hopening]
        simpa only [Condition.field, String.append_assoc] using hall
      · split <;> exact .of_open rfl
  | includes field document =>
      have hcomma : IsBalanced ", " := .of_open rfl
      have hcall : IsBalanced "json_contains" := .of_open rfl
      have hall := hcall.append
        ((hname.append hcomma).append (calm_stringLiteral document.text).isBalanced).parens
      have hopening : "json_contains(" = "json_contains" ++ "(" := rfl
      rw [text, hopening]
      simpa only [Condition.field, String.append_assoc] using hall

/-! ## Queries -/

theorem isBalanced_joinFragments {fragments : List (Connector × String)}
    (h : ∀ fragment ∈ fragments, IsBalanced fragment.2) : IsBalanced (joinFragments fragments) := by
  fun_induction joinFragments fragments with
  | case1 => exact .of_open rfl
  | case2 c fragment => exact h _ List.mem_cons_self
  | case3 _ fragment c next rest ih =>
      obtain ⟨hfragment, hrest⟩ := List.forall_mem_cons.1 h
      have hblank : IsBalanced " " := .of_open rfl
      have hconnector : IsBalanced c.text := by cases c <;> exact .of_open rfl
      exact (((hfragment.append hblank).append hconnector).append hblank).append (ih hrest)

/-- The fragments of a chain are balanced. -/
theorem isBalanced_fragments {c : Connector} {links : List Link}
    (h : ∀ condition ∈ conditions links, isBareName (m.columnName condition.field) = true) :
    ∀ fragment ∈ fragments m c links, IsBalanced fragment.2 := by
  fun_induction fragments m c links with
  | case1 c => simp
  | case2 c next links ih =>
      rw [conditions] at h
      exact ih h
  | case3 c condition links ih =>
      rw [conditions, List.forall_mem_cons] at h
      exact List.forall_mem_cons.2 ⟨condition.isBalanced_text h.1, ih h.2⟩
  | case4 c sub links hsub ihsub ih =>
      rw [conditions, List.forall_mem_append] at h
      exact ih h.2
  | case5 c sub links hsub ihsub ih =>
      rw [conditions, List.forall_mem_append] at h
      refine List.forall_mem_cons.2 ⟨?_, ih h.2⟩
      exact (isBalanced_joinFragments (ihsub h.1)).parens

namespace Query

variable {q : Query}

/-- The condition of a query over bare names is balanced, for all operands. -/
theorem isBalanced_whereText (h : q.Named m) : IsBalanced (q.whereText m) := by
  refine isBalanced_joinFragments (isBalanced_fragments fun condition hcondition => h _ ?_)
  rw [fields, List.append_assoc]
  exact List.mem_append_left _ (List.mem_map_of_mem hcondition)

theorem liveText_ne_empty (condition : String) : liveText condition ≠ "" := by
  intro h
  have hlength := congrArg String.length h
  rw [liveText] at hlength
  split at hlength <;> simp [String.length_append, softDeleteColumn] at hlength

theorem introduced_of_ne_empty (words : String) {body : String} (h : body ≠ "") :
    introduced words body = words ++ body :=
  if_neg fun hempty => h (String.isEmpty_iff.1 hempty)

/-- In a restricted condition stands the restriction and, in parentheses, the condition. -/
theorem restricts_liveText {condition : String} (h : IsBalanced condition) :
    Restricts ("where" ++ " " ++ liveText condition) := by
  have hand : Spells "and" [.clause (.connector .and)] :=
    .of_words rfl rfl
  rw [liveText]
  split
  · exact restricts_where spells_liveCondition .alone
  · have hmarks : ∀ w ∈ [Word.mark '(', .mark ')'], w.isCalm = true := by simp [Word.isCalm]
    have hrest := restricts_where ((spells_liveCondition.blank hand).blank (Spells.parens h))
      (.first hmarks)
    have hwords : " = 0 and (" = " = 0" ++ " " ++ "and" ++ " " ++ "(" := rfl
    rw [hwords]
    simpa only [String.append_assoc] using hrest

/-- The columns that a query groups by are behind its condition. -/
theorem trails_groupText (h : q.Named m) : Trails ("group by" ++ " " ++ q.groupText m) := by
  have hwords : Spells "group by" [.clause .grouping, .name "by"] :=
    .of_words rfl rfl
  refine trails_of_calm hwords rfl (by simp [Word.isCalm]) ?_
  refine Calm.intercalate (fun _ _ hfront hback => hfront.comma hback) ?_
  rw [List.forall_mem_map]
  intro field hfield
  exact .of_name (h field (by simp [fields, hfield]))

/-- So are the columns that it orders by. -/
theorem trails_orderText (h : q.Named m) : Trails ("order by" ++ " " ++ q.orderText m) := by
  have hwords : Spells "order by" [.clause .ordering, .name "by"] :=
    .of_words rfl rfl
  have horder : isBareName q.order.text = true := by
    cases q.order <;> rfl
  refine trails_of_calm hwords rfl (by simp [Word.isCalm]) ?_
  refine Calm.intercalate (fun _ _ hfront hback => hfront.comma hback) ?_
  rw [List.forall_mem_map]
  intro field hfield
  exact (Calm.of_name (h field (by simp [fields, hfield]))).blank (.of_name horder)

/-- The clauses of a restricted query leave out deleted rows. -/
theorem restricts_clauseText (h : q.Named m) : Restricts (q.clauseText m true) := by
  have hwords : " where " = " " ++ "where" ++ " " ∧ " group by " = " " ++ "group by" ++ " " ∧
      " order by " = " " ++ "order by" ++ " " :=
    ⟨rfl, rfl, rfl⟩
  obtain ⟨hwhere, hgroup, horder⟩ := hwords
  have hlive := (restricts_liveText (isBalanced_whereText h)).blank_cons
  have hall := (hlive.append_unless (trails_groupText h) q.groupBy.isEmpty).append_unless
    (trails_orderText h) q.orderBy.isEmpty
  rw [clauseText, if_pos rfl, introduced_of_ne_empty _ (liveText_ne_empty _), hwhere, hgroup,
    horder]
  simpa only [String.append_assoc] using hall

end Query

end Persistence
