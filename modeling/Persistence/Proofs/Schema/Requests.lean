import Persistence.Proofs.Sql.Quoting
import Persistence.Statement

/-!
# What a statement asks of a table

The statements about whole tables are told apart by their text: by the words in front, which are
followed by the name of the table between quotes.  The name is read up to its closing quote, so that
no name makes a statement another one or one about another table.

Main results:

- `TableAction.read?_unique`: a text asks for one thing at most.
- `Statement.read?_sql`: what the statements ask for, as it is read off their text.
-/

namespace Persistence

open Sql

/-! ## Phrases -/

/-- A way to ask for something about a table: some words, the name of the table between quotes of
some kind, and a text behind the name, which may go on. -/
structure Phrase where
  words : String
  takeName? : List Char → Option (List Char × List Char)
  ending : String
  goesOn : Bool

/-- The name of the table that a text asks for in some way. -/
def Phrase.read? (p : Phrase) (sql : String) : Option String := do
  let text ← sql.toList.dropPrefix? p.words.toList
  let (name, rest) ← p.takeName? text
  let behind ← rest.dropPrefix? p.ending.toList
  if p.goesOn ∨ behind = [] then some (String.ofList name) else none

namespace Phrase

variable {p : Phrase} {sql name : String}

/-- What is asked for starts with the words. -/
theorem prefix_of_read? (h : p.read? sql = some name) : p.words.toList <+: sql.toList := by
  unfold read? at h
  obtain ⟨text, htext, -⟩ := Option.bind_eq_some_iff.1 h
  obtain ⟨words, hsql, hwords⟩ := List.dropPrefix?_eq_some_iff.1 htext
  rw [hsql, eq_of_beq hwords]
  exact List.prefix_append _ _

theorem dropPrefix?_append (front rest : List Char) :
    (front ++ rest).dropPrefix? front = some rest :=
  List.dropPrefix?_eq_some_iff.2 ⟨front, rfl, beq_self_eq_true front⟩

/-- A name that is read up to its closing quote is the one that is asked for. -/
theorem read?_eq (rest : List Char) {words ending : String} {goesOn : Bool}
    {take? : List Char → Option (List Char × List Char)} {quoted : List Char}
    (hsql : sql.toList = words.toList ++ (quoted ++ (ending.toList ++ rest)))
    (hname : take? (quoted ++ (ending.toList ++ rest)) =
      some (name.toList, ending.toList ++ rest))
    (hrest : goesOn = true ∨ rest = []) : read? ⟨words, take?, ending, goesOn⟩ sql = some name := by
  show (sql.toList.dropPrefix? words.toList).bind _ = _
  rw [hsql, dropPrefix?_append, Option.bind_some]
  show (take? _).bind _ = _
  rw [hname, Option.bind_some]
  show ((ending.toList ++ rest).dropPrefix? ending.toList).bind _ = _
  rw [dropPrefix?_append, Option.bind_some, if_pos hrest, String.ofList_toList]

/-- An identifier with words in front of it. -/
theorem read?_identifier (words table : String) :
    read? ⟨words, takeIdentifier?, "", false⟩ (words ++ identifier table) = some table := by
  refine read?_eq [] ?_ ((takeIdentifier?_identifier_iff table _).2 ?_) (.inr rfl)
  · simp
  · simp

/-- An identifier in a text that goes on behind it. -/
theorem read?_identifier_append (words table ending rest : String)
    (h : (ending.toList ++ rest.toList).head? ≠ some '\x60') :
    read? ⟨words, takeIdentifier?, ending, true⟩
      (words ++ (identifier table ++ (ending ++ rest))) = some table := by
  refine read?_eq rest.toList ?_ ((takeIdentifier?_identifier_iff table _).2 h) (.inl rfl)
  simp

/-- A literal with words on both sides. -/
theorem read?_stringLiteral (words table ending : String)
    (h : ending.toList.head? ≠ some '\'') :
    read? ⟨words, takeLiteral?, ending, false⟩ (words ++ stringLiteral table ++ ending) =
      some table := by
  refine read?_eq [] ?_ ((takeLiteral?_stringLiteral_iff table _).2 ?_) (.inr rfl)
  · simp
  · rwa [List.append_nil]

end Phrase

/-! ## Actions -/

/-- What a statement can ask of a table: to describe it from some side, to drop it, to create it or
to alter it. -/
inductive TableAction
  | columns
  | indexes
  | foreignKeys
  | definition
  | drop
  | create
  | alter
deriving DecidableEq

namespace TableAction

/-- All actions. -/
def all : List TableAction := [columns, indexes, foreignKeys, definition, drop, create, alter]

theorem mem_all (a : TableAction) : a ∈ all := by cases a <;> decide

/-- How a table is named in the statement for an action: as an identifier, but as a text where the
table is looked up. -/
def phrase : TableAction → Phrase
  | columns => ⟨"desc ", takeIdentifier?, "", false⟩
  | indexes => ⟨"show index from ", takeIdentifier?, "", false⟩
  | foreignKeys =>
      ⟨"select constraint_name as name from information_schema.table_constraints " ++
        "where table_schema = database() and table_name = ", takeLiteral?,
        " and constraint_type = 'FOREIGN KEY'", false⟩
  | definition => ⟨"show create table ", takeIdentifier?, "", false⟩
  | drop => ⟨"drop table ", takeIdentifier?, "", false⟩
  | create => ⟨"create table ", takeIdentifier?, " (", true⟩
  | alter => ⟨"alter table ", takeIdentifier?, "\n", true⟩

/-- The table that a text asks an action of. -/
def read? (a : TableAction) (sql : String) : Option String := a.phrase.read? sql

/-- Whether the action leaves the table as it is. -/
def isReading : TableAction → Bool
  | columns | indexes | foreignKeys | definition => true
  | drop | create | alter => false

/-- The words of no action begin with the words of another one. -/
theorem not_prefix_words : ∀ a ∈ all, ∀ b ∈ all, a ≠ b →
    ¬ a.phrase.words.toList <+: b.phrase.words.toList := by
  decide +kernel

/-- A text asks for one thing at most. -/
theorem read?_unique {a b : TableAction} {sql name name' : String} (h : a.read? sql = some name)
    (h' : b.read? sql = some name') : a = b ∧ name = name' := by
  have hsame : a = b := by
    by_contra hne
    rcases List.prefix_or_prefix_of_prefix (Phrase.prefix_of_read? h)
      (Phrase.prefix_of_read? h') with hprefix | hprefix
    · exact not_prefix_words a (mem_all a) b (mem_all b) hne hprefix
    · exact not_prefix_words b (mem_all b) a (mem_all a) (Ne.symm hne) hprefix
  subst hsame
  exact ⟨rfl, Option.some.inj (h.symm.trans h')⟩

/-- What a text asks of which table. -/
def readAny? (sql : String) : Option (TableAction × String) :=
  all.findSome? fun a => (a.read? sql).map (a, ·)

theorem readAny?_eq_some_iff {a : TableAction} {sql name : String} :
    readAny? sql = some (a, name) ↔ a.read? sql = some name := by
  have hfound : ∀ {b name'}, readAny? sql = some (b, name') → b.read? sql = some name' := by
    intro b name' h
    obtain ⟨c, -, hc⟩ := List.exists_of_findSome?_eq_some h
    obtain ⟨found, hread, heq⟩ := Option.map_eq_some_iff.1 hc
    obtain ⟨rfl, rfl⟩ := Prod.mk.inj heq
    exact hread
  constructor
  · exact hfound
  · intro h
    have hsome : (readAny? sql).isSome := by
      rw [readAny?, List.findSome?_isSome_iff]
      exact ⟨a, mem_all a, by simp [h]⟩
    obtain ⟨⟨b, name'⟩, hread⟩ := Option.isSome_iff_exists.1 hsome
    obtain ⟨rfl, rfl⟩ := read?_unique h (hfound hread)
    exact hread

end TableAction

/-! ## Statements -/

/-- The text that asks for the names of all tables. -/
def tableList : String := "show tables"

theorem readAny?_tableList : TableAction.readAny? tableList = none := by decide +kernel

namespace Statement

/-- What a statement asks of which table. -/
def action? : Statement → Option (TableAction × String)
  | columns table => some (.columns, table)
  | indexes table => some (.indexes, table)
  | foreignKeys table => some (.foreignKeys, table)
  | definition table => some (.definition, table)
  | dropTable name => some (.drop, name)
  | createTable t _ => some (.create, t.name)
  | alterTable name _ => some (.alter, name)
  | text _ | rows _ | remove _ | flag _ _ | tableNames => none

/-- A statement that creates a table has an opening parenthesis behind its name. -/
theorem exists_sql_createTable (t : Table) (names : Names) :
    ∃ rest, (createTable t names).sql =
      "create table " ++ (identifier t.name ++ (" (" ++ rest)) := by
  have htext : ∀ name body engine charset collate : String,
      "create table " ++ name ++ " (\n  " ++ body ++ "\n) engine=" ++ engine ++ " charset=" ++
          charset ++ " collate=" ++ collate =
        "create table " ++ (name ++ (" (" ++ ("\n  " ++ body ++ "\n) engine=" ++ engine ++
          " charset=" ++ charset ++ " collate=" ++ collate))) := by
    intro name body engine charset collate
    apply String.toList_injective
    simp
  exact ⟨_, htext _ _ _ _ _⟩

/-- A statement that alters a table has a new line behind its name. -/
theorem sql_alterTable (name : String) (changes : List Alteration) :
    (alterTable name changes).sql = "alter table " ++ (identifier name ++
      ("\n" ++ ",\n".intercalate (changes.map Alteration.text))) := by
  show "alter table " ++ identifier name ++ "\n" ++ _ = _
  rw [String.append_assoc, String.append_assoc]

/-- The text of a statement asks for what the statement does. -/
theorem read?_sql {st : Statement} {a : TableAction} {table : String}
    (h : st.action? = some (a, table)) : a.read? st.sql = some table := by
  cases st with
  | text _ | rows _ | remove _ | flag _ _ | tableNames => cases h
  | columns name | indexes name | definition name | dropTable name =>
      cases h
      exact Phrase.read?_identifier _ _
  | foreignKeys name =>
      cases h
      have hending : TableAction.foreignKeys.phrase.ending.toList.head? ≠ some '\'' := by decide
      exact Phrase.read?_stringLiteral TableAction.foreignKeys.phrase.words table _ hending
  | createTable t names =>
      cases h
      obtain ⟨rest, hsql⟩ := exists_sql_createTable t names
      have hread := Phrase.read?_identifier_append "create table " t.name " (" rest (by simp)
      rw [hsql]
      exact hread
  | alterTable name changes =>
      cases h
      have hread := Phrase.read?_identifier_append "alter table " table "\n"
        (",\n".intercalate (changes.map Alteration.text)) (by simp)
      rw [sql_alterTable]
      exact hread

theorem readAny?_sql {st : Statement} {a : TableAction} {table : String}
    (h : st.action? = some (a, table)) : TableAction.readAny? st.sql = some (a, table) :=
  TableAction.readAny?_eq_some_iff.2 (read?_sql h)

end Statement

end Persistence
