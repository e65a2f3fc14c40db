import Persistence.Proofs.Schema.Reading
import Persistence.Statement

/-!
# What a statement that alters a table says

The clauses of a statement that alters a table, read off its text: which columns, keys and indexes go,
come or are defined anew.  The readers of definitions take the clauses apart, too, and the whole text
reads as the clauses that the changes stand for, whatever names and default values they have.

Main results:

- `Clause.take?_lexemes`: the lexemes of a clause read as that clause.
- `Alteration.lexes_text`: the lexemes of the text of a change.
- `readAlter?_alterTable`: the statement that alters a table says what its changes are.
-/

namespace Persistence

open Sql

/-! ## Clauses -/

/-- A clause of a statement that alters a table, as it is written. -/
inductive Clause
  | dropColumn (name : String)
  | modifyColumn (c : WrittenColumn)
  | addColumn (c : WrittenColumn)
  | dropPrimaryKey
  | addPrimaryKey (columns : List String)
  | dropIndex (name : String)
  | addUnique (name : String) (columns : List String)
  | dropForeignKey (name : String)
  | addForeignKey (name column table target : String) (onDelete onUpdate : ForeignAction)
  | options (engine charset collate : String)
deriving DecidableEq

/-- The clause that a change is written as. -/
def Alteration.clause : Alteration → Clause
  | dropColumn name => .dropColumn name
  | modifyColumn c => .modifyColumn c.written
  | addColumn c => .addColumn c.written
  | dropPrimaryKey => .dropPrimaryKey
  | addPrimaryKey columns => .addPrimaryKey columns
  | dropIndex name => .dropIndex name
  | addUnique name columns => .addUnique name columns
  | dropForeignKey name => .dropForeignKey name
  | addForeignKey name column key =>
      .addForeignKey name column key.table key.column key.action key.action
  | options engine charset collate => .options engine charset collate

/-- The lexemes of the options of a table, with commas between them. -/
def optionsLexemes (engine charset collate : String) : List Lexeme :=
  optionLexemes "engine" engine ++ .mark ',' :: .word "character" ::
    (optionLexemes "set" charset ++ .mark ',' :: optionLexemes "collate" collate)

def Clause.lexemes : Clause → List Lexeme
  | dropColumn name => [.word "drop", .word "column", .name name]
  | modifyColumn c => .word "modify" :: .word "column" :: (Definition.column c).lexemes
  | addColumn c => .word "add" :: .word "column" :: (Definition.column c).lexemes
  | dropPrimaryKey => [.word "drop", .word "primary", .word "key"]
  | addPrimaryKey columns => .word "add" :: (Definition.primaryKey columns).lexemes
  | dropIndex name => [.word "drop", .word "index", .name name]
  | addUnique name columns =>
      .word "add" :: .word "unique" :: .word "index" :: .name name :: namesLexemes columns
  | dropForeignKey name => [.word "drop", .word "foreign", .word "key", .name name]
  | addForeignKey name column table target onDelete onUpdate =>
      .word "add" :: (Definition.foreignKey name column table target onDelete onUpdate).lexemes
  | options engine charset collate => optionsLexemes engine charset collate

/-! ## The reader -/

/-- The options of a table behind their first word. -/
def takeOptions? (lexemes : List Lexeme) : Option (Clause × List Lexeme) := do
  let (engine, rest) ← takeOption? "engine" lexemes
  let rest ← expect? [.mark ',', .word "character"] rest
  let (charset, rest) ← takeOption? "set" rest
  let rest ← expect? [.mark ','] rest
  let (collate, rest) ← takeOption? "collate" rest
  some (.options engine charset collate, rest)

/-- A clause that defines a column, behind its first words. -/
def takeColumn? (clause : WrittenColumn → Clause) : List Lexeme → Option (Clause × List Lexeme)
  | .name name :: rest => do
      let (c, rest) ← WrittenColumn.take? name rest
      some (clause c, rest)
  | _ => none

def Clause.take? : List Lexeme → Option (Clause × List Lexeme)
  | .word "drop" :: .word "column" :: .name name :: rest => some (dropColumn name, rest)
  | .word "modify" :: .word "column" :: rest => takeColumn? modifyColumn rest
  | .word "add" :: .word "column" :: rest => takeColumn? addColumn rest
  | .word "drop" :: .word "primary" :: .word "key" :: rest => some (dropPrimaryKey, rest)
  | .word "add" :: .word "primary" :: .word "key" :: rest => do
      let (columns, rest) ← takeNames? rest
      some (addPrimaryKey columns, rest)
  | .word "drop" :: .word "index" :: .name name :: rest => some (dropIndex name, rest)
  | .word "add" :: .word "unique" :: .word "index" :: .name name :: rest => do
      let (columns, rest) ← takeNames? rest
      some (addUnique name columns, rest)
  | .word "drop" :: .word "foreign" :: .word "key" :: .name name :: rest =>
      some (dropForeignKey name, rest)
  | .word "add" :: .word "constraint" :: rest => do
      match ← Definition.take? (.word "constraint" :: rest) with
      | (.foreignKey name column table target onDelete onUpdate, rest) =>
          some (addForeignKey name column table target onDelete onUpdate, rest)
      | _ => none
  | rest => takeOptions? rest

/-- Clauses with commas between them, up to the end of the text; at most `most` of them. -/
def takeClauses? : Nat → List Lexeme → Option (List Clause)
  | 0, _ => none
  | most + 1, lexemes => do
      let (c, rest) ← Clause.take? lexemes
      match rest with
      | [] => some [c]
      | .mark ',' :: rest => do
          let clauses ← takeClauses? most rest
          some (c :: clauses)
      | _ => none

/-- The table that a text alters, and the clauses of the text; there are not more commas between
these than lexemes. -/
def readAlter? (text : String) : Option (String × List Clause) := do
  let rest ← expect? [.word "alter", .word "table"] (← lexemes? text)
  let (name, rest) ← takeName? rest
  let clauses ← takeClauses? (rest.length + 1) rest
  some (name, clauses)

/-! ## Reading clauses -/

theorem takeOptions?_lexemes (engine charset collate : String) (rest : List Lexeme) :
    takeOptions? (optionsLexemes engine charset collate ++ rest) =
      some (.options engine charset collate, rest) := by
  have hoption : ∀ option value behind,
      takeOption? option (optionLexemes option value ++ behind) = some (value, behind) :=
    fun option value behind => if_pos rfl
  have hcharacter : ∀ behind, expect? [.mark ',', .word "character"]
      (.mark ',' :: .word "character" :: behind) = some behind :=
    fun behind => expect?_append [.mark ',', .word "character"] behind
  have hcomma : ∀ behind, expect? [.mark ','] (.mark ',' :: behind) = some behind :=
    fun behind => expect?_append [.mark ','] behind
  simp only [optionsLexemes, List.append_assoc, List.cons_append, takeOptions?, hoption,
    hcharacter, hcomma, Option.bind_eq_bind, Option.bind_some]

theorem takeColumn?_lexemes (clause : WrittenColumn → Clause) (c : WrittenColumn)
    {rest : List Lexeme} (hrest : EndsDefinition rest) :
    takeColumn? clause ((Definition.column c).lexemes ++ rest) = some (clause c, rest) := by
  show (WrittenColumn.take? c.name (c.traitLexemes ++ rest)).bind _ = _
  rw [c.take?_lexemes hrest]
  rfl

/-- A clause reads as this clause. -/
theorem Clause.take?_lexemes (c : Clause) {rest : List Lexeme} (hrest : EndsDefinition rest) :
    take? (c.lexemes ++ rest) = some (c, rest) := by
  cases c with
  | dropColumn name | dropPrimaryKey | dropIndex name | dropForeignKey name => rfl
  | modifyColumn c => exact takeColumn?_lexemes modifyColumn c hrest
  | addColumn c => exact takeColumn?_lexemes addColumn c hrest
  | addPrimaryKey columns =>
      show (takeNames? (namesLexemes columns ++ rest)).bind _ = _
      rw [takeNames?_lexemes]
      rfl
  | addUnique name columns =>
      show (takeNames? (namesLexemes columns ++ rest)).bind _ = _
      rw [takeNames?_lexemes]
      rfl
  | addForeignKey name column table target onDelete onUpdate =>
      have hkey := takeForeignKey?_lexemes name column table target onDelete onUpdate rest
      show (Definition.take? ((Definition.foreignKey _ _ _ _ _ _).lexemes ++ rest)).bind _ = _
      rw [hkey]
      rfl
  | options engine charset collate => exact takeOptions?_lexemes engine charset collate rest

/-- Clauses read as these clauses if the reader goes on long enough. -/
theorem takeClauses?_lexemes (c : Clause) (clauses : List Clause) {most : Nat}
    (hmost : clauses.length < most) :
    takeClauses? most ([.mark ','].intercalate ((c :: clauses).map Clause.lexemes)) =
      some (c :: clauses) := by
  induction clauses generalizing c most with
  | nil =>
      obtain ⟨most, rfl⟩ := Nat.exists_eq_add_one.2 (Nat.zero_lt_of_lt hmost)
      have hlast := c.take?_lexemes .ending
      rw [List.append_nil] at hlast
      rw [List.map_singleton, List.intercalate_singleton, takeClauses?, hlast]
      rfl
  | cons next clauses ih =>
      obtain ⟨most, rfl⟩ := Nat.exists_eq_add_one.2 (Nat.zero_lt_of_lt hmost)
      have hnext := ih next (Nat.lt_of_succ_lt_succ hmost)
      rw [List.map_cons] at hnext
      have hcomma := intercalate_comma_cons c.lexemes next.lexemes (clauses.map Clause.lexemes) []
      rw [List.append_nil, List.append_nil] at hcomma
      rw [List.map_cons, List.map_cons, hcomma, takeClauses?, c.take?_lexemes (.comma _)]
      show (takeClauses? most _).bind _ = _
      rw [hnext]
      rfl

/-! ## The text of changes -/

/-- Words with a blank behind each of them have their lexemes in front of those of another text. -/
theorem Sql.Lexes.behindWords (words : List String) (hwords : ∀ word ∈ words, isWord word = true)
    (front : String) {back : String} {ls : List Lexeme}
    (hfront : front.toList = words.flatMap fun word => word.toList ++ [' '])
    (hback : Lexes back ls) : Lexes (front ++ back) (words.map Lexeme.word ++ ls) := by
  induction words generalizing front with
  | nil =>
      obtain rfl : front = "" := String.toList_injective hfront
      rwa [String.empty_append]
  | cons word words ih =>
      obtain ⟨hword, hwords⟩ := List.forall_mem_cons.1 hwords
      have hrest := ih hwords (String.ofList (words.flatMap fun word => word.toList ++ [' ']))
        String.toList_ofList
      refine .of_eq (.blank (.word word hword) hrest) ?_ rfl
      apply String.toList_injective
      simp [hfront]

namespace Alteration

/-- What a change has to be for a clause: it defines no column with a list as its default value, adds
no key without columns, and has words as options. -/
def IsDefinable : Alteration → Prop
  | modifyColumn c | addColumn c => ∀ v ∈ c.defaultValue, v.constant?.isSome
  | addPrimaryKey columns => columns ≠ []
  | options engine charset collate =>
      isWord engine = true ∧ isWord charset = true ∧ isWord collate = true
  | _ => True

theorem lexes_options {engine charset collate : String} (hengine : isWord engine = true)
    (hcharset : isWord charset = true) (hcollate : isWord collate = true) :
    Lexes ("engine = " ++ engine ++ ", character set = " ++ charset ++ ", collate = " ++ collate)
      (optionsLexemes engine charset collate) := by
  have hlast := Lexes.across " = " rfl (.word "collate" rfl) (.word collate hcollate)
  have hset := Lexes.across " = " rfl (.word "set" rfl)
    (Lexes.across ", " rfl (.word charset hcharset) hlast)
  have hfirst := Lexes.across " = " rfl (.word "engine" rfl)
    (Lexes.across ", " rfl (.word engine hengine) (.blank (.word "character" rfl) hset))
  refine .of_eq hfirst ?_ rfl
  apply String.toList_injective
  simp

/-- The text of a change has the lexemes of its clause. -/
theorem lexes_text {a : Alteration} (h : a.IsDefinable) : Lexes a.text a.clause.lexemes := by
  have hadd : ∀ {back : String} {ls : List Lexeme}, Lexes back ls →
      Lexes ("add " ++ back) (.word "add" :: ls) :=
    Lexes.behindWords ["add"] (by decide) "add " rfl
  cases a with
  | dropColumn name =>
      exact Lexes.behindWords ["drop", "column"] (by decide) _ rfl (.identifier name)
  | modifyColumn c =>
      exact Lexes.behindWords ["modify", "column"] (by decide) _ rfl (c.lexes_definition h)
  | addColumn c =>
      exact Lexes.behindWords ["add", "column"] (by decide) _ rfl (c.lexes_definition h)
  | dropPrimaryKey =>
      exact .blank (.word "drop" rfl) (.blank (.word "primary" rfl) (.word "key" rfl))
  | addPrimaryKey columns => exact hadd (lexes_primaryKeyDefinition h)
  | dropIndex name =>
      exact Lexes.behindWords ["drop", "index"] (by decide) _ rfl (.identifier name)
  | addUnique name columns =>
      have hkey := Lexes.behindWords ["add", "unique", "index"] (by decide)
        "add unique index " rfl
        ((Lexes.identifier name).append (lexesApart_identifierList columns))
      rw [← String.append_assoc, ← String.append_assoc, ← String.append_assoc] at hkey
      exact hkey
  | dropForeignKey name =>
      exact Lexes.behindWords ["drop", "foreign", "key"] (by decide) _ rfl (.identifier name)
  | addForeignKey name column key => exact hadd (key.lexes_definition name column)
  | options engine charset collate => exact lexes_options h.1 h.2.1 h.2.2

end Alteration

/-- The statement that alters a table has the lexemes of its clauses. -/
theorem lexes_alterTable (name : String) {changes : List Alteration}
    (h : ∀ a ∈ changes, a.IsDefinable) :
    Lexes (Statement.alterTable name changes).sql
      (.word "alter" :: .word "table" :: .name name ::
        [.mark ','].intercalate ((changes.map Alteration.clause).map Clause.lexemes)) := by
  have hclauses : List.Forall₂ Lexes (changes.map Alteration.text)
      ((changes.map Alteration.clause).map Clause.lexemes) := by
    rw [List.map_map, List.forall₂_map_left_iff, List.forall₂_map_right_iff, List.forall₂_same]
    exact fun a ha => Alteration.lexes_text (h a ha)
  have halter := Lexes.behindWords ["alter", "table"] (by decide) "alter table " rfl
    (Lexes.across "\n" rfl (.identifier name) (Lexes.intercalate ",\n" rfl hclauses))
  rw [← String.append_assoc, ← String.append_assoc] at halter
  exact halter

/-- The statement that alters a table is read to its end, as the clauses of its changes. -/
theorem readAlter?_alterTable (name : String) {changes : List Alteration} (hne : changes ≠ [])
    (h : ∀ a ∈ changes, a.IsDefinable) :
    readAlter? (Statement.alterTable name changes).sql =
      some (name, changes.map Alteration.clause) := by
  have hexpect : ∀ behind, expect? [.word "alter", .word "table"]
      (.word "alter" :: .word "table" :: behind) = some behind :=
    fun behind => expect?_append [.word "alter", .word "table"] behind
  obtain ⟨first, rest, rfl⟩ := List.exists_cons_of_ne_nil hne
  have hlength := length_le_length_intercalate
    (((first :: rest).map Alteration.clause).map Clause.lexemes)
  rw [List.length_map, List.length_map, List.length_cons] at hlength
  rw [readAlter?, (lexes_alterTable name h).lexemes?_eq]
  simp only [Option.bind_eq_bind, Option.bind_some, hexpect, takeName?]
  rw [List.map_cons, takeClauses?_lexemes, Option.bind_some]
  rw [List.length_map]
  rw [List.map_cons] at hlength
  omega

/-- What stands in the names and in the default value of a column is no clause. -/
example : readAlter? (Statement.alterTable "a\x60 drop" [.dropColumn "x\x60, drop index \x60y"]).sql =
    some ("a\x60 drop", [.dropColumn "x\x60, drop index \x60y"]) := by
  decide +kernel

end Persistence
