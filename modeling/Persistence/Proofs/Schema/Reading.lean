import Persistence.Proofs.Number.Spelling
import Persistence.Proofs.Schema.Written

/-!
# What the definition of a table reads as

A reader takes the text of a definition apart again: into lexemes, and these into columns, keys and
options.  The statement that creates a table is read to its end and says exactly what the table has,
with every column and every key in its place; so nothing that stands in a name or in a default
value adds a definition, hides one or changes one.

Main results:

- `WrittenTable.take?_lexemes`: the lexemes of a written table read as that table.
- `Table.read?_createStatement`: the statement that creates a table says what the table has.
-/

namespace Persistence

open Sql

/-! ## The reader -/

/-- The number that a word of digits is. -/
def number? (s : String) : Option Nat :=
  if s != "" && s.toList.all Char.isDigit then some (digitsValue s.toList) else none

/-- The lexemes behind some expected ones. -/
def expect? (front lexemes : List Lexeme) : Option (List Lexeme) :=
  if front.isPrefixOf lexemes then some (lexemes.drop front.length) else none

def takeName? : List Lexeme → Option (String × List Lexeme)
  | .name s :: rest => some (s, rest)
  | _ => none

/-- The names behind an opening parenthesis, up to the closing one. -/
def takeMoreNames? : List Lexeme → Option (List String × List Lexeme)
  | .name s :: .mark ')' :: rest => some ([s], rest)
  | .name s :: .mark ',' :: rest => do
      let (names, rest) ← takeMoreNames? rest
      some (s :: names, rest)
  | _ => none

/-- Names in parentheses. -/
def takeNames? : List Lexeme → Option (List String × List Lexeme)
  | .mark '(' :: .mark ')' :: rest => some ([], rest)
  | .mark '(' :: rest => takeMoreNames? rest
  | _ => none

/-- One name in parentheses. -/
def takeOnlyName? (lexemes : List Lexeme) : Option (String × List Lexeme) := do
  match ← takeNames? lexemes with
  | ([s], rest) => some (s, rest)
  | _ => none

/-- The size of a column, if there is one. -/
def takeSize? : List Lexeme → Option (Option (Nat × Option Nat) × List Lexeme)
  | .mark '(' :: .word length :: .mark ')' :: rest => do
      let length ← number? length
      some (some (length, none), rest)
  | .mark '(' :: .word length :: .mark ',' :: .word precision :: .mark ')' :: rest => do
      let length ← number? length
      let precision ← number? precision
      some (some (length, some precision), rest)
  | rest => some (none, rest)

/-- Whether a column takes no null. -/
def takeNotNull? : List Lexeme → Option (Bool × List Lexeme)
  | .word "not" :: .word "null" :: rest => some (true, rest)
  | .word "null" :: rest => some (false, rest)
  | _ => none

def Constant.take? : List Lexeme → Option (Constant × List Lexeme)
  | .word s :: .mark '(' :: .text wellKnown :: .mark ',' :: .word srid :: .mark ')' :: rest => do
      let srid ← number? srid
      if s = pointFunction then some (point wellKnown srid, rest) else none
  | .word s :: rest => some (word s, rest)
  | .text s :: rest => some (text s, rest)
  | _ => none

/-- The default clause of a column, if there is one. -/
def takeDefault? : List Lexeme → Option (Option Constant × List Lexeme)
  | .word "default" :: rest => do
      let (k, rest) ← Constant.take? rest
      some (some k, rest)
  | rest => some (none, rest)

/-- Whether a column counts by itself. -/
def takeAutoIncrement? : List Lexeme → Option (Bool × List Lexeme)
  | .word "auto_increment" :: rest => some (true, rest)
  | rest => some (false, rest)

/-- The type of a name. -/
def ColumnType.named? (name : String) : Option ColumnType := all.find? fun type => type.name = name

/-- The definition of a column behind its name. -/
def WrittenColumn.take? (name : String) : List Lexeme → Option (WrittenColumn × List Lexeme)
  | .word type :: rest => do
      let type ← ColumnType.named? type
      let (size, rest) ← takeSize? rest
      let (notNull, rest) ← takeNotNull? rest
      let (defaultValue, rest) ← takeDefault? rest
      let (autoIncrement, rest) ← takeAutoIncrement? rest
      some (⟨name, type, size, notNull, defaultValue, autoIncrement⟩, rest)
  | _ => none

def ForeignAction.take? : List Lexeme → Option (ForeignAction × List Lexeme)
  | .word "CASCADE" :: rest => some (cascade, rest)
  | .word "SET" :: .word "NULL" :: rest => some (setNull, rest)
  | .word "NO" :: .word "ACTION" :: rest => some (noAction, rest)
  | _ => none

/-- The definition of a foreign key. -/
def takeForeignKey? (lexemes : List Lexeme) : Option (Definition × List Lexeme) := do
  let (name, rest) ← takeName? lexemes
  let rest ← expect? [.word "foreign", .word "key"] rest
  let (source, rest) ← takeOnlyName? rest
  let rest ← expect? [.word "references"] rest
  let (table, rest) ← takeName? rest
  let (target, rest) ← takeOnlyName? rest
  let rest ← expect? [.word "on", .word "delete"] rest
  let (onDelete, rest) ← ForeignAction.take? rest
  let rest ← expect? [.word "on", .word "update"] rest
  let (onUpdate, rest) ← ForeignAction.take? rest
  some (.foreignKey name source table target onDelete onUpdate, rest)

def Definition.take? : List Lexeme → Option (Definition × List Lexeme)
  | .name name :: rest => do
      let (c, rest) ← WrittenColumn.take? name rest
      some (column c, rest)
  | .word "primary" :: .word "key" :: rest => do
      let (columns, rest) ← takeNames? rest
      some (primaryKey columns, rest)
  | .word "unique" :: .word "key" :: .name name :: rest => do
      let (columns, rest) ← takeNames? rest
      some (uniqueKey name columns, rest)
  | .word "constraint" :: rest => takeForeignKey? rest
  | _ => none

/-- The definitions behind an opening parenthesis, up to the closing one; at most `most` of
them. -/
def takeMoreDefinitions? : Nat → List Lexeme → Option (List Definition × List Lexeme)
  | 0, _ => none
  | most + 1, lexemes => do
      let (d, rest) ← Definition.take? lexemes
      match rest with
      | .mark ')' :: rest => some ([d], rest)
      | .mark ',' :: rest => do
          let (definitions, rest) ← takeMoreDefinitions? most rest
          some (d :: definitions, rest)
      | _ => none

/-- Definitions in parentheses; there are not more of them than lexemes. -/
def takeDefinitions? : List Lexeme → Option (List Definition × List Lexeme)
  | .mark '(' :: .mark ')' :: rest => some ([], rest)
  | .mark '(' :: rest => takeMoreDefinitions? rest.length rest
  | _ => none

/-- The value of an option. -/
def takeOption? (option : String) : List Lexeme → Option (String × List Lexeme)
  | .word s :: .mark '=' :: .word value :: rest => if s = option then some (value, rest) else none
  | _ => none

def WrittenTable.take? (lexemes : List Lexeme) : Option (WrittenTable × List Lexeme) := do
  let rest ← expect? [.word "create", .word "table"] lexemes
  let (name, rest) ← takeName? rest
  let (definitions, rest) ← takeDefinitions? rest
  let (engine, rest) ← takeOption? "engine" rest
  let (charset, rest) ← takeOption? "charset" rest
  let (collate, rest) ← takeOption? "collate" rest
  some (⟨name, definitions, engine, charset, collate⟩, rest)

/-- The table that a text is the definition of; nothing may stand behind the definition. -/
def WrittenTable.read? (text : String) : Option WrittenTable := do
  match ← take? (← lexemes? text) with
  | (table, []) => some table
  | _ => none

/-! ## Names and numbers -/

theorem expect?_append (front rest : List Lexeme) : expect? front (front ++ rest) = some rest := by
  simp [expect?]

theorem number?_toString (n : Nat) : number? (toString n) = some n := by
  have hlist : (toString n).toList = Nat.toDigits 10 n := toList_toString_ofNat n
  have hne : (toString n != "") = true := by
    rw [bne_iff_ne]
    intro hempty
    rw [hempty] at hlist
    exact Nat.toDigits_ne_nil hlist.symm
  have hdigits : (Nat.toDigits 10 n).all Char.isDigit = true :=
    List.all_eq_true.2 (allDigits_toDigits n)
  rw [number?, hne, hlist, hdigits, digitsValue_toDigits]
  rfl

/-- The first comma of some lexemes that have commas between them. -/
theorem intercalate_comma_cons (part next : List Lexeme) (parts : List (List Lexeme))
    (rest : List Lexeme) :
    [.mark ','].intercalate (part :: next :: parts) ++ rest =
      part ++ .mark ',' :: ([.mark ','].intercalate (next :: parts) ++ rest) := by
  rw [List.intercalate_cons_cons]
  simp

theorem takeMoreNames?_lexemes (name : String) (names : List String) (rest : List Lexeme) :
    takeMoreNames? ([.mark ','].intercalate ((name :: names).map fun name => [.name name]) ++
      .mark ')' :: rest) = some (name :: names, rest) := by
  induction names generalizing name with
  | nil => rfl
  | cons next names ih =>
      have hnext := ih next
      rw [List.map_cons] at hnext
      rw [List.map_cons, List.map_cons, intercalate_comma_cons]
      show (takeMoreNames? _).bind _ = _
      rw [hnext]
      rfl

/-- Names in parentheses read as these names. -/
theorem takeNames?_lexemes (names : List String) (rest : List Lexeme) :
    takeNames? (namesLexemes names ++ rest) = some (names, rest) := by
  cases names with
  | nil => rfl
  | cons name names =>
      have hmore := takeMoreNames?_lexemes name names rest
      rw [namesLexemes, List.cons_append, List.cons_append, List.append_assoc,
        List.singleton_append, takeNames?]
      · exact hmore
      · intro tail htail
        cases names <;> simp at htail

theorem takeOnlyName?_lexemes (name : String) (rest : List Lexeme) :
    takeOnlyName? (namesLexemes [name] ++ rest) = some (name, rest) := by
  rw [takeOnlyName?, takeNames?_lexemes]
  rfl

/-! ## Columns -/

theorem ColumnType.named?_name (type : ColumnType) : named? type.name = some type := by
  cases type <;> rfl

/-- The size of a column reads as this size if no parenthesis follows. -/
theorem takeSize?_lexemes (size : Option (Nat × Option Nat)) {rest : List Lexeme}
    (hrest : rest.head? ≠ some (.mark '(')) :
    takeSize? (sizeLexemes size ++ rest) = some (size, rest) := by
  cases size with
  | none =>
      -- without a size, what follows must not be taken for one
      rw [sizeLexemes, List.nil_append]
      unfold takeSize?
      split
      · simp at hrest
      · simp at hrest
      · rfl
  | some size =>
      obtain ⟨length, _ | precision⟩ := size
      · show (number? (toString length)).bind _ = _
        rw [number?_toString]
        rfl
      · show (number? (toString length)).bind _ = _
        rw [number?_toString, Option.bind_some, number?_toString]
        rfl

theorem takeNotNull?_lexemes (notNull : Bool) (rest : List Lexeme) :
    takeNotNull? (notNullLexemes notNull ++ rest) = some (notNull, rest) := by
  cases notNull <;> rfl

/-- A constant reads as this constant if no parenthesis follows. -/
theorem Constant.take?_lexemes (k : Constant) {rest : List Lexeme}
    (hrest : rest.head? ≠ some (.mark '(')) : take? (k.lexemes ++ rest) = some (k, rest) := by
  cases k with
  | word s =>
      rw [lexemes, List.singleton_append, take?]
      rintro wellKnown srid tail rfl
      exact hrest rfl
  | text s => rfl
  | point wellKnown srid =>
      show (number? (toString srid)).bind _ = _
      rw [number?_toString]
      rfl

/-- What ends a definition: a comma, the closing parenthesis or the end of the text. -/
inductive EndsDefinition : List Lexeme → Prop
  | comma (rest : List Lexeme) : EndsDefinition (.mark ',' :: rest)
  | closing (rest : List Lexeme) : EndsDefinition (.mark ')' :: rest)
  | ending : EndsDefinition []

section Traits

variable {rest : List Lexeme} (hrest : EndsDefinition rest)

include hrest

theorem takeAutoIncrement?_lexemes (autoIncrement : Bool) :
    takeAutoIncrement? (autoIncrementLexemes autoIncrement ++ rest) =
      some (autoIncrement, rest) := by
  cases autoIncrement with
  | true => rfl
  | false => cases hrest <;> rfl

theorem takeDefault?_lexemes (defaultValue : Option Constant) (autoIncrement : Bool) :
    takeDefault? (defaultLexemes defaultValue ++ (autoIncrementLexemes autoIncrement ++ rest)) =
      some (defaultValue, autoIncrementLexemes autoIncrement ++ rest) := by
  cases defaultValue with
  | none => cases autoIncrement <;> cases hrest <;> rfl
  | some k =>
      have hparen : (autoIncrementLexemes autoIncrement ++ rest).head? ≠ some (.mark '(') := by
        cases autoIncrement <;> cases hrest <;> simp [autoIncrementLexemes]
      show (Constant.take? (k.lexemes ++ _)).bind _ = _
      rw [k.take?_lexemes hparen]
      rfl

/-- A column reads as this column. -/
theorem WrittenColumn.take?_lexemes (c : WrittenColumn) :
    take? c.name (c.traitLexemes ++ rest) = some (c, rest) := by
  have hparen : ∀ behind, (notNullLexemes c.notNull ++ behind).head? ≠ some (.mark '(') := by
    intro behind
    cases c.notNull <;> simp [notNullLexemes]
  rw [traitLexemes, List.cons_append, take?, ColumnType.named?_name]
  simp only [List.append_assoc, Option.bind_eq_bind, Option.bind_some,
    takeSize?_lexemes _ (hparen _), takeNotNull?_lexemes, takeDefault?_lexemes hrest,
    takeAutoIncrement?_lexemes hrest]

end Traits

/-! ## Keys -/

theorem ForeignAction.take?_lexemes (a : ForeignAction) (rest : List Lexeme) :
    take? (a.lexemes ++ rest) = some (a, rest) := by
  cases a <;> rfl

theorem takeForeignKey?_lexemes (name source table target : String)
    (onDelete onUpdate : ForeignAction) (rest : List Lexeme) :
    Definition.take? ((Definition.foreignKey name source table target onDelete onUpdate).lexemes ++
      rest) = some (.foreignKey name source table target onDelete onUpdate, rest) := by
  have hexpect : ∀ first second behind,
      expect? [.word first, .word second] (.word first :: .word second :: behind) = some behind :=
    fun first second behind => expect?_append [.word first, .word second] behind
  have hreferences : ∀ behind,
      expect? [.word "references"] (.word "references" :: behind) = some behind :=
    fun behind => expect?_append [.word "references"] behind
  simp only [Definition.lexemes, List.cons_append, List.append_assoc, Definition.take?,
    takeForeignKey?, takeName?, Option.bind_eq_bind, Option.bind_some, hexpect, hreferences,
    takeOnlyName?_lexemes, ForeignAction.take?_lexemes]

/-- A definition reads as this definition. -/
theorem Definition.take?_lexemes (d : Definition) {rest : List Lexeme}
    (hrest : EndsDefinition rest) : take? (d.lexemes ++ rest) = some (d, rest) := by
  cases d with
  | column c =>
      show (WrittenColumn.take? c.name (c.traitLexemes ++ rest)).bind _ = _
      rw [c.take?_lexemes hrest]
      rfl
  | primaryKey columns =>
      show (takeNames? (namesLexemes columns ++ rest)).bind _ = _
      rw [takeNames?_lexemes]
      rfl
  | uniqueKey name columns =>
      show (takeNames? (namesLexemes columns ++ rest)).bind _ = _
      rw [takeNames?_lexemes]
      rfl
  | foreignKey name source table target onDelete onUpdate =>
      exact takeForeignKey?_lexemes name source table target onDelete onUpdate rest

/-! ## Tables -/

/-- A definition starts with no mark. -/
theorem Definition.exists_lexemes_eq (d : Definition) :
    ∃ first rest, d.lexemes = first :: rest ∧ ∀ c, first ≠ .mark c := by
  cases d <;> exact ⟨_, _, rfl, by simp⟩

/-- Definitions read as these definitions if the reader goes on long enough. -/
theorem takeMoreDefinitions?_lexemes (d : Definition) (definitions : List Definition) {most : Nat}
    (hmost : definitions.length < most) (rest : List Lexeme) :
    takeMoreDefinitions? most
      ([.mark ','].intercalate ((d :: definitions).map Definition.lexemes) ++ .mark ')' :: rest) =
        some (d :: definitions, rest) := by
  induction definitions generalizing d most with
  | nil =>
      obtain ⟨most, rfl⟩ := Nat.exists_eq_add_one.2 (Nat.zero_lt_of_lt hmost)
      rw [List.map_singleton, List.intercalate_singleton, takeMoreDefinitions?,
        d.take?_lexemes (.closing rest)]
      rfl
  | cons next definitions ih =>
      obtain ⟨most, rfl⟩ := Nat.exists_eq_add_one.2 (Nat.zero_lt_of_lt hmost)
      have hnext := ih next (Nat.lt_of_succ_lt_succ hmost)
      rw [List.map_cons] at hnext
      rw [List.map_cons, List.map_cons, intercalate_comma_cons, takeMoreDefinitions?,
        d.take?_lexemes (.comma _)]
      show (takeMoreDefinitions? most _).bind _ = _
      rw [hnext]
      rfl

/-- What stands between commas is at least as long as the commas. -/
theorem length_le_length_intercalate (parts : List (List Lexeme)) :
    parts.length ≤ ([.mark ','].intercalate parts).length + 1 := by
  induction parts with
  | nil => simp
  | cons part parts ih =>
      cases parts with
      | nil => simp
      | cons next parts =>
          rw [List.intercalate_cons_cons, List.length_append, List.length_append, List.length_cons,
            List.length_singleton]
          omega

/-- Definitions in parentheses read as these definitions. -/
theorem takeDefinitions?_lexemes (definitions : List Definition) (rest : List Lexeme) :
    takeDefinitions? (.mark '(' ::
      ([.mark ','].intercalate (definitions.map Definition.lexemes) ++ .mark ')' :: rest)) =
        some (definitions, rest) := by
  cases definitions with
  | nil => rfl
  | cons d definitions =>
      -- every definition but the last has a comma behind it, and the last the parenthesis
      have hlength := length_le_length_intercalate ((d :: definitions).map Definition.lexemes)
      rw [List.length_map, List.length_cons] at hlength
      rw [takeDefinitions?]
      · refine takeMoreDefinitions?_lexemes d definitions ?_ rest
        rw [List.length_append, List.length_cons]
        omega
      · intro tail htail
        obtain ⟨first, behind, hfirst, hmark⟩ := d.exists_lexemes_eq
        cases definitions <;> simp [hfirst, hmark] at htail

/-- The lexemes of a written table read as that table. -/
theorem WrittenTable.take?_lexemes (t : WrittenTable) (rest : List Lexeme) :
    take? (t.lexemes ++ rest) = some (t, rest) := by
  have hexpect : ∀ behind, expect? [.word "create", .word "table"]
      (.word "create" :: .word "table" :: behind) = some behind :=
    fun behind => expect?_append [.word "create", .word "table"] behind
  have hoption : ∀ option value behind,
      takeOption? option (optionLexemes option value ++ behind) = some (value, behind) :=
    fun option value behind => if_pos rfl
  simp only [lexemes, List.cons_append, List.append_assoc, take?, takeName?, hexpect,
    Option.bind_eq_bind, Option.bind_some, takeDefinitions?_lexemes, hoption]

/-- The statement that creates a table is read to its end, as the table with all of its columns,
keys and options, whatever stands in the names and in the default values. -/
theorem Table.read?_createStatement {t : Table} (h : t.IsDefinable) (names : Names) :
    WrittenTable.read? (t.createStatement names) = some (t.written names) := by
  have htake := (t.written names).take?_lexemes []
  rw [List.append_nil] at htake
  rw [WrittenTable.read?, (t.lexes_createStatement h names).lexemes?_eq, Option.bind_eq_bind,
    Option.bind_some, htake]
  rfl

/-- A table with quotes, commas and parentheses in its names and in a default value. -/
def Table.punctuated : Table where
  name := "a\x60 (b, c)"
  charset := defaultCharset
  collate := defaultCollate
  engine := defaultEngine
  softDelete := false
  columns := [
    { name := "id\x60), (\x60", property := none, type := .int, length := none, precision := none,
      notNull := true, autoIncrement := true, defaultValue := none, deleteValue := none },
    { name := "text", property := none, type := .varchar, length := some 40, precision := none,
      notNull := false, autoIncrement := false,
      defaultValue := some (.string "\\', \x60x\x60 int null, primary key (\x60y\x60)"),
      deleteValue := none }]
  primaryKeys := ["id\x60), (\x60"]
  uniqueKeys := [("group", ["text", "id\x60), (\x60"])]
  foreignKeys := [("text", ⟨"d\x60", "\n) engine=", .setNull⟩)]

/-- What stands in names and in a default value is no definition. -/
theorem Table.read?_createStatement_punctuated :
    punctuated.IsDefinable ∧
      WrittenTable.read? (punctuated.createStatement fun i => "'" ++ toString i) =
        some
          { name := "a\x60 (b, c)"
            definitions := [
              .column ⟨"id\x60), (\x60", .int, none, true, none, true⟩,
              .column ⟨"text", .varchar, some (40, none), false,
                some (.text "\\', \x60x\x60 int null, primary key (\x60y\x60)"), false⟩,
              .primaryKey ["id\x60), (\x60"],
              .uniqueKey "'0" ["text", "id\x60), (\x60"],
              .foreignKey "'1" "text" "d\x60" "\n) engine=" .setNull .setNull]
            engine := "InnoDB"
            charset := "utf8"
            collate := "utf8_general_ci" } := by
  have hdefinable : punctuated.IsDefinable := by
    refine ⟨?_, rfl, rfl, rfl⟩
    intro c hc items
    simp only [punctuated, List.mem_cons, List.not_mem_nil, or_false] at hc
    rcases hc with rfl | rfl <;> simp
  exact ⟨hdefinable, read?_createStatement hdefinable _⟩

end Persistence
