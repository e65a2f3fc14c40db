import Persistence.Proofs.Sql.Lexemes
import Persistence.Proofs.Sql.Literal
import Persistence.Table.Ddl

/-!
# What the definition of a table says

The columns, the keys and the options that are in the definition of a table, without the way in
which they are written.  A written table has one row of lexemes, and the statement that creates a
table has these lexemes, whatever the names and the default texts in it are.

Main results:

- `Value.lexes_literal`: the lexemes of a default value.
- `Table.lexes_createStatement`: the lexemes of the statement that creates a table.
-/

namespace Persistence

open Sql

/-! ## Written tables -/

/-- A constant in a definition. -/
inductive Constant
  /-- A number, or a word for a constant. -/
  | word (s : String)
  | text (s : String)
  /-- A point by its well-known text in a reference system. -/
  | point (wellKnown : String) (srid : Nat)
deriving DecidableEq

/-- The definition of a column. -/
structure WrittenColumn where
  name : String
  type : ColumnType
  /-- The length, and the decimal places behind it. -/
  size : Option (Nat × Option Nat)
  notNull : Bool
  defaultValue : Option Constant
  autoIncrement : Bool
deriving DecidableEq

/-- A definition in a table. -/
inductive Definition
  | column (c : WrittenColumn)
  | primaryKey (columns : List String)
  | uniqueKey (name : String) (columns : List String)
  | foreignKey (name column table target : String) (onDelete onUpdate : ForeignAction)
deriving DecidableEq

/-- The definition of a table. -/
structure WrittenTable where
  name : String
  definitions : List Definition
  engine : String
  charset : String
  collate : String
deriving DecidableEq

/-- The constant that a value is in a definition; a list is none. -/
def Value.constant? : Value → Option Constant
  | null => some (.word "NULL")
  | bool b => some (.word (boolText b))
  | int n => some (.word (toString n))
  | uint n => some (.word (toString n))
  | float x => some (.word (floatLiteral x))
  | string s => some (.text s)
  | datetime t => some (.text t.sqlText)
  | date d => some (.text d.text)
  | time t => some (.text t.milliText)
  | json j => some (.text j.text)
  | point p => some (.point (wellKnownText p) p.srid)
  | list _ => none

/-- The length of a column and its decimal places, its own or those of its type. -/
def Column.size? (c : Column) : Option (Nat × Option Nat) :=
  (c.length <|> c.type.defaultLength?).map fun length =>
    (length, c.precision <|> c.type.defaultPrecision?)

/-- The definition of a column; a default of null is none. -/
def Column.written (c : Column) : WrittenColumn where
  name := c.name
  type := c.type
  size := c.size?
  notNull := c.notNull
  defaultValue := (c.defaultValue.filter fun v => !v.isNull).bind Value.constant?
  autoIncrement := c.autoIncrement

namespace Table

/-- The definitions of a table: columns, primary key, unique keys and foreign keys. -/
def writtenDefinitions (t : Table) (names : Names) : List Definition :=
  t.columns.map (fun c => .column c.written) ++
    (if t.primaryKeys.isEmpty then [] else [.primaryKey t.primaryKeys]) ++
    t.uniqueKeys.mapIdx (fun i (_, columns) => .uniqueKey (names i) columns) ++
    t.foreignKeys.mapIdx fun i (column, key) =>
      .foreignKey (names (t.uniqueKeys.length + i)) column key.table key.column key.action
        key.action

/-- The definition of a table. -/
def written (t : Table) (names : Names) : WrittenTable where
  name := t.name
  definitions := t.writtenDefinitions names
  engine := t.engine
  charset := t.charset
  collate := t.collate

end Table

/-! ## Their lexemes -/

namespace Constant

/-- The name of the function that makes a point. -/
def pointFunction : String := "st_geomfromtext"

def lexemes : Constant → List Lexeme
  | word s => [.word s]
  | text s => [.text s]
  | point wellKnown srid =>
      [.word pointFunction, .mark '(', .text wellKnown, .mark ',', .word (toString srid), .mark ')']

end Constant

/-- The lexemes of the size of a column. -/
def sizeLexemes : Option (Nat × Option Nat) → List Lexeme
  | none => []
  | some (length, none) => [.mark '(', .word (toString length), .mark ')']
  | some (length, some precision) =>
      [.mark '(', .word (toString length), .mark ',', .word (toString precision), .mark ')']

/-- The lexemes of names in parentheses. -/
def namesLexemes (names : List String) : List Lexeme :=
  .mark '(' :: [.mark ','].intercalate (names.map fun name => [.name name]) ++ [.mark ')']

def ForeignAction.lexemes : ForeignAction → List Lexeme
  | cascade => [.word "CASCADE"]
  | setNull => [.word "SET", .word "NULL"]
  | noAction => [.word "NO", .word "ACTION"]

def notNullLexemes (notNull : Bool) : List Lexeme :=
  if notNull then [.word "not", .word "null"] else [.word "null"]

def defaultLexemes : Option Constant → List Lexeme
  | none => []
  | some k => .word "default" :: k.lexemes

def autoIncrementLexemes (autoIncrement : Bool) : List Lexeme :=
  if autoIncrement then [.word "auto_increment"] else []

/-- The lexemes of a column behind its name. -/
def WrittenColumn.traitLexemes (c : WrittenColumn) : List Lexeme :=
  .word c.type.name :: (sizeLexemes c.size ++ (notNullLexemes c.notNull ++
    (defaultLexemes c.defaultValue ++ autoIncrementLexemes c.autoIncrement)))

def Definition.lexemes : Definition → List Lexeme
  | column c => .name c.name :: c.traitLexemes
  | primaryKey columns => .word "primary" :: .word "key" :: namesLexemes columns
  | uniqueKey name columns => .word "unique" :: .word "key" :: .name name :: namesLexemes columns
  | foreignKey name source table target onDelete onUpdate =>
      .word "constraint" :: .name name :: .word "foreign" :: .word "key" ::
        (namesLexemes [source] ++ .word "references" :: .name table ::
          (namesLexemes [target] ++ .word "on" :: .word "delete" ::
            (onDelete.lexemes ++ .word "on" :: .word "update" :: onUpdate.lexemes)))

/-- The lexemes of an option of a table. -/
def optionLexemes (option value : String) : List Lexeme := [.word option, .mark '=', .word value]

def WrittenTable.lexemes (t : WrittenTable) : List Lexeme :=
  .word "create" :: .word "table" :: .name t.name :: .mark '(' ::
    ([.mark ','].intercalate (t.definitions.map Definition.lexemes) ++ .mark ')' ::
      (optionLexemes "engine" t.engine ++ (optionLexemes "charset" t.charset ++
        optionLexemes "collate" t.collate)))

/-! ## Default values -/

namespace Sql.Lexes

/-- Text without quotes and backslashes is one lexeme between quotes. -/
theorem quoted {text : String} (h : Quotable text) : Lexes (Value.quoted text) [.text text] := by
  have hchar : ∀ c ∈ text.toList, ∀ s rest, lexemesFrom (.text s) ([c] ++ rest) =
      lexemesFrom (.text (s ++ [c])) rest := by
    intro c hc s rest
    obtain ⟨hslash, hquote⟩ := h c hc
    simp [lexemesFrom, Spot.continue?, hslash, hquote]
  have htext : (Value.quoted text).toList =
      '\'' :: (text.toList.flatMap (fun c => [c]) ++ ['\'']) := by
    simp [Value.quoted]
  exact enclosed .text rfl hchar rfl (by simp [Spot.pending]) htext

/-- An integer is one lexeme. -/
theorem int (n : Int) : Lexes (toString n) [.word (toString n)] := by
  have hdigits : ∀ m, ∃ c letters, Nat.toDigits 10 m = c :: letters ∧ c.isDigit = true ∧
      ∀ d ∈ letters, d.isDigit = true ∨ d = '.' := by
    intro m
    have hall := allDigits_toDigits m
    obtain ⟨c, letters, hcons⟩ := List.exists_cons_of_ne_nil (Nat.toDigits_ne_nil (n := m))
    rw [hcons] at hall
    obtain ⟨hc, hletters⟩ := List.forall_mem_cons.1 hall
    exact ⟨c, letters, hcons, hc, fun d hd => .inl (hletters d hd)⟩
  cases n with
  | ofNat n =>
      obtain ⟨c, letters, hcons, hc, hletters⟩ := hdigits n
      refine number false hc hletters ?_
      rw [toList_toString_ofNat, hcons]
      rfl
  | negSucc n =>
      obtain ⟨c, letters, hcons, hc, hletters⟩ := hdigits (n + 1)
      refine number true hc hletters ?_
      rw [toList_toString_negSucc, hcons]
      rfl

theorem nat (n : Nat) : Lexes (toString n) [.word (toString n)] := int n

/-- A floating-point number is one lexeme, and so is the word for one that is not finite. -/
theorem float (x : Binary64) : Lexes (Value.floatLiteral x) [.word (Value.floatLiteral x)] := by
  rw [Value.floatLiteral]
  split
  · next hfinite =>
      obtain ⟨c, letters, htext, hc⟩ := Decimal.exists_text_eq Decimal.Layout.plain
        (Decimal.shortest Decimal.Layout.plain.tie x)
      have hletters : ∀ d ∈ letters, d.isDigit = true ∨ d = '.' := fun d hd =>
        mem_text_plain (htext ▸ List.mem_cons_of_mem _ hd)
      refine number x.negative hc hletters ?_
      rw [Binary64.toList_text hfinite, htext]
  · exact word _ rfl

end Sql.Lexes

/-- The expression that makes a point has the lexemes of a call. -/
theorem Sql.Lexes.point (p : Point) :
    Lexes p.literal (Constant.point (wellKnownText p) p.srid).lexemes := by
  have hcall := across "(" rfl (word Constant.pointFunction rfl)
    (across ", " rfl (quoted (quotable_wellKnownText p))
      (across ")" rfl (nat p.srid) empty))
  refine of_eq hcall ?_ rfl
  rw [literal_eq_call, String.append_empty]
  simp only [Constant.pointFunction, String.append_assoc]

/-- The literal of a value that is no list has the lexemes of its constant. -/
theorem Value.lexes_literal {v : Value} {k : Constant} (h : v.constant? = some k) :
    Lexes v.literal k.lexemes := by
  cases v with
  | list items => cases h
  | null =>
      obtain rfl := Option.some.inj h
      exact .word _ rfl
  | bool b =>
      obtain rfl := Option.some.inj h
      rw [literal]
      cases b <;> exact .word _ rfl
  | int n =>
      obtain rfl := Option.some.inj h
      rw [literal]
      exact .int n
  | uint n =>
      obtain rfl := Option.some.inj h
      rw [literal]
      exact .nat n
  | float x =>
      obtain rfl := Option.some.inj h
      rw [literal]
      exact .float x
  | string s =>
      obtain rfl := Option.some.inj h
      rw [literal]
      exact .stringLiteral s
  | datetime t =>
      obtain rfl := Option.some.inj h
      rw [literal]
      exact .quoted (quotable_clocked t.clocked_sqlText)
  | date d =>
      obtain rfl := Option.some.inj h
      rw [literal]
      exact .quoted (quotable_clocked d.clocked_text)
  | time t =>
      obtain rfl := Option.some.inj h
      rw [literal]
      exact .quoted (quotable_clocked t.clocked_milliText)
  | json j =>
      obtain rfl := Option.some.inj h
      rw [literal]
      exact .stringLiteral j.text
  | point p =>
      obtain rfl := Option.some.inj h
      rw [literal]
      exact .point p

/-! ## Columns -/

namespace Column

variable (c : Column)

theorem lexes_sizeText : LexesApart c.sizeText (sizeLexemes c.size?) := by
  rw [sizeText, size?]
  cases c.length <|> c.type.defaultLength? with
  | none => exact .empty
  | some length =>
      cases c.precision <|> c.type.defaultPrecision? with
      | none =>
          have hsize := Lexes.behind "(" rfl (Lexes.across ")" rfl (.nat length) .empty)
          rw [String.append_empty, ← String.append_assoc] at hsize
          exact hsize
      | some precision =>
          have hsize := Lexes.behind "(" rfl
            (Lexes.across ", " rfl (.nat length) (Lexes.across ")" rfl (.nat precision) .empty))
          rw [String.append_empty] at hsize
          simp only [← String.append_assoc] at hsize
          exact hsize

theorem lexes_nullText (b : Bool) :
    LexesApart (if b then " not null" else " null") (notNullLexemes b) := by
  cases b with
  | false => exact Lexes.behind " " rfl (.word "null" rfl)
  | true => exact Lexes.behind " " rfl (Lexes.blank (.word "not" rfl) (.word "null" rfl))

/-- The default clause of a column whose default value is no list. -/
theorem lexes_defaultText {c : Column} (h : ∀ v ∈ c.defaultValue, v.constant?.isSome) :
    LexesApart c.defaultText (defaultLexemes c.written.defaultValue) := by
  rw [defaultText, written]
  cases hvalue : c.defaultValue with
  | none => exact .empty
  | some v =>
      cases hnull : v.isNull with
      | true =>
          simp only [Option.filter_some, hnull]
          exact .empty
      | false =>
          obtain ⟨k, hk⟩ := Option.isSome_iff_exists.1 (h v hvalue)
          have hdefault := Lexes.behind " " rfl
            (Lexes.blank (.word "default" rfl) (Value.lexes_literal hk))
          rw [← String.append_assoc, ← String.append_assoc] at hdefault
          simp only [Option.filter_some, hnull, Bool.not_false, if_true, Option.bind_some, hk]
          exact hdefault

theorem lexes_autoText (b : Bool) :
    LexesApart (if b then " auto_increment" else "") (autoIncrementLexemes b) := by
  cases b with
  | false => exact .empty
  | true => exact Lexes.behind " " rfl (.word "auto_increment" rfl)

/-- The definition of a column has the lexemes of what it says. -/
theorem lexes_definition {c : Column} (h : ∀ v ∈ c.defaultValue, v.constant?.isSome) :
    Lexes c.definition (Definition.column c.written).lexemes := by
  have htype : isWord c.type.name = true := by cases c.type <;> rfl
  have hname := Lexes.blank (.identifier c.name) (.word c.type.name htype)
  have hlexes := (((hname.append c.lexes_sizeText).append (lexes_nullText c.notNull)).append
    (lexes_defaultText h)).append (lexes_autoText c.autoIncrement)
  refine .of_eq hlexes rfl ?_
  simp only [List.append_assoc, List.singleton_append]
  rfl

end Column

/-! ## Keys -/

/-- Names in parentheses, which may follow on any lexeme. -/
theorem lexesApart_identifierList (names : List String) :
    LexesApart ("(" ++ identifierList names ++ ")") (namesLexemes names) := by
  have hnames := Lexes.intercalate ", " rfl
    (List.forall₂_map_left_iff.2 (List.forall₂_map_right_iff.2
      (List.forall₂_same.2 fun name (_ : name ∈ names) => Lexes.identifier name)))
  have hparens := Lexes.behind "(" rfl (Lexes.across ")" rfl hnames .empty)
  rw [String.append_empty, ← String.append_assoc] at hparens
  exact hparens

theorem lexes_identifierList (names : List String) :
    Lexes ("(" ++ identifierList names ++ ")") (namesLexemes names) :=
  (lexesApart_identifierList names).lexes

theorem lexes_primaryKeyDefinition {columns : List String} (h : columns ≠ []) :
    Lexes (primaryKeyDefinition columns) (Definition.primaryKey columns).lexemes := by
  have hkey := Lexes.blank (.word "primary" rfl)
    (Lexes.blank (.word "key" rfl) (lexes_identifierList columns))
  have htext : primaryKeyDefinition columns =
      "primary" ++ " " ++ ("key" ++ " " ++ ("(" ++ identifierList columns ++ ")")) := by
    apply String.toList_injective
    simp [primaryKeyDefinition, h]
  rw [htext]
  exact hkey

theorem lexes_uniqueKeyDefinition (name : String) (columns : List String) :
    Lexes (uniqueKeyDefinition name columns) (Definition.uniqueKey name columns).lexemes := by
  have hkey := Lexes.blank (.word "unique" rfl)
    (Lexes.blank (.word "key" rfl)
      (Lexes.blank (.identifier name) (lexes_identifierList columns)))
  have htext : uniqueKeyDefinition name columns =
      "unique" ++ " " ++ ("key" ++ " " ++ (identifier name ++ " " ++
        ("(" ++ identifierList columns ++ ")"))) := by
    apply String.toList_injective
    simp [uniqueKeyDefinition]
  rw [htext]
  exact hkey

theorem ForeignAction.lexes_name (a : ForeignAction) : Lexes a.name a.lexemes := by
  cases a with
  | cascade => exact .word _ rfl
  | setNull => exact .blank (.word "SET" rfl) (.word "NULL" rfl)
  | noAction => exact .blank (.word "NO" rfl) (.word "ACTION" rfl)

theorem ForeignKey.lexes_definition (name column : String) (key : ForeignKey) :
    Lexes (ForeignKey.definition name column key)
      (Definition.foreignKey name column key.table key.column key.action key.action).lexemes := by
  have hupdate := Lexes.blank (.word "on" rfl)
    (Lexes.blank (.word "update" rfl) key.action.lexes_name)
  have hdelete := Lexes.blank (.word "on" rfl)
    (Lexes.blank (.word "delete" rfl)
      (Lexes.blank key.action.lexes_name hupdate))
  have htarget := Lexes.blank (.word "references" rfl)
    (Lexes.blank (.identifier key.table)
      (Lexes.blank (lexes_identifierList [key.column]) hdelete))
  have hkey := Lexes.blank (.word "constraint" rfl)
    (Lexes.blank (.identifier name)
      (Lexes.blank (.word "foreign" rfl)
        (Lexes.blank (.word "key" rfl)
          (Lexes.blank (lexes_identifierList [column]) htarget))))
  have htext : ∀ name source table target action : String,
      "constraint " ++ name ++ " foreign key (" ++ source ++ ") references " ++ table ++ " (" ++
          target ++ ") on delete " ++ action ++ " on update " ++ action =
        "constraint" ++ " " ++ (name ++ " " ++ ("foreign" ++ " " ++ ("key" ++ " " ++
          ("(" ++ source ++ ")" ++ " " ++ ("references" ++ " " ++ (table ++ " " ++
            ("(" ++ target ++ ")" ++ " " ++ ("on" ++ " " ++ ("delete" ++ " " ++ (action ++ " " ++
              ("on" ++ " " ++ ("update" ++ " " ++ action)))))))))))) := by
    intro name source table target action
    apply String.toList_injective
    simp
  refine .of_eq hkey (htext _ _ _ _ _) ?_
  simp only [Definition.lexemes, List.singleton_append]

/-! ## Tables -/

/-- Texts that are made with the names of a supply have the lexemes of definitions that are made
with the same names. -/
theorem forall₂_withNames {α : Type} {text : String → α → String}
    {definition : String → α → Definition} (items : List α)
    (h : ∀ name item, Lexes (text name item) (definition name item).lexemes) (names : Names)
    (start : Nat) :
    List.Forall₂ (fun text d => Lexes text (Definition.lexemes d))
      (withNames names start text items)
      (items.mapIdx fun i item => definition (names (start + i)) item) := by
  induction items generalizing start with
  | nil => exact .nil
  | cons item items ih =>
      have hitems := ih (start + 1)
      simp only [Nat.add_right_comm start 1] at hitems
      rw [withNames, List.mapIdx_cons]
      exact .cons (h _ item) hitems

namespace Table

/-- What a table has to be for a definition: no default value is a list, and the options are
words. -/
structure IsDefinable (t : Table) : Prop where
  default_ne_list : ∀ c ∈ t.columns, ∀ items, c.defaultValue ≠ some (.list items)
  engine : isWord t.engine = true
  charset : isWord t.charset = true
  collate : isWord t.collate = true

variable {t : Table}

theorem IsDefinable.isSome_constant? (h : t.IsDefinable) {c : Column} (hc : c ∈ t.columns) :
    ∀ v ∈ c.defaultValue, v.constant?.isSome := by
  intro v hv
  cases v with
  | list items => exact absurd hv (h.default_ne_list c hc items)
  | _ => rfl

/-- The definitions of a table have the lexemes of what they say. -/
theorem lexes_definitions (h : t.IsDefinable) (names : Names) :
    List.Forall₂ Lexes (t.definitions names)
      ((t.writtenDefinitions names).map Definition.lexemes) := by
  rw [List.forall₂_map_right_iff]
  have hcolumns : List.Forall₂ (fun text d => Lexes text (Definition.lexemes d))
      (t.columns.map Column.definition) (t.columns.map fun c => .column c.written) :=
    List.forall₂_map_left_iff.2 (List.forall₂_map_right_iff.2
      (List.forall₂_same.2 fun c hc => c.lexes_definition (h.isSome_constant? hc)))
  have hprimary : List.Forall₂ (fun text d => Lexes text (Definition.lexemes d))
      (if t.primaryKeys.isEmpty then [] else [primaryKeyDefinition t.primaryKeys])
      (if t.primaryKeys.isEmpty then [] else [.primaryKey t.primaryKeys]) := by
    split
    · exact .nil
    · next hkeys =>
        have hne : t.primaryKeys ≠ [] := fun hnil => hkeys (hnil ▸ rfl)
        exact .cons (lexes_primaryKeyDefinition hne) .nil
  have hunique := forall₂_withNames t.uniqueKeys
    (fun name key => lexes_uniqueKeyDefinition name key.2) names 0
  have hforeign := forall₂_withNames t.foreignKeys
    (fun name key => key.2.lexes_definition name key.1) names t.uniqueKeys.length
  simp only [Nat.zero_add] at hunique
  exact List.rel_append (List.rel_append (List.rel_append hcolumns hprimary) hunique) hforeign

/-- The statement that creates a table has the lexemes of the written table. -/
theorem lexes_createStatement (h : t.IsDefinable) (names : Names) :
    Lexes (t.createStatement names) (t.written names).lexemes := by
  have hcollate := Lexes.across "=" rfl (.word "collate" rfl) (.word _ h.collate)
  have hcharset := Lexes.across "=" rfl (.word "charset" rfl)
    (Lexes.blank (.word _ h.charset) hcollate)
  have hengine := Lexes.across "=" rfl (.word "engine" rfl)
    (Lexes.blank (.word _ h.engine) hcharset)
  have hbody := Lexes.across "\n) " rfl
    (Lexes.intercalate ",\n  " rfl (t.lexes_definitions h names)) hengine
  have hcreate := Lexes.blank (.word "create" rfl)
    (Lexes.blank (.word "table" rfl)
      (Lexes.across " (\n  " rfl (.identifier t.name) hbody))
  have htext : ∀ name body engine charset collate : String,
      "create table " ++ name ++ " (\n  " ++ body ++ "\n) engine=" ++ engine ++ " charset=" ++
          charset ++ " collate=" ++ collate =
        "create" ++ " " ++ ("table" ++ " " ++ (name ++ " (\n  " ++ (body ++ "\n) " ++
          ("engine" ++ "=" ++ (engine ++ " " ++ ("charset" ++ "=" ++ (charset ++ " " ++
            ("collate" ++ "=" ++ collate)))))))) := by
    intro name body engine charset collate
    apply String.toList_injective
    simp
  exact .of_eq hcreate (htext _ _ _ _ _) rfl

end Table

end Persistence
