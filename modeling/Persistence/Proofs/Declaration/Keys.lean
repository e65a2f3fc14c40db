import Persistence.Declaration.Record
import Persistence.Operation.Binding
import Persistence.Proofs.Dao.Statements

/-!
# Keys and names of fields

Under the camel-case rule the property of a field has a key, and the field has a name in the
objects that are written.  Both drop the underscores and put a capital behind each of them; the name
then starts with a small letter, and the key starts as the field does.

Main results:

- `Naming.lowerCamelCase_eq`: the name in terms of the words between underscores.
- `Naming.camelCase_eq_iff`: the fields whose key is their name.
- `Declaration.key_eq_name_iff`: what that means for the properties of an entity type and for the
  objects that are written for it.
-/

namespace Persistence

/-! ## Camel case -/

namespace Naming

/-- A word with a capital in front, if it starts with a letter of ASCII. -/
def capitalized : List Char → List Char
  | [] => []
  | c :: word => c.toUpper :: word

/-- A text with a small letter in front, if it starts with a letter of ASCII. -/
def decapitalized : List Char → List Char
  | [] => []
  | c :: text => c.toLower :: text

/-- The camel case of written objects: the words between the underscores are capitalized and joined,
and the whole starts with a small letter. -/
def writtenCamelCase (name : String) : String :=
  String.ofList (decapitalized ((name.toList.splitOn '_').flatMap capitalized))

/-- Whether a name starts neither with a capital nor with underscores in front of a letter. -/
def startsSmall (name : String) : Bool :=
  match name.toList with
  | '_' :: text => !(text.dropWhile fun c => c = '_').head?.any Char.isAlpha
  | text => !text.head?.any Char.isUpper

/-- In camel case the first word of a text may be capitalized, and all others are. -/
theorem camelChars_of_splitOn {text word : List Char} {words : List (List Char)}
    (h : text.splitOn '_' = word :: words) (capital : Bool) :
    camelChars capital text =
      (if capital then capitalized word else word) ++ words.flatMap capitalized := by
  induction text generalizing word words capital with
  | nil =>
      obtain ⟨rfl, rfl⟩ := List.cons.inj ((List.splitOn_nil _).symm.trans h)
      cases capital <;> rfl
  | cons c text ih =>
      obtain ⟨first, rest, hrest⟩ :=
        List.exists_cons_of_ne_nil (List.splitOnP_ne_nil (· == '_') text)
      rw [List.splitOn, List.splitOnP_cons_eq_if_modifyHead, hrest] at h
      by_cases hc : c = '_'
      · subst hc
        obtain ⟨rfl, rfl⟩ := List.cons.inj h
        rw [camelChars, if_pos rfl, ih hrest true]
        cases capital <;> rfl
      · rw [if_neg (by simpa using hc)] at h
        obtain ⟨rfl, rfl⟩ := List.cons.inj h
        rw [camelChars, if_neg hc, ih hrest false]
        cases capital <;> rfl

/-- The name in terms of the words between underscores. -/
theorem lowerCamelCase_eq (name : String) : lowerCamelCase name = writtenCamelCase name := by
  have hchars : camelChars true name.toList = (name.toList.splitOn '_').flatMap capitalized := by
    obtain ⟨word, words, h⟩ :=
      List.exists_cons_of_ne_nil (List.splitOnP_ne_nil (· == '_') name.toList)
    rw [camelChars_of_splitOn h, List.splitOn, h, if_pos rfl, List.flatMap_cons]
  rw [writtenCamelCase, ← hchars, lowerCamelCase]
  cases camelChars true name.toList <;> rfl

/-- Two camel cases of a text differ at most in their first letters. -/
theorem decapitalized_camelChars (text : List Char) :
    decapitalized (camelChars true text) = decapitalized (camelChars false text) := by
  cases text with
  | nil => rfl
  | cons c text =>
      by_cases hc : c = '_'
      · rw [camelChars, camelChars, if_pos hc, if_pos hc]
      · simp [camelChars, hc, decapitalized]

theorem decapitalized_eq_iff (text : List Char) :
    decapitalized text = text ↔ text.head?.any Char.isUpper = false := by
  cases text with
  | nil => simp [decapitalized]
  | cons c text =>
      rw [decapitalized, List.cons_eq_cons, List.head?_cons, Option.any_some]
      refine ⟨fun h => h.1 ▸ Char.isUpper_toLower_eq_false c, fun h => ⟨?_, rfl⟩⟩
      exact Char.toLower_eq_of_not_isUpper (by rw [h]; exact Bool.false_ne_true)

/-- Behind an underscore, camel case starts with a capital if there is a letter to be one. -/
theorem head?_camelChars_true (text : List Char) :
    (camelChars true text).head?.any Char.isUpper =
      (text.dropWhile fun c => c = '_').head?.any Char.isAlpha := by
  induction text with
  | nil => rfl
  | cons c text ih =>
      by_cases hc : c = '_'
      · rw [camelChars, if_pos hc, ih, List.dropWhile_cons_of_pos (by simpa using hc)]
      · rw [camelChars, if_neg hc, List.dropWhile_cons_of_neg (by simpa using hc)]
        exact Char.isUpper_toUpper_eq_isAlpha c

theorem head?_camelChars_false (name : String) :
    (camelChars false name.toList).head?.any Char.isUpper = !startsSmall name := by
  rw [startsSmall]
  split
  · next text htext =>
      rw [htext, camelChars, if_pos rfl, head?_camelChars_true, Bool.not_not]
  · next hother =>
      rw [Bool.not_not]
      cases htext : name.toList with
      | nil => rfl
      | cons c text =>
          have hc : c ≠ '_' := by
            rintro rfl
            exact hother text htext
          rw [camelChars, if_neg hc]
          rfl

/-- The key of a field is its name exactly if the field starts small. -/
theorem camelCase_eq_iff (name : String) :
    camelCase name = writtenCamelCase name ↔ startsSmall name = true := by
  have hwritten : writtenCamelCase name =
      String.ofList (decapitalized (camelChars false name.toList)) := by
    rw [← lowerCamelCase_eq, lowerCamelCase, ← decapitalized_camelChars]
    cases camelChars true name.toList <;> rfl
  rw [hwritten, camelCase, String.ofList_inj, eq_comm, decapitalized_eq_iff, head?_camelChars_false,
    Bool.not_eq_false']

/-- A name never starts with a capital. -/
theorem not_isUpper_writtenCamelCase (name : String) :
    (writtenCamelCase name).toList.head?.any Char.isUpper = false := by
  rw [writtenCamelCase, String.toList_ofList]
  cases (name.toList.splitOn '_').flatMap capitalized with
  | nil => rfl
  | cons c text => exact Char.isUpper_toLower_eq_false c

end Naming

/-! ## What the attributes say -/

/-- The attributes of a record give the camel-case rule, and no other rule for the names of its
fields. -/
def Declaration.IsCamelCased (d : Declaration) : Prop :=
  (∃ item ∈ jsonItems d.attributes, item.name = "rename_all") ∧
    ∀ item ∈ jsonItems d.attributes, item.name = "rename_all" →
      item = .assign "rename_all" (.text "camelCase")

/-- The attributes of a field give it no name of its own. -/
def FieldDeclaration.KeepsName (f : FieldDeclaration) : Prop :=
  ∀ item ∈ jsonItems f.attributes, item.name ≠ "rename"

theorem Attribute.items_of_requiredItems (a : Attribute) {items : List AttributeItem}
    (h : a.requiredItems = .ok items) : a.items = some items := by
  rw [requiredItems] at h
  split at h
  · next hsome => rw [hsome, Except.ok.inj h]
  · cases h

/-- What is read from attributes one after the other is read from all of their items. -/
theorem foldlM_items {α : Type} {read : α → AttributeItem → Except DeclarationError α}
    {attributes : List Attribute} {start result : α}
    (h : attributes.foldlM (fun x a => do readItems read x (← a.requiredItems)) start =
      .ok result) :
    (attributes.flatMap fun a => a.items.getD []).foldlM read start = .ok result := by
  induction attributes generalizing start with
  | nil => exact h
  | cons a attributes ih =>
      rw [List.foldlM_cons, except_bind_eq_ok_iff] at h
      obtain ⟨x, hfirst, hrest⟩ := h
      obtain ⟨items, hitems, hread⟩ := except_bind_eq_ok_iff.1 hfirst
      rw [List.flatMap_cons, List.foldlM_append, a.items_of_requiredItems hitems,
        Option.getD_some]
      exact except_bind_eq_ok_iff.2 ⟨x, hread, ih hrest⟩

/-- Items that give one naming rule only leave that rule, or what was there before. -/
theorem foldlM_readRenameAll {items : List AttributeItem} {rule : String}
    (honly : ∀ item ∈ items, item.name = "rename_all" → item = .assign "rename_all" (.text rule))
    (start : Option String) :
    items.foldlM readRenameAll start =
      .ok (if ∃ item ∈ items, item.name = "rename_all" then some rule else start) := by
  induction items generalizing start with
  | nil => simp [pure, Except.pure]
  | cons item items ih =>
      obtain ⟨hitem, hitems⟩ := List.forall_mem_cons.1 honly
      rw [List.foldlM_cons]
      by_cases hname : item.name = "rename_all"
      · have hread : readRenameAll start item = .ok (some rule) := by
          rw [hitem hname]
          rfl
        rw [hread, if_pos ⟨item, List.mem_cons_self, hname⟩]
        refine (ih hitems (some rule)).trans ?_
        rw [ite_self]
      · have hread : readRenameAll start item = .ok start := if_neg hname
        rw [hread]
        refine (ih hitems start).trans ?_
        simp [hname]

/-- The derivation takes the camel-case rule from the attributes. -/
theorem Declaration.IsCamelCased.rule_eq {d : Declaration} (hd : d.IsCamelCased)
    {rule : Option String} (h : renameAllRule d.attributes = .ok rule) :
    rule = some "camelCase" := by
  have hitems : (jsonItems d.attributes).foldlM readRenameAll none = .ok rule := foldlM_items h
  rw [foldlM_readRenameAll hd.2, if_pos hd.1] at hitems
  exact (Except.ok.inj hitems).symm

/-- A text is found under a name if some item has the name, and all that have it assign the text. -/
theorem jsonText?_eq {name s : String} {attributes : List Attribute}
    (hgiven : ∃ item ∈ jsonItems attributes, item.name = name)
    (honly : ∀ item ∈ jsonItems attributes, item.name = name → item = .assign name (.text s)) :
    jsonText? name attributes = some s := by
  rw [jsonText?]
  generalize jsonItems attributes = items at hgiven honly
  induction items with
  | nil => simp at hgiven
  | cons item items ih =>
      obtain ⟨hitem, hitems⟩ := List.forall_mem_cons.1 honly
      rw [List.findSome?_cons]
      by_cases hname : item.name = name
      · rw [hitem hname]
        simp
      · have hrest : ∃ item ∈ items, item.name = name := by simpa [hname] using hgiven
        split
        · next found hfound =>
            split at hfound
            · cases (if_neg hname).symm.trans hfound
            · cases hfound
        · exact ih hrest hitems

/-- No text is found under a name that no item has. -/
theorem jsonText?_eq_none {name : String} {attributes : List Attribute}
    (h : ∀ item ∈ jsonItems attributes, item.name ≠ name) : jsonText? name attributes = none := by
  rw [jsonText?, List.findSome?_eq_none_iff]
  intro item hitem
  have hname := h item hitem
  split
  · next key s => exact if_neg hname
  · rfl

/-- No name is read from items that give none. -/
theorem foldlM_readRename {items : List AttributeItem} (h : ∀ item ∈ items, item.name ≠ "rename") :
    items.foldlM readRename none = .ok none := by
  induction items with
  | nil => rfl
  | cons item items ih =>
      obtain ⟨hitem, hitems⟩ := List.forall_mem_cons.1 h
      have hread : readRename none item = .ok none := by
        unfold readRename
        split
        · exact absurd rfl hitem
        · exact absurd rfl hitem
        · rfl
      rw [List.foldlM_cons, hread]
      exact ih hitems

/-- No name is read from attributes that give none. -/
theorem renamed_eq_none {attributes : List Attribute} {name : Option String}
    (h : renamed attributes = .ok name)
    (hitems : ∀ item ∈ attributes.flatMap fun a => a.items.getD [], item.name ≠ "rename") :
    name = none := by
  induction attributes with
  | nil => exact (Except.ok.inj h).symm
  | cons a attributes ih =>
      rw [List.flatMap_cons, List.forall_mem_append] at hitems
      obtain ⟨items, hrequired, hrest⟩ := except_bind_eq_ok_iff.1 h
      rw [a.items_of_requiredItems hrequired, Option.getD_some] at hitems
      rw [readItems, foldlM_readRename hitems.1] at hrest
      exact ih hrest hitems.2

/-- The key of a field without a name of its own. -/
theorem FieldDeclaration.KeepsName.propertyKey_eq {f : FieldDeclaration} (hf : f.KeepsName)
    {key : String} (h : propertyKey (some "camelCase") f = .ok key) :
    key = Naming.camelCase (Naming.plain f.name) := by
  obtain ⟨name, hname, hkey⟩ := except_bind_eq_ok_iff.1 h
  obtain rfl := renamed_eq_none hname hf
  exact (Except.ok.inj hkey).symm

/-- The name of a field without a name of its own. -/
theorem FieldDeclaration.KeepsName.jsonName_eq {f : FieldDeclaration} (hf : f.KeepsName) :
    f.jsonName (some "camelCase") = Naming.writtenCamelCase (Naming.plain f.name) := by
  rw [jsonName, jsonText?_eq_none hf, ← Naming.lowerCamelCase_eq]
  rfl

/-! ## Properties and written objects -/

/-- The key of a property is that of its field. -/
theorem FieldDeclaration.propertyKey_of_toProperty {rule : Option String} {f : FieldDeclaration}
    {p : Property} (h : f.toProperty rule = .ok p) : propertyKey rule f = .ok p.key := by
  obtain ⟨key, hkey, hrest⟩ := except_bind_eq_ok_iff.1 h
  obtain ⟨relation, -, hproperty⟩ := except_bind_eq_ok_iff.1 hrest
  rw [hkey]
  cases relation with
  | some relation => rw [← Except.ok.inj hproperty]
  | none =>
      obtain ⟨draft, -, hdraft⟩ := except_bind_eq_ok_iff.1 hproperty
      obtain ⟨foreignKey, -, hforeign⟩ := except_bind_eq_ok_iff.1 hdraft
      dsimp only at hforeign
      split at hforeign
      · obtain ⟨column, -, hcolumn⟩ := except_bind_eq_ok_iff.1 hforeign
        rw [← Except.ok.inj hcolumn]
      · rw [← Except.ok.inj hforeign]

/-- The fields of an object that is written for a record have the names of the record. -/
theorem Shape.map_fst_writeFields? {write : Shape → Json → Option Json} {values : Json.Fields}
    {fields : List Shape.Field} {written : Json.Fields}
    (h : writeFields? write values fields = some written) :
    written.map Prod.fst = fields.map Field.name := by
  induction fields generalizing written with
  | nil =>
      obtain rfl := Option.some.inj h
      rfl
  | cons f fields ih =>
      simp only [writeFields?, Option.bind_eq_bind, Option.bind_eq_some_iff, Option.some.injEq] at h
      obtain ⟨value, -, rest, hrest, rfl⟩ := h
      rw [List.map_cons, List.map_cons, ih hrest]

/-- An entity type has one property for each field of its declaration. -/
theorem Declaration.properties_of_toEntity {d : Declaration} {e : Entity}
    (he : d.toEntity = .ok e) : ∃ rule, renameAllRule d.attributes = .ok rule ∧
      List.Forall₂ (fun f p => f.toProperty rule = .ok p) d.fields e.properties := by
  rw [toEntity] at he
  split at he
  · cases he
  · cases he
  · obtain ⟨table, -, hrest⟩ := except_bind_eq_ok_iff.1 he
    obtain ⟨rule, hrule, hrest⟩ := except_bind_eq_ok_iff.1 hrest
    obtain ⟨properties, hproperties, hentity⟩ := except_bind_eq_ok_iff.1 hrest
    rw [← Except.ok.inj hentity]
    exact ⟨rule, hrule, mapM_eq_ok_iff.1 hproperties⟩

section Camel

variable {d : Declaration} {readers : List (String × Shape)}

/-- The names of the fields of a written object. -/
theorem Declaration.IsCamelCased.names_eq (hd : d.IsCamelCased) :
    (d.toRecord readers).fields.map Shape.Field.name =
      d.fields.map (FieldDeclaration.jsonName (some "camelCase")) := by
  rw [toRecord, jsonText?_eq hd.1 hd.2, List.map_map]
  rfl

/-- A key that starts with a capital is not among the names of fields that keep theirs. -/
theorem Declaration.IsCamelCased.not_mem_names (hd : d.IsCamelCased)
    (hkeep : ∀ f ∈ d.fields, f.KeepsName) {name : String}
    (hname : Naming.startsSmall name = false) :
    Naming.camelCase name ∉ (d.toRecord readers).fields.map Shape.Field.name := by
  rw [hd.names_eq]
  intro hmem
  obtain ⟨f, hf, heq⟩ := List.mem_map.1 hmem
  have hsmall := Naming.not_isUpper_writtenCamelCase (Naming.plain f.name)
  rw [← (hkeep f hf).jsonName_eq, heq, Naming.camelCase, String.toList_ofList,
    Naming.head?_camelChars_false, hname] at hsmall
  cases hsmall

/-- The property of a field that keeps its name has a key that starts as the field does, and the
field is written under a name that starts small.  These agree for the fields that start small
themselves, and of these the written object has the value.  Where all fields keep their names it has
no value of the others: their columns get what stands in for a missing one, whatever the entity. -/
theorem Declaration.key_eq_name_iff {e : Entity} (hd : d.IsCamelCased) (he : d.toEntity = .ok e)
    {i : Nat} {f : FieldDeclaration} (hi : d.fields[i]? = some f) (hf : f.KeepsName)
    (readers : List (String × Shape)) :
    ∃ p g, e.properties[i]? = some p ∧ (d.toRecord readers).fields[i]? = some g ∧
      p.key = Naming.camelCase (Naming.plain f.name) ∧
      g.name = Naming.writtenCamelCase (Naming.plain f.name) ∧
      (p.key = g.name ↔ Naming.startsSmall (Naming.plain f.name) = true) ∧
      ∀ write values written,
        Shape.writeFields? write values (d.toRecord readers).fields = some written →
        (Naming.startsSmall (Naming.plain f.name) = true → ∃ j, (p.key, j) ∈ written) ∧
        ((∀ f' ∈ d.fields, f'.KeepsName) → Naming.startsSmall (Naming.plain f.name) = false →
          (∀ j, (p.key, j) ∉ written) ∧
          ∀ c : ValueColumn, c.property = p.key →
            c.value written = .ok (c.defaultValue.getD .null)) := by
  obtain ⟨rule, hrule, hproperties⟩ := d.properties_of_toEntity he
  obtain rfl := hd.rule_eq hrule
  obtain ⟨hlt, rfl⟩ := List.getElem?_eq_some_iff.1 hi
  have hlt' : i < e.properties.length := hproperties.length_eq ▸ hlt
  have hproperty : d.fields[i].toProperty (some "camelCase") = .ok e.properties[i] :=
    hproperties.get hlt hlt'
  have hkey := hf.propertyKey_eq (FieldDeclaration.propertyKey_of_toProperty hproperty)
  have hname : (d.fields[i].toShapeField (some "camelCase") readers).name = _ := hf.jsonName_eq
  have hfield : (d.toRecord readers).fields[i]? =
      some (d.fields[i].toShapeField (some "camelCase") readers) := by
    rw [toRecord, jsonText?_eq hd.1 hd.2, List.getElem?_map, hi]
    rfl
  refine ⟨_, _, List.getElem?_eq_getElem hlt', hfield, hkey, hname, ?_, ?_⟩
  · rw [hkey, hname]
    exact Naming.camelCase_eq_iff _
  intro write values written hwritten
  have hnames := Shape.map_fst_writeFields? hwritten
  refine ⟨fun hsmall => ?_, fun hkeep hcapital => ?_⟩
  · have hmem : e.properties[i].key ∈ written.map Prod.fst := by
      rw [hnames, hkey, (Naming.camelCase_eq_iff _).2 hsmall, ← hname]
      exact List.mem_map_of_mem (List.mem_of_getElem? hfield)
    obtain ⟨⟨key, j⟩, hj, rfl⟩ := List.mem_map.1 hmem
    exact ⟨j, hj⟩
  · have habsent : ∀ j, (e.properties[i].key, j) ∉ written := by
      intro j hj
      have hmem := List.mem_map_of_mem (f := Prod.fst) hj
      rw [hnames, hkey] at hmem
      exact hd.not_mem_names hkeep hcapital hmem
    refine ⟨habsent, fun c hc => ?_⟩
    have hlookup : written.lookup e.properties[i].key = none := by
      rw [List.lookup_eq_none_iff]
      rintro ⟨key, j⟩ hj
      rw [bne_iff_ne]
      rintro rfl
      exact habsent j hj
    rw [ValueColumn.value, hc, hlookup]

end Camel

namespace Reading

/-- A declaration under the camel-case rule, with a field that starts with an underscore. -/
def declaration : Declaration where
  name := "Reading"
  shape := .record
  attributes :=
    [⟨"table", some [.assign "name" (.text "reading")]⟩,
     ⟨jsonAttributeName, some [.assign "rename_all" (.text "camelCase")]⟩]
  fields :=
    [⟨"taken_at", "i64", [⟨primaryKeyAttributeName, none⟩]⟩,
     ⟨"_unit", "Option<String>", [⟨"column", none⟩]⟩]

/-- The entity type of the declaration. -/
def entity : Entity where
  name := "Reading"
  table := some ⟨"reading", none, none, none, false⟩
  properties :=
    [⟨"takenAt", .number, some (ColumnSpec.key "taken_at"), none⟩,
     ⟨"Unit", .string, some (ColumnSpec.named "_unit"), none⟩]

theorem toEntity : declaration.toEntity = .ok entity := by
  rfl

theorem isCamelCased : declaration.IsCamelCased := by
  refine ⟨⟨_, List.mem_singleton_self _, rfl⟩, fun item hitem _ => ?_⟩
  exact List.mem_singleton.1 hitem

theorem keepsName : ∀ f ∈ declaration.fields, f.KeepsName := by
  have hitems : ∀ f ∈ declaration.fields, jsonItems f.attributes = [] := by
    simp [declaration, jsonItems, jsonAttributeName, primaryKeyAttributeName]
  intro f hf item hitem
  rw [hitems f hf] at hitem
  cases hitem

end Reading

/-- A field that starts small, beside one that does not. -/
theorem key_eq_name_reading :
    Reading.declaration.IsCamelCased ∧ (∀ f ∈ Reading.declaration.fields, f.KeepsName) ∧
      ∃ p g, Reading.entity.properties[0]? = some p ∧
        (Reading.declaration.toRecord []).fields[0]? = some g ∧ p.key = g.name ∧
        ∃ q h, Reading.entity.properties[1]? = some q ∧
          (Reading.declaration.toRecord []).fields[1]? = some h ∧ q.key ≠ h.name := by
  have hkeeps := Reading.keepsName
  obtain ⟨p, g, hp, hg, -, -, hsmall, -⟩ := Declaration.key_eq_name_iff Reading.isCamelCased
    Reading.toEntity (i := 0) rfl (hkeeps _ (by simp [Reading.declaration])) []
  obtain ⟨q, h, hq, hh, -, -, hcapital, -⟩ := Declaration.key_eq_name_iff Reading.isCamelCased
    Reading.toEntity (i := 1) rfl (hkeeps _ (by simp [Reading.declaration])) []
  refine ⟨Reading.isCamelCased, hkeeps, p, g, hp, hg, hsmall.2 (by decide), q, h, hq, hh, ?_⟩
  exact fun heq => absurd (hcapital.1 heq) (by decide)

/-- The field that starts with an underscore has a key that is not its name, and its column is null
whatever the value is. -/
theorem key_ne_name_reading :
    Reading.declaration.IsCamelCased ∧ (∀ f ∈ Reading.declaration.fields, f.KeepsName) ∧
      Reading.declaration.toEntity = .ok Reading.entity ∧
      Reading.entity.properties.map Property.key = ["takenAt", "Unit"] ∧
      (Reading.declaration.toRecord []).fields.map Shape.Field.name = ["takenAt", "unit"] ∧
      ∃ written, (Codec.ofRecord [("Reading", Reading.declaration.toRecord [])] "Reading").encode
          (.obj [("takenAt", Json.ofInt 1), ("unit", .str "lux")]) = .ok (.obj written) ∧
        written.lookup "unit" = some (.str "lux") ∧
        (⟨"Unit", .varchar, none⟩ : ValueColumn).value written = .ok .null := by
  refine ⟨Reading.isCamelCased, Reading.keepsName, Reading.toEntity, by decide, by decide, ?_⟩
  refine ⟨[("takenAt", Json.ofInt 1), ("unit", .str "lux")], ?_, rfl, rfl⟩
  have hrecord : Reading.declaration.toRecord [] =
      ⟨[⟨"takenAt", .signed 64, none⟩, ⟨"unit", .optional .text, some .null⟩], false⟩ := by
    rfl
  simp [Codec.ofRecord, hrecord, Shape.write?, Json.depth, Json.fieldsDepth, Shape.writeAt?,
    Shape.writeFields?, Shape.signed, Json.obj?]
  rfl

end Persistence
