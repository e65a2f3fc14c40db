import Persistence.Proofs.Dao.Writing
import Persistence.Proofs.Query.Building
import Persistence.Proofs.Sql.Literal

/-!
# Filters on saved values

A filter that asks for the value of a property and a save of an entity with the same value convert
it apart: the filter by what the value is, the save by the type of the column as well.  Both spell
scalars, texts and objects alike.  An array is a row of literals for the filter and one JSON text
for the save, a text that names a moment stays as it is in the filter and is read by the save, and
so is an object that is a point.

Main results:

- `ValueColumn.literal_eq_iff`: when a filter and a save spell a value alike.
- `Writing.everyEq_asks_iff`: what a filter asks for, next to what a save writes.
- `Writing.everyEq_misses_party`: a filter that asks for another literal than the one saved.
-/

namespace Persistence

open Sql

/-! ## Filters for the fields of an object -/

namespace Query

/-- The conditions on the values of several properties. -/
def keyTexts (m : Mapping) (pairs : List (String × Value)) : List String :=
  pairs.map fun pair => keyText (m.columnName pair.1) pair.2

theorem fragments_eqLinks (m : Mapping) (pairs : List (String × Value)) :
    fragments m .and (eqLinks pairs) = (keyTexts m pairs).map fun text => (.and, text) := by
  induction pairs with
  | nil => simp [eqLinks, fragments, keyTexts]
  | cons pair pairs ih =>
      rw [eqLinks_cons, fragments, fragments, ih, text_compare_eq]
      rfl

theorem joinFragments_and (texts : List String) :
    joinFragments (texts.map fun text => (.and, text)) = " and ".intercalate texts := by
  induction texts with
  | nil => rfl
  | cons text texts ih =>
      cases texts with
      | nil =>
          rw [String.intercalate_singleton]
          rfl
      | cons next texts =>
          have hconnector : " and " = " " ++ Connector.and.text ++ " " := rfl
          rw [String.intercalate_cons_cons, ← ih, hconnector, List.map_cons, List.map_cons,
            joinFragments]
          simp only [String.append_assoc]

/-- The fields that a filter asks for are not null. -/
theorem isNull_of_objectFields {object : Json} {pairs : List (String × Value)}
    (h : objectFields object = .ok pairs) : ∀ pair ∈ pairs, pair.2.isNull = false := by
  cases object with
  | obj fields =>
      obtain rfl := Except.ok.inj h
      intro pair hpair
      obtain ⟨field, hfield, rfl⟩ := List.mem_map.1 hpair
      rw [Value.isNull_ofJson]
      simpa using (List.mem_filter.1 hfield).2
  | null =>
      obtain rfl := Except.ok.inj h
      simp
  | _ => cases h

/-- A filter for the fields of an object has a condition for each of them that is not null, in
parentheses. -/
theorem whereText_everyEq (m : Mapping) {object : Json} {pairs : List (String × Value)}
    (hpairs : objectFields object = .ok pairs) (hne : pairs ≠ []) :
    (whereText · m) <$> empty.everyEq object =
      .ok ("(" ++ " and ".intercalate (keyTexts m pairs) ++ ")") := by
  have hlinks : empty.everyEq object =
      .ok (empty.nested { empty with links := eqLinks pairs }) := by
    rw [everyEq, hpairs, ← allEq_eq pairs (isNull_of_objectFields hpairs)]
    rfl
  have hfragments : fragments m .and (eqLinks pairs) ≠ [] := by
    rw [fragments_eqLinks, keyTexts]
    simpa using hne
  have hchain : (empty.nested { empty with links := eqLinks pairs }).links =
      [.group (eqLinks pairs), .connector .and] := rfl
  rw [hlinks, ← joinFragments_and, ← fragments_eqLinks, Except.map_ok, whereText, hchain]
  simp only [fragments]
  rfl

/-- A filter for one field that is not null has its condition. -/
theorem whereText_everyEq_field (m : Mapping) (property : String) {j : Json}
    (hnull : j.isNull = false) :
    (whereText · m) <$> empty.everyEq (.obj [(property, j)]) =
      .ok ("(" ++ m.columnName property ++ " = " ++ (Value.ofJson j).literal ++ ")") := by
  have hpairs : objectFields (.obj [(property, j)]) = .ok [(property, Value.ofJson j)] := by
    simp [objectFields, hnull]
  rw [whereText_everyEq m hpairs (by simp)]
  simp [keyTexts, keyText, String.append_assoc]

end Query

/-! ## The literals of JSON values -/

/-- The text whose string literal stands for a JSON value, which only strings and objects have. -/
def Json.quotedText? : Json → Option String
  | .str s => some s
  | .obj fields => some (Json.obj fields).text
  | _ => none

/-- It is no longer than the text of the value. -/
theorem Json.length_quotedText? {j : Json} {s : String} (h : j.quotedText? = some s) :
    s.length ≤ j.text.length := by
  cases j with
  | str s' =>
      obtain rfl := Option.some.inj h
      have hflat : ∀ text : List Char, text.length ≤ (text.flatMap quoteChar).length := by
        intro text
        induction text with
        | nil => simp
        | cons c text ih =>
            have hchar : 0 < (quoteChar c).length := by
              rw [quoteChar]
              split_ifs <;> simp
            rw [List.flatMap_cons, List.length_append, List.length_cons]
            omega
      have hlength := hflat s'.toList
      rw [String.length_toList] at hlength
      rw [Json.text, render, quote, String.length_ofList, List.length_append, List.length_cons]
      omega
  | obj fields => exact (congrArg String.length (Option.some.inj h)).symm.le
  | _ => cases h

namespace Value

variable {j : Json}

theorem entryText_ofJson_quoted {s : String} (h : j.quotedText? = some s) :
    (ofJson j).entryText = stringLiteral s := by
  cases j with
  | str s' | obj fields =>
      obtain rfl := Option.some.inj h
      simp [ofJson, entryText, isList, literal]
  | _ => cases h

/-- Only an array stands among others as something else than its literal. -/
theorem literal_ofJson_eq_entryText_iff :
    (ofJson j).literal = (ofJson j).entryText ↔ ∀ items, j ≠ .arr items := by
  rw [eq_comm, entryText_eq_literal_iff, ← Bool.not_eq_true, isList_ofJson, not_exists]

/-- The literal of a number starts with a character of numbers. -/
theorem exists_literal_ofNumber (n : Json.Number) :
    ∃ c rest, (ofNumber n).entryText.toList = c :: rest ∧ Decimal.IsNumberChar c := by
  cases n with
  | int n fits =>
      rw [ofNumber]
      split
      · exact exists_toString_eq n
      · exact exists_toString_eq n.toNat
  | float x hx => exact exists_floatLiteral_eq hx

/-- Other JSON values do not start with a quote. -/
theorem exists_entryText_ofJson (h : j.quotedText? = none) :
    ∃ c rest, (ofJson j).entryText.toList = c :: rest ∧ c ≠ '\'' := by
  cases j with
  | null => exact ⟨'N', _, rfl, by decide⟩
  | bool b =>
      cases b with
      | true => exact ⟨'t', _, rfl, by decide⟩
      | false => exact ⟨'f', _, rfl, by decide⟩
  | num n =>
      obtain ⟨c, rest, htext, hc⟩ := exists_literal_ofNumber n
      refine ⟨c, rest, by rwa [ofJson], ?_⟩
      rintro rfl
      simp [Decimal.IsNumberChar] at hc
  | arr items => exact ⟨'(', _, by simp [ofJson, entryText, isList]; rfl, by decide⟩
  | str s | obj fields => cases h

/-- The literal of an array starts with its first item. -/
theorem exists_literal_arr (item : Json) (items : List Json) :
    ∃ tail, (ofJson (.arr (item :: items))).literal = (ofJson item).entryText ++ tail ∧
      (tail = "" → items = []) := by
  have hliteral : (ofJson (.arr (item :: items))).literal =
      ", ".intercalate ((ofJson item :: ofJsonItems items).map entryText) := by
    rw [ofJson, ofJsonItems, literal, itemLiterals_eq]
  rw [hliteral, List.map_cons]
  cases items with
  | nil => exact ⟨"", by simp [ofJsonItems], fun _ => rfl⟩
  | cons next items =>
      rw [ofJsonItems, List.map_cons, String.intercalate_cons_cons, String.append_assoc]
      refine ⟨_, rfl, fun hempty => ?_⟩
      have hlength := congrArg String.length hempty
      simp [String.length_append] at hlength

/-- The literal of an array is not that of its JSON text. -/
theorem literal_arr_ne (items : List Json) :
    (ofJson (.arr items)).literal ≠ stringLiteral (Json.arr items).text := by
  intro heq
  cases items with
  | nil =>
      have hlist := congrArg String.toList heq
      simp [ofJson, ofJsonItems, literal, itemLiterals, stringLiteral] at hlist
  | cons item items =>
      obtain ⟨tail, hliteral, htail⟩ := exists_literal_arr item items
      rw [hliteral, ← String.append_empty (s := stringLiteral _)] at heq
      cases hquoted : item.quotedText? with
      | none =>
          -- the JSON text stands between quotes, and no other item starts with one
          obtain ⟨c, rest, htext, hc⟩ := exists_entryText_ofJson hquoted
          have hlist := congrArg String.toList heq
          rw [String.toList_append, htext, stringLiteral] at hlist
          simp [hc] at hlist
      | some s =>
          rw [entryText_ofJson_quoted hquoted] at heq
          obtain ⟨rfl, hempty⟩ := stringLiteral_append_inj heq
          obtain rfl := htail hempty
          -- the text of the array is that of its item in brackets
          have hlength := Json.length_quotedText? hquoted
          rw [Json.text, Json.text, String.length_ofList, String.length_ofList] at hlength
          simp [Json.render, Json.renderItems] at hlength

end Value

/-- The expression that makes a point is not the literal of the JSON value that describes it. -/
theorem Point.literal_ne_of_ofJson? {j : Json} {p : Point} (h : Point.ofJson? j = some p) :
    (Value.ofJson j).literal ≠ p.literal := by
  intro heq
  have hhead : (Value.ofJson j).literal.toList.head? = some 's' := heq ▸ head?_point p
  obtain ⟨fields, hrecord, hfields⟩ := Option.bind_eq_some_iff.1 h
  cases j with
  | obj fields' => simp [Value.ofJson, Value.literal, stringLiteral] at hhead
  | arr items =>
      obtain ⟨longitude, hlongitude, -⟩ := Option.bind_eq_some_iff.1 hfields
      rw [Json.record?] at hrecord
      split at hrecord
      · obtain rfl := Option.some.inj hrecord
        cases items with
        | nil => cases hlongitude
        | cons item items =>
            have hitem : Json.binary64? item = some longitude := hlongitude
            cases item with
            | num n =>
                obtain ⟨c, rest, htext, hc⟩ := Value.exists_literal_ofNumber n
                obtain ⟨tail, hliteral, -⟩ := Value.exists_literal_arr (.num n) items
                rw [hliteral, String.toList_append, Value.ofJson, htext] at hhead
                obtain rfl := Option.some.inj hhead
                simp [Decimal.IsNumberChar] at hc
            | _ => cases hitem
      · cases hrecord
  | _ => cases hrecord

/-! ## Filters and columns -/

/-- A JSON value that a column for moments reads as one. -/
def Json.NamesMoment (j : Json) : Prop := ∃ t, momentOrValue j = .datetime t

theorem momentOrValue_eq_ofJson {j : Json} (h : ¬j.NamesMoment) :
    momentOrValue j = Value.ofJson j := by
  cases j with
  | str s =>
      rw [momentOrValue]
      split
      · next t hread => exact absurd ⟨t, by rw [momentOrValue, hread]⟩ h
      · rfl
  | _ => rfl

/-- The literal of a text that names a moment is not that of the moment. -/
theorem Json.NamesMoment.literal_ne {j : Json} {t : DateTime} (h : momentOrValue j = .datetime t) :
    (Value.ofJson j).literal ≠ (Value.datetime t).literal := by
  cases j with
  | str s =>
      intro heq
      rw [Value.ofJson, Value.literal, Value.literal, ← stringLiteral_clocked t.clocked_sqlText,
        ← String.append_empty (s := stringLiteral s),
        ← String.append_empty (s := stringLiteral t.sqlText)] at heq
      obtain ⟨rfl, -⟩ := stringLiteral_append_inj heq
      rw [momentOrValue, t.read_sqlText.1, t.read_sqlText.2] at h
      cases h
  | num n =>
      have hnumber : ∀ n : Json.Number, Value.ofNumber n ≠ .datetime t := by
        intro n
        cases n with
        | int n fits =>
            rw [Value.ofNumber]
            split <;> simp
        | float x hx => simp [Value.ofNumber]
      exact absurd h (hnumber n)
  | _ => cases h

/-- Whether a column is written with the literal that a filter has for a JSON value: it is no column
for points, the value is no array, and in a column for moments it names none. -/
def ColumnType.SpellsAlike (type : ColumnType) (j : Json) : Prop :=
  type ≠ .geometry ∧ (∀ items, j ≠ .arr items) ∧ ¬(type = .datetime ∧ j.NamesMoment)

/-- A filter and a column spell a JSON value alike exactly if the column keeps it as the filter
does. -/
theorem ValueColumn.literal_eq_iff {c : ValueColumn} {j : Json} {v : Value}
    (h : c.convert j = .ok v) :
    (Value.ofJson j).literal = v.entryText ↔ c.type.SpellsAlike j := by
  rw [convert.eq_def] at h
  split at h
  · next htype =>
    split at h
    · next p hpoint =>
      obtain rfl := Except.ok.inj h
      exact iff_of_false (Point.literal_ne_of_ofJson? hpoint) fun hspells => hspells.1 htype
    · cases h
  · next htype =>
    obtain rfl := Except.ok.inj h
    by_cases hmoment : j.NamesMoment
    · obtain ⟨t, ht⟩ := hmoment
      rw [ht]
      exact iff_of_false (Json.NamesMoment.literal_ne ht) fun hspells => hspells.2.2 ⟨htype, t, ht⟩
    · have hkept : momentOrValue j = Value.ofJson j := momentOrValue_eq_ofJson hmoment
      rw [hkept, Value.literal_ofJson_eq_entryText_iff]
      simp [ColumnType.SpellsAlike, htype, hmoment]
  · next hgeometry htype =>
    have hspells : c.type.SpellsAlike j ↔ ∀ items, j ≠ .arr items :=
      ⟨fun hspells => hspells.2.1,
        fun harray => ⟨hgeometry, harray, fun hmoment => htype hmoment.1⟩⟩
    rw [hspells]
    split at h
    · obtain rfl := Except.ok.inj h
      exact iff_of_true rfl (by simp)
    · next items =>
      obtain rfl := Except.ok.inj h
      exact iff_of_false (Value.literal_arr_ne items) fun harray => harray items rfl
    · next hobject harray =>
      obtain rfl := Except.ok.inj h
      exact Value.literal_ofJson_eq_entryText_iff

/-- A column that gets a value that is not null writes what it converts the value to. -/
theorem Column.Takes.convert {c : Column} {fields : Json.Fields} {v : Value} (h : c.Takes fields v)
    {property : String} {j : Json} (hproperty : c.property = some property)
    (hfield : fields.lookup property = some j) (hnull : j.isNull = false) :
    (⟨property, c.type, c.defaultValue⟩ : ValueColumn).convert j = .ok v := by
  obtain ⟨column, hcolumn, hvalue⟩ := h
  rw [valueColumn?, hproperty, Option.map_some] at hcolumn
  obtain rfl := Option.some.inj hcolumn
  rw [ValueColumn.value, hfield] at hvalue
  simpa [hnull] using hvalue

namespace Writing

variable {e : Entity} {dao : Dao}

/-- A statement that saves an entity has a row with the values that the columns take from it. -/
theorem exists_row_of_saveAll (hof : IsDaoOf e dao) {entity : Json} {sql : String}
    (hsave : (saveAll [entity]).sql dao = .ok sql) :
    ∃ fields row, dao.codec.encode entity = .ok (.obj fields) ∧
      sql = format dao.insert.template [.literal (.list [.list row])] ∧
      List.Forall₂ (fun c v => c.Takes fields v) dao.table.propertyColumns row := by
  rw [Writing.sql, except_bind_eq_ok_iff] at hsave
  obtain ⟨objects, hobjects, hsql⟩ := hsave
  obtain ⟨object, _, hobject, hrest, rfl⟩ :=
    List.forall₂_cons_left_iff.1 (mapM_eq_ok_iff.1 hobjects)
  obtain rfl := List.forall₂_nil_left_iff.1 hrest
  rw [Insert.statementText, except_bind_eq_ok_iff] at hsql
  obtain ⟨rows, hrows, htext⟩ := hsql
  obtain ⟨row, _, hrow, hrest, rfl⟩ := List.forall₂_cons_left_iff.1 (mapM_eq_ok_iff.1 hrows)
  obtain rfl := List.forall₂_nil_left_iff.1 hrest
  have hcolumns : dao.insert.columns = ValueColumn.ofColumns dao.table.propertyColumns :=
    hof.columns_eq
  rw [hcolumns] at hrow
  obtain ⟨fields, rfl, htakes⟩ := (entityValues_eq_ok_iff fun _ => Dao.isSome_property).1 hrow
  exact ⟨fields, row, hobject, (Except.ok.inj htext).symm, htakes⟩

/-- For each column of a saved entity, a filter for the value of its property asks for a literal in
the column of the property.  The literal is the one that stands for the value in the row that is
saved exactly if the column spells the value as the filter does. -/
theorem everyEq_asks_iff (hof : IsDaoOf e dao) {entity : Json} {sql : String}
    (hsave : (saveAll [entity]).sql dao = .ok sql) :
    ∃ fields row, dao.codec.encode entity = .ok (.obj fields) ∧
      sql = format dao.insert.template [.literal (.list [.list row])] ∧
      (Value.list [.list row]).literal = "(" ++ ", ".intercalate (row.map Value.entryText) ++ ")" ∧
      List.Forall₂ (fun c v => ∀ property j, c.property = some property →
        fields.lookup property = some j → j.isNull = false →
          ∃ literal, (Query.whereText · dao.target.mapping) <$>
              Query.empty.everyEq (.obj [(property, j)]) =
                .ok ("(" ++ dao.target.mapping.columnName property ++ " = " ++ literal ++ ")") ∧
            (e.WellDeclared → dao.target.mapping.columnName property = c.name) ∧
            (literal = v.entryText ↔ c.type.SpellsAlike j)) dao.table.propertyColumns row := by
  obtain ⟨fields, row, hfields, hsql, hrow⟩ := exists_row_of_saveAll hof hsave
  have hcolumn : ∀ c ∈ dao.table.propertyColumns, ∀ property, c.property = some property →
      e.WellDeclared → dao.target.mapping.columnName property = c.name :=
    fun c hc property hproperty hdeclared => hof.columnName_property hdeclared hc hproperty
  refine ⟨fields, row, hfields, hsql, literal_rows [row], ?_⟩
  refine ((List.forall₂_and_left _ _).2 ⟨hcolumn, hrow⟩).imp ?_
  rintro c v ⟨hname, htakes⟩ property j hproperty hfield hnull
  refine ⟨(Value.ofJson j).literal, ?_, hname property hproperty,
    ValueColumn.literal_eq_iff (htakes.convert hproperty hfield hnull)⟩
  exact Query.whereText_everyEq_field dao.target.mapping property hnull

end Writing

/-- A party with a moment in its JSON form. -/
def Event.party : Json :=
  .obj [("id", Json.ofInt 2), ("title", .str "who's in?"), ("at", .str "2024-01-02T03:04:05Z")]

namespace Writing

theorem sql_party : (saveAll [Event.party]).sql Event.dao =
    .ok "insert into event (id,title,at) values (2, 'who\\'s in?', '2024-01-02 03:04:05.000')" := by
  rfl

/-- A filter for the title of the party asks for what the save writes. -/
theorem everyEq_asks_party : ∃ row v,
    (saveAll [Event.party]).sql Event.dao =
      .ok (format Event.dao.insert.template [.literal (.list [.list row])]) ∧
    row[1]? = some v ∧
    (Query.whereText · Event.dao.target.mapping) <$>
      Query.empty.everyEq (.obj [("title", .str "who's in?")]) =
        .ok ("(title = " ++ v.entryText ++ ")") := by
  obtain ⟨fields, row, hfields, hsql, -, hcolumns⟩ := everyEq_asks_iff Event.isDaoOf sql_party
  obtain rfl := Json.obj.inj (Except.ok.inj hfields)
  obtain ⟨id, _, -, hrest, rfl⟩ := List.forall₂_cons_left_iff.1 hcolumns
  obtain ⟨title, _, htitle, -, rfl⟩ := List.forall₂_cons_left_iff.1 hrest
  obtain ⟨literal, hfilter, -, hiff⟩ := htitle "title" (.str "who's in?") rfl rfl rfl
  have hspells : ColumnType.varchar.SpellsAlike (.str "who's in?") := by
    simp [ColumnType.SpellsAlike]
  obtain rfl := hiff.2 hspells
  exact ⟨_, title, sql_party.trans (congrArg _ hsql), rfl, hfilter⟩

/-- A filter for the moment of the party asks for the text that names it, and the save writes the
moment. -/
theorem everyEq_misses_party :
    (saveAll [Event.party]).sql Event.dao =
      .ok "insert into event (id,title,at) values (2, 'who\\'s in?', '2024-01-02 03:04:05.000')" ∧
    (Query.whereText · Event.dao.target.mapping) <$>
      Query.empty.everyEq (.obj [("at", .str "2024-01-02T03:04:05Z")]) =
        .ok "(at = '2024-01-02T03:04:05Z')" ∧
    "'2024-01-02T03:04:05Z'" ≠ "'2024-01-02 03:04:05.000'" :=
  ⟨sql_party, Query.whereText_everyEq_field Event.dao.target.mapping "at" rfl, by decide⟩

end Writing

end Persistence
