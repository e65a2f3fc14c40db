import Persistence.MySql.Column
import Persistence.Operation.Binding
import Persistence.Proofs.Json.Reading
import Persistence.Proofs.Text.Utf8

/-!
# Documents that come back

A column for documents or for texts is written with the text of an array or an object, and with a
string as it is.  The reader of results looks at the text only: in a column for documents it takes
every document for one, in a column for texts those that are arrays or objects.  So a string is
mistaken for the value that it spells, if it spells one, and nothing else is lost but the last
digits of floating-point numbers.

Main results:

- `MySql.documentOrText_eq_str_iff`, `MySql.textValue_eq_str_iff`: the strings that come back.
- `ValueColumn.value?_stored`: what comes back of a value that was written.
-/

namespace Persistence

open Json (IsContainer)

namespace MySql

/-- A text in a column for documents comes back exactly if it is no document. -/
theorem documentOrText_eq_str_iff (s : String) :
    documentOrText s = .str s ↔ Json.parse? s = none := by
  rw [documentOrText]
  cases h : Json.parse? s with
  | none => simp
  | some j =>
      have hne : j ≠ .str s := by
        rintro rfl
        exact Json.parse?_ne_str s h
      simpa using hne

/-- The value of a text that starts like an array or an object is that array or object, or the
text itself. -/
theorem textValue_cases (s : String) :
    (∃ j, Json.parse? s = some j ∧ j.IsContainer ∧ textValue s = j) ∨
      ((∀ j, Json.parse? s = some j → ¬j.IsContainer) ∧ textValue s = .str s) := by
  cases h : Json.parse? s with
  | none =>
      refine .inr ⟨by simp, ?_⟩
      rw [textValue]
      split
      · split
        · rw [documentOrText, h]
          rfl
        · rfl
      · rfl
  | some j =>
      obtain ⟨c, hhead, hstarts⟩ := Json.head?_dropBlank_of_parse? h
      have hvalue : textValue s = if c = '{' ∨ c = '[' then j else .str s := by
        simp [textValue, hhead, documentOrText, h]
      by_cases hj : j.IsContainer
      · refine .inl ⟨j, rfl, hj, ?_⟩
        have hc : c = '{' ∨ c = '[' := by
          cases j <;> simp_all [IsContainer, Json.StartsWith]
        rw [hvalue, if_pos hc]
      · refine .inr ⟨by simpa using hj, ?_⟩
        have hc : ¬(c = '{' ∨ c = '[') := by
          rintro (rfl | rfl) <;> cases j <;>
            simp_all [IsContainer, Json.StartsWith, Decimal.IsNumberChar]
        rw [hvalue, if_neg hc]

/-- A text in a column for texts comes back exactly if it is no array and no object. -/
theorem textValue_eq_str_iff (s : String) :
    textValue s = .str s ↔ ∀ j, Json.parse? s = some j → ¬j.IsContainer := by
  rcases textValue_cases s with ⟨j, hparse, hj, hvalue⟩ | ⟨hnone, hvalue⟩
  · rw [hvalue]
    constructor
    · rintro rfl
      exact hj.elim
    · intro h
      exact (h j hparse hj).elim
  · exact ⟨fun _ => hnone, fun _ => hvalue⟩

variable {v : Json}

/-- The text of an array or an object is read as such in a column for texts, too. -/
theorem textValue_text (hv : v.IsContainer) : textValue v.text = documentOrText v.text := by
  obtain ⟨c, cs, hcons, hstarts⟩ := Json.render_eq_cons v
  have hc : c = '{' ∨ c = '[' := by
    cases v <;> simp_all [IsContainer, Json.StartsWith]
  have hblank := hstarts.isBlank_eq_false
  have hhead : (Text.dropBlank v.text.toList).head? = some c := by
    rw [Json.text, String.toList_ofList, hcons, Text.dropBlank,
      List.dropWhile_cons_of_neg (by simp [hblank]), List.head?_cons]
  rw [textValue, hhead]
  simp [hc]

/-- An array or an object comes back from its text exactly if its floating-point numbers do. -/
theorem documentOrText_text_eq_iff (hv : v.IsContainer) (hdepth : v.depth ≤ Json.nestingLimit)
    (hkeys : Json.DistinctKeys v.parts) :
    documentOrText v.text = v ↔
      ∀ x hx, Json.num (.float x hx) ∈ v.parts →
        (Json.Number.float x hx).reread? = some (.float x hx) := by
  rw [← Json.reread?_eq_some_iff, documentOrText, Json.parse?_text hdepth hkeys]
  cases v.reread? with
  | none =>
      have hne : Json.str v.text ≠ v := by
        intro h
        rw [← h] at hv
        exact hv
      simpa using hne
  | some j => simp

/-- A cell that holds a text. -/
def textCell (s : String) : Cell := some s.toUTF8.data.toList

variable {info : ColumnInfo}

/-- A cell of a column for documents is read as a document, or as its text. -/
theorem value?_textCell_json (hinfo : info.type = .json) (s : String) :
    info.value? (textCell s) = some (documentOrText s) := by
  have hreading : info.reading = .document := by
    simp [ColumnInfo.reading, hinfo, WireType.isInteger]
  have hread := Text.utf8Strict?_toUTF8 s
  show info.reading.value? s.toUTF8.data.toList = _
  rw [hreading, Reading.value?, Reading.value?.ofText, hread]
  · rfl
  all_goals simp

/-- A cell of a column for texts is read as an array, as an object, or as its text. -/
theorem value?_textCell_blob (hinfo : info.type = .blob) (s : String) :
    info.value? (textCell s) = some (textValue s) := by
  have hreading : info.reading = .bytes := by
    simp [ColumnInfo.reading, hinfo, WireType.isInteger]
  show info.reading.value? s.toUTF8.data.toList = _
  rw [hreading, Reading.value?, Text.utf8Lenient_toUTF8]

end MySql

/-! ## Columns for documents and texts -/

open MySql (ColumnInfo textCell)

/-- A column of a table and the description of it in a result: a column for documents, or one for
texts. -/
def HoldsDocuments (c : ValueColumn) (info : ColumnInfo) : Prop :=
  c.type = .json ∧ info.type = .json ∨ c.type = .text ∧ info.type = .blob

namespace ValueColumn

variable {c : ValueColumn} {info : ColumnInfo} {fields : Json.Fields}

/-- A column for documents or texts is written with the text of an array or an object. -/
theorem value_of_isContainer (hcolumn : HoldsDocuments c info) {v : Json} (hv : v.IsContainer)
    (hlookup : fields.lookup c.property = some v) : c.value fields = .ok (.string v.text) := by
  have htype : c.type = .json ∨ c.type = .text := hcolumn.imp And.left And.left
  rw [value, hlookup]
  cases v <;> first | exact hv.elim | skip
  all_goals rcases htype with htype | htype <;> simp [Json.isNull, convert, htype]

/-- A column for documents or texts is written with a string as it is. -/
theorem value_str (hcolumn : HoldsDocuments c info) {s : String}
    (hlookup : fields.lookup c.property = some (.str s)) : c.value fields = .ok (.string s) := by
  have htype : c.type = .json ∨ c.type = .text := hcolumn.imp And.left And.left
  rw [value, hlookup]
  rcases htype with htype | htype <;> simp [Json.isNull, convert, htype, Value.ofJson]

/-- What a column for documents or texts gives back of the text that it is written with.  An array
or an object comes back exactly if the reader makes the same number of the shortest digits of every
floating-point number in it.  A string comes back exactly if it spells no document, or, in a column
for texts, no array and no object; else the document comes back that it spells. -/
theorem value?_stored {v : Json} (hcolumn : HoldsDocuments c info)
    (hlookup : fields.lookup c.property = some v) (hdepth : v.depth ≤ Json.nestingLimit)
    (hkeys : Json.DistinctKeys v.parts) :
    (v.IsContainer → ∃ text, c.value fields = .ok (.string text) ∧
      (info.value? (textCell text) = some v ↔
        ∀ x hx, Json.num (.float x hx) ∈ v.parts →
          (Json.Number.float x hx).reread? = some (.float x hx))) ∧
    ∀ s, v = .str s → c.value fields = .ok (.string s) ∧
      (info.value? (textCell s) = some v ↔
        ∀ j, Json.parse? s = some j → c.type = .text ∧ ¬j.IsContainer) ∧
      ∃ w, info.value? (textCell s) = some w ∧
        (w = v ∨ Json.parse? s = some w ∧ (c.type = .text → w.IsContainer)) := by
  constructor
  · intro hv
    refine ⟨v.text, value_of_isContainer hcolumn hv hlookup, ?_⟩
    have hread : info.value? (textCell v.text) = some (MySql.documentOrText v.text) := by
      rcases hcolumn with ⟨-, hinfo⟩ | ⟨-, hinfo⟩
      · exact MySql.value?_textCell_json hinfo v.text
      · rw [MySql.value?_textCell_blob hinfo, MySql.textValue_text hv]
    rw [hread, Option.some.injEq, MySql.documentOrText_text_eq_iff hv hdepth hkeys]
  · rintro s rfl
    refine ⟨value_str hcolumn hlookup, ?_⟩
    rcases hcolumn with ⟨hc, hinfo⟩ | ⟨hc, hinfo⟩
    · have hnot : c.type ≠ .text := by simp [hc]
      rw [MySql.value?_textCell_json hinfo, Option.some.injEq, MySql.documentOrText_eq_str_iff]
      refine ⟨by simp [hnot, Option.eq_none_iff_forall_ne_some], _, rfl, ?_⟩
      rw [MySql.documentOrText]
      cases h : Json.parse? s with
      | none => exact .inl rfl
      | some j => exact .inr ⟨rfl, fun htext => absurd htext hnot⟩
    · rw [MySql.value?_textCell_blob hinfo, Option.some.injEq, MySql.textValue_eq_str_iff]
      refine ⟨by simp [hc], _, rfl, ?_⟩
      rcases MySql.textValue_cases s with ⟨j, hparse, hj, hvalue⟩ | ⟨-, hvalue⟩
      · rw [hvalue]
        exact .inr ⟨hparse, fun _ => hj⟩
      · exact .inl hvalue

/-- A document with a list in it. -/
def tagged : Json := .obj [("tags", .arr [.str "a", .num (.int 7 (by decide))])]

/-- A document comes back from a column for documents. -/
theorem value?_stored_tagged :
    HoldsDocuments ⟨"doc", .json, none⟩ ⟨"doc", .json, 0, false⟩ ∧
      ∃ text, (⟨"doc", .json, none⟩ : ValueColumn).value [("doc", tagged)] = .ok (.string text) ∧
        (⟨"doc", .json, 0, false⟩ : ColumnInfo).value? (textCell text) = some tagged := by
  have hcolumn : HoldsDocuments ⟨"doc", .json, none⟩ ⟨"doc", .json, 0, false⟩ := .inl ⟨rfl, rfl⟩
  have hkeys : Json.DistinctKeys tagged.parts := by
    intro fields hfields
    simp only [tagged, Json.parts, Json.itemParts, Json.fieldParts] at hfields
    simp at hfields
    rw [hfields]
    decide
  refine ⟨hcolumn, ?_⟩
  have hlookup : [("doc", tagged)].lookup "doc" = some tagged := rfl
  obtain ⟨text, hvalue, hback⟩ := (value?_stored hcolumn hlookup (by decide) hkeys).1 trivial
  refine ⟨text, hvalue, hback.2 ?_⟩
  intro x hx hmem
  simp [tagged, Json.parts, Json.itemParts, Json.fieldParts] at hmem

/-- A number whose shortest digits are those of another number to the reader. -/
def driftingFloat : Binary64 := ⟨4728057454355442549⟩

theorem isFinite_driftingFloat : driftingFloat.isFinite = true := by decide

theorem reread?_driftingFloat :
    (Json.Number.float driftingFloat isFinite_driftingFloat).reread? =
      some (.float ⟨4728057454355442550⟩ (by decide)) := by
  have hread : Json.takeNumber? (Json.Number.float driftingFloat isFinite_driftingFloat).text =
      some (.float ⟨4728057454355442550⟩ (by decide), []) := by
    decide +kernel
  rw [Json.Number.reread?, hread]
  rfl

/-- Not every string and not every array comes back: a text is taken for the array that it spells,
a string in a column for documents for a number, and a floating-point number for the next one. -/
theorem value?_textCell_mistaken :
    ((⟨"note", .text, none⟩ : ValueColumn).value [("note", .str "[1,2]")] =
        .ok (.string "[1,2]") ∧
      (⟨"note", .blob, 65535, false⟩ : ColumnInfo).value? (textCell "[1,2]") =
        some (.arr [Json.ofInt 1, Json.ofInt 2]) ∧
      Json.arr [Json.ofInt 1, Json.ofInt 2] ≠ .str "[1,2]") ∧
    ((⟨"note", .json, none⟩ : ValueColumn).value [("note", .str "12")] = .ok (.string "12") ∧
      (⟨"note", .json, 0, false⟩ : ColumnInfo).value? (textCell "12") = some (Json.ofInt 12) ∧
      Json.ofInt 12 ≠ .str "12") ∧
    ∃ text, (⟨"note", .json, none⟩ : ValueColumn).value
          [("note", .arr [.num (.float driftingFloat isFinite_driftingFloat)])] =
        .ok (.string text) ∧
      (⟨"note", .json, 0, false⟩ : ColumnInfo).value? (textCell text) ≠
        some (.arr [.num (.float driftingFloat isFinite_driftingFloat)]) := by
  refine ⟨⟨rfl, ?_, ?_⟩, ⟨rfl, ?_, ?_⟩, _, rfl, ?_⟩
  · rw [MySql.value?_textCell_blob rfl]
    rfl
  · simp
  · rw [MySql.value?_textCell_json rfl]
    rfl
  · intro h
    cases h
  · intro h
    rw [MySql.value?_textCell_json rfl, Option.some.injEq] at h
    have harr : (Json.arr [.num (.float driftingFloat isFinite_driftingFloat)]).IsContainer :=
      trivial
    have hkeys : Json.DistinctKeys
        (Json.arr [.num (.float driftingFloat isFinite_driftingFloat)]).parts := by
      intro fields hfields
      simp [Json.parts, Json.itemParts] at hfields
    have hnumbers := (MySql.documentOrText_text_eq_iff harr (by decide) hkeys).1 h
    have hback := hnumbers driftingFloat isFinite_driftingFloat
      (by simp [Json.parts, Json.itemParts])
    rw [reread?_driftingFloat] at hback
    revert hback
    decide

end ValueColumn

end Persistence
