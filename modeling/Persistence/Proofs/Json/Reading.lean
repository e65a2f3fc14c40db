import Persistence.Entity.Shape
import Persistence.Proofs.Catalog.Entries
import Persistence.Proofs.Json.Number
import Persistence.Text.Blank

/-!
# Reading JSON texts back

The reader takes the text of a value for one value, whatever closes or separates it.  Every value
that nests no deeper than the reader allows, and whose objects hold each key once, comes back with
its strings, its keys and its integers as they were; only the floating-point numbers in it are
computed anew.

Main results:

- `Json.parse?_text`: what is read from the text of a value.
- `Json.reread?_eq_some_iff`: a value comes back exactly if each floating-point number in it does.
- `Json.parse?_ne_str`: no text is read as the string that it is itself.
- `Json.head?_dropBlank_of_parse?`: the first character of a text tells the kind of the value that
  is read from it.
-/

namespace Persistence.Json

/-! ## Values inside of values -/

mutual

/-- The values inside of a value, and itself. -/
def parts : Json → List Json
  | arr items => arr items :: itemParts items
  | obj fields => obj fields :: fieldParts fields
  | j => [j]

/-- The values inside of the items of an array. -/
def itemParts : List Json → List Json
  | [] => []
  | item :: items => parts item ++ itemParts items

/-- The values inside of the fields of an object. -/
def fieldParts : List (String × Json) → List Json
  | [] => []
  | (_, value) :: fields => parts value ++ fieldParts fields

end

mutual

/-- The value that the reader makes of the text of a value: its numbers are read anew. -/
def reread? : Json → Option Json
  | num n => n.reread?.map num
  | arr items => (rereadItems? items).map arr
  | obj fields => (rereadFields? fields).map obj
  | j => some j

/-- The items that the reader makes of the texts of some items. -/
def rereadItems? : List Json → Option (List Json)
  | [] => some []
  | item :: items => (reread? item).bind fun item => (rereadItems? items).map (item :: ·)

/-- The fields that the reader makes of the texts of some fields. -/
def rereadFields? : List (String × Json) → Option (List (String × Json))
  | [] => some []
  | (key, value) :: fields =>
      (reread? value).bind fun value => (rereadFields? fields).map ((key, value) :: ·)

end

/-- The objects among some values hold each key once. -/
def DistinctKeys (values : List Json) : Prop :=
  ∀ fields, obj fields ∈ values → (Keyed.keys fields).Nodup

theorem DistinctKeys.mono {values inner : List Json} (h : DistinctKeys values)
    (hinner : inner ⊆ values) : DistinctKeys inner :=
  fun fields hfields => h fields (hinner hfields)

/-! ## Blanks -/

theorem skipSpace_cons {c : Char} (hc : isSpace c = false) (text : List Char) :
    skipSpace (c :: text) = c :: text := by
  rw [skipSpace, List.dropWhile_cons_of_neg (by simp [hc])]

/-- No value starts with a blank. -/
theorem StartsWith.isSpace_eq_false {c : Char} {j : Json} (h : StartsWith c j) :
    isSpace c = false := by
  rw [isSpace]
  cases j <;> simp only [StartsWith] at h
  case num =>
    rcases h with h | h
    · simp
      refine ⟨⟨⟨?_, ?_⟩, ?_⟩, ?_⟩ <;> rintro rfl <;> simp at h
    · rcases h with rfl | rfl | rfl | rfl <;> rfl
  case bool => rcases h with rfl | rfl <;> rfl
  all_goals
    subst h
    rfl

theorem skipSpace_render (j : Json) (rest : List Char) :
    skipSpace (render j ++ rest) = render j ++ rest := by
  obtain ⟨c, cs, hcons, hstarts⟩ := render_eq_cons j
  rw [hcons]
  exact skipSpace_cons hstarts.isSpace_eq_false _

/-! ## Values -/

variable {fuel limit : Nat} {rest : List Char}

/-- A number is taken where one starts. -/
theorem takeValue?_num (n : Number) (hrest : Closes rest) :
    takeValue? (fuel + 1) limit (n.text ++ rest) = (n.reread?.map num).map fun j => (j, rest) := by
  obtain ⟨c, cs, hcons, hstarts⟩ := render_eq_cons (num n)
  have htext : n.text = c :: cs := hcons
  have hread := takeNumber?_text n hrest
  have hchar : Decimal.IsNumberChar c := hstarts
  rw [htext, List.cons_append] at hread ⊢
  rw [takeValue?, skipSpace_cons hstarts.isSpace_eq_false]
  split
  all_goals try
    next h =>
      have hc := (List.cons.inj h).1
      exact absurd hchar (not_isNumberChar (by simp [hc]))
  · next h => simp at h
  · rw [hread, Option.map_map, Option.map_map]
    rfl

/-- An array is closed at once, or its items start. -/
theorem takeValue?_arr (text : List Char) :
    takeValue? (fuel + 1) (limit + 1) ('[' :: text) =
      match skipSpace text with
      | ']' :: rest => some (arr [], rest)
      | rest => (takeItems? fuel limit [] rest).map fun (items, rest) => (arr items, rest) := by
  rw [takeValue?, skipSpace_cons rfl]
  rfl

/-- An object is closed at once, or its fields start. -/
theorem takeValue?_obj (text : List Char) :
    takeValue? (fuel + 1) (limit + 1) ('{' :: text) =
      match skipSpace text with
      | '}' :: rest => some (obj [], rest)
      | rest => (takeFields? fuel limit [] rest).map fun (fields, rest) => (obj fields, rest) := by
  rw [takeValue?, skipSpace_cons rfl]
  rfl

theorem takeValue?_arr_cons (item : Json) (items : List Json) :
    takeValue? (fuel + 1) (limit + 1) ('[' :: (renderItems (item :: items) ++ rest)) =
      (takeItems? fuel limit [] (renderItems (item :: items) ++ rest)).map
        fun (items, rest) => (arr items, rest) := by
  rw [takeValue?_arr, renderItems_cons, List.append_assoc, skipSpace_render]
  split
  · next h => exact (render_ne_close (.inl rfl) h).elim
  · rfl

theorem takeValue?_obj_cons (field : String × Json) (fields : List (String × Json)) :
    takeValue? (fuel + 1) (limit + 1) ('{' :: (renderFields (field :: fields) ++ rest)) =
      (takeFields? fuel limit [] (renderFields (field :: fields) ++ rest)).map
        fun (fields, rest) => (obj fields, rest) := by
  rw [takeValue?_obj, renderFields_cons, quote, List.append_assoc, List.cons_append,
    List.cons_append, skipSpace_cons rfl]
  split
  · next h => simp at h
  · rfl

/-- The next item is taken; what follows it goes on with the items or closes the array. -/
theorem takeItems?_cons (taken : List Json) {item : Json} {read : Option Json} {items : List Json}
    (hread : takeValue? fuel limit (render item ++ (afterItem items ++ rest)) =
      read.map fun j => (j, afterItem items ++ rest)) :
    takeItems? (fuel + 1) limit taken (renderItems (item :: items) ++ rest) =
      read.bind fun j =>
        if items.isEmpty then some (taken ++ [j], rest)
        else takeItems? fuel limit (taken ++ [j]) (renderItems items ++ rest) := by
  rw [renderItems_cons, List.append_assoc, takeItems?, hread]
  cases read with
  | none => rfl
  | some j => cases items <;> rfl

/-- The next field is taken behind its key; what follows it goes on with the fields or closes the
object. -/
theorem takeFields?_cons {taken : Fields} {key : String} {value : Json} {read : Option Json}
    {fields : Fields} (hnew : taken.lookup key = none)
    (hread : takeValue? fuel limit (render value ++ (afterField fields ++ rest)) =
      read.map fun j => (j, afterField fields ++ rest)) :
    takeFields? (fuel + 1) limit taken (renderFields ((key, value) :: fields) ++ rest) =
      read.bind fun j =>
        if fields.isEmpty then some (taken ++ [(key, j)], rest)
        else takeFields? fuel limit (taken ++ [(key, j)]) (renderFields fields ++ rest) := by
  have hquote : takeString? (key.toList.flatMap quoteChar ++ ['"'] ++
      (':' :: (render value ++ (afterField fields ++ rest)))) =
      some (key.toList, ':' :: (render value ++ (afterField fields ++ rest))) :=
    takeString?_quote key.toList _
  have htext : renderFields ((key, value) :: fields) ++ rest =
      '"' :: (key.toList.flatMap quoteChar ++ ['"'] ++
        (':' :: (render value ++ (afterField fields ++ rest)))) := by
    rw [renderFields_cons, quote]
    simp
  rw [htext, takeFields?, skipSpace_cons rfl]
  simp only [hquote, Option.bind_eq_bind, Option.bind_some]
  rw [skipSpace_cons rfl]
  simp only [hread, String.ofList_toList, Keyed.put_of_lookup_eq_none _ hnew]
  cases read with
  | none => rfl
  | some j => cases fields <;> rfl

theorem closes_afterItem (items : List Json) (rest : List Char) :
    Closes (afterItem items ++ rest) := by
  rw [afterItem]
  split
  · exact closes_cons (.inr (.inl rfl)) _
  · exact closes_cons (.inl rfl) _

theorem closes_afterField (fields : Fields) (rest : List Char) :
    Closes (afterField fields ++ rest) := by
  rw [afterField]
  split
  · exact closes_cons (.inr (.inr rfl)) _
  · exact closes_cons (.inl rfl) _

theorem length_renderItems_cons (item : Json) (items : List Json) :
    (renderItems (item :: items)).length =
      (render item).length + if items.isEmpty then 1 else 1 + (renderItems items).length := by
  rw [renderItems_cons, List.length_append, afterItem]
  split <;> simp
  omega

theorem length_renderFields_cons (key : String) (value : Json) (fields : Fields) :
    (render value).length + (if fields.isEmpty then 1 else 1 + (renderFields fields).length) ≤
      (renderFields ((key, value) :: fields)).length := by
  rw [renderFields_cons, List.length_append, List.length_cons, List.length_append, afterField]
  split <;> simp
  · omega
  · omega

theorem length_render_pos (j : Json) : 0 < (render j).length := by
  obtain ⟨c, cs, hcons, _⟩ := render_eq_cons j
  rw [hcons]
  simp

/-- A string is taken where one starts. -/
theorem takeValue?_str (s : String) (rest : List Char) :
    takeValue? (fuel + 1) limit (quote s.toList ++ rest) = some (str s, rest) := by
  have hquote : takeString? (s.toList.flatMap quoteChar ++ ['"'] ++ rest) = some (s.toList, rest) :=
    takeString?_quote s.toList rest
  rw [takeValue?, quote, List.cons_append, List.cons_append, skipSpace_cons rfl]
  simp only [hquote, Option.map_some, String.ofList_toList]

mutual

/-- The text of a value is taken for the value that it is read as, whatever closes or separates
it. -/
theorem takeValue?_render : ∀ (j : Json) (fuel limit : Nat) (rest : List Char), Closes rest →
    2 * (render j).length ≤ fuel → depth j ≤ limit → DistinctKeys (parts j) →
    takeValue? fuel limit (render j ++ rest) = (reread? j).map fun j => (j, rest)
  | null, fuel + 1, limit, rest, _, _, _, _ => by
      rw [takeValue?, render, List.cons_append, skipSpace_cons rfl]
      rfl
  | bool true, fuel + 1, limit, rest, _, _, _, _ => by
      rw [takeValue?, render, if_pos rfl, List.cons_append, skipSpace_cons rfl]
      rfl
  | bool false, fuel + 1, limit, rest, _, _, _, _ => by
      rw [takeValue?, render, if_neg Bool.false_ne_true, List.cons_append, skipSpace_cons rfl]
      rfl
  | num n, fuel + 1, limit, rest, hrest, _, _, _ => takeValue?_num n hrest
  | str s, fuel + 1, limit, rest, _, _, _, _ => takeValue?_str s rest
  | arr [], fuel + 1, limit + 1, rest, _, _, _, _ => by
      rw [render, renderItems, List.cons_append, takeValue?_arr, List.cons_append,
        skipSpace_cons rfl]
      rfl
  | arr (item :: items), fuel + 1, limit + 1, rest, _, hfuel, hdepth, hkeys => by
      rw [render, List.length_cons] at hfuel
      rw [depth] at hdepth
      rw [parts] at hkeys
      have hitems := takeItems?_render item items [] fuel limit rest (by omega)
        (by omega) (hkeys.mono (List.subset_cons_self _ _))
      rw [render, List.cons_append, takeValue?_arr_cons, hitems, reread?]
      cases rereadItems? (item :: items) <;> rfl
  | obj [], fuel + 1, limit + 1, rest, _, _, _, _ => by
      rw [render, renderFields, List.cons_append, takeValue?_obj, List.cons_append,
        skipSpace_cons rfl]
      rfl
  | obj ((key, value) :: fields), fuel + 1, limit + 1, rest, _, hfuel, hdepth, hkeys => by
      rw [render, List.length_cons] at hfuel
      rw [depth] at hdepth
      rw [parts] at hkeys
      have hdistinct := hkeys _ List.mem_cons_self
      have hfields := takeFields?_render key value fields [] fuel limit rest hdistinct (by omega)
        (by omega) (hkeys.mono (List.subset_cons_self _ _))
      rw [render, List.cons_append, takeValue?_obj_cons, hfields, reread?]
      cases rereadFields? ((key, value) :: fields) <;> rfl
  -- neither the fuel nor the nesting limit runs out: the text is not empty, and what is inside of
  -- an array or an object is shorter and less deep than the whole
  | j, 0, limit, rest, _, hfuel, _, _ => by
      have hpos := length_render_pos j
      omega
  | arr items, fuel + 1, 0, rest, _, _, hdepth, _ => by
      rw [depth] at hdepth
      omega
  | obj fields, fuel + 1, 0, rest, _, _, hdepth, _ => by
      rw [depth] at hdepth
      omega

/-- The items of an array are taken one after the other. -/
theorem takeItems?_render : ∀ (item : Json) (items taken : List Json) (fuel limit : Nat)
    (rest : List Char), 2 * (renderItems (item :: items)).length ≤ fuel →
    itemsDepth (item :: items) ≤ limit → DistinctKeys (itemParts (item :: items)) →
    takeItems? fuel limit taken (renderItems (item :: items) ++ rest) =
      (rereadItems? (item :: items)).map fun items => (taken ++ items, rest)
  | item, items, taken, 0, limit, rest, hfuel, _, _ => by
      have hpos := length_render_pos item
      rw [length_renderItems_cons] at hfuel
      omega
  | item, items, taken, fuel + 1, limit, rest, hfuel, hdepth, hkeys => by
      rw [length_renderItems_cons] at hfuel
      rw [itemsDepth] at hdepth
      rw [itemParts] at hkeys
      have hread := takeValue?_render item fuel limit _
        (closes_afterItem items rest) (by split at hfuel <;> omega) (by omega)
        (hkeys.mono (List.subset_append_left _ _))
      rw [takeItems?_cons taken hread, rereadItems?]
      cases reread? item with
      | none => rfl
      | some read =>
          cases items with
          | nil => rfl
          | cons next items =>
              have hnext := takeItems?_render next items (taken ++ [read]) fuel limit rest
                (by simp at hfuel; omega) (by omega)
                (hkeys.mono (List.subset_append_right _ _))
              rw [Option.bind_some, Option.bind_some, if_neg (by simp), hnext]
              cases rereadItems? (next :: items) <;> simp

/-- The fields of an object are taken one after the other; their keys are new each time. -/
theorem takeFields?_render : ∀ (key : String) (value : Json) (fields taken : Fields)
    (fuel limit : Nat) (rest : List Char),
    (Keyed.keys (taken ++ (key, value) :: fields)).Nodup →
    2 * (renderFields ((key, value) :: fields)).length ≤ fuel →
    fieldsDepth ((key, value) :: fields) ≤ limit →
    DistinctKeys (fieldParts ((key, value) :: fields)) →
    takeFields? fuel limit taken (renderFields ((key, value) :: fields) ++ rest) =
      (rereadFields? ((key, value) :: fields)).map fun fields => (taken ++ fields, rest)
  | key, value, fields, taken, 0, limit, rest, _, hfuel, _, _ => by
      have hpos := length_render_pos value
      have hlength := length_renderFields_cons key value fields
      omega
  | key, value, fields, taken, fuel + 1, limit, rest, hdistinct, hfuel, hdepth, hkeys => by
      have hlength := length_renderFields_cons key value fields
      rw [fieldsDepth] at hdepth
      rw [fieldParts] at hkeys
      have hread := takeValue?_render value fuel limit _
        (closes_afterField fields rest) (by split at hlength <;> omega) (by omega)
        (hkeys.mono (List.subset_append_left _ _))
      have hnew : taken.lookup key = none := by
        rw [List.lookup_eq_none_iff]
        intro entry hentry
        simp only [Keyed.keys, List.map_append, List.nodup_append] at hdistinct
        have hne := hdistinct.2.2 entry.1 (List.mem_map_of_mem hentry) key (by simp)
        simpa using hne.symm
      rw [takeFields?_cons hnew hread, rereadFields?]
      cases reread? value with
      | none => rfl
      | some read =>
          cases fields with
          | nil => rfl
          | cons next fields =>
              obtain ⟨nextKey, nextValue⟩ := next
              have hnext := takeFields?_render nextKey nextValue fields (taken ++ [(key, read)])
                fuel limit rest
                (by simpa [Keyed.keys] using hdistinct) (by simp at hlength; omega) (by omega)
                (hkeys.mono (List.subset_append_right _ _))
              rw [Option.bind_some, Option.bind_some, if_neg (by simp), hnext]
              cases rereadFields? ((nextKey, nextValue) :: fields) <;> simp

end

/-- What is read from the text of a value. -/
theorem parse?_text {j : Json} (hdepth : j.depth ≤ nestingLimit) (hkeys : DistinctKeys j.parts) :
    parse? j.text = j.reread? := by
  have hread := takeValue?_render j (2 * (render j).length + 2) nestingLimit [] closes_nil
    (by omega) hdepth hkeys
  rw [List.append_nil] at hread
  rw [parse?, text, String.toList_ofList, parseChars?, hread]
  cases reread? j <;> rfl

/-! ## Values that come back -/

mutual

/-- A value comes back exactly if every number in it does. -/
theorem reread?_eq_some_iff_numbers : ∀ j : Json,
    reread? j = some j ↔ ∀ n, num n ∈ parts j → n.reread? = some n
  | null => by simp [reread?, parts]
  | bool b => by simp [reread?, parts]
  | num n => by simp [reread?, parts]
  | str s => by simp [reread?, parts]
  | arr items => by simp [reread?, parts, rereadItems?_eq_some_iff items]
  | obj fields => by simp [reread?, parts, rereadFields?_eq_some_iff fields]

theorem rereadItems?_eq_some_iff : ∀ items : List Json,
    rereadItems? items = some items ↔ ∀ n, num n ∈ itemParts items → n.reread? = some n
  | [] => by simp [rereadItems?, itemParts]
  | item :: items => by
      have hitem := reread?_eq_some_iff_numbers item
      have hitems := rereadItems?_eq_some_iff items
      simp only [rereadItems?, itemParts, List.mem_append, or_imp, forall_and, ← hitem, ← hitems,
        Option.bind_eq_some_iff, Option.map_eq_some_iff, List.cons.injEq]
      constructor
      · rintro ⟨_, hread, _, hreads, rfl, rfl⟩
        exact ⟨hread, hreads⟩
      · rintro ⟨hread, hreads⟩
        exact ⟨item, hread, items, hreads, rfl, rfl⟩

theorem rereadFields?_eq_some_iff : ∀ fields : Fields,
    rereadFields? fields = some fields ↔ ∀ n, num n ∈ fieldParts fields → n.reread? = some n
  | [] => by simp [rereadFields?, fieldParts]
  | (key, value) :: fields => by
      have hvalue := reread?_eq_some_iff_numbers value
      have hfields := rereadFields?_eq_some_iff fields
      simp only [rereadFields?, fieldParts, List.mem_append, or_imp, forall_and, ← hvalue,
        ← hfields, Option.bind_eq_some_iff, Option.map_eq_some_iff, List.cons.injEq,
        Prod.mk.injEq, true_and]
      constructor
      · rintro ⟨_, hread, _, hreads, rfl, rfl⟩
        exact ⟨hread, hreads⟩
      · rintro ⟨hread, hreads⟩
        exact ⟨value, hread, fields, hreads, rfl, rfl⟩

end

/-- A value comes back exactly if every floating-point number in it does. -/
theorem reread?_eq_some_iff (j : Json) :
    reread? j = some j ↔
      ∀ x hx, num (.float x hx) ∈ parts j →
        (Number.float x hx).reread? = some (.float x hx) := by
  rw [reread?_eq_some_iff_numbers]
  constructor
  · exact fun h x hx hmem => h _ hmem
  · intro h n hmem
    cases n with
    | int n hn => exact Number.reread?_int hn
    | float x hx => exact h x hx hmem

/-! ## Texts that are read -/

/-- A result that was changed in its first part. -/
theorem eq_of_map_fst {α β : Type} {f : α → β} {o : Option (α × List Char)} {b : β}
    {rest : List Char} (h : o.map (fun (a, rest) => (f a, rest)) = some (b, rest)) :
    ∃ a, o = some (a, rest) ∧ f a = b := by
  obtain ⟨⟨a, tail⟩, ho, heq⟩ := Option.map_eq_some_iff.1 h
  obtain ⟨hb, rfl⟩ := Prod.mk.inj heq
  exact ⟨a, ho, hb⟩

/-- What a word is read as. -/
theorem eq_of_map_word {o : Option (List Char)} {v j : Json} {rest : List Char}
    (h : o.map (fun rest => (v, rest)) = some (j, rest)) : j = v := by
  obtain ⟨tail, -, heq⟩ := Option.map_eq_some_iff.1 h
  exact (congrArg Prod.fst heq).symm

/-- What is read behind an opening quote is shorter than the text. -/
theorem length_takeString? {text s rest : List Char} (h : takeString? text = some (s, rest)) :
    s.length + rest.length < text.length := by
  fun_induction takeString? text generalizing s rest
  case case2 =>
    obtain ⟨rfl, rfl⟩ := Prod.mk.inj (Option.some.inj h)
    simp
  case case4 hread _ ih =>
    obtain ⟨rfl, rfl⟩ := Prod.mk.inj (Option.some.inj h)
    have hlength := ih hread
    simp only [List.length_cons]
    omega
  case case8 ih | case10 ih | case12 ih =>
    obtain ⟨t, hread, rfl⟩ := eq_of_map_fst h
    have hlength := ih hread
    simp only [List.length_cons]
    omega
  all_goals cases h

/-- A number starts with a digit or a sign. -/
theorem isNumberChar_of_takeNumber? {text rest : List Char} {n : Number}
    (h : takeNumber? text = some (n, rest)) :
    ∃ c tail, text = c :: tail ∧ Decimal.IsNumberChar c := by
  rw [takeNumber?.eq_def] at h
  split at h
  · next tail => exact ⟨'-', tail, rfl, .inr (.inr (.inr (.inr rfl)))⟩
  · cases text with
    | nil => simp [takeMagnitude?] at h
    | cons c tail =>
        refine ⟨c, tail, rfl, .inl ?_⟩
        by_contra hc
        simp [takeMagnitude?, hc] at h

/-- The first character behind the blanks tells the kind of the value that is read. -/
theorem startsWith_of_takeValue? {text : List Char} {j : Json}
    (h : takeValue? fuel limit text = some (j, rest)) :
    ∃ c tail, skipSpace text = c :: tail ∧ StartsWith c j := by
  cases fuel with
  | zero => simp [takeValue?] at h
  | succ fuel =>
      rw [takeValue?] at h
      split at h
      · cases h
      · next hskip => exact ⟨_, _, hskip, eq_of_map_word h ▸ rfl⟩
      · next hskip => exact ⟨_, _, hskip, eq_of_map_word h ▸ .inl rfl⟩
      · next hskip => exact ⟨_, _, hskip, eq_of_map_word h ▸ .inr rfl⟩
      · next hskip =>
          obtain ⟨_, _, rfl⟩ := eq_of_map_fst (f := fun s => str (String.ofList s)) h
          exact ⟨_, _, hskip, rfl⟩
      · next hskip =>
          split at h
          · cases h
          · split at h
            · obtain ⟨rfl, -⟩ := Prod.mk.inj (Option.some.inj h)
              exact ⟨_, _, hskip, rfl⟩
            · obtain ⟨_, _, rfl⟩ := eq_of_map_fst h
              exact ⟨_, _, hskip, rfl⟩
      · next hskip =>
          split at h
          · cases h
          · split at h
            · obtain ⟨rfl, -⟩ := Prod.mk.inj (Option.some.inj h)
              exact ⟨_, _, hskip, rfl⟩
            · obtain ⟨_, _, rfl⟩ := eq_of_map_fst h
              exact ⟨_, _, hskip, rfl⟩
      · obtain ⟨_, hnumber, rfl⟩ := eq_of_map_fst h
        exact isNumberChar_of_takeNumber? hnumber

/-- What is read from a text is the value at its front. -/
theorem exists_takeValue?_of_parse? {text : String} {j : Json} (h : parse? text = some j) :
    ∃ rest, takeValue? (2 * text.toList.length + 2) nestingLimit text.toList = some (j, rest) := by
  obtain ⟨⟨value, rest⟩, hread, hend⟩ := Option.bind_eq_some_iff.1 h
  dsimp only at hend
  split at hend
  · obtain rfl := Option.some.inj hend
    exact ⟨rest, hread⟩
  · cases hend

/-- No text is read as the string that it is itself: a string is shorter than what it is read
from. -/
theorem parse?_ne_str (text : String) : parse? text ≠ some (str text) := by
  intro h
  obtain ⟨rest, hread⟩ := exists_takeValue?_of_parse? h
  obtain ⟨c, tail, hskip, hstarts⟩ := startsWith_of_takeValue? hread
  obtain rfl : c = '"' := hstarts
  rw [takeValue?, hskip] at hread
  obtain ⟨s, hstring, hs⟩ := eq_of_map_fst (f := fun s => str (String.ofList s)) hread
  have hlength := length_takeString? hstring
  have htext : s = text.toList := by
    rw [← Json.str.inj hs, String.toList_ofList]
  have hskipped : (skipSpace text.toList).length ≤ text.toList.length :=
    (List.dropWhile_suffix isSpace).length_le
  rw [hskip, List.length_cons] at hskipped
  rw [htext] at hlength
  omega

/-- A value is an array or an object. -/
def IsContainer : Json → Prop
  | arr _ => True
  | obj _ => True
  | _ => False

/-- A blank of documents is one of texts. -/
theorem isBlank_of_isSpace {c : Char} (h : isSpace c = true) : Text.isBlank c = true := by
  simp only [isSpace, Bool.or_eq_true, decide_eq_true_eq] at h
  rcases h with ((rfl | rfl) | rfl) | rfl <;> decide

/-- No value starts with a blank of texts. -/
theorem StartsWith.isBlank_eq_false {c : Char} {j : Json} (h : StartsWith c j) :
    Text.isBlank c = false := by
  cases j <;> simp only [StartsWith] at h
  case num =>
    rcases h with h | rfl | rfl | rfl | rfl
    · exact Text.isBlank_of_isDigit h
    all_goals decide
  case bool => rcases h with rfl | rfl <;> decide
  all_goals
    subst h
    decide

/-- Where a text starts that a value is read from. -/
theorem head?_dropBlank_of_parse? {text : String} {j : Json} (h : parse? text = some j) :
    ∃ c, (Text.dropBlank text.toList).head? = some c ∧ StartsWith c j := by
  obtain ⟨rest, hread⟩ := exists_takeValue?_of_parse? h
  obtain ⟨c, tail, hskip, hstarts⟩ := startsWith_of_takeValue? hread
  refine ⟨c, ?_, hstarts⟩
  have hcut := List.takeWhile_append_dropWhile (p := isSpace) (l := text.toList)
  have hblank : ∀ d ∈ text.toList.takeWhile isSpace, Text.isBlank d = true :=
    fun d hd => isBlank_of_isSpace (List.mem_takeWhile_imp hd)
  rw [skipSpace] at hskip
  rw [hskip] at hcut
  rw [Text.dropBlank, ← hcut, List.dropWhile_append_of_pos hblank,
    List.dropWhile_cons_of_neg (by simp [hstarts.isBlank_eq_false])]
  rfl

end Persistence.Json
