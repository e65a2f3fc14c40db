import Persistence.Proofs.Sql.Quoting
import Persistence.Proofs.Sql.Surface

/-!
# The names in statements

How the database reads the names in a statement whose other words are known.  A name stands between
backticks, in which a backtick is written twice, or it is a run of letters, digits, underscores,
dollar signs and characters beyond ASCII.

A statement is a row of parts: words, marks and literals, and names.  Written in quotes every name
is read as itself.  Written as it is, a name is read as itself only if it is such a run: one that
starts with a backtick is the name between its backticks, which is never itself.

Main results:

- `takeName?_bare_iff`: the names that are read as themselves without quotes.
- `readNames?_quoted`, `readNames?_bare_iff`: the names of a statement, in quotes and without.
-/

namespace Persistence.Sql

/-! ## Reading a name -/

/-- The name in front of a text, and what stands behind it. -/
def takeName? (text : List Char) : Option (List Char × List Char) :=
  match text with
  | '\x60' :: text => takeQuoted? text
  | _ =>
      if (text.takeWhile isNameChar).isEmpty then none
      else some (text.takeWhile isNameChar, text.dropWhile isNameChar)

/-- Whether a name is a run of letters, digits, underscores, dollar signs and characters beyond
ASCII. -/
def isRun (s : List Char) : Bool := !s.isEmpty && s.all isNameChar

/-- A run has no placeholders and no quotes of any kind. -/
theorem isUnmarked_of_isRun {s : String} (h : isRun s.toList = true) : IsUnmarked s := by
  rw [isRun, Bool.and_eq_true, List.all_eq_true] at h
  refine fun c hc => ⟨?_, ?_⟩
  · rintro rfl
    exact absurd (h.2 _ hc) (by decide)
  · rw [isQuote, Bool.or_eq_false_iff, Bool.or_eq_false_iff]
    refine ⟨⟨?_, ?_⟩, ?_⟩ <;>
    · rw [decide_eq_false_iff_not]
      rintro rfl
      exact absurd (h.2 _ hc) (by decide)

/-- A text that goes on with no name in front of it. -/
def EndsName (text : List Char) : Prop :=
  ∀ c, text.head? = some c → isNameChar c = false ∧ c ≠ '\x60'

example : takeName? "\x60a\x60\x60b\x60 = 1".toList = some ("a\x60b".toList, " = 1".toList) ∧
    takeName? "a-b = 1".toList = some ("a".toList, "-b = 1".toList) := by
  decide

/-! ## Names in quotes -/

/-- What is read between backticks was written there. -/
theorem eq_of_takeQuoted? {text s rest : List Char} (h : takeQuoted? text = some (s, rest)) :
    text = s.flatMap identifierChar ++ '\x60' :: rest := by
  fun_induction takeQuoted? text generalizing s with
  | case1 text ih =>
      obtain ⟨⟨s', rest'⟩, htake, heq⟩ := Option.map_eq_some_iff.1 h
      obtain ⟨rfl, rfl⟩ := Prod.mk.inj heq
      rw [ih htake]
      rfl
  | case2 rest' _ =>
      obtain ⟨rfl, rfl⟩ := Prod.mk.inj (Option.some.inj h)
      rfl
  | case3 c text _ hc ih =>
      obtain ⟨⟨s', rest'⟩, htake, heq⟩ := Option.map_eq_some_iff.1 h
      obtain ⟨rfl, rfl⟩ := Prod.mk.inj heq
      rw [ih htake, List.flatMap_cons, identifierChar, if_neg hc]
      rfl
  | case4 => cases h

/-- A name in quotes is read as itself. -/
theorem takeQuoted?_flatMap (s : List Char) {rest : List Char} (hrest : EndsName rest) :
    takeQuoted? (s.flatMap identifierChar ++ '\x60' :: rest) = some (s, rest) := by
  apply (readsBack_takeQuoted.take?_flatMap_iff s rest).2
  intro hhead
  exact (hrest _ hhead).2 rfl

/-! ## Names as they are -/

/-- The number of backticks in front of a text. -/
def ticks (text : List Char) : Nat := (text.takeWhile (· = '`')).length

@[simp] theorem ticks_nil : ticks [] = 0 := rfl

@[simp]
theorem ticks_cons (c : Char) (text : List Char) :
    ticks (c :: text) = if c = '`' then ticks text + 1 else 0 := by
  rw [ticks, List.takeWhile_cons]
  by_cases hc : c = '`' <;> simp [hc, ticks]

/-- What ends a name adds no backtick to those in front of it. -/
theorem ticks_append_of_endsName (s : List Char) {rest : List Char} (hrest : EndsName rest) :
    ticks (s ++ rest) = ticks s := by
  induction s with
  | nil =>
      cases rest with
      | nil => rfl
      | cons c rest => simp [(hrest c rfl).2]
  | cons c s ih => simp [ih]

/-- Writing backticks twice leaves no fewer of them in front. -/
theorem ticks_le_flatMap (s rest : List Char) :
    ticks s ≤ ticks (s.flatMap identifierChar ++ rest) := by
  induction s with
  | nil => exact Nat.zero_le _
  | cons c s ih =>
      by_cases hc : c = '`'
      · subst hc
        simp [identifierChar]
        omega
      · simp [hc]

/-- A name that starts with a backtick is not read as itself: what is read would have stood between
further backticks. -/
theorem takeQuoted?_ne {s rest rest' : List Char} (hrest : EndsName rest) :
    takeQuoted? (s ++ rest) ≠ some ('`' :: s, rest') := by
  intro h
  have hticks := congrArg ticks (eq_of_takeQuoted? h)
  have hle := ticks_le_flatMap s ('`' :: rest')
  rw [ticks_append_of_endsName s hrest, List.flatMap_cons, List.append_assoc] at hticks
  simp [identifierChar] at hticks
  omega

/-- What ends a name ends a run. -/
theorem takeWhile_run {s rest : List Char} (hs : ∀ c ∈ s, isNameChar c = true)
    (hrest : EndsName rest) : (s ++ rest).takeWhile isNameChar = s ∧
      (s ++ rest).dropWhile isNameChar = rest := by
  rw [List.takeWhile_append_of_pos hs, List.dropWhile_append_of_pos hs]
  cases rest with
  | nil => simp
  | cons c rest => simp [(hrest c rfl).1]

/-- A text without a backtick in front is read as a run. -/
theorem takeName?_eq {text : List Char} (h : text.head? ≠ some '`') :
    takeName? text = if (text.takeWhile isNameChar).isEmpty then none
      else some (text.takeWhile isNameChar, text.dropWhile isNameChar) := by
  unfold takeName?
  split
  · simp at h
  · rfl

/-- A run is read as itself. -/
theorem takeName?_of_isRun {s rest : List Char} (h : isRun s = true) (hrest : EndsName rest) :
    takeName? (s ++ rest) = some (s, rest) := by
  rw [isRun, Bool.and_eq_true, List.all_eq_true, Bool.not_eq_true'] at h
  obtain ⟨hsome, hs⟩ := h
  have hhead : (s ++ rest).head? ≠ some '`' := by
    cases s with
    | nil => cases hsome
    | cons c s =>
        rintro heq
        obtain rfl := Option.some.inj heq
        exact absurd (hs _ List.mem_cons_self) (by decide)
  obtain ⟨htake, hdrop⟩ := takeWhile_run hs hrest
  rw [takeName?_eq hhead, htake, hdrop, hsome]
  rfl

/-- A name is read as itself without quotes exactly if it is a run. -/
theorem takeName?_bare_iff (s : List Char) {rest : List Char} (hrest : EndsName rest) :
    (∃ rest', takeName? (s ++ rest) = some (s, rest')) ↔ isRun s = true := by
  refine ⟨?_, fun h => ⟨rest, takeName?_of_isRun h hrest⟩⟩
  rintro ⟨rest', htake⟩
  by_cases hhead : (s ++ rest).head? = some '`'
  · cases s with
    | nil => exact absurd rfl (hrest _ hhead).2
    | cons c s =>
        obtain rfl := Option.some.inj hhead
        exact absurd htake (takeQuoted?_ne hrest)
  · rw [takeName?_eq hhead] at htake
    split at htake
    · cases htake
    · next hsome =>
        obtain ⟨hrun, -⟩ := Prod.mk.inj (Option.some.inj htake)
        rw [hrun] at hsome
        rw [isRun, Bool.and_eq_true, List.all_eq_true, Bool.not_eq_true']
        refine ⟨by simpa using hsome, fun c hc => ?_⟩
        rw [← hrun] at hc
        exact List.mem_takeWhile_imp hc

/-- Any name is read as itself in quotes. -/
theorem takeName?_identifier (s : String) {rest : List Char} (hrest : EndsName rest) :
    takeName? ((identifier s).toList ++ rest) = some (s.toList, rest) := by
  have htext : (identifier s).toList ++ rest =
      '\x60' :: (s.toList.flatMap identifierChar ++ '\x60' :: rest) := by
    simp [identifier]
  rw [htext]
  exact takeQuoted?_flatMap _ hrest

/-! ## Statements as rows of parts -/

/-- A part of a statement. -/
inductive Part
  /-- Words, marks and literals. -/
  | fixed (text : String)
  | name (s : String)

namespace Part

/-- The text of a part, with a way to write names. -/
def text (write : String → String) : Part → String
  | fixed text => text
  | name s => write s

/-- What a part is known to be before it is read: its text, or nothing of a name. -/
def outline : Part → Option String
  | fixed text => some text
  | name _ => none

def name? : Part → Option String
  | fixed _ => none
  | name s => some s

end Part

/-- The text of some parts, with a way to write names. -/
def textOf (write : String → String) : List Part → String
  | [] => ""
  | p :: parts => p.text write ++ textOf write parts

/-- The names among some parts. -/
def namesOf (parts : List Part) : List String := parts.filterMap Part.name?

/-- The names of a text with a known outline: what is known is passed over, and where it is nothing
a name is read. -/
def readNames? : List (Option String) → List Char → Option (List String)
  | [], [] => some []
  | [], _ :: _ => none
  | some known :: outline, text =>
      if known.toList.isPrefixOf text then readNames? outline (text.drop known.toList.length)
      else none
  | none :: outline, text => do
      let (s, rest) ← takeName? text
      some (String.ofList s :: (← readNames? outline rest))

/-- The names of a text that is made of some parts. -/
def readAs? (parts : List Part) (text : String) : Option (List String) :=
  readNames? (parts.map Part.outline) text.toList

/-- Whether every name among some parts has an end; `behind` says that a name is in front of
them. -/
def endsNames (behind : Bool) : List Part → Bool
  | [] => true
  | .fixed text :: parts =>
      (!behind || text.toList.head?.any fun c => !isNameChar c && c != '`') &&
        endsNames false parts
  | .name _ :: parts => !behind && endsNames true parts

/-! ## Rows one behind the other -/

section Rows

variable {write : String → String} {parts front back : List Part}

@[simp] theorem textOf_nil : textOf write [] = "" := rfl

@[simp]
theorem textOf_cons (p : Part) (parts : List Part) :
    textOf write (p :: parts) = p.text write ++ textOf write parts := rfl

@[simp] theorem namesOf_nil : namesOf [] = [] := rfl

@[simp]
theorem namesOf_fixed (text : String) (parts : List Part) :
    namesOf (.fixed text :: parts) = namesOf parts := rfl

@[simp]
theorem namesOf_name (s : String) (parts : List Part) :
    namesOf (.name s :: parts) = s :: namesOf parts := rfl

theorem textOf_append (front back : List Part) :
    textOf write (front ++ back) = textOf write front ++ textOf write back := by
  induction front with
  | nil => simp [textOf]
  | cons p front ih => simp [ih, String.append_assoc]

theorem namesOf_append (front back : List Part) :
    namesOf (front ++ back) = namesOf front ++ namesOf back := List.filterMap_append

/-- What gives an end to a name in front of it needs none in front of it. -/
theorem endsNames_false_of_true (h : endsNames true parts = true) :
    endsNames false parts = true := by
  cases parts with
  | nil => rfl
  | cons p parts =>
      cases p with
      | name s => cases h
      | fixed text =>
          rw [endsNames, Bool.and_eq_true] at h ⊢
          exact ⟨rfl, h.2⟩

theorem endsNames_append {behind : Bool} (h : endsNames behind front = true)
    (h' : endsNames true back = true) : endsNames behind (front ++ back) = true := by
  induction front generalizing behind with
  | nil =>
      cases behind with
      | true => exact h'
      | false => exact endsNames_false_of_true h'
  | cons p front ih =>
      cases p with
      | fixed text =>
          rw [endsNames, Bool.and_eq_true] at h
          rw [List.cons_append, endsNames, Bool.and_eq_true]
          exact ⟨h.1, ih h.2⟩
      | name s =>
          rw [endsNames, Bool.and_eq_true] at h
          rw [List.cons_append, endsNames, Bool.and_eq_true]
          exact ⟨h.1, ih h.2⟩

/-- Rows with a text between them. -/
def joined (separator : String) : List (List Part) → List Part
  | [] => []
  | [parts] => parts
  | parts :: next :: rows => parts ++ .fixed separator :: joined separator (next :: rows)

theorem textOf_joined (separator : String) (rows : List (List Part)) :
    textOf write (joined separator rows) = separator.intercalate (rows.map (textOf write)) := by
  fun_induction joined separator rows with
  | case1 => simp
  | case2 parts => simp
  | case3 parts next rows ih =>
      have hcons : separator.intercalate ((parts :: next :: rows).map (textOf write)) =
          textOf write parts ++ separator ++
            separator.intercalate ((next :: rows).map (textOf write)) :=
        String.intercalate_cons_of_ne_nil (by simp)
      rw [hcons, textOf_append, textOf_cons, ih, Part.text, String.append_assoc]

theorem namesOf_joined (separator : String) (rows : List (List Part)) :
    namesOf (joined separator rows) = rows.flatMap namesOf := by
  fun_induction joined separator rows with
  | case1 => rfl
  | case2 parts => simp
  | case3 parts next rows ih =>
      rw [namesOf_append, List.flatMap_cons, ← ih]
      rfl

theorem endsNames_joined {separator : String}
    (hseparator : endsNames true [.fixed separator] = true) {rows : List (List Part)}
    (h : ∀ parts ∈ rows, endsNames false parts = true) :
    endsNames false (joined separator rows) = true := by
  fun_induction joined separator rows with
  | case1 => rfl
  | case2 parts => exact h parts List.mem_cons_self
  | case3 parts next rows ih =>
      obtain ⟨hparts, hrows⟩ := List.forall_mem_cons.1 h
      refine endsNames_append hparts ?_
      rw [endsNames, Bool.and_eq_true] at hseparator ⊢
      exact ⟨hseparator.1, ih hrows⟩

/-- Parts in which every name has an end and is one of some names. -/
structure IsOver (names : List String) (behind : Bool) (parts : List Part) : Prop where
  ends : endsNames behind parts = true
  mem : ∀ s ∈ namesOf parts, s ∈ names

namespace IsOver

variable {names : List String} {behind : Bool} {text s : String}

theorem nil : IsOver names behind [] := ⟨rfl, by simp⟩

/-- Text that gives an end to what is in front of it. -/
theorem fixed (htext : endsNames behind [.fixed text] = true) (h : IsOver names false parts) :
    IsOver names behind (.fixed text :: parts) where
  ends := by
    rw [endsNames, Bool.and_eq_true] at htext ⊢
    exact ⟨htext.1, h.ends⟩
  mem := h.mem

theorem name (hs : s ∈ names) (h : IsOver names true parts) :
    IsOver names false (.name s :: parts) where
  ends := h.ends
  mem := List.forall_mem_cons.2 ⟨hs, h.mem⟩

theorem of_true (h : IsOver names true parts) : IsOver names false parts :=
  ⟨endsNames_false_of_true h.ends, h.mem⟩

theorem append (h : IsOver names behind front) (h' : IsOver names true back) :
    IsOver names behind (front ++ back) where
  ends := endsNames_append h.ends h'.ends
  mem := by
    rw [namesOf_append, List.forall_mem_append]
    exact ⟨h.mem, h'.mem⟩

end IsOver

end Rows

/-! ## Reading the names -/

section Reading

variable {write : String → String} {parts : List Part}

/-- Behind a name the text of what gives it an end ends it. -/
theorem endsName_textOf (h : endsNames true parts = true) :
    EndsName (textOf write parts).toList := by
  intro c hc
  cases parts with
  | nil => simp at hc
  | cons p parts =>
      cases p with
      | name s => cases h
      | fixed text =>
          rw [endsNames, Bool.not_true, Bool.false_or, Bool.and_eq_true, Option.any_eq_true] at h
          obtain ⟨⟨d, hd, hends⟩, -⟩ := h
          obtain ⟨rest, htext⟩ : ∃ rest, text.toList = d :: rest :=
            ⟨_, List.eq_cons_of_mem_head? hd⟩
          rw [textOf_cons, Part.text, String.toList_append, htext, List.cons_append,
            List.head?_cons, Option.some.injEq] at hc
          subst hc
          simpa using hends

/-- What is known of a text is passed over. -/
theorem readNames?_fixed (known : String) (outline : List (Option String)) (rest : List Char) :
    readNames? (some known :: outline) (known.toList ++ rest) = readNames? outline rest := by
  rw [readNames?, if_pos (by simp), List.drop_left]

/-- A name is read where nothing is known. -/
theorem readNames?_name_eq_some_iff {outline : List (Option String)} {text : List Char}
    {s : String} {names : List String} :
    readNames? (none :: outline) text = some (s :: names) ↔
      ∃ rest, takeName? text = some (s.toList, rest) ∧ readNames? outline rest = some names := by
  simp only [readNames?, Option.bind_eq_bind, Option.bind_eq_some_iff, Option.some.injEq,
    List.cons.injEq, Prod.exists]
  constructor
  · rintro ⟨s', rest, htake, names', hnames, rfl, rfl⟩
    exact ⟨rest, by rw [htake, String.toList_ofList], hnames⟩
  · rintro ⟨rest, htake, hnames⟩
    exact ⟨_, rest, htake, names, hnames, String.ofList_toList, rfl⟩

/-- In quotes the names of a text are read as they are. -/
theorem readNames?_quoted {behind : Bool} (h : endsNames behind parts = true) :
    readAs? parts (textOf identifier parts) = some (namesOf parts) := by
  rw [readAs?]
  induction parts generalizing behind with
  | nil => rfl
  | cons p parts ih =>
      cases p with
      | fixed text =>
          rw [endsNames, Bool.and_eq_true] at h
          rw [textOf_cons, String.toList_append]
          exact (readNames?_fixed text _ _).trans (ih h.2)
      | name s =>
          rw [endsNames, Bool.and_eq_true] at h
          rw [textOf_cons, String.toList_append]
          exact readNames?_name_eq_some_iff.2
            ⟨_, takeName?_identifier s (endsName_textOf h.2), ih h.2⟩

/-- As they are, the names of a text are read exactly if each of them is a run. -/
theorem readNames?_bare_iff {behind : Bool} (h : endsNames behind parts = true) :
    readAs? parts (textOf id parts) = some (namesOf parts) ↔
      ∀ s ∈ namesOf parts, isRun s.toList = true := by
  rw [readAs?]
  induction parts generalizing behind with
  | nil => simp [readNames?]
  | cons p parts ih =>
      cases p with
      | fixed text =>
          rw [endsNames, Bool.and_eq_true] at h
          rw [textOf_cons, String.toList_append, List.map_cons]
          exact (readNames?_fixed text _ _).congr_left.trans (ih h.2)
      | name s =>
          rw [endsNames, Bool.and_eq_true] at h
          have hends : EndsName (textOf id parts).toList := endsName_textOf h.2
          rw [textOf_cons, String.toList_append, namesOf_name, List.forall_mem_cons, ← ih h.2]
          refine readNames?_name_eq_some_iff.trans ⟨?_, ?_⟩
          · rintro ⟨rest, htake, hrest⟩
            have hrun := (takeName?_bare_iff s.toList hends).1 ⟨rest, htake⟩
            obtain ⟨-, rfl⟩ := Prod.mk.inj (Option.some.inj
              ((takeName?_of_isRun hrun hends).symm.trans htake))
            exact ⟨hrun, hrest⟩
          · rintro ⟨hrun, hrest⟩
            exact ⟨_, takeName?_of_isRun hrun hends, hrest⟩

end Reading

end Persistence.Sql
