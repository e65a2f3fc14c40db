import Persistence.Proofs.Sql.Literal
import Persistence.Sql.Param

/-!
# Finished text in templates

A template may have text in it that was finished when the template was made: literals of values and
quoted names.  The scanner that looks for placeholders has to pass over such text, whatever the
values and names are.  It does: a text that starts outside quotes is left as it is, takes no
argument and ends outside quotes, so that the rest of the template is filled as if the text were not
there.

Main results:

- `fillFrom_append`: the scanner goes on with the rest of a template where it stands, with the
  arguments that are left.
- `passes_iff_isFixed`: the texts that the scanner passes over are those that a template leaves as
  they are.
- `Finished.passes`: the scanner passes over literals and quoted names.
- `Stretch.fill_templateOf`: a template with finished text is filled stretch by stretch.
-/

namespace Persistence.Sql

/-! ## The scanner -/

/-- Where the scanner stands behind a text. -/
def Region.after (region : Region) (text : List Char) : Region :=
  text.foldl (fun region c => region.next c) region

/-- The number of placeholders that the scanner finds in a text. -/
def placeholders (region : Region) : List Char → Nat
  | [] => 0
  | c :: text =>
      if region = .outside ∧ c = '?' then placeholders region text + 1
      else placeholders (region.next c) text

@[simp] theorem Region.after_nil (region : Region) : region.after [] = region := rfl

@[simp]
theorem Region.after_cons (region : Region) (c : Char) (text : List Char) :
    region.after (c :: text) = (region.next c).after text := rfl

theorem Region.after_append (region : Region) (front back : List Char) :
    region.after (front ++ back) = (region.after front).after back := by
  unfold after
  exact List.foldl_append

/-- The scanner stays outside quotes behind a placeholder. -/
theorem Region.next_mark : Region.next '?' .outside = .outside := rfl

/-- The placeholders of two texts in a row. -/
theorem placeholders_append (region : Region) (front back : List Char) :
    placeholders region (front ++ back) =
      placeholders region front + placeholders (region.after front) back := by
  induction front generalizing region with
  | nil => simp [placeholders]
  | cons c front ih =>
      rw [List.cons_append, placeholders, placeholders, Region.after_cons]
      split_ifs with h
      · rw [ih, h.1, h.2, Region.next_mark]
        omega
      · exact ih (region.next c)

/-- A character that is no placeholder outside quotes stays. -/
theorem fillFrom_cons_of_not {region : Region} {c : Char} (h : ¬(region = .outside ∧ c = '?'))
    (texts : List (List Char)) (rest : List Char) :
    fillFrom region texts (c :: rest) = c :: fillFrom (region.next c) texts rest := by
  rw [fillFrom.eq_def]
  simp [h]

/-- The scanner goes on with the rest of a template where it stands, with the texts that are left. -/
theorem fillFrom_append (region : Region) (texts : List (List Char)) (front rest : List Char) :
    fillFrom region texts (front ++ rest) =
      fillFrom region texts front ++
        fillFrom (region.after front) (texts.drop (placeholders region front)) rest := by
  induction front generalizing region texts with
  | nil => rfl
  | cons c front ih =>
      rw [List.cons_append, placeholders, Region.after_cons]
      by_cases h : region = .outside ∧ c = '?'
      · rw [if_pos h]
        obtain ⟨rfl, rfl⟩ := h
        -- A placeholder takes the first text, if there is one.
        cases texts with
        | nil => simp [fillFrom, ih, Region.next_mark]
        | cons text texts => simp [fillFrom, ih, Region.next_mark]
      · rw [if_neg h, fillFrom_cons_of_not h, fillFrom_cons_of_not h, ih, List.cons_append]

/-- A text without placeholders is left as it is. -/
theorem fillFrom_of_placeholders_eq_zero {region : Region} {text : List Char}
    (h : placeholders region text = 0) (texts : List (List Char)) :
    fillFrom region texts text = text := by
  induction text generalizing region with
  | nil => rfl
  | cons c text ih =>
      rw [placeholders] at h
      split_ifs at h with hmark
      rw [fillFrom_cons_of_not hmark, ih h]

/-! ## Texts that are passed over -/

/-- From one place the scanner passes over a text to another place: it leaves the text as it is,
whatever the arguments are, and takes none of them for it. -/
structure Passes (front : Region) (text : List Char) (behind : Region) : Prop where
  unchanged : ∀ texts, fillFrom front texts text = text
  placeholders : Sql.placeholders front text = 0
  region : front.after text = behind

namespace Passes

variable {front middle behind : Region} {text back : List Char}

theorem of_placeholders (h : Sql.placeholders front text = 0) (hregion : front.after text = behind) :
    Passes front text behind :=
  ⟨fillFrom_of_placeholders_eq_zero h, h, hregion⟩

/-- Whether a text is passed over can be found out by scanning it. -/
instance : Decidable (Passes front text behind) :=
  decidable_of_iff (Sql.placeholders front text = 0 ∧ front.after text = behind)
    ⟨fun h => of_placeholders h.1 h.2, fun h => ⟨h.placeholders, h.region⟩⟩

theorem append (h : Passes front text middle) (h' : Passes middle back behind) :
    Passes front (text ++ back) behind := by
  apply of_placeholders
  · rw [placeholders_append, h.placeholders, h.region, h'.placeholders]
  · rw [Region.after_append, h.region, h'.region]

/-- Pieces that each lead back to where they start do so in a row. -/
theorem flatMap {write : Char → List Char} (h : ∀ c, Passes front (write c) front) (s : List Char) :
    Passes front (s.flatMap write) front := by
  induction s with
  | nil => exact of_placeholders rfl rfl
  | cons c s ih =>
      rw [List.flatMap_cons]
      exact (h c).append ih

/-- Behind a text that is passed over the scanner has all arguments left. -/
theorem fillFrom_append (h : Passes front text behind) (texts : List (List Char))
    (rest : List Char) :
    fillFrom front texts (text ++ rest) = text ++ fillFrom behind texts rest := by
  rw [Sql.fillFrom_append, h.unchanged, h.placeholders, h.region, List.drop_zero]

end Passes

/-- A template leaves a text as it is if the scanner passes over it. -/
theorem Passes.isFixed {text : String} (h : Passes .outside text.toList .outside) :
    IsFixed text := by
  intro rest texts
  rw [← String.toList_inj]
  simp only [fill, String.toList_append, String.toList_ofList, h.fillFrom_append]

theorem IsFixed.fillFrom_append {text : String} (h : IsFixed text) (texts : List (List Char))
    (rest : List Char) :
    fillFrom .outside texts (text.toList ++ rest) =
      text.toList ++ fillFrom .outside texts rest := by
  have hrest := h (String.ofList rest) (texts.map String.ofList)
  rw [← String.toList_inj] at hrest
  simpa [fill] using hrest

/-- The scanner passes over a text that a template leaves as it is: where it stands behind the text,
and what it has left there, shows in a placeholder that is put there. -/
theorem IsFixed.passes {text : String} (h : IsFixed text) :
    Passes .outside text.toList .outside := by
  have hsame : ∀ texts, fillFrom .outside texts text.toList = text.toList := by
    intro texts
    simpa [fillFrom] using h.fillFrom_append texts []
  have hmark := h.fillFrom_append [['!']] ['?']
  rw [Sql.fillFrom_append, hsame, List.append_cancel_left_eq] at hmark
  have htaken : fillFrom .outside [['!']] ['?'] = ['!'] := rfl
  rw [htaken] at hmark
  have hregion : Region.outside.after text.toList = .outside := by
    by_contra hinside
    rw [fillFrom_cons_of_not (by simp [hinside])] at hmark
    cases hmark
  refine ⟨hsame, ?_, hregion⟩
  by_contra hplaceholders
  have hnone : ([['!']] : List (List Char)).drop (placeholders .outside text.toList) = [] := by
    apply List.drop_eq_nil_of_le
    simp only [List.length_singleton]
    omega
  rw [hregion, hnone] at hmark
  cases hmark

/-- The scanner passes over the texts that a template leaves as they are, and over no others. -/
theorem passes_iff_isFixed (text : String) :
    Passes .outside text.toList .outside ↔ IsFixed text :=
  ⟨Passes.isFixed, IsFixed.passes⟩

/-! ## Literals and quoted names -/

/-- A text that was finished when a template was made. -/
inductive Finished
  | literal (v : Value)
  | identifier (name : String)

def Finished.text : Finished → String
  | literal v => v.literal
  | identifier name => Sql.identifier name

/-- Inside of a quoted name the scanner passes over a character, whether it is a backtick or not. -/
theorem passes_identifierChar (c : Char) :
    Passes (.inside '\x60') (identifierChar c) (.inside '\x60') := by
  unfold identifierChar
  by_cases hc : c = '\x60'
  · -- The first of two backticks ends the region and the second one opens it again.
    rw [if_pos hc]
    exact .of_placeholders rfl rfl
  · rw [if_neg hc]
    apply Passes.of_placeholders
    · simp [placeholders]
    · simp [Region.next, hc]

/-- The scanner passes over a quoted name. -/
theorem passes_identifier (name : String) :
    Passes .outside (identifier name).toList .outside := by
  have hopening : Passes .outside ['\x60'] (.inside '\x60') := .of_placeholders rfl rfl
  have hclosing : Passes (.inside '\x60') ['\x60'] .outside := .of_placeholders rfl rfl
  have hname := (hopening.append (.flatMap passes_identifierChar name.toList)).append hclosing
  rw [identifier, String.toList_ofList]
  exact hname

/-- The scanner passes over finished text. -/
theorem Finished.passes (f : Finished) : Passes .outside f.text.toList .outside := by
  cases f with
  | literal v => exact v.calm_literal.isBalanced.isFixed.passes
  | identifier name => exact passes_identifier name

/-! ## Templates with finished text -/

/-- A stretch of a template: text in which placeholders are looked for, or finished text. -/
inductive Stretch
  | marked (text : String)
  | finished (f : Finished)

namespace Stretch

def text : Stretch → String
  | marked text => text
  | finished f => f.text

def isMarked : Stretch → Bool
  | marked _ => true
  | finished _ => false

/-- The template that some stretches make. -/
def templateOf : List Stretch → String
  | [] => ""
  | s :: stretches => s.text ++ templateOf stretches

/-- Whether the scanner stands outside quotes in front of every finished text, from a place in
`region` on. -/
def standOutside (region : Region) : List Stretch → Bool
  | [] => true
  | marked text :: stretches => standOutside (region.after text.toList) stretches
  | finished _ :: stretches => region = .outside && standOutside region stretches

/-- The stretches with their placeholders filled, from a place in `region` on.  Finished text has no
part in it. -/
def filled (region : Region) (texts : List (List Char)) : List Stretch → List Stretch
  | [] => []
  | marked text :: stretches =>
      marked (String.ofList (fillFrom region texts text.toList)) ::
        filled (region.after text.toList) (texts.drop (placeholders region text.toList)) stretches
  | finished f :: stretches => finished f :: filled region texts stretches

variable {region : Region} {stretches : List Stretch}

@[simp] theorem templateOf_nil : templateOf [] = "" := rfl

@[simp]
theorem templateOf_cons (s : Stretch) (stretches : List Stretch) :
    templateOf (s :: stretches) = s.text ++ templateOf stretches := rfl

theorem templateOf_append (front back : List Stretch) :
    templateOf (front ++ back) = templateOf front ++ templateOf back := by
  induction front with
  | nil => simp
  | cons s front ih => simp only [List.cons_append, templateOf_cons, ih, String.append_assoc]

/-- A template is filled stretch by stretch. -/
theorem fillFrom_templateOf (h : standOutside region stretches = true)
    (texts : List (List Char)) :
    fillFrom region texts (templateOf stretches).toList =
      (templateOf (filled region texts stretches)).toList := by
  induction stretches generalizing region texts with
  | nil => rfl
  | cons s stretches ih =>
      cases s with
      | marked text =>
          rw [standOutside] at h
          rw [filled, templateOf_cons, templateOf_cons, String.toList_append, String.toList_append,
            Stretch.text, Stretch.text, String.toList_ofList, fillFrom_append, ih h]
      | finished f =>
          rw [standOutside, Bool.and_eq_true, decide_eq_true_eq] at h
          obtain ⟨rfl, hrest⟩ := h
          rw [filled, templateOf_cons, templateOf_cons, String.toList_append, String.toList_append,
            Stretch.text, f.passes.fillFrom_append, ih hrest]

theorem fill_templateOf (h : standOutside .outside stretches = true) (texts : List String) :
    fill (templateOf stretches) texts =
      templateOf (filled .outside (texts.map String.toList) stretches) := by
  rw [fill, fillFrom_templateOf h, String.ofList_toList]

/-- Where there is no finished text the scanner may stand anywhere. -/
theorem standOutside_filter (region : Region) (stretches : List Stretch) :
    standOutside region (stretches.filter isMarked) = true := by
  induction stretches generalizing region with
  | nil => rfl
  | cons s stretches ih =>
      cases s with
      | marked text => exact ih (region.after text.toList)
      | finished f => exact ih region

/-- The other stretches are filled as if there were no finished text. -/
theorem filled_filter (region : Region) (texts : List (List Char)) (stretches : List Stretch) :
    filled region texts (stretches.filter isMarked) =
      (filled region texts stretches).filter isMarked := by
  induction stretches generalizing region texts with
  | nil => rfl
  | cons s stretches ih =>
      cases s with
      | marked text => exact congrArg (List.cons _) (ih _ _)
      | finished f => exact ih region texts

/-- A template is filled as the template without its finished text is. -/
theorem fill_templateOf_filter (stretches : List Stretch) (texts : List String) :
    fill (templateOf (stretches.filter isMarked)) texts =
      templateOf ((filled .outside (texts.map String.toList) stretches).filter isMarked) := by
  rw [fill_templateOf (standOutside_filter .outside stretches), filled_filter]

end Stretch

end Persistence.Sql
