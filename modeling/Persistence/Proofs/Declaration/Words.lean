import Mathlib
import Persistence.Declaration.Attribute

/-!
# The words of declarations

The type of a column and the action of a foreign key are named by a word, both in the attributes of
a declaration and in a description of an entity type.  Upper and lower case make no difference, and
in the name of an action neither do blanks and underscores.  The two readers of actions fold a word
in opposite directions: one to small letters and underscores, the other to capitals and blanks.
Either folding can still be made after the other one, so both take the same words for one.

Main results:

- `Words.small_eq_small_iff`: two words have one small form exactly if they have one capital form.
- `declaredAction_eq_ok_iff`, `ForeignAction.read_eq_ok_iff`: the words of an action, in the small
  form and in the capital form.
- `words_read_alike`: both readers accept the words that are spelled like the name of a type or of an
  action, and take them for the same one.
-/

namespace Persistence

namespace Words

/-! ## Spelling -/

/-- Whether the first character is a capital and the second one is its small letter. -/
def IsCapitalOf (c d : Char) : Prop := c.isUpper = true ∧ d.toNat = c.toNat + 32

/-- Whether two characters are the same, or the same letter of ASCII in upper and lower case. -/
def SameLetter (c d : Char) : Prop := c = d ∨ IsCapitalOf c d ∨ IsCapitalOf d c

/-- Whether a character can stand between two words. -/
def IsGap (c : Char) : Prop := c = ' ' ∨ c = '_'

/-- Whether two characters are the same letter, or both of them stand between words. -/
def SameSign (c d : Char) : Prop := SameLetter c d ∨ (IsGap c ∧ IsGap d)

/-- Whether two texts are spelled with the same characters, up to a relation between them. -/
def Alike (same : Char → Char → Prop) (s t : String) : Prop :=
  List.Forall₂ same s.toList t.toList

/-- Texts that a map makes equal are alike up to what the map makes equal. -/
theorem map_eq_map_iff {f : Char → Char} {same : Char → Char → Prop}
    (h : ∀ c d, f c = f d ↔ same c d) (s t : String) : s.map f = t.map f ↔ Alike same s t := by
  unfold Alike
  rw [← String.toList_inj, String.toList_map, String.toList_map, ← List.forall₂_eq_eq_eq,
    List.forall₂_map_left_iff, List.forall₂_map_right_iff]
  simp only [h]

/-! ## Letters -/

theorem isUpper_iff (c : Char) : c.isUpper = true ↔ 65 ≤ c.toNat ∧ c.toNat ≤ 90 := by
  simp [Char.isUpper, UInt32.le_iff_toNat_le, ← Char.toNat_val]

/-- Small letters are 32 places behind their capitals. -/
theorem toNat_toLower (c : Char) :
    c.toLower.toNat = if c.isUpper then c.toNat + 32 else c.toNat := by
  by_cases h : c.isUpper = true
  · have hvalid : (c.toNat + 32).isValidChar := by
      rw [isUpper_iff] at h
      left
      omega
    rw [if_pos h, Char.toLower_eq_of_isUpper h, Char.toNat_ofNat, if_pos hvalid]
  · rw [if_neg h, Char.toLower_eq_of_not_isUpper h]

/-- Two characters have one small letter exactly if they are the same letter. -/
theorem toLower_eq_toLower_iff (c d : Char) : c.toLower = d.toLower ↔ SameLetter c d := by
  unfold SameLetter IsCapitalOf
  rw [← Char.toNat_inj, ← Char.toNat_inj, toNat_toLower, toNat_toLower]
  simp only [isUpper_iff]
  split_ifs <;> omega

/-- What is no letter has no other case. -/
theorem toLower_eq_iff {x : Char} (hx : x.isAlpha = false) (c : Char) : c.toLower = x ↔ c = x := by
  have hcase : ∀ y : Char, y.isAlpha = false → y.toLower = y := by
    intro y hy
    apply Char.toLower_eq_of_not_isUpper
    simp [Char.isAlpha] at hy
    simp [hy]
  constructor
  · intro h
    have hc : c.isAlpha = false := by rw [← Char.isAlpha_toLower_eq_isAlpha, h, hx]
    rw [← hcase c hc, h]
  · intro h
    rw [h, hcase x hx]

theorem isGap_toLower_iff (c : Char) : IsGap c.toLower ↔ IsGap c := by
  unfold IsGap
  rw [toLower_eq_iff rfl, toLower_eq_iff rfl]

/-! ## Foldings -/

/-- A small letter, or an underscore for what stands between words. -/
def smallSign (c : Char) : Char := if c.toLower = ' ' then '_' else c.toLower

/-- A capital, or a blank for what stands between words. -/
def capitalSign (c : Char) : Char := if c.toUpper = '_' then ' ' else c.toUpper

/-- A word in small letters and underscores. -/
def small (s : String) : String := s.map smallSign

/-- A word in capitals and blanks. -/
def capital (s : String) : String := s.map capitalSign

/-- Capitals can still be made of small letters. -/
theorem capitalSign_smallSign (c : Char) : capitalSign (smallSign c) = capitalSign c := by
  have hupper := Char.toUpper_toLower_eq_toUpper c
  unfold smallSign
  by_cases h : c.toLower = ' '
  · rw [if_pos h]
    rw [h] at hupper
    rw [capitalSign, capitalSign, ← hupper]
    rfl
  · rw [if_neg h, capitalSign, capitalSign, hupper]

/-- Small letters can still be made of capitals. -/
theorem smallSign_capitalSign (c : Char) : smallSign (capitalSign c) = smallSign c := by
  have hlower := Char.toLower_toUpper_eq_toLower c
  unfold capitalSign
  by_cases h : c.toUpper = '_'
  · rw [if_pos h]
    rw [h] at hlower
    rw [smallSign, smallSign, ← hlower]
    rfl
  · rw [if_neg h, smallSign, smallSign, hlower]

theorem capital_small (s : String) : capital (small s) = capital s := by
  rw [small, capital, capital, String.map_map]
  exact congrArg (s.map ·) (funext capitalSign_smallSign)

theorem small_capital (s : String) : small (capital s) = small s := by
  rw [small, small, capital, String.map_map]
  exact congrArg (s.map ·) (funext smallSign_capitalSign)

/-- Two words have one small form exactly if they have one capital form. -/
theorem small_eq_small_iff (s t : String) : small s = small t ↔ capital s = capital t := by
  constructor
  · intro h
    rw [← capital_small s, h, capital_small]
  · intro h
    rw [← small_capital s, h, small_capital]

/-- Two signs have one small form exactly if they are the same sign. -/
theorem smallSign_eq_smallSign_iff (c d : Char) : smallSign c = smallSign d ↔ SameSign c d := by
  have hgap : ∀ x y : Char, (if x = ' ' then '_' else x) = (if y = ' ' then '_' else y) ↔
      x = y ∨ (IsGap x ∧ IsGap y) := by
    intro x y
    unfold IsGap
    grind
  unfold SameSign
  rw [← toLower_eq_toLower_iff, ← isGap_toLower_iff c, ← isGap_toLower_iff d]
  exact hgap c.toLower d.toLower

end Words

/-! ## Types -/

/-- A name is found for its type, and for no other one. -/
theorem ColumnType.find?_name_eq_some_iff (s : String) (type : ColumnType) :
    all.find? (fun t => t.name = s) = some type ↔ s = type.name := by
  constructor
  · intro h
    have hname := List.find?_some h
    simpa [eq_comm] using hname
  · rintro rfl
    cases type <;> rfl

/-- The names of types have no capitals. -/
theorem ColumnType.toLower_name (type : ColumnType) : type.name.toLower = type.name := by
  rw [String.toLower, ← String.toList_inj, String.toList_map]
  cases type <;> decide

/-- A description names a type by its name in small letters. -/
theorem ColumnType.read_eq_ok_iff_toLower (s : String) (type : ColumnType) :
    read s = .ok type ↔ s.toLower = type.name := by
  rw [← find?_name_eq_some_iff, read]
  split
  · next found hfound => simp [hfound]
  · next hnone => simp [hnone]

/-- The words of a type are its name in any case. -/
theorem ColumnType.read_eq_ok_iff (s : String) (type : ColumnType) :
    read s = .ok type ↔ Words.Alike Words.SameLetter s type.name := by
  rw [← Words.map_eq_map_iff Words.toLower_eq_toLower_iff, ← String.toLower, ← String.toLower,
    toLower_name, read_eq_ok_iff_toLower]

/-- The table of words that declarations have gives every type its name, and has no other word. -/
theorem declaredType_eq_ok_iff_toLower (s : String) (type : ColumnType) :
    declaredType s = .ok type ↔ s.toLower = type.name := by
  constructor
  · intro h
    unfold declaredType at h
    split at h <;> cases h <;> assumption
  · intro h
    unfold declaredType
    rw [h]
    cases type <;> rfl

/-- In a declaration a type has the same words. -/
theorem declaredType_eq_ok_iff (s : String) (type : ColumnType) :
    declaredType s = .ok type ↔ ColumnType.read s = .ok type := by
  rw [declaredType_eq_ok_iff_toLower, ColumnType.read_eq_ok_iff_toLower]

/-! ## Actions -/

namespace ForeignAction

/-- The name of an action in small letters and underscores. -/
def smallName : ForeignAction → String
  | cascade => "cascade"
  | setNull => "set_null"
  | noAction => "no_action"

/-- The names of actions are written in capitals and blanks. -/
theorem capital_name (action : ForeignAction) : Words.capital action.name = action.name := by
  rw [Words.capital, ← String.toList_inj, String.toList_map]
  cases action <;> decide

theorem small_name (action : ForeignAction) : Words.small action.name = action.smallName := by
  rw [Words.small, ← String.toList_inj, String.toList_map]
  cases action <;> decide

/-- The words of an action have the capital form of its name. -/
theorem read_eq_ok_iff (s : String) (action : ForeignAction) :
    read s = .ok action ↔ Words.capital s = Words.capital action.name := by
  have hword : (s.toUpper.map fun c => if c = '_' then ' ' else c) = Words.capital s := by
    rw [String.toUpper, String.map_map]
    rfl
  rw [capital_name]
  unfold read
  dsimp only
  rw [hword]
  cases action <;> split_ifs <;> simp_all [name]

end ForeignAction

/-- In a declaration, the words of an action have the small form of its name. -/
theorem declaredAction_eq_ok_iff (s : String) (action : ForeignAction) :
    declaredAction s = .ok action ↔ Words.small s = Words.small action.name := by
  have hword : (s.toLower.map fun c => if c = ' ' then '_' else c) = Words.small s := by
    rw [String.toLower, String.map_map]
    rfl
  rw [action.small_name]
  unfold declaredAction
  dsimp only
  rw [hword]
  cases action <;> split_ifs <;> simp_all [ForeignAction.smallName]

/-! ## Both readers -/

/-- The attributes of a declaration and the description of an entity type name types and actions by
the same words.  A text is accepted as the name of a type by both or by neither, and then for the
same type: the one whose name is spelled with the same letters, in any case.  It is accepted as the
name of an action by both or by neither, and then for the same action: the one whose name is
spelled with the same letters, in any case, with blanks or underscores between its words. -/
theorem words_read_alike (s : String) :
    (∀ type, (declaredType s = .ok type ↔ ColumnType.read s = .ok type) ∧
      (ColumnType.read s = .ok type ↔ Words.Alike Words.SameLetter s type.name)) ∧
    (∀ action, (declaredAction s = .ok action ↔ ForeignAction.read s = .ok action) ∧
      (ForeignAction.read s = .ok action ↔ Words.Alike Words.SameSign s action.name)) := by
  refine ⟨fun type => ?_, fun action => ?_⟩
  · exact ⟨declaredType_eq_ok_iff s type, ColumnType.read_eq_ok_iff s type⟩
  · rw [declaredAction_eq_ok_iff, ForeignAction.read_eq_ok_iff, ← Words.small_eq_small_iff]
    exact ⟨.rfl, Words.map_eq_map_iff Words.smallSign_eq_smallSign_iff s action.name⟩

end Persistence
