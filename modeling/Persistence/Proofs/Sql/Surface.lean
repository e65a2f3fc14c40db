import Persistence.Proofs.Sql.Tokens
import Persistence.Sql.Template

/-!
# The surface of SQL texts

What stands in a statement outside quotes and parentheses decides how its clauses and connectors are
read.  The surface of a text is what is left of it when quoted text and what stands in parentheses
is taken out; a quoted text leaves one quote behind, parentheses leave themselves.  A text in which
a quote or a parenthesis is not closed has none, and neither has one with a character that could
start a comment, end the statement or mean an operator that is not known here.

Main results:

- `Balanced.surface?`: a text that is balanced has the surface that it is balanced with, so that
  the surfaces of texts one behind the other are read one behind the other.
- `Balanced.fillFrom`, `IsFixed.of_unmarked`: a template leaves balanced text as it is, and text
  without placeholders and quotes.
-/

namespace Persistence.Sql

/-! ## Reading the surface -/

/-- The characters that may stand outside quotes, next to parentheses. -/
def isOpenChar (c : Char) : Bool :=
  isNameChar c || c = ' ' || c = ',' || c = '.' || c = '*' || c = '=' || c = '<' || c = '>'

/-- Whether a character in front of a text is the sign of a number. -/
def isSign (c : Char) (rest : List Char) : Bool := c = '-' && rest.head?.any Char.isDigit

/-- What is left of a text inside a number of parentheses. -/
def keptAt (depth : Nat) (text : List Char) : List Char := if depth = 0 then text else []

/-- The surface of a text from a place inside `depth` parentheses on. -/
def surfaceFrom (region : Region) (depth : Nat) : List Char → Option (List Char)
  | [] => if region = .outside ∧ depth = 0 then some [] else none
  | c :: rest =>
      if region ≠ .outside then surfaceFrom (region.next c) depth rest
      else if c = '\'' then (surfaceFrom (.inside c) depth rest).map (keptAt depth [c] ++ ·)
      else if c = '(' then (surfaceFrom .outside (depth + 1) rest).map (keptAt depth [c] ++ ·)
      else if c = ')' then
        if depth = 0 then none
        else (surfaceFrom .outside (depth - 1) rest).map (keptAt (depth - 1) [c] ++ ·)
      else if isOpenChar c || isSign c rest then
        (surfaceFrom .outside depth rest).map (keptAt depth [c] ++ ·)
      else none

/-- The surface of a text. -/
def surface? (text : String) : Option String :=
  (surfaceFrom .outside 0 text.toList).map String.ofList

example : surface? "a = 'it\\'s (' and f(b, (c) or d) <> -1.5" = some "a = ' and f() <> -1.5" :=
    rfl

example : surface? "a = 1 -- and b = 2" = none := rfl

/-! ## Balanced texts -/

/-- What can stand between two single quotes. -/
inductive Enclosed : List Char → Prop
  | nil : Enclosed []
  | char {c : Char} {text : List Char} : c ≠ '\\' → c ≠ '\'' → Enclosed text → Enclosed (c :: text)
  | escaped {c : Char} {text : List Char} : Enclosed text → Enclosed ('\\' :: c :: text)

/-- The texts with a surface that is read no matter what is behind them. -/
inductive Balanced : (text surface : List Char) → Prop
  | nil : Balanced [] []
  | char {c : Char} {text surface : List Char} :
      isOpenChar c = true → Balanced text surface → Balanced (c :: text) (c :: surface)
  | sign {c : Char} {text surface : List Char} :
      c.isDigit = true → Balanced (c :: text) surface →
        Balanced ('-' :: c :: text) ('-' :: surface)
  | quoted {body text surface : List Char} :
      Enclosed body → Balanced text surface →
        Balanced ('\'' :: (body ++ '\'' :: text)) ('\'' :: surface)
  | parens {inner innerSurface text surface : List Char} :
      Balanced inner innerSurface → Balanced text surface →
        Balanced ('(' :: (inner ++ ')' :: text)) ('(' :: ')' :: surface)

theorem Enclosed.append {front back : List Char} (h : Enclosed front) (h' : Enclosed back) :
    Enclosed (front ++ back) := by
  induction h with
  | nil => exact h'
  | char hslash hquote _ ih => exact .char hslash hquote ih
  | escaped _ ih => exact .escaped ih

/-- Text without quotes and backslashes can stand between quotes. -/
theorem enclosed_of_forall {text : List Char} (h : ∀ c ∈ text, c ≠ '\\' ∧ c ≠ '\'') :
    Enclosed text := by
  induction text with
  | nil => exact .nil
  | cons c text ih =>
      obtain ⟨hc, htext⟩ := List.forall_mem_cons.1 h
      exact .char hc.1 hc.2 (ih htext)

namespace Balanced

variable {text surface front frontSurface back backSurface : List Char}

/-- Open characters are their own surface. -/
theorem of_forall (h : ∀ c ∈ text, isOpenChar c = true) : Balanced text text := by
  induction text with
  | nil => exact .nil
  | cons c text ih =>
      obtain ⟨hc, htext⟩ := List.forall_mem_cons.1 h
      exact .char hc (ih htext)

theorem append (h : Balanced front frontSurface) (h' : Balanced back backSurface) :
    Balanced (front ++ back) (frontSurface ++ backSurface) := by
  induction h with
  | nil => exact h'
  | char hc _ ih => exact .char hc ih
  | sign hc _ ih => exact .sign hc ih
  | quoted hbody _ ih => simpa using Balanced.quoted hbody ih
  | parens hinner _ _ ih => simpa using Balanced.parens hinner ih

/-- Quoted text leaves a quote. -/
theorem of_enclosed (h : Enclosed text) : Balanced ('\'' :: (text ++ ['\''])) ['\''] :=
  .quoted h .nil

/-- Text in parentheses leaves the parentheses. -/
theorem of_parens (h : Balanced text surface) : Balanced ('(' :: (text ++ [')'])) ['(', ')'] :=
  .parens h .nil

end Balanced

/-! ## The surface of balanced texts -/

theorem ne_of_isOpenChar {c d : Char} (h : isOpenChar c = true) (hd : isOpenChar d = false) :
    c ≠ d := by
  rintro rfl
  simp [hd] at h

/-- Inside quotes a text is passed over up to the quote behind it. -/
theorem Enclosed.surfaceFrom {body : List Char} (h : Enclosed body) (depth : Nat)
    (rest : List Char) :
    surfaceFrom (.inside '\'') depth (body ++ '\'' :: rest) = surfaceFrom .outside depth rest := by
  induction h with
  | nil => simp [Sql.surfaceFrom, Region.next]
  | char hslash hquote _ ih => simpa [Sql.surfaceFrom, Region.next, hslash, hquote] using ih
  | escaped _ ih => simpa [Sql.surfaceFrom, Region.next] using ih

/-- What is kept of two texts in a row is kept of them one after the other. -/
theorem map_keptAt (depth : Nat) (front back : List Char) (rest : Option (List Char)) :
    (rest.map (keptAt depth back ++ ·)).map (keptAt depth front ++ ·) =
      rest.map (keptAt depth (front ++ back) ++ ·) := by
  rw [Option.map_map]
  refine congrArg (rest.map ·) (funext fun text => ?_)
  unfold keptAt
  split <;> simp

/-- The surface of an open character or a sign in front of a text. -/
theorem surfaceFrom_open {c : Char} {text : List Char} (depth : Nat)
    (h : (isOpenChar c || isSign c text) = true) :
    surfaceFrom .outside depth (c :: text) =
      (surfaceFrom .outside depth text).map (keptAt depth [c] ++ ·) := by
  have hne : ∀ d : Char, isOpenChar d = false → d ≠ '-' → c ≠ d := by
    rintro d hd hsign rfl
    simp [hd, isSign, hsign] at h
  rw [surfaceFrom, if_neg (by simp), if_neg (hne '\'' (by decide) (by decide)),
    if_neg (hne '(' (by decide) (by decide)), if_neg (hne ')' (by decide) (by decide)), if_pos h]

/-- The surface of a balanced text is read no matter what is behind the text. -/
theorem Balanced.surfaceFrom {text surface : List Char} (h : Balanced text surface) (depth : Nat)
    (rest : List Char) :
    surfaceFrom .outside depth (text ++ rest) =
      (Sql.surfaceFrom .outside depth rest).map (keptAt depth surface ++ ·) := by
  induction h generalizing depth rest with
  | nil => cases h : Sql.surfaceFrom .outside depth rest <;> simp [h, keptAt]
  | char hc _ ih =>
      rw [List.cons_append, surfaceFrom_open depth (by simp [hc]), ih, map_keptAt,
        List.singleton_append]
  | sign hc _ ih =>
      rw [List.cons_append, surfaceFrom_open depth (by simp [isSign, hc]), ih, map_keptAt,
        List.singleton_append]
  | @quoted body text surface hbody _ ih =>
      have hquote : Sql.surfaceFrom .outside depth ('\'' :: (body ++ '\'' :: (text ++ rest))) =
          (Sql.surfaceFrom (.inside '\'') depth (body ++ '\'' :: (text ++ rest))).map
            (keptAt depth ['\''] ++ ·) := by
        rw [Sql.surfaceFrom, if_neg (by simp), if_pos rfl]
      rw [List.cons_append, List.append_assoc, List.cons_append, hquote, hbody.surfaceFrom, ih,
        map_keptAt, List.singleton_append]
  | @parens inner innerSurface text surface _ _ ihinner ih =>
      have hopening : Sql.surfaceFrom .outside depth ('(' :: (inner ++ ')' :: (text ++ rest))) =
          (Sql.surfaceFrom .outside (depth + 1) (inner ++ ')' :: (text ++ rest))).map
            (keptAt depth ['('] ++ ·) := by
        rw [Sql.surfaceFrom, if_neg (by simp), if_neg (by decide), if_pos rfl]
      have hclosing : Sql.surfaceFrom .outside (depth + 1) (')' :: (text ++ rest)) =
          (Sql.surfaceFrom .outside depth (text ++ rest)).map (keptAt depth [')'] ++ ·) := by
        rw [Sql.surfaceFrom, if_neg (by simp), if_neg (by decide), if_neg (by decide), if_pos rfl,
          if_neg (by simp), Nat.add_sub_cancel]
      -- Nothing is kept of what stands inside.
      have hinside : ∀ o : Option (List Char),
          o.map (keptAt (depth + 1) innerSurface ++ ·) = o := by
        intro o
        cases o <;> simp [keptAt]
      rw [List.cons_append, List.append_assoc, List.cons_append, hopening, ihinner, hinside,
        hclosing, ih, map_keptAt, map_keptAt]
      rfl

/-- A balanced text has the surface that it is balanced with. -/
theorem Balanced.surface? {text : String} {surface : List Char}
    (h : Balanced text.toList surface) : surface? text = some (String.ofList surface) := by
  have hread := h.surfaceFrom 0 []
  rw [List.append_nil] at hread
  rw [Sql.surface?, hread]
  simp [Sql.surfaceFrom, keptAt]

/-- A text that has a surface no matter what is around it. -/
def IsBalanced (text : String) : Prop := ∃ surface, Balanced text.toList surface

namespace IsBalanced

variable {text front back : String}

theorem of_open (h : text.toList.all isOpenChar = true) : IsBalanced text :=
  ⟨_, .of_forall (List.all_eq_true.1 h)⟩

theorem append (h : IsBalanced front) (h' : IsBalanced back) : IsBalanced (front ++ back) := by
  obtain ⟨frontSurface, hfront⟩ := h
  obtain ⟨backSurface, hback⟩ := h'
  refine ⟨frontSurface ++ backSurface, ?_⟩
  rw [String.toList_append]
  exact hfront.append hback

theorem parens (h : IsBalanced text) : IsBalanced ("(" ++ text ++ ")") := by
  obtain ⟨surface, hbalanced⟩ := h
  refine ⟨['(', ')'], ?_⟩
  simpa using hbalanced.of_parens

end IsBalanced

/-! ## Balanced texts in templates -/

/-- Inside quotes a template is passed over up to the quote behind it. -/
theorem Enclosed.fillFrom {body : List Char} (h : Enclosed body) (texts : List (List Char))
    (rest : List Char) :
    fillFrom (.inside '\'') texts (body ++ '\'' :: rest) =
      body ++ '\'' :: fillFrom .outside texts rest := by
  induction h with
  | nil => simp [Sql.fillFrom, Region.next]
  | char hslash hquote _ ih => simpa [Sql.fillFrom, Region.next, hslash, hquote] using ih
  | escaped _ ih => simpa [Sql.fillFrom, Region.next] using ih

/-- A character that is no placeholder and opens no quotes stays in a template. -/
theorem fillFrom_cons {c : Char} (hmark : c ≠ '?') (hquote : isQuote c = false)
    (texts : List (List Char)) (rest : List Char) :
    fillFrom .outside texts (c :: rest) = c :: fillFrom .outside texts rest := by
  rw [fillFrom.eq_def]
  simp [hmark, Region.next, hquote]

theorem fillFrom_open {c : Char} (h : isOpenChar c = true) (texts : List (List Char))
    (rest : List Char) :
    fillFrom .outside texts (c :: rest) = c :: fillFrom .outside texts rest := by
  refine fillFrom_cons (ne_of_isOpenChar h (by decide)) ?_ texts rest
  have hsingle : c ≠ '\'' := ne_of_isOpenChar h (by decide)
  have hdouble : c ≠ '"' := ne_of_isOpenChar h (by decide)
  have hback : c ≠ '\x60' := ne_of_isOpenChar h (by decide)
  simp [isQuote, hsingle, hdouble, hback]

/-- A template leaves balanced text as it is. -/
theorem Balanced.fillFrom {text surface : List Char} (h : Balanced text surface)
    (texts : List (List Char)) (rest : List Char) :
    fillFrom .outside texts (text ++ rest) = text ++ fillFrom .outside texts rest := by
  induction h generalizing rest with
  | nil => rfl
  | char hc _ ih => rw [List.cons_append, fillFrom_open hc, ih, List.cons_append]
  | sign _ _ ih =>
      rw [List.cons_append, fillFrom_cons (by decide) (by decide), ih]
      rfl
  | @quoted body text surface hbody _ ih =>
      have hquote : Sql.fillFrom .outside texts ('\'' :: (body ++ '\'' :: (text ++ rest))) =
          '\'' :: Sql.fillFrom (.inside '\'') texts (body ++ '\'' :: (text ++ rest)) := by
        rw [Sql.fillFrom.eq_def]
        rfl
      simp only [List.cons_append, List.append_assoc]
      rw [hquote, hbody.fillFrom, ih]
  | @parens inner innerSurface text surface _ _ ihinner ih =>
      simp only [List.cons_append, List.append_assoc]
      rw [fillFrom_cons (by decide) (by decide), ihinner,
        fillFrom_cons (by decide) (by decide), ih]

/-- A template with balanced text in front of it leaves that text as it is. -/
theorem IsBalanced.fill_append {front : String} (h : IsBalanced front) (rest : String)
    (texts : List String) : fill (front ++ rest) texts = front ++ fill rest texts := by
  obtain ⟨surface, hbalanced⟩ := h
  apply String.toList_injective
  simp only [fill, String.toList_append, String.toList_ofList, hbalanced.fillFrom]

/-- A template without placeholders is left as it is. -/
theorem IsBalanced.fill {text : String} (h : IsBalanced text) (texts : List String) :
    fill text texts = text := by
  have hempty : Sql.fill "" texts = "" := rfl
  simpa [hempty] using h.fill_append "" texts

/-- Text without placeholders and without quotes of any kind. -/
def IsUnmarked (text : String) : Prop := ∀ c ∈ text.toList, c ≠ '?' ∧ isQuote c = false

/-- Text that a template leaves as it is. -/
def IsFixed (text : String) : Prop :=
  ∀ (rest : String) (texts : List String), fill (text ++ rest) texts = text ++ fill rest texts

theorem IsBalanced.isFixed {text : String} (h : IsBalanced text) : IsFixed text := h.fill_append

namespace IsFixed

variable {text front back : String}

/-- Text without placeholders and quotes stays as it is. -/
theorem of_unmarked (h : IsUnmarked text) : IsFixed text := by
  intro rest texts
  have hchars : ∀ (chars : List Char), (∀ c ∈ chars, c ≠ '?' ∧ isQuote c = false) →
      ∀ texts more, fillFrom .outside texts (chars ++ more) =
        chars ++ fillFrom .outside texts more := by
    intro chars
    induction chars with
    | nil => exact fun _ _ _ => rfl
    | cons c chars ih =>
        intro h texts more
        obtain ⟨hc, hrest⟩ := List.forall_mem_cons.1 h
        rw [List.cons_append, fillFrom_cons hc.1 hc.2, ih hrest, List.cons_append]
  apply String.toList_injective
  simp only [fill, String.toList_append, String.toList_ofList, hchars _ h]

theorem append (h : IsFixed front) (h' : IsFixed back) : IsFixed (front ++ back) := by
  intro rest texts
  rw [String.append_assoc, h, h', String.append_assoc]

/-- Texts in a row stay as they are if each of them and the text between them does. -/
theorem intercalate {texts : List String} (hback : IsFixed back)
    (h : ∀ text ∈ texts, IsFixed text) : IsFixed (back.intercalate texts) := by
  induction texts with
  | nil =>
      intro rest texts
      rw [String.intercalate_nil, String.empty_append, String.empty_append]
  | cons text texts ih =>
      obtain ⟨htext, htexts⟩ := List.forall_mem_cons.1 h
      cases texts with
      | nil => exact htext
      | cons next texts =>
          rw [String.intercalate_cons_of_ne_nil (by simp)]
          exact (htext.append hback).append (ih htexts)

end IsFixed

/-- Without texts a template is left as it is. -/
theorem fill_nil (text : String) : fill text [] = text := by
  have hfill : ∀ (chars : List Char) (region : Region), fillFrom region [] chars = chars := by
    intro chars
    induction chars with
    | nil => exact fun _ => rfl
    | cons c chars ih => simp [fillFrom, ih]
  apply String.toList_injective
  simp [fill, hfill]

/-- A placeholder takes the first text. -/
theorem fill_mark (rest text : String) (texts : List String) :
    fill ("?" ++ rest) (text :: texts) = text ++ fill rest texts := by
  apply String.toList_injective
  simp [fill, fillFrom]

end Persistence.Sql
