import Persistence.Proofs.Sql.Tokens

/-!
# The lexemes of statements

How the database takes the text of a statement apart: into words and numbers, quoted names,
string literals and single characters.  Between backticks everything is a name, and a backtick that
is written twice is one; between quotes everything is a text, with the rules of string literals.
What a quoted name or a text contains is therefore no part of the statement around it.

A text has its lexemes whatever follows it, as long as that does not go on with the last of them;
so texts that are kept apart have their lexemes one after the other.

Main results:

- `Lexes.append`: the lexemes of texts that are kept apart.
- `Lexes.identifier`, `Lexes.stringLiteral`: a quoted name and a string literal are one lexeme,
  whatever they contain.
-/

namespace Persistence.Sql

/-- A lexeme of a statement. -/
inductive Lexeme
  /-- A word or a number. -/
  | word (s : String)
  /-- A name between backticks. -/
  | name (s : String)
  /-- The text of a string literal. -/
  | text (s : String)
  | mark (c : Char)
deriving DecidableEq

/-! ## The scanner -/

/-- Whether a character may stand in a word or in a number. -/
def isPartChar (c : Char) : Bool := isNameChar c || c = '.'

/-- Whether a text is a word that needs no quotes. -/
def isWord (s : String) : Bool := s != "" && s.toList.all isPartChar

/-- Whether a character is a lexeme by itself. -/
def isMark (c : Char) : Bool :=
  c = '(' || c = ')' || c = ',' || c = '=' || c = '<' || c = '>' || c = '*'

/-- Where the scanner stands: between two lexemes or behind some characters of one. -/
inductive Spot
  | between
  | word (letters : List Char)
  | sign
  | name (s : List Char)
  /-- Behind a backtick that ends a name unless it is written twice. -/
  | nameEnd (s : List Char)
  | text (s : List Char)
  | escape (s : List Char)
  /-- Behind a quote that ends a text unless it is written twice. -/
  | textEnd (s : List Char)

namespace Spot

/-- The lexeme that ends if nothing goes on with it; none stands for an unfinished one. -/
def pending : Spot → Option (List Lexeme)
  | between => some []
  | word letters => some [.word (String.ofList letters)]
  | nameEnd s => some [.name (String.ofList s)]
  | textEnd s => some [.text (String.ofList s)]
  | _ => none

/-- The place behind a character that goes on with the lexeme that is being read. -/
def continue? (c : Char) : Spot → Option Spot
  | between => none
  | word letters => if isPartChar c then some (word (letters ++ [c])) else none
  | sign => if c.isDigit then some (word ['-', c]) else none
  | name s => some (if c = '\x60' then nameEnd s else name (s ++ [c]))
  | nameEnd s => if c = '\x60' then some (name (s ++ [c])) else none
  | text s => some (if c = '\\' then escape s else if c = '\'' then textEnd s else text (s ++ [c]))
  | escape s => some (text (s ++ unescape c))
  | textEnd s => if c = '\'' then some (text (s ++ [c])) else none

/-- The lexeme that a character is by itself and the place behind it, between two lexemes. -/
def start? (c : Char) : Option (List Lexeme × Spot) :=
  if c = ' ' || c = '\n' then some ([], between)
  else if isMark c then some ([.mark c], between)
  else if c = '\x60' then some ([], name [])
  else if c = '\'' then some ([], text [])
  else if c = '-' then some ([], sign)
  else if isPartChar c then some ([], word [c])
  else none

end Spot

/-- The lexemes of a text from a place on. -/
def lexemesFrom (p : Spot) : List Char → Option (List Lexeme)
  | [] => p.pending
  | c :: rest =>
      match p.continue? c with
      | some next => lexemesFrom next rest
      | none => do
          let ended ← p.pending
          let (started, next) ← Spot.start? c
          let more ← lexemesFrom next rest
          some (ended ++ started ++ more)

/-- The lexemes of a text. -/
def lexemes? (text : String) : Option (List Lexeme) := lexemesFrom .between text.toList

example : lexemes? "\x60a, \x60\x60b\x60 int(3, 0)\n default 'it''s\\\\, null' = -1.5" =
    some [.name "a, \x60b", .word "int", .mark '(', .word "3", .mark ',', .word "0", .mark ')',
      .word "default", .text "it's\\, null", .mark '=', .word "-1.5"] := by
  decide +kernel

/-! ## Texts one behind the other -/

/-- A character that goes on with the lexeme that is being read. -/
theorem lexemesFrom_continue {p next : Spot} {c : Char} (h : p.continue? c = some next)
    (rest : List Char) : lexemesFrom p (c :: rest) = lexemesFrom next rest := by
  rw [lexemesFrom, h]

/-- A character between two lexemes. -/
theorem lexemesFrom_start {c : Char} {started : List Lexeme} {next : Spot}
    (h : Spot.start? c = some (started, next)) (rest : List Char) :
    lexemesFrom .between (c :: rest) = (lexemesFrom next rest).map (started ++ ·) := by
  rw [lexemesFrom, Spot.continue?, Spot.pending, h]
  cases hmore : lexemesFrom next rest <;> simp [hmore]

/-- Whether a character ends the lexeme in front of it and starts none with characters behind
it. -/
def isGapChar (c : Char) : Bool := c = ' ' || c = '\n' || isMark c

/-- A text that goes on with no lexeme that could end in front of it. -/
def StandsApart (text : List Char) : Prop := ∀ c, text.head? = some c → isGapChar c = true

theorem eq_of_isGapChar {c : Char} (h : isGapChar c = true) :
    c = ' ' ∨ c = '\n' ∨ c = '(' ∨ c = ')' ∨ c = ',' ∨ c = '=' ∨ c = '<' ∨ c = '>' ∨ c = '*' := by
  simpa [isGapChar, isMark, or_assoc] using h

theorem standsApart_nil : StandsApart [] := by
  intro c hc
  simp at hc

theorem StandsApart.append {front back : List Char} (h : StandsApart front)
    (h' : StandsApart back) : StandsApart (front ++ back) := by
  cases front with
  | nil => exact h'
  | cons c front => exact h

/-- What stands apart ends the lexeme that is being read. -/
theorem lexemesFrom_standsApart {p : Spot} {ls : List Lexeme} (hp : p.pending = some ls)
    {rest : List Char} (hrest : StandsApart rest) :
    lexemesFrom p rest = (lexemesFrom .between rest).map (ls ++ ·) := by
  cases rest with
  | nil =>
      rw [lexemesFrom, hp]
      simp [lexemesFrom, Spot.pending]
  | cons c rest =>
      have hc : isPartChar c = false ∧ c ≠ '\x60' ∧ c ≠ '\'' := by
        rcases eq_of_isGapChar (hrest c rfl) with
          rfl | rfl | rfl | rfl | rfl | rfl | rfl | rfl | rfl <;> decide
      -- between quotes every character goes on, but there the lexeme is unfinished
      have hcontinue : p.continue? c = none := by
        cases p <;> simp_all [Spot.pending, Spot.continue?]
      rw [lexemesFrom, hcontinue, lexemesFrom, Spot.continue?, hp, Spot.pending]
      cases Spot.start? c with
      | none => rfl
      | some result =>
          obtain ⟨started, next⟩ := result
          cases hmore : lexemesFrom next rest <;> simp [hmore]

/-- A text has some lexemes whatever stands apart behind it. -/
def Lexes (text : String) (ls : List Lexeme) : Prop :=
  ∀ rest, StandsApart rest →
    lexemesFrom .between (text.toList ++ rest) = (lexemesFrom .between rest).map (ls ++ ·)

/-- A text that goes on with no lexeme in front of it has some lexemes. -/
structure LexesApart (text : String) (ls : List Lexeme) : Prop where
  lexes : Lexes text ls
  apart : StandsApart text.toList

namespace Lexes

variable {text front back : String} {ls ms : List Lexeme}

/-- A text that is read up to its end as one lexeme. -/
theorem of_pending {p : Spot} (hp : p.pending = some ls)
    (hread : ∀ rest, lexemesFrom .between (text.toList ++ rest) = lexemesFrom p rest) :
    Lexes text ls := by
  intro rest hrest
  rw [hread, lexemesFrom_standsApart hp hrest]

/-- The lexemes of a text. -/
theorem lexemes?_eq (h : Lexes text ls) : lexemes? text = some ls := by
  have hnil := h [] standsApart_nil
  rw [List.append_nil] at hnil
  rw [lexemes?, hnil]
  simp [lexemesFrom, Spot.pending]

/-- The lexemes of a text that is written in another way. -/
theorem of_eq (h : Lexes front ls) (htext : text = front) (hls : ls = ms) : Lexes text ms := by
  rwa [htext, ← hls]

theorem empty : Lexes "" [] := by
  intro rest _
  simp

/-- Texts that are kept apart have their lexemes one after the other. -/
theorem append (h : Lexes front ls) (h' : LexesApart back ms) :
    Lexes (front ++ back) (ls ++ ms) := by
  intro rest hrest
  rw [String.toList_append, List.append_assoc, h _ (h'.apart.append hrest), h'.lexes _ hrest,
    Option.map_map]
  congr 1
  funext more
  simp

end Lexes

theorem LexesApart.empty : LexesApart "" [] := ⟨.empty, standsApart_nil⟩

/-! ## Gaps -/

/-- Whether a text is made of blanks and marks. -/
def isGap (gap : String) : Bool := gap != "" && gap.toList.all isGapChar

/-- The lexemes of blanks and marks. -/
def gapLexemes (gap : List Char) : List Lexeme := (gap.filter isMark).map Lexeme.mark

theorem lexemesFrom_gap {gap : List Char} (h : ∀ c ∈ gap, isGapChar c = true) (rest : List Char) :
    lexemesFrom .between (gap ++ rest) =
      (lexemesFrom .between rest).map (gapLexemes gap ++ ·) := by
  induction gap with
  | nil => simp [gapLexemes]
  | cons c gap ih =>
      obtain ⟨hc, hgap⟩ := List.forall_mem_cons.1 h
      have hstart : Spot.start? c = some (gapLexemes [c], .between) := by
        rcases eq_of_isGapChar hc with
          rfl | rfl | rfl | rfl | rfl | rfl | rfl | rfl | rfl <;> rfl
      have hcons : gapLexemes (c :: gap) = gapLexemes [c] ++ gapLexemes gap := by
        rw [gapLexemes, gapLexemes, gapLexemes, ← List.map_append, ← List.filter_append]
        rfl
      rw [List.cons_append, lexemesFrom_start hstart, ih hgap, Option.map_map, hcons]
      congr 1
      funext more
      simp

/-- What starts with blanks and marks stands apart. -/
theorem standsApart_of_isGap (gap : String) (hgap : isGap gap = true) (rest : List Char) :
    StandsApart (gap.toList ++ rest) := by
  rw [isGap, Bool.and_eq_true, bne_iff_ne, List.all_eq_true] at hgap
  obtain ⟨hne, hchars⟩ := hgap
  obtain ⟨c, chars, hcons⟩ :=
    List.exists_cons_of_ne_nil fun hnil => hne (String.toList_eq_nil_iff.1 hnil)
  intro d hd
  rw [hcons, List.cons_append, List.head?_cons, Option.some.injEq] at hd
  exact hchars d (hcons ▸ hd ▸ List.mem_cons_self)

namespace Lexes

variable {text front back : String} {ls ms : List Lexeme}

/-- Texts with blanks and marks between them. -/
theorem across (gap : String) (hgap : isGap gap = true) (h : Lexes front ls)
    (h' : Lexes back ms) :
    Lexes (front ++ gap ++ back) (ls ++ (gapLexemes gap.toList ++ ms)) := by
  have hapart := standsApart_of_isGap gap hgap
  rw [isGap, Bool.and_eq_true, List.all_eq_true] at hgap
  intro rest hrest
  rw [String.toList_append, String.toList_append, List.append_assoc, List.append_assoc,
    h _ (hapart _), lexemesFrom_gap hgap.2, h' rest hrest, Option.map_map, Option.map_map]
  congr 1
  funext more
  simp

/-- A text behind blanks and marks. -/
theorem behind (gap : String) (hgap : isGap gap = true) (h : Lexes back ms) :
    LexesApart (gap ++ back) (gapLexemes gap.toList ++ ms) where
  lexes := by
    have hacross := across gap hgap empty h
    rwa [String.empty_append, List.nil_append] at hacross
  apart := by
    rw [String.toList_append]
    exact standsApart_of_isGap gap hgap _

/-- Texts with a blank between them. -/
theorem blank (h : Lexes front ls) (h' : Lexes back ms) :
    Lexes (front ++ " " ++ back) (ls ++ ms) :=
  across " " rfl h h'

/-- Texts in a row with blanks and marks between them. -/
theorem intercalate (gap : String) (hgap : isGap gap = true) {texts : List String}
    {lexemes : List (List Lexeme)} (h : List.Forall₂ Lexes texts lexemes) :
    Lexes (gap.intercalate texts) ((gapLexemes gap.toList).intercalate lexemes) := by
  induction h with
  | nil => exact empty
  | cons htext htexts ih =>
      cases htexts with
      | nil =>
          rw [String.intercalate_singleton, List.intercalate_singleton]
          exact htext
      | cons hnext htexts =>
          rw [String.intercalate_cons_cons, List.intercalate_cons_cons, List.append_assoc]
          exact across gap hgap htext ih

end Lexes

/-! ## Single lexemes -/

/-- The characters of a word are read as one. -/
theorem lexemesFrom_word {letters : List Char} (h : ∀ c ∈ letters, isPartChar c = true)
    (front rest : List Char) :
    lexemesFrom (.word front) (letters ++ rest) = lexemesFrom (.word (front ++ letters)) rest := by
  induction letters generalizing front with
  | nil => simp
  | cons c letters ih =>
      obtain ⟨hc, hletters⟩ := List.forall_mem_cons.1 h
      have hcontinue : (Spot.word front).continue? c = some (.word (front ++ [c])) := if_pos hc
      rw [List.cons_append, lexemesFrom_continue hcontinue, ih hletters, List.append_assoc]
      rfl

/-- A word starts with a character of words. -/
theorem Spot.start?_word {c : Char} (h : isPartChar c = true) :
    Spot.start? c = some ([], .word [c]) := by
  have hne : ∀ d : Char, isPartChar d = false → c ≠ d := by
    rintro d hd rfl
    simp [h] at hd
  simp (disch := decide) [Spot.start?, isMark, hne, h]

namespace Lexes

/-- A word is one lexeme. -/
theorem word (s : String) (hword : isWord s = true) : Lexes s [.word s] := by
  rw [isWord, Bool.and_eq_true, bne_iff_ne, List.all_eq_true] at hword
  obtain ⟨hne, h⟩ := hword
  obtain ⟨c, letters, hs⟩ :=
    List.exists_cons_of_ne_nil fun hnil => hne (String.toList_eq_nil_iff.1 hnil)
  rw [hs] at h
  obtain ⟨hc, hletters⟩ := List.forall_mem_cons.1 h
  refine of_pending (p := .word s.toList) (by simp [Spot.pending]) fun rest => ?_
  rw [hs, List.cons_append, lexemesFrom_start (Spot.start?_word hc), lexemesFrom_word hletters]
  simp

/-- A number is one lexeme, with its sign. -/
theorem number (negative : Bool) {c : Char} {letters : List Char} (hc : c.isDigit = true)
    (h : ∀ d ∈ letters, d.isDigit = true ∨ d = '.') {s : String}
    (hs : s.toList = (if negative then ['-'] else []) ++ c :: letters) : Lexes s [.word s] := by
  have hpart : ∀ d, d.isDigit = true → isPartChar d = true := by
    intro d hd
    simp [isPartChar, isNameChar, hd]
  have hletters : ∀ d ∈ letters, isPartChar d = true := by
    intro d hd
    rcases h d hd with hdigit | rfl
    · exact hpart d hdigit
    · decide
  refine of_pending (p := .word s.toList) (by simp [Spot.pending]) fun rest => ?_
  cases negative with
  | false =>
      rw [hs, if_neg Bool.false_ne_true, List.nil_append, List.cons_append,
        lexemesFrom_start (Spot.start?_word (hpart c hc)), lexemesFrom_word hletters]
      simp
  | true =>
      have hstart : Spot.start? '-' = some ([], .sign) := rfl
      have hsign : Spot.sign.continue? c = some (.word ['-', c]) := if_pos hc
      rw [hs, if_pos rfl, List.cons_append, List.nil_append, List.cons_append,
        lexemesFrom_start hstart, List.cons_append, lexemesFrom_continue hsign,
        lexemesFrom_word hletters]
      simp

end Lexes

/-- What a quoted name has for a character is read as that character. -/
theorem lexemesFrom_identifierChar (s : List Char) (c : Char) (rest : List Char) :
    lexemesFrom (.name s) (identifierChar c ++ rest) = lexemesFrom (.name (s ++ [c])) rest := by
  unfold identifierChar
  split
  · next hc =>
      subst hc
      rfl
  · next hc => simp [lexemesFrom, Spot.continue?, hc]

/-- What a string literal has for a character is read as that character. -/
theorem lexemesFrom_escapeChar (s : List Char) (c : Char) (rest : List Char) :
    lexemesFrom (.text s) (escapeChar c ++ rest) = lexemesFrom (.text (s ++ [c])) rest := by
  unfold escapeChar
  cases hletter : escapeLetter? c with
  | some letter =>
      show lexemesFrom (.text (s ++ unescape letter)) rest = _
      rw [unescape_escapeLetter hletter]
  | none =>
      obtain ⟨hslash, hquote⟩ := ne_of_escapeLetter hletter
      simp [lexemesFrom, Spot.continue?, hslash, hquote]

/-- Characters that are written in some way are read one by one. -/
theorem lexemesFrom_flatMap {spot : List Char → Spot} {written : Char → List Char}
    {body : List Char}
    (h : ∀ c ∈ body, ∀ s rest, lexemesFrom (spot s) (written c ++ rest) =
      lexemesFrom (spot (s ++ [c])) rest) (front rest : List Char) :
    lexemesFrom (spot front) (body.flatMap written ++ rest) =
      lexemesFrom (spot (front ++ body)) rest := by
  induction body generalizing front with
  | nil => simp
  | cons c body ih =>
      obtain ⟨hc, hbody⟩ := List.forall_mem_cons.1 h
      rw [List.flatMap_cons, List.append_assoc, hc, ih hbody, List.append_assoc]
      rfl

namespace Lexes

variable {text : String} {ls : List Lexeme}

/-- A text between two quotes of its kind is read up to the second one. -/
theorem enclosed (spot : List Char → Spot) {written : Char → List Char} {body : List Char}
    {c : Char} {p : Spot} (hstart : Spot.start? c = some ([], spot []))
    (hbody : ∀ d ∈ body, ∀ s rest, lexemesFrom (spot s) (written d ++ rest) =
      lexemesFrom (spot (s ++ [d])) rest)
    (hend : (spot body).continue? c = some p) (hp : p.pending = some ls)
    (htext : text.toList = c :: (body.flatMap written ++ [c])) : Lexes text ls := by
  refine of_pending hp fun rest => ?_
  rw [htext, List.cons_append, List.append_assoc, lexemesFrom_start hstart,
    lexemesFrom_flatMap hbody, List.nil_append, List.singleton_append, lexemesFrom_continue hend]
  simp

/-- A quoted name is one lexeme, whatever the name is. -/
theorem identifier (name : String) : Lexes (Sql.identifier name) [.name name] := by
  have htext : (Sql.identifier name).toList =
      '\x60' :: (name.toList.flatMap identifierChar ++ ['\x60']) := by
    rw [Sql.identifier, String.toList_ofList]
    rfl
  exact enclosed .name rfl (fun c _ s rest => lexemesFrom_identifierChar s c rest) rfl
    (by simp [Spot.pending]) htext

/-- The literal of a string is one lexeme, whatever the string is. -/
theorem stringLiteral (s : String) : Lexes (Sql.stringLiteral s) [.text s] := by
  have htext : (Sql.stringLiteral s).toList =
      '\'' :: (s.toList.flatMap escapeChar ++ ['\'']) := by
    rw [Sql.stringLiteral, String.toList_ofList]
    rfl
  exact enclosed .text rfl (fun c _ s rest => lexemesFrom_escapeChar s c rest) rfl
    (by simp [Spot.pending]) htext

end Lexes

end Persistence.Sql
