import Persistence.Proofs.Number.Spelling
import Persistence.Proofs.Sql.Quoting
import Persistence.Query.Clause

/-!
# The tokens of SQL texts

A scanner reads a text from left to right and stands in some `Place` of it.  A character either
goes on with the token that is being read, or it ends that token and starts the next one.  String
literals are decoded as they are read: a backslash and the character behind it stand for one
character, except in front of `%` and `_`, where the backslash stays for the pattern, and a quote
that is written twice stands for one quote.

Main results:

- `tokens?_append`: texts that are kept apart by a delimiter are read one after the other.
- `tokens?_stringLiteral`: the literal of a string is one token with that string, whatever the
  string contains.
- `tokens?_toString`, `tokens?_name`: an integer is read back, and so is a plain name.
-/

namespace Persistence.Sql

/-- A literal that stands on its own. -/
inductive Scalar
  | int (n : Int)
  | bool (b : Bool)
  | text (s : String)
deriving DecidableEq

/-- The words that conditions are built with. -/
inductive Keyword
  | and
  | or
  | not
  | between
  | like
  | binary
  | is
  | null
  | among
deriving DecidableEq

/-- A token of a condition. -/
inductive Token
  | name (s : String)
  | keyword (k : Keyword)
  | literal (v : Scalar)
  | comparison (op : Comparison)
  | opening
  | closing
  | comma
deriving DecidableEq

/-! ## Words -/

/-- The words that are no names. -/
def reserved : List (String × Token) :=
  [("and", .keyword .and), ("or", .keyword .or), ("not", .keyword .not),
    ("between", .keyword .between), ("like", .keyword .like), ("binary", .keyword .binary),
    ("is", .keyword .is), ("null", .keyword .null), ("in", .keyword .among),
    ("true", .literal (.bool true)), ("false", .literal (.bool false))]

/-- The meaning of a word, unless it is a name; upper and lower case make no difference. -/
def reserved? (letters : List Char) : Option Token :=
  reserved.lookup (String.ofList (letters.map Char.toLower))

/-- The token that a word is. -/
def wordToken (letters : List Char) : Token :=
  (reserved? letters).getD (.name (String.ofList letters))

/-- Whether a name may start with a character. -/
def isNameStart (c : Char) : Bool := c.isAlpha || c = '_' || c = '$' || 0x80 ≤ c.toNat

/-- Whether a character may stand in a name. -/
def isNameChar (c : Char) : Bool := isNameStart c || c.isDigit

/-- Whether a text is a name that needs no quotes. -/
def isPlainName (s : String) : Bool :=
  match s.toList with
  | [] => false
  | c :: rest => isNameStart c && rest.all isNameChar && (reserved? (c :: rest)).isNone

/-! ## The scanner -/

/-- Where the scanner stands: between two tokens or behind some characters of one. -/
inductive Place
  | between
  | word (letters : List Char)
  | sign
  | number (negative : Bool) (n : Nat)
  | text (s : List Char)
  | escape (s : List Char)
  | quote (s : List Char)
  | less
  | greater

/-- The integer with a sign and a size. -/
def signed (negative : Bool) (n : Nat) : Int := if negative then -n else n

/-- What a character behind a backslash stands for. -/
def unescape (c : Char) : List Char :=
  if c = '0' then ['\x00']
  else if c = 'b' then ['\x08']
  else if c = 't' then ['\t']
  else if c = 'n' then ['\n']
  else if c = 'r' then ['\x0d']
  else if c = 'Z' then ['\x1a']
  else if c = '%' || c = '_' then ['\\', c]
  else [c]

namespace Place

/-- The token that ends if nothing goes on with it; none stands for an unfinished one. -/
def pending : Place → Option (List Token)
  | between => some []
  | word letters => some [wordToken letters]
  | sign => none
  | number negative n => some [.literal (.int (signed negative n))]
  | text _ => none
  | escape _ => none
  | quote s => some [.literal (.text (String.ofList s))]
  | less => some [.comparison .lt]
  | greater => some [.comparison .gt]

/-- The tokens that a character ends by going on with the one that is being read, and the place
behind it. -/
def continue? (c : Char) : Place → Option (List Token × Place)
  | between => none
  | word letters => if isNameChar c then some ([], word (letters ++ [c])) else none
  | sign => if c.isDigit then some ([], number true (c.toNat - '0'.toNat)) else none
  | number negative n =>
      if c.isDigit then some ([], number negative (10 * n + (c.toNat - '0'.toNat))) else none
  | text s =>
      if c = '\\' then some ([], escape s)
      else if c = '\'' then some ([], quote s)
      else some ([], text (s ++ [c]))
  | escape s => some ([], text (s ++ unescape c))
  | quote s => if c = '\'' then some ([], text (s ++ [c])) else none
  | less =>
      if c = '=' then some ([.comparison .le], between)
      else if c = '>' then some ([.comparison .ne], between)
      else none
  | greater => if c = '=' then some ([.comparison .ge], between) else none

/-- The tokens that a character is by itself and the place behind it, between two tokens. -/
def start? (c : Char) : Option (List Token × Place) :=
  if c.isWhitespace then some ([], between)
  else if c = '(' then some ([.opening], between)
  else if c = ')' then some ([.closing], between)
  else if c = ',' then some ([.comma], between)
  else if c = '=' then some ([.comparison .eq], between)
  else if c = '<' then some ([], less)
  else if c = '>' then some ([], greater)
  else if c = '-' then some ([], sign)
  else if c = '\'' then some ([], text [])
  else if c.isDigit then some ([], number false (c.toNat - '0'.toNat))
  else if isNameStart c then some ([], word [c])
  else none

/-- The tokens that end with a character, and the place behind it. -/
def step? (p : Place) (c : Char) : Option (List Token × Place) :=
  match p.continue? c with
  | some result => some result
  | none => do
      let ts ← p.pending
      let (us, next) ← start? c
      some (ts ++ us, next)

end Place

/-- The tokens of a text from a place on. -/
def tokensFrom (p : Place) : List Char → Option (List Token)
  | [] => p.pending
  | c :: rest => do
      let (ts, next) ← p.step? c
      let us ← tokensFrom next rest
      some (ts ++ us)

/-- The tokens of a text. -/
def tokens? (text : String) : Option (List Token) := tokensFrom .between text.toList

example : tokens? "a<=-3 AND (note not like binary '%it''s\\t\\%') or b<>true" =
    some [.name "a", .comparison .le, .literal (.int (-3)), .keyword .and, .opening, .name "note",
      .keyword .not, .keyword .like, .keyword .binary, .literal (.text "%it's\t\\%"), .closing,
      .keyword .or, .name "b", .comparison .ne, .literal (.bool true)] := by
  decide +kernel

/-! ## Texts one behind the other -/

/-- A character that goes on with no token that could end in front of it. -/
def isDelimiter (c : Char) : Bool := c = ' ' || c = ',' || c = '(' || c = ')'

/-- A text in front of which every token ends. -/
def Apart (text : List Char) : Prop := ∀ c ∈ text.head?, isDelimiter c = true

theorem apart_cons {c : Char} (h : isDelimiter c = true) (rest : List Char) : Apart (c :: rest) := by
  simpa [Apart] using h

/-- A delimiter goes on with no token that could end in front of it. -/
theorem Place.continue?_delimiter {p : Place} {ts : List Token} (hp : p.pending = some ts)
    {c : Char} (hc : isDelimiter c = true) : p.continue? c = none := by
  simp only [isDelimiter, Bool.or_eq_true, decide_eq_true_eq, or_assoc] at hc
  cases p with
  | sign => cases hp
  | text s => cases hp
  | escape s => cases hp
  | _ => rcases hc with rfl | rfl | rfl | rfl <;> rfl

/-- In front of a delimiter the token that is being read ends. -/
theorem tokensFrom_apart {p : Place} {ts us : List Token} (hp : p.pending = some ts)
    {text : List Char} (hapart : Apart text) (htext : tokensFrom .between text = some us) :
    tokensFrom p text = some (ts ++ us) := by
  cases text with
  | nil =>
      rw [tokensFrom, Place.pending, Option.some.injEq] at htext
      rw [tokensFrom, hp, ← htext, List.append_nil]
  | cons c rest =>
      have hc : isDelimiter c = true := hapart c rfl
      have hstep : p.step? c = (Place.start? c).map fun (us, next) => (ts ++ us, next) := by
        rw [Place.step?, Place.continue?_delimiter hp hc, hp]
        cases Place.start? c <;> rfl
      have hbetween : Place.between.step? c = Place.start? c := by
        rw [Place.step?]
        show (Place.start? c).bind (fun (us, next) => some ([] ++ us, next)) = Place.start? c
        cases Place.start? c <;> rfl
      rw [tokensFrom, hbetween] at htext
      rw [tokensFrom, hstep]
      cases hstart : Place.start? c with
      | none => simp [hstart] at htext
      | some result =>
          obtain ⟨front, next⟩ := result
          cases hrest : tokensFrom next rest with
          | none => simp [hstart, hrest] at htext
          | some back =>
              have hus : front ++ back = us := by simpa [hstart, hrest] using htext
              simp [hrest, ← hus]

theorem tokensFrom_append {p : Place} {front back : List Char} {ts us : List Token}
    (hfront : tokensFrom p front = some ts) (hback : tokensFrom .between back = some us)
    (hapart : Apart back) : tokensFrom p (front ++ back) = some (ts ++ us) := by
  induction front generalizing p ts with
  | nil => exact tokensFrom_apart hfront hapart hback
  | cons c rest ih =>
      rw [tokensFrom] at hfront
      rw [List.cons_append, tokensFrom]
      cases hstep : p.step? c with
      | none => simp [hstep] at hfront
      | some result =>
          obtain ⟨ended, next⟩ := result
          cases hrest : tokensFrom next rest with
          | none => simp [hstep, hrest] at hfront
          | some more =>
              have hts : ended ++ more = ts := by simpa [hstep, hrest] using hfront
              simp [ih hrest, ← hts]

/-- Texts that are kept apart are read one after the other. -/
theorem tokens?_append {front back : String} {ts us : List Token} (hfront : tokens? front = some ts)
    (hback : tokens? back = some us) (hapart : Apart back.toList) :
    tokens? (front ++ back) = some (ts ++ us) := by
  rw [tokens?, String.toList_append]
  exact tokensFrom_append hfront hback hapart

/-- A blank between two texts keeps them apart. -/
theorem tokens?_blank {front back : String} {ts us : List Token} (hfront : tokens? front = some ts)
    (hback : tokens? back = some us) : tokens? (front ++ " " ++ back) = some (ts ++ us) := by
  have hlist : (" " ++ back).toList = ' ' :: back.toList := String.toList_append
  have hblank : tokens? (" " ++ back) = some us := by
    rw [tokens?, hlist]
    show (tokensFrom .between back.toList).bind (fun us => some us) = some us
    rw [← tokens?, hback]
    rfl
  rw [String.append_assoc]
  refine tokens?_append hfront hblank ?_
  rw [hlist]
  exact apart_cons (by decide) _

/-- A comma and a blank between two texts keep them apart. -/
theorem tokens?_comma {front back : String} {ts us : List Token} (hfront : tokens? front = some ts)
    (hback : tokens? back = some us) :
    tokens? (front ++ ", " ++ back) = some (ts ++ .comma :: us) := by
  have hlist : (", " ++ back).toList = ',' :: ' ' :: back.toList := String.toList_append
  have hcomma : tokens? (", " ++ back) = some (.comma :: us) := by
    rw [tokens?, hlist]
    show ((tokensFrom .between back.toList).bind (fun us => some us)).bind
      (fun us => some (.comma :: us)) = some (.comma :: us)
    rw [← tokens?, hback]
    rfl
  rw [String.append_assoc]
  refine tokens?_append hfront hcomma ?_
  rw [hlist]
  exact apart_cons (by decide) _

/-- Parentheses around a text keep it apart from what is in front of it. -/
theorem tokens?_parens {text : String} {ts : List Token} (h : tokens? text = some ts) :
    tokens? ("(" ++ text ++ ")") = some (.opening :: ts ++ [.closing]) ∧
      Apart ("(" ++ text ++ ")").toList := by
  have hlist : ("(" ++ text ++ ")").toList = '(' :: (text.toList ++ [')']) := by
    rw [String.append_assoc, String.toList_append, String.toList_append]
    rfl
  have hclosing : tokensFrom .between [')'] = some [.closing] := rfl
  constructor
  · rw [tokens?, hlist]
    show (tokensFrom .between (text.toList ++ [')'])).bind (fun us => some (.opening :: us)) = _
    rw [tokensFrom_append h hclosing (apart_cons (by decide) [])]
    rfl
  · rw [hlist]
    exact apart_cons (by decide) _

/-! ## Single tokens -/

/-- The letters of a name are read as one word. -/
theorem tokensFrom_word {letters : List Char} (h : ∀ c ∈ letters, isNameChar c = true)
    (front : List Char) :
    tokensFrom (.word front) letters = some [wordToken (front ++ letters)] := by
  induction letters generalizing front with
  | nil => simp [tokensFrom, Place.pending]
  | cons c rest ih =>
      have hstep : (Place.word front).step? c = some ([], .word (front ++ [c])) := by
        simp [Place.step?, Place.continue?, h c List.mem_cons_self]
      rw [tokensFrom, hstep]
      simp [ih fun c hc => h c (List.mem_cons_of_mem _ hc)]

/-- A digit starts a number. -/
theorem start?_digit {c : Char} (h : c.isDigit = true) :
    Place.start? c = some ([], .number false (c.toNat - '0'.toNat)) := by
  have hne : ∀ d : Char, d.isDigit = false → c ≠ d := by
    rintro d hd rfl
    simp [h] at hd
  have hblank : c.isWhitespace = false := by
    simp [Char.isWhitespace, hne]
  simp [Place.start?, hblank, hne, h]

/-- A name starts with none of the characters that other tokens start with. -/
theorem start?_nameStart {c : Char} (h : isNameStart c = true) :
    Place.start? c = some ([], .word [c]) := by
  have hne : ∀ d : Char, isNameStart d = false → c ≠ d := by
    rintro d hd rfl
    simp [h] at hd
  have hblank : c.isWhitespace = false := by
    simp [Char.isWhitespace, hne, isNameStart]
  have hdigit : c.isDigit = false := by
    rw [Bool.eq_false_iff]
    intro hdigit
    simp only [isNameStart, Char.isAlpha, Char.isUpper, Char.isLower, Bool.or_eq_true,
      Bool.and_eq_true, decide_eq_true_eq, UInt32.le_iff_toNat_le, ge_iff_le] at h
    simp only [Char.isDigit, Bool.and_eq_true, decide_eq_true_eq, UInt32.le_iff_toNat_le,
      ge_iff_le] at hdigit
    have hval : c.toNat = c.val.toNat := rfl
    have hnine : '9'.val.toNat = 57 := rfl
    have hA : 'A'.val.toNat = 65 := rfl
    have ha : 'a'.val.toNat = 97 := rfl
    rcases h with (((h | h) | rfl) | rfl) | h
    · omega
    · omega
    · simp at hdigit
    · simp at hdigit
    · omega
  simp (disch := decide) [Place.start?, hblank, hne, hdigit, h]

/-- A plain name is one token. -/
theorem tokens?_name {s : String} (h : isPlainName s = true) : tokens? s = some [.name s] := by
  rw [isPlainName] at h
  cases hs : s.toList with
  | nil => simp [hs] at h
  | cons c rest =>
      simp only [hs, Bool.and_eq_true, List.all_eq_true, Option.isNone_iff_eq_none] at h
      obtain ⟨⟨hc, hrest⟩, hname⟩ := h
      have hstep : Place.between.step? c = some ([], .word [c]) := by
        simp [Place.step?, Place.continue?, Place.pending, start?_nameStart hc]
      have hword : wordToken (c :: rest) = .name s := by
        rw [wordToken, hname, Option.getD_none, ← hs, String.ofList_toList]
      rw [tokens?, hs, tokensFrom, hstep]
      simp [tokensFrom_word hrest, hword]

/-- The digits behind a place in a number go on with it. -/
theorem tokensFrom_digits {digits : List Char} (h : AllDigits digits) (negative : Bool)
    (n : Nat) :
    tokensFrom (.number negative n) digits =
      some [.literal (.int (signed negative (Nat.ofDigitChars 10 digits n)))] := by
  induction digits generalizing n with
  | nil => simp [tokensFrom, Place.pending]
  | cons c rest ih =>
      have hstep : (Place.number negative n).step? c =
          some ([], .number negative (10 * n + (c.toNat - '0'.toNat))) := by
        simp [Place.step?, Place.continue?, h c List.mem_cons_self]
      rw [tokensFrom, hstep]
      simp [ih fun c hc => h c (List.mem_cons_of_mem _ hc), Nat.ofDigitChars_cons]

/-- An integer is one token. -/
theorem tokens?_toString (n : Int) : tokens? (toString n) = some [.literal (.int n)] := by
  have hdigits : ∀ (p : Place) (negative : Bool) (n : Nat),
      (∀ c : Char, c.isDigit = true →
        p.step? c = some ([], .number negative (c.toNat - '0'.toNat))) →
      tokensFrom p (Nat.toDigits 10 n) = some [.literal (.int (signed negative n))] := by
    intro p negative n hstep
    have hall := allDigits_toDigits n
    have hn : Nat.ofDigitChars 10 (Nat.toDigits 10 n) 0 = n := Nat.ofDigitChars_ten_toDigits
    cases hdigits : Nat.toDigits 10 n with
    | nil => simp at hdigits
    | cons c rest =>
        rw [hdigits] at hall hn
        rw [tokensFrom, hstep c (hall c List.mem_cons_self)]
        simp only [Nat.ofDigitChars_cons, Nat.mul_zero, Nat.zero_add] at hn
        simp [-Char.reduceToNat, tokensFrom_digits fun c hc => hall c (List.mem_cons_of_mem _ hc), hn]
  cases n with
  | ofNat n =>
      rw [tokens?, toList_toString_ofNat, hdigits .between false n]
      · rfl
      · intro c hc
        simp [Place.step?, Place.continue?, Place.pending, start?_digit hc]
  | negSucc n =>
      have hsign : Place.between.step? '-' = some ([], .sign) := rfl
      rw [tokens?, toList_toString_negSucc, tokensFrom, hsign]
      show (tokensFrom .sign (Nat.toDigits 10 (n + 1))).bind (fun us => some us) = _
      rw [hdigits .sign true (n + 1)]
      · rfl
      · intro c hc
        simp [Place.step?, Place.continue?, hc]

theorem unescape_escapeLetter {c letter : Char} (h : escapeLetter? c = some letter) :
    unescape letter = [c] := by
  unfold escapeLetter? at h
  split_ifs at h <;> cases h <;> simp_all [unescape]

/-- What a string literal has for a character is read as that character. -/
theorem tokensFrom_escapeChar (s : List Char) (c : Char) (rest : List Char) :
    tokensFrom (.text s) (escapeChar c ++ rest) = tokensFrom (.text (s ++ [c])) rest := by
  unfold escapeChar
  cases hletter : escapeLetter? c with
  | some letter =>
      show ((tokensFrom (.text (s ++ unescape letter)) rest).bind fun us => some us).bind
        (fun us => some us) = _
      simp [unescape_escapeLetter hletter]
  | none =>
      obtain ⟨hslash, hquote⟩ := ne_of_escapeLetter hletter
      have hstep : (Place.text s).step? c = some ([], .text (s ++ [c])) := by
        simp [Place.step?, Place.continue?, hslash, hquote]
      simp [tokensFrom, hstep]

/-- The literal of a string is one token with that string. -/
theorem tokens?_stringLiteral (s : String) :
    tokens? (stringLiteral s) = some [.literal (.text s)] := by
  have hbody : ∀ (front text : List Char), tokensFrom (.text front)
      (text.flatMap escapeChar ++ ['\'']) =
        some [.literal (.text (String.ofList (front ++ text)))] := by
    intro front text
    induction text generalizing front with
    | nil => simp [tokensFrom, Place.step?, Place.continue?, Place.pending]
    | cons c rest ih =>
        rw [List.flatMap_cons, List.append_assoc, tokensFrom_escapeChar, ih, List.append_assoc]
        rfl
  rw [tokens?, stringLiteral, String.toList_ofList]
  show (tokensFrom (.text []) (s.toList.flatMap escapeChar ++ ['\''])).bind (fun us => some us) = _
  rw [hbody, List.nil_append, String.ofList_toList]
  rfl

end Persistence.Sql
