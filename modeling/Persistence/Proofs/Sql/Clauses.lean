import Persistence.Proofs.Sql.Surface

/-!
# The clauses of statements

How the database takes a statement apart, as far as it decides about which rows the statement is:
the table behind the first words, and the condition behind `where` as alternatives of conditions
that have to hold together.  `and` binds tighter than `or`, and what stands in quotes or in
parentheses has no part in it.  Statements with words that would make other rules apply are not
read.

Main results:

- `Spells.blank`, `Spells.comma`, `Spells.parens`: what texts spell that are put together from
  others.
- `Restricts.isScoped`: a statement is about rows that are not deleted if its clauses leave out the
  others.
-/

namespace Persistence.Sql

/-! ## Words -/

/-- What a statement does. -/
inductive Verb
  | select
  | insert
  | replace
  | update
  | delete
deriving DecidableEq

/-- The part of a word in the clauses of a statement. -/
inductive ClauseWord
  | verb (v : Verb)
  | into
  /-- `from` -/
  | source
  /-- `where` -/
  | condition
  | grouping
  | ordering
  | limit
  | connector (c : Connector)
  /-- A word with rules that are not known here. -/
  | unread
deriving DecidableEq

/-- The words that have a part in the clauses of a statement. -/
def clauseWords : List (String × ClauseWord) :=
  [("select", .verb .select), ("insert", .verb .insert), ("replace", .verb .replace),
    ("update", .verb .update), ("delete", .verb .delete), ("into", .into), ("from", .source),
    ("where", .condition), ("group", .grouping), ("order", .ordering), ("limit", .limit),
    ("and", .connector .and), ("or", .connector .or), ("xor", .unread), ("between", .unread),
    ("case", .unread), ("having", .unread), ("union", .unread), ("except", .unread),
    ("intersect", .unread)]

/-- The part of a word in the clauses, if it has one; upper and lower case make no difference. -/
def clauseWord? (letters : List Char) : Option ClauseWord :=
  clauseWords.lookup (String.ofList (letters.map Char.toLower))

/-- A word of a statement; all but numbers and names stands for itself. -/
inductive Word
  | clause (w : ClauseWord)
  | name (s : String)
  | mark (c : Char)
deriving DecidableEq

/-- The characters of names and numbers. -/
def isWordChar (c : Char) : Bool := isNameChar c || c = '.' || c = '-'

/-- The word that some letters are, unless there are none. -/
def wordOf (letters : List Char) : List Word :=
  if letters = [] then []
  else [((clauseWord? letters).map Word.clause).getD (.name (String.ofList letters))]

/-- The word that a character between names and numbers is; a blank is none. -/
def markOf (c : Char) : List Word := if c = ' ' then [] else [.mark c]

/-- The words of a text behind some letters of one. -/
def wordsFrom (letters : List Char) : List Char → List Word
  | [] => wordOf letters
  | c :: rest =>
      if isWordChar c then wordsFrom (letters ++ [c]) rest
      else wordOf letters ++ markOf c ++ wordsFrom [] rest

/-- The words of a text. -/
def words (text : List Char) : List Word := wordsFrom [] text

/-- Whether a text is a name that needs no quotes anywhere in a statement. -/
def isBareName (s : String) : Bool := isPlainName s && (clauseWord? s.toList).isNone

/-! ## Clauses -/

/-- What some words at the start of a statement say that it does, and to which table. -/
def targetIn? : List Word → Option (Verb × String)
  | .clause (.verb .select) :: ws =>
      match ws.dropWhile (· ≠ .clause .source) with
      | _ :: .name table :: _ => some (.select, table)
      | _ => none
  | .clause (.verb .insert) :: .clause .into :: .name table :: _ => some (.insert, table)
  | .clause (.verb .replace) :: .clause .into :: .name table :: _ => some (.replace, table)
  | .clause (.verb .update) :: .name table :: _ => some (.update, table)
  | .clause (.verb .delete) :: .clause .source :: .name table :: _ => some (.delete, table)
  | _ => none

/-- What a statement does, and to which table. -/
def target? (text : String) : Option (Verb × String) := targetIn? (words text.toList)

namespace Word

/-- Whether a word ends a condition. -/
def endsCondition (w : Word) : Bool :=
  w = .clause .grouping || w = .clause .ordering || w = .clause .limit

/-- Whether a word has no part in the clauses. -/
def isCalm : Word → Bool
  | clause _ => false
  | _ => true

/-- Whether a word may stand in front of a condition. -/
def precedes : Word → Bool
  | clause .condition => false
  | clause .unread => false
  | _ => true

/-- Whether a word may stand in a condition. -/
def joins : Word → Bool
  | clause (.connector _) => true
  | w => w.isCalm

/-- Whether a word may stand behind a condition. -/
def trails (w : Word) : Bool := w.isCalm || w.endsCondition

theorem precedes_of_isCalm {w : Word} (h : w.isCalm = true) : w.precedes = true := by
  cases w <;> simp_all [isCalm, precedes]

theorem joins_of_isCalm {w : Word} (h : w.isCalm = true) : w.joins = true := by
  cases w <;> simp_all [isCalm, joins]

end Word

/-- The words of the condition in the words of a statement, if it has one. -/
def conditionIn? (ws : List Word) : Option (List Word) :=
  let body := (ws.dropWhile (· ≠ .clause .condition)).tail
  let condition := body.takeWhile fun w => !w.endsCondition
  let trail := body.dropWhile fun w => !w.endsCondition
  if .clause .condition ∈ ws ∧ .clause .unread ∉ ws ∧ condition.all Word.joins ∧
      trail.all Word.trails then
    some condition
  else none

/-- The alternatives of a condition, each with the conditions that have to hold together. -/
def alternatives (ws : List Word) : List (List (List Word)) :=
  (ws.splitOn (.clause (.connector .or))).map (List.splitOn (.clause (.connector .and)))

/-- The condition of a statement. -/
def conditions? (text : String) : Option (List (List (List Word))) := do
  let surface ← surface? text
  (conditionIn? (words surface.toList)).map alternatives

/-- That a row is not deleted. -/
def liveCondition : List Word := [.name softDeleteColumn, .mark '=', .name "0"]

/-- Whether the condition of a statement is a conjunction that asks for rows that are not
deleted. -/
def isScoped (text : String) : Bool :=
  match conditions? text with
  | some [conjunction] => liveCondition ∈ conjunction
  | _ => false

example : isScoped "select * from t where a = 'or' and _is_delete = 0 limit 0, 1" = true := by
  decide +kernel

example : isScoped "select * from t where _is_delete = 0 and a = 1 or b = 2" = false := by
  decide +kernel

/-! ## Words of texts one behind the other -/

/-- A character between words ends the one in front of it. -/
theorem wordsFrom_append {c : Char} (hc : isWordChar c = false) (letters front back : List Char) :
    wordsFrom letters (front ++ c :: back) = wordsFrom letters front ++ markOf c ++ words back := by
  induction front generalizing letters with
  | nil => simp [wordsFrom, hc, words]
  | cons d front ih =>
      rw [List.cons_append, wordsFrom, wordsFrom]
      split
      · exact ih _
      · rw [ih]
        simp only [List.append_assoc]

theorem words_append {c : Char} (hc : isWordChar c = false) (front back : List Char) :
    words (front ++ c :: back) = words front ++ markOf c ++ words back :=
  wordsFrom_append hc [] front back

/-- The characters of a word are read as one. -/
theorem wordsFrom_word {text : List Char} (h : ∀ c ∈ text, isWordChar c = true)
    (letters : List Char) : wordsFrom letters text = wordOf (letters ++ text) := by
  induction text generalizing letters with
  | nil => rw [wordsFrom, List.append_nil]
  | cons c text ih =>
      obtain ⟨hc, htext⟩ := List.forall_mem_cons.1 h
      rw [wordsFrom, if_pos hc, ih htext, List.append_assoc, List.singleton_append]

theorem words_word {text : List Char} (h : ∀ c ∈ text, isWordChar c = true) :
    words text = wordOf text :=
  wordsFrom_word h []

/-- A bare name is one word. -/
theorem words_name {s : String} (h : isBareName s = true) :
    words s.toList = [.name s] ∧ ∀ c ∈ s.toList, isNameChar c = true := by
  rw [isBareName, Bool.and_eq_true, Option.isNone_iff_eq_none] at h
  obtain ⟨hplain, hclause⟩ := h
  rw [isPlainName] at hplain
  cases hs : s.toList with
  | nil => simp [hs] at hplain
  | cons c rest =>
      simp only [hs, Bool.and_eq_true, List.all_eq_true] at hplain
      obtain ⟨⟨hc, hrest⟩, -⟩ := hplain
      have hchars : ∀ d ∈ c :: rest, isNameChar d = true := by
        rw [List.forall_mem_cons]
        exact ⟨by simp [isNameChar, hc], hrest⟩
      refine ⟨?_, hchars⟩
      rw [words_word fun d hd => by simp [isWordChar, hchars d hd], wordOf, if_neg (by simp),
        ← hs, hclause]
      simp

/-- Numbers have no part in the clauses. -/
theorem clauseWord?_number {c : Char} (hc : c.isDigit = true ∨ c = '-') (rest : List Char) :
    clauseWord? (c :: rest) = none := by
  have hstart : ∀ entry ∈ clauseWords, ∀ d ∈ entry.1.toList.head?, d.isLower = true := by
    simp [clauseWords]
  have hlower : c.toLower = c ∧ c.isLower = false := by
    rcases hc with hc | rfl
    · have hA : 'A'.val.toNat = 65 := rfl
      have ha : 'a'.val.toNat = 97 := rfl
      have hnine : '9'.val.toNat = 57 := rfl
      simp only [Char.isDigit, Bool.and_eq_true, decide_eq_true_eq, UInt32.le_iff_toNat_le,
        ge_iff_le] at hc
      constructor
      · rw [Char.toLower, dif_neg]
        rw [ge_iff_le, UInt32.le_iff_toNat_le]
        omega
      · rw [Char.isLower, Bool.and_eq_false_iff, decide_eq_false_iff_not, ge_iff_le,
          UInt32.le_iff_toNat_le]
        omega
    · decide
  rw [clauseWord?, List.lookup_eq_none_iff]
  intro entry hentry
  rw [bne_iff_ne]
  rintro heq
  have hhead := hstart entry hentry c (by rw [← heq, List.map_cons, hlower.1]; simp)
  rw [hlower.2] at hhead
  cases hhead

theorem words_blank (front back : String) :
    words (front ++ " " ++ back).toList = words front.toList ++ words back.toList := by
  simpa [markOf] using words_append (c := ' ') (by decide) front.toList back.toList

/-! ## Targets -/

/-- The words in front of the table that a statement is about. -/
def leads : List (String × Verb) :=
  [("select * from", .select), ("select count(*) from", .select), ("insert into", .insert),
    ("replace into", .replace), ("update", .update), ("delete from", .delete)]

theorem targetIn?_lead {lead : String} {verb : Verb} (h : (lead, verb) ∈ leads) (table : String)
    (ws : List Word) : targetIn? (words lead.toList ++ .name table :: ws) = some (verb, table) := by
  simp only [leads, List.mem_cons, Prod.mk.injEq, List.not_mem_nil, or_false] at h
  rcases h with ⟨rfl, rfl⟩ | ⟨rfl, rfl⟩ | ⟨rfl, rfl⟩ | ⟨rfl, rfl⟩ | ⟨rfl, rfl⟩ | ⟨rfl, rfl⟩ <;> rfl

/-- A statement is about the table behind its first words. -/
theorem target?_lead {lead table rest : String} {verb : Verb} (h : (lead, verb) ∈ leads)
    (htable : isBareName table = true) (hrest : rest = "" ∨ ∃ body, rest = " " ++ body) :
    target? (lead ++ " " ++ table ++ rest) = some (verb, table) := by
  have hname := (words_name htable).1
  rcases hrest with rfl | ⟨body, rfl⟩
  · rw [String.append_empty, target?, words_blank, hname]
    exact targetIn?_lead h table []
  · rw [← String.append_assoc, target?, words_blank, words_blank, hname, List.append_assoc]
    exact targetIn?_lead h table _

/-! ## What texts spell -/

/-- A text is balanced and its surface has some words. -/
def Spells (text : String) (ws : List Word) : Prop :=
  ∃ surface, Balanced text.toList surface ∧ words surface = ws

namespace Spells

variable {text front back : String} {ws vs : List Word}

theorem isBalanced (h : Spells text ws) : IsBalanced text := by
  obtain ⟨surface, hbalanced, -⟩ := h
  exact ⟨surface, hbalanced⟩

theorem conditions? (h : Spells text ws) :
    conditions? text = (conditionIn? ws).map alternatives := by
  obtain ⟨surface, hbalanced, rfl⟩ := h
  rw [Sql.conditions?, hbalanced.surface?]
  simp

/-- Open text spells its own words. -/
theorem of_words (h : text.toList.all isOpenChar = true) (hwords : words text.toList = ws) :
    Spells text ws :=
  ⟨_, .of_forall (List.all_eq_true.1 h), hwords⟩

/-- A bare name spells itself. -/
theorem of_name (h : isBareName text = true) : Spells text [.name text] := by
  obtain ⟨hwords, hchars⟩ := words_name h
  exact of_words (List.all_eq_true.2 fun c hc => by simp [isOpenChar, hchars c hc]) hwords

/-- A character between words keeps texts apart. -/
theorem append_cons {c : Char} (hopen : isOpenChar c = true) (hc : isWordChar c = false)
    (h : Spells front ws) (h' : Spells back vs) :
    Spells (front ++ String.ofList [c] ++ back) (ws ++ markOf c ++ vs) := by
  obtain ⟨frontSurface, hfront, rfl⟩ := h
  obtain ⟨backSurface, hback, rfl⟩ := h'
  refine ⟨frontSurface ++ c :: backSurface, ?_, words_append hc _ _⟩
  rw [String.append_assoc, String.toList_append, String.toList_append, String.toList_ofList]
  exact hfront.append (.char hopen hback)

/-- A blank keeps texts apart. -/
theorem blank (h : Spells front ws) (h' : Spells back vs) :
    Spells (front ++ " " ++ back) (ws ++ vs) := by
  simpa [markOf] using append_cons (c := ' ') (by decide) (by decide) h h'

/-- A comma keeps texts apart. -/
theorem comma (h : Spells front ws) (h' : Spells back vs) :
    Spells (front ++ "," ++ back) (ws ++ .mark ',' :: vs) := by
  simpa [markOf] using append_cons (c := ',') (by decide) (by decide) h h'

theorem empty : Spells "" [] := ⟨[], .nil, rfl⟩

/-- A blank in front of a text spells nothing. -/
theorem blank_cons (h : Spells text ws) : Spells (" " ++ text) ws := by
  simpa using empty.blank h

/-- Text in parentheses spells no more than the parentheses. -/
theorem append_parens (h : Spells front ws) (htext : IsBalanced text) :
    Spells (front ++ "(" ++ text ++ ")") (ws ++ [.mark '(', .mark ')']) := by
  obtain ⟨frontSurface, hfront, rfl⟩ := h
  obtain ⟨surface, hbalanced⟩ := htext
  refine ⟨frontSurface ++ ['(', ')'], ?_, ?_⟩
  · simpa using hfront.append hbalanced.of_parens
  · have hmarks : markOf '(' ++ words [')'] = [.mark '(', .mark ')'] := by decide
    rw [words_append (by decide), List.append_assoc, hmarks]

theorem parens (h : IsBalanced text) : Spells ("(" ++ text ++ ")") [.mark '(', .mark ')'] := by
  simpa using empty.append_parens h

end Spells

/-- A text whose words have no part in the clauses. -/
def Calm (text : String) : Prop := ∃ ws, Spells text ws ∧ ∀ w ∈ ws, w.isCalm = true

namespace Calm

variable {text front back : String}

theorem empty : Calm "" := ⟨[], .empty, by simp⟩

theorem of_name (h : isBareName text = true) : Calm text := ⟨_, .of_name h, by simp [Word.isCalm]⟩

theorem blank (h : Calm front) (h' : Calm back) : Calm (front ++ " " ++ back) := by
  obtain ⟨ws, hfront, hws⟩ := h
  obtain ⟨vs, hback, hvs⟩ := h'
  exact ⟨_, hfront.blank hback, List.forall_mem_append.2 ⟨hws, hvs⟩⟩

theorem comma (h : Calm front) (h' : Calm back) : Calm (front ++ "," ++ back) := by
  obtain ⟨ws, hfront, hws⟩ := h
  obtain ⟨vs, hback, hvs⟩ := h'
  refine ⟨_, hfront.comma hback, List.forall_mem_append.2 ⟨hws, ?_⟩⟩
  exact List.forall_mem_cons.2 ⟨rfl, hvs⟩

theorem isBalanced (h : Calm text) : IsBalanced text := by
  obtain ⟨ws, hspells, -⟩ := h
  exact hspells.isBalanced

theorem append_parens (h : Calm front) (htext : IsBalanced text) :
    Calm (front ++ "(" ++ text ++ ")") := by
  obtain ⟨ws, hfront, hws⟩ := h
  refine ⟨_, hfront.append_parens htext, List.forall_mem_append.2 ⟨hws, ?_⟩⟩
  simp [Word.isCalm]

theorem parens (h : IsBalanced text) : Calm ("(" ++ text ++ ")") :=
  ⟨_, .parens h, by simp [Word.isCalm]⟩

/-- A text between quotes is calm, whatever it is. -/
theorem of_enclosed {body : List Char} (h : Enclosed body) :
    Calm (String.ofList ('\'' :: (body ++ ['\'']))) := by
  refine ⟨[.mark '\''], ⟨['\''], ?_, by decide⟩, by simp [Word.isCalm]⟩
  rw [String.toList_ofList]
  exact .of_enclosed h

theorem comma_blank (h : Calm front) (h' : Calm back) : Calm (front ++ ", " ++ back) := by
  obtain ⟨ws, hspells, hws⟩ := h'
  have happend : front ++ ", " ++ back = front ++ "," ++ (" " ++ back) := by
    have hsplit : ", " = "," ++ " " := rfl
    rw [hsplit]
    simp only [String.append_assoc]
  rw [happend]
  exact h.comma ⟨ws, hspells.blank_cons, hws⟩

/-- Calm texts stay calm in a row if the text between them keeps them apart. -/
theorem intercalate {separator : String} {texts : List String}
    (hseparator : ∀ front back, Calm front → Calm back → Calm (front ++ separator ++ back))
    (h : ∀ text ∈ texts, Calm text) : Calm (separator.intercalate texts) := by
  induction texts with
  | nil => exact empty
  | cons text texts ih =>
      obtain ⟨htext, htexts⟩ := List.forall_mem_cons.1 h
      cases texts with
      | nil => simpa using htext
      | cons next texts =>
          rw [String.intercalate_cons_of_ne_nil (by simp)]
          exact hseparator _ _ htext (ih htexts)

end Calm

/-! ## Scoped statements -/

/-- The condition between the words in front of it and those behind it. -/
theorem conditionIn?_append {front condition trail : List Word}
    (hfront : ∀ w ∈ front, w.precedes = true)
    (hcondition : ∀ w ∈ condition, w.joins = true) (htrail : ∀ w ∈ trail, w.trails = true)
    (hhead : ∀ w ∈ trail.head?, w.endsCondition = true) :
    conditionIn? (front ++ .clause .condition :: (condition ++ trail)) = some condition := by
  have hne : ∀ w ∈ front, w ≠ .clause .condition ∧ w ≠ .clause .unread := by
    intro w hw
    have hlead := hfront w hw
    constructor <;> rintro rfl <;> cases hlead
  have hbody : ((front ++ .clause .condition :: (condition ++ trail)).dropWhile
      (· ≠ .clause .condition)).tail = condition ++ trail := by
    rw [List.dropWhile_append_of_pos fun w hw => by simpa using (hne w hw).1]
    simp
  have hjoins : ∀ w ∈ condition, (!w.endsCondition) = true ∧ w ≠ .clause .unread := by
    intro w hw
    have hjoin := hcondition w hw
    cases w with
    | clause w => cases w <;> simp_all [Word.joins, Word.isCalm, Word.endsCondition]
    | name s => simp [Word.endsCondition]
    | mark c => simp [Word.endsCondition]
  have htake : (condition ++ trail).takeWhile (fun w => !w.endsCondition) = condition ∧
      (condition ++ trail).dropWhile (fun w => !w.endsCondition) = trail := by
    rw [List.takeWhile_append_of_pos fun w hw => (hjoins w hw).1,
      List.dropWhile_append_of_pos fun w hw => (hjoins w hw).1]
    cases trail with
    | nil => simp
    | cons w trail => simp [hhead w rfl]
  have hunread : .clause .unread ∉ front ++ .clause .condition :: (condition ++ trail) := by
    simp only [List.mem_append, List.mem_cons, not_or]
    refine ⟨fun h => (hne _ h).2 rfl, by simp, fun h => (hjoins _ h).2 rfl, fun h => ?_⟩
    have := htrail _ h
    simp [Word.trails, Word.isCalm, Word.endsCondition] at this
  rw [conditionIn?, hbody, htake.1, htake.2, if_pos]
  exact ⟨by simp, hunread, List.all_eq_true.2 hcondition, List.all_eq_true.2 htrail⟩

/-- Calm words are one condition. -/
theorem alternatives_calm {ws : List Word} (h : ∀ w ∈ ws, w.isCalm = true) :
    alternatives ws = [[ws]] := by
  have hclause : ∀ w : ClauseWord, .clause w ∉ ws := fun w hw => by
    simpa [Word.isCalm] using h _ hw
  rw [alternatives, List.splitOn_eq_singleton (hclause _), List.map_singleton,
    List.splitOn_eq_singleton (hclause _)]

/-- Calm words on both sides of an `and` are two conditions that have to hold together. -/
theorem alternatives_and {ws vs : List Word} (hws : ∀ w ∈ ws, w.isCalm = true)
    (hvs : ∀ w ∈ vs, w.isCalm = true) :
    alternatives (ws ++ .clause (.connector .and) :: vs) = [[ws, vs]] := by
  have hcalm : ∀ us : List Word, (∀ w ∈ us, w.isCalm = true) → ∀ w : ClauseWord, .clause w ∉ us :=
    fun us hus w hw => by simpa [Word.isCalm] using hus _ hw
  rw [alternatives, List.splitOn_eq_singleton, List.map_singleton,
    List.splitOn_append_cons_self_of_not_mem (hcalm ws hws _),
    List.splitOn_eq_singleton (hcalm vs hvs _)]
  simp only [List.mem_append, List.mem_cons, not_or]
  exact ⟨hcalm ws hws _, by simp, hcalm vs hvs _⟩

/-- The conditions of a statement that leave out deleted rows. -/
inductive AsksForLive : List Word → Prop
  | alone : AsksForLive liveCondition
  | first {ws : List Word} : (∀ w ∈ ws, w.isCalm = true) →
      AsksForLive (liveCondition ++ .clause (.connector .and) :: ws)
  | last {ws : List Word} : (∀ w ∈ ws, w.isCalm = true) →
      AsksForLive (ws ++ .clause (.connector .and) :: liveCondition)

theorem spells_liveCondition : Spells (softDeleteColumn ++ " = 0") liveCondition :=
  .of_words rfl rfl

theorem isCalm_liveCondition : ∀ w ∈ liveCondition, w.isCalm = true := by decide

theorem AsksForLive.exists_alternatives {ws : List Word} (h : AsksForLive ws) :
    (∀ w ∈ ws, w.joins = true) ∧ ∃ conjunction, alternatives ws = [conjunction] ∧
      liveCondition ∈ conjunction := by
  have hlive : ∀ w ∈ liveCondition, w.joins = true := fun w hw =>
    Word.joins_of_isCalm (isCalm_liveCondition w hw)
  cases h with
  | alone => exact ⟨hlive, _, alternatives_calm isCalm_liveCondition, by simp⟩
  | first hws =>
      refine ⟨?_, _, alternatives_and isCalm_liveCondition hws, by simp⟩
      exact List.forall_mem_append.2 ⟨hlive, List.forall_mem_cons.2
        ⟨rfl, fun w hw => Word.joins_of_isCalm (hws w hw)⟩⟩
  | last hws =>
      refine ⟨?_, _, alternatives_and hws isCalm_liveCondition, by simp⟩
      exact List.forall_mem_append.2 ⟨fun w hw => Word.joins_of_isCalm (hws w hw),
        List.forall_mem_cons.2 ⟨rfl, hlive⟩⟩

/-- Clauses that leave out deleted rows: a condition that asks for live ones, and clauses behind
it. -/
def Restricts (text : String) : Prop :=
  ∃ condition trail, Spells text (.clause .condition :: (condition ++ trail)) ∧
    AsksForLive condition ∧ (∀ w ∈ trail, w.trails = true) ∧
      ∀ w ∈ trail.head?, w.endsCondition = true

/-- Clauses behind a condition. -/
def Trails (text : String) : Prop :=
  ∃ w ws, Spells text (w :: ws) ∧ w.endsCondition = true ∧ ∀ v ∈ ws, v.isCalm = true

/-- A condition behind `where` leaves out deleted rows. -/
theorem restricts_where {text : String} {condition : List Word} (h : Spells text condition)
    (hlive : AsksForLive condition) : Restricts ("where" ++ " " ++ text) := by
  have hwhere : Spells "where" [.clause .condition] := .of_words rfl rfl
  refine ⟨condition, [], ?_, hlive, by simp, by simp⟩
  simpa using hwhere.blank h

/-- What stands in front of the clauses of a statement spells no condition. -/
theorem spells_lead {lead table : String} {verb : Verb} (h : (lead, verb) ∈ leads)
    (htable : isBareName table = true) :
    ∃ ws, Spells (lead ++ " " ++ table) ws ∧ ∀ w ∈ ws, w.precedes = true := by
  have hlead : ∃ ws, Spells lead ws ∧ ∀ w ∈ ws, w.precedes = true := by
    simp only [leads, List.mem_cons, Prod.mk.injEq, List.not_mem_nil, or_false] at h
    rcases h with ⟨rfl, -⟩ | ⟨rfl, -⟩ | ⟨rfl, -⟩ | ⟨rfl, -⟩ | ⟨rfl, -⟩ | ⟨rfl, -⟩
    · exact ⟨_, .of_words rfl rfl, List.all_eq_true.1 rfl⟩
    · have hcount : Spells "select count" [.clause (.verb .select), .name "count"] :=
        .of_words rfl rfl
      have hfrom : Spells "from" [.clause .source] := .of_words rfl rfl
      have hwords : "select count(*) from" = "select count" ++ "(" ++ "*" ++ ")" ++ " " ++ "from" :=
        rfl
      rw [hwords]
      exact ⟨_, (hcount.append_parens (.of_open rfl)).blank hfrom, List.all_eq_true.1 rfl⟩
    · exact ⟨_, .of_words rfl rfl, List.all_eq_true.1 rfl⟩
    · exact ⟨_, .of_words rfl rfl, List.all_eq_true.1 rfl⟩
    · exact ⟨_, .of_words rfl rfl, List.all_eq_true.1 rfl⟩
    · exact ⟨_, .of_words rfl rfl, List.all_eq_true.1 rfl⟩
  obtain ⟨ws, hspells, hws⟩ := hlead
  refine ⟨_, hspells.blank (.of_name htable), List.forall_mem_append.2 ⟨hws, ?_⟩⟩
  simp [Word.precedes]

/-- Calm text behind the words of a clause. -/
theorem trails_of_calm {head text : String} {w : Word} {ws : List Word}
    (hhead : Spells head (w :: ws)) (hends : w.endsCondition = true)
    (hcalm : ∀ v ∈ ws, v.isCalm = true) (h : Calm text) : Trails (head ++ " " ++ text) := by
  obtain ⟨vs, hspells, hvs⟩ := h
  exact ⟨w, ws ++ vs, hhead.blank hspells, hends, List.forall_mem_append.2 ⟨hcalm, hvs⟩⟩

namespace Restricts

variable {text front back : String}

theorem blank_cons (h : Restricts text) : Restricts (" " ++ text) := by
  obtain ⟨condition, trail, hspells, hrest⟩ := h
  exact ⟨condition, trail, hspells.blank_cons, hrest⟩

/-- Clauses that leave out deleted rows still do so with others behind them. -/
theorem blank (h : Restricts front) (h' : Trails back) : Restricts (front ++ " " ++ back) := by
  obtain ⟨condition, trail, hfront, hlive, htrail, hhead⟩ := h
  obtain ⟨w, ws, hback, hends, hcalm⟩ := h'
  refine ⟨condition, trail ++ w :: ws, ?_, hlive, ?_, ?_⟩
  · simpa using hfront.blank hback
  · refine List.forall_mem_append.2 ⟨htrail, List.forall_mem_cons.2 ⟨?_, fun v hv => ?_⟩⟩
    · simp [Word.trails, hends]
    · simp [Word.trails, hcalm v hv]
  · cases trail with
    | nil => simpa using hends
    | cons v trail => simpa using hhead

/-- So they do with a clause behind them that may be left out. -/
theorem append_unless {head : String} (h : Restricts front) (h' : Trails (head ++ " " ++ back))
    (absent : Bool) :
    Restricts (front ++ if absent then "" else " " ++ head ++ " " ++ back) := by
  cases absent with
  | true => simpa using h
  | false => simpa [String.append_assoc] using h.blank h'

/-- A statement is about rows that are not deleted if its clauses leave out the others. -/
theorem isScoped {head : String} {words : List Word} (h : Restricts text)
    (hhead : Spells head words) (hwords : ∀ w ∈ words, w.precedes = true) :
    isScoped (head ++ " " ++ text) = true := by
  obtain ⟨condition, trail, hspells, hlive, htrail, hends⟩ := h
  obtain ⟨hjoins, conjunction, halternatives, hmem⟩ := hlive.exists_alternatives
  rw [Sql.isScoped, (hhead.blank hspells).conditions?,
    conditionIn?_append hwords hjoins htrail hends, Option.map_some, halternatives]
  simpa using hmem

end Restricts

end Persistence.Sql
