import Persistence.Proofs.Sql.Surface
import Persistence.Sql.Param

/-!
# The pieces of templates

A template is a row of pieces: placeholders, quoted regions and other characters.  The grammar of
pieces says nothing about arguments, and filling a template is putting the texts of the arguments in
the place of the placeholders, one after the other, with every other piece left as it is.

Main results:

- `Splits.unique`, `exists_splits`: a template has one way to be split into pieces.
- `Splits.fillFrom`: filling a template is substitution for its placeholders.
- `format_substitutes`: the statement that a template and its arguments make.
-/

namespace Persistence.Sql

/-! ## Pieces -/

/-- A piece of a template. -/
inductive Piece
  /-- A placeholder. -/
  | mark
  /-- A character outside quotes that is no placeholder. -/
  | plain (c : Char)
  /-- A quoted region with what stands between its quotes. -/
  | quoted (quote : Char) (body : List Char)
  /-- A quoted region that has no end, with what is left of the template behind its quote. -/
  | unclosed (quote : Char) (body : List Char)
deriving DecidableEq

namespace Piece

/-- What a piece is in a template. -/
def text : Piece → List Char
  | mark => ['?']
  | plain c => [c]
  | quoted quote body => quote :: (body ++ [quote])
  | unclosed quote body => quote :: body

/-- Whether a template that ends behind a piece ends outside quotes. -/
def isClosed : Piece → Bool
  | unclosed _ _ => false
  | _ => true

/-- What stands for a piece in a filled template, behind `k` placeholders. -/
def filled (texts : List (List Char)) (k : Nat) (p : Piece) : List Char :=
  if p = mark then texts.getD k p.text else p.text

end Piece

/-- The number of placeholders among some pieces. -/
def marks (pieces : List Piece) : Nat := pieces.count .mark

/-- The text of some pieces with texts for the placeholders: the first placeholder is replaced by
the first text and so on, and one for which there is no text stays. -/
def substituted (texts : List (List Char)) (pieces : List Piece) : List Char :=
  (pieces.mapIdx fun i p => p.filled texts (marks (pieces.take i))).flatten

/-! ## The grammar -/

/-- What can stand in a quoted region: anything but its quote, which a backslash takes out of the
count.  Between backticks a backslash is a character like any other. -/
inductive RegionBody (quote : Char) : List Char → Prop
  | nil : RegionBody quote []
  | char {c : Char} {text : List Char} :
      c ≠ quote → ¬ (c = '\\' ∧ quote ≠ '\x60') → RegionBody quote text →
        RegionBody quote (c :: text)
  | escaped {c : Char} {text : List Char} :
      quote ≠ '\x60' → RegionBody quote text → RegionBody quote ('\\' :: c :: text)

/-- What can stand behind the body of a region: its quote, or the end of the template, perhaps
with a backslash in front of it. -/
inductive RegionEnd (quote : Char) : List Char → Prop
  | closed (rest : List Char) : RegionEnd quote (quote :: rest)
  | missing : RegionEnd quote []
  | slash : quote ≠ '\x60' → RegionEnd quote ['\\']

/-- A template is split into pieces. -/
inductive Splits : (template : List Char) → List Piece → Prop
  | nil : Splits [] []
  | mark {rest : List Char} {pieces : List Piece} :
      Splits rest pieces → Splits ('?' :: rest) (.mark :: pieces)
  | plain {c : Char} {rest : List Char} {pieces : List Piece} :
      c ≠ '?' → isQuote c = false → Splits rest pieces → Splits (c :: rest) (.plain c :: pieces)
  | quoted {quote : Char} {body rest : List Char} {pieces : List Piece} :
      isQuote quote = true → RegionBody quote body → Splits rest pieces →
        Splits (quote :: (body ++ quote :: rest)) (.quoted quote body :: pieces)
  | unclosed {quote : Char} {body tail : List Char} :
      isQuote quote = true → RegionBody quote body → RegionEnd quote tail →
        tail.head? ≠ some quote →
        Splits (quote :: (body ++ tail)) [.unclosed quote (body ++ tail)]

theorem ne_slash_of_isQuote {quote : Char} (h : isQuote quote = true) : quote ≠ '\\' := by
  rintro rfl
  cases h

theorem ne_mark_of_isQuote {quote : Char} (h : isQuote quote = true) : quote ≠ '?' := by
  rintro rfl
  cases h

/-! ## Splitting -/

namespace RegionBody

variable {quote : Char} {body body' tail tail' : List Char}

/-- A body does not go on where a region ends. -/
theorem not_regionEnd (hquote : isQuote quote = true) (h : RegionBody quote body)
    (hne : body ≠ []) (heq : body ++ tail = tail') : ¬ RegionEnd quote tail' := by
  intro hend
  cases h with
  | nil => exact hne rfl
  | char hc hslash _ =>
      cases hend with
      | closed rest => exact hc (List.cons.inj heq).1
      | missing => cases heq
      | slash hback => exact hslash ⟨(List.cons.inj heq).1, hback⟩
  | escaped hback _ =>
      cases hend with
      | closed rest => exact ne_slash_of_isQuote hquote (List.cons.inj heq).1.symm
      | missing => cases heq
      | slash _ => simp at heq

/-- A region has one end. -/
theorem append_inj (hquote : isQuote quote = true) (h : RegionBody quote body)
    (h' : RegionBody quote body') (htail : RegionEnd quote tail) (htail' : RegionEnd quote tail')
    (heq : body ++ tail = body' ++ tail') : body = body' ∧ tail = tail' := by
  induction h generalizing body' with
  | nil =>
      by_cases hne : body' = []
      · subst hne
        exact ⟨rfl, heq⟩
      · exact absurd htail (h'.not_regionEnd hquote hne heq.symm)
  | @char c text hc hslash hbody ih =>
      cases h' with
      | nil =>
          have hgoes := (RegionBody.char hc hslash hbody).not_regionEnd hquote (by simp) heq
          exact absurd htail' hgoes
      | char _ _ hbody' =>
          obtain ⟨rfl, hrest⟩ := List.cons.inj heq
          obtain ⟨rfl, rfl⟩ := ih hbody' hrest
          exact ⟨rfl, rfl⟩
      | escaped hback _ => exact absurd ⟨(List.cons.inj heq).1, hback⟩ hslash
  | @escaped c text hback hbody ih =>
      cases h' with
      | nil =>
          have hgoes := (RegionBody.escaped hback hbody).not_regionEnd hquote (by simp) heq
          exact absurd htail' hgoes
      | char _ hslash _ => exact absurd ⟨(List.cons.inj heq).1.symm, hback⟩ hslash
      | escaped _ hbody' =>
          obtain ⟨rfl, hrest⟩ := List.cons.inj (List.cons.inj heq).2
          obtain ⟨rfl, rfl⟩ := ih hbody' hrest
          exact ⟨rfl, rfl⟩

/-- What stands behind a quote is a body with an end. -/
theorem exists_append (quote : Char) :
    ∀ text : List Char, ∃ body tail, text = body ++ tail ∧ RegionBody quote body ∧
      RegionEnd quote tail
  | [] => ⟨[], [], rfl, .nil, .missing⟩
  | c :: text => by
      by_cases hclosed : c = quote
      · subst hclosed
        exact ⟨[], c :: text, rfl, .nil, .closed text⟩
      · by_cases hslash : c = '\\' ∧ quote ≠ '\x60'
        · obtain ⟨rfl, hback⟩ := hslash
          -- The backslash takes the next character with it, if there is one.
          match text with
          | [] => exact ⟨[], ['\\'], rfl, .nil, .slash hback⟩
          | d :: text =>
              obtain ⟨body, tail, rfl, hbody, htail⟩ := exists_append quote text
              exact ⟨'\\' :: d :: body, tail, rfl, .escaped hback hbody, htail⟩
        · obtain ⟨body, tail, rfl, hbody, htail⟩ := exists_append quote text
          exact ⟨c :: body, tail, rfl, .char hclosed hslash hbody, htail⟩

end RegionBody

/-- Every template is split into pieces. -/
theorem exists_splits (template : List Char) : ∃ pieces, Splits template pieces := by
  induction hlength : template.length using Nat.strong_induction_on generalizing template with
  | _ length ih =>
      subst hlength
      cases template with
      | nil => exact ⟨[], .nil⟩
      | cons c rest =>
          by_cases hquote : isQuote c = true
          · obtain ⟨body, tail, rfl, hbody, htail⟩ := RegionBody.exists_append c rest
            by_cases hclosed : tail.head? = some c
            · obtain ⟨rest, rfl⟩ := List.head?_eq_some_iff.1 hclosed
              have hshorter : rest.length < (c :: (body ++ c :: rest)).length := by
                simp only [List.length_cons, List.length_append]
                omega
              obtain ⟨pieces, hpieces⟩ := ih _ hshorter rest rfl
              exact ⟨_, .quoted hquote hbody hpieces⟩
            · exact ⟨_, .unclosed hquote hbody htail hclosed⟩
          · rw [Bool.not_eq_true] at hquote
            obtain ⟨pieces, hpieces⟩ := ih rest.length (by simp) rest rfl
            by_cases hmark : c = '?'
            · subst hmark
              exact ⟨_, .mark hpieces⟩
            · exact ⟨_, .plain hmark hquote hpieces⟩

namespace Splits

variable {template rest : List Char} {pieces pieces' more : List Piece}

/-- A template is split in one way. -/
theorem unique (h : Splits template pieces) (h' : Splits template pieces') : pieces = pieces' := by
  induction h generalizing pieces' with
  | nil =>
      cases h'
      rfl
  | mark _ ih =>
      cases h' with
      | mark h' => rw [ih h']
      | plain hmark => exact absurd rfl hmark
      | quoted hquote => exact absurd rfl (ne_mark_of_isQuote hquote)
      | unclosed hquote => exact absurd rfl (ne_mark_of_isQuote hquote)
  | plain hmark hplain _ ih =>
      cases h' with
      | mark => exact absurd rfl hmark
      | plain _ _ h' => rw [ih h']
      | quoted hquote => simp [hquote] at hplain
      | unclosed hquote => simp [hquote] at hplain
  | @quoted quote body rest pieces hquote hbody _ ih =>
      generalize htext : quote :: (body ++ quote :: rest) = text at h'
      cases h' with
      | nil => cases htext
      | mark => exact absurd (List.cons.inj htext).1 (ne_mark_of_isQuote hquote)
      | plain _ hplain =>
          obtain ⟨rfl, -⟩ := List.cons.inj htext
          simp [hquote] at hplain
      | @quoted _ body' rest' _ _ hbody' h' =>
          obtain ⟨rfl, htail⟩ := List.cons.inj htext
          obtain ⟨rfl, hrest⟩ := hbody.append_inj hquote hbody' (.closed _) (.closed _) htail
          obtain ⟨-, rfl⟩ := List.cons.inj hrest
          rw [ih h']
      | unclosed _ hbody' hend hopen =>
          obtain ⟨rfl, htail⟩ := List.cons.inj htext
          obtain ⟨-, rfl⟩ := hbody.append_inj hquote hbody' (.closed _) hend htail
          exact absurd rfl hopen
  | @unclosed quote body tail hquote hbody hend hopen =>
      generalize htext : quote :: (body ++ tail) = text at h'
      cases h' with
      | nil => cases htext
      | mark => exact absurd (List.cons.inj htext).1 (ne_mark_of_isQuote hquote)
      | plain _ hplain =>
          obtain ⟨rfl, -⟩ := List.cons.inj htext
          simp [hquote] at hplain
      | quoted _ hbody' =>
          obtain ⟨rfl, htail⟩ := List.cons.inj htext
          obtain ⟨-, rfl⟩ := hbody.append_inj hquote hbody' hend (.closed _) htail
          exact absurd rfl hopen
      | unclosed =>
          obtain ⟨rfl, htail⟩ := List.cons.inj htext
          rw [htail]

/-- The pieces of a template in a row are the template. -/
theorem flatMap_text (h : Splits template pieces) : pieces.flatMap Piece.text = template := by
  induction h with
  | nil => rfl
  | mark _ ih => rw [List.flatMap_cons, ih]; rfl
  | plain _ _ _ ih => rw [List.flatMap_cons, ih]; rfl
  | quoted _ _ _ ih =>
      rw [List.flatMap_cons, ih]
      simp [Piece.text]
  | unclosed => simp [Piece.text]

/-- Behind a template that ends outside quotes, another one is split as on its own. -/
theorem append (h : Splits template pieces) (hclosed : ∀ p ∈ pieces, p.isClosed = true)
    (hrest : Splits rest more) : Splits (template ++ rest) (pieces ++ more) := by
  induction h with
  | nil => exact hrest
  | mark _ ih => exact .mark (ih (List.forall_mem_cons.1 hclosed).2)
  | plain hmark hquote _ ih => exact .plain hmark hquote (ih (List.forall_mem_cons.1 hclosed).2)
  | quoted hquote hbody _ ih =>
      have htail := ih (List.forall_mem_cons.1 hclosed).2
      simpa using Splits.quoted hquote hbody htail
  | unclosed =>
      have hopen := hclosed _ List.mem_cons_self
      cases hopen

end Splits

/-! ## Substitution -/

section Substitution

variable (text : List Char) (texts : List (List Char)) (pieces more : List Piece)

@[simp] theorem substituted_nil : substituted texts [] = [] := rfl

/-- The first placeholder takes the first text. -/
theorem substituted_mark :
    substituted (text :: texts) (.mark :: pieces) = text ++ substituted texts pieces := by
  simp only [substituted, List.mapIdx_cons, List.flatten_cons]
  congr 3
  funext i p
  have hmarks : marks ((Piece.mark :: pieces).take (i + 1)) = marks (pieces.take i) + 1 := by
    simp [marks]
  rw [hmarks, Piece.filled, Piece.filled, List.getD_cons_succ]

/-- Without texts, placeholders stay. -/
theorem substituted_mark_nil :
    substituted [] (.mark :: pieces) = '?' :: substituted [] pieces := by
  simp only [substituted, List.mapIdx_cons, List.flatten_cons]
  rfl

/-- Other pieces stay, and take no text. -/
theorem substituted_cons {p : Piece} (h : p ≠ .mark) :
    substituted texts (p :: pieces) = p.text ++ substituted texts pieces := by
  simp only [substituted, List.mapIdx_cons, List.flatten_cons]
  rw [Piece.filled, if_neg h]
  congr 3
  funext i q
  have hmarks : marks ((p :: pieces).take (i + 1)) = marks (pieces.take i) := by
    simp [marks, List.count_cons_of_ne h]
  rw [hmarks]

/-- Pieces in a row take their texts one after the other. -/
theorem substituted_append :
    substituted texts (pieces ++ more) =
      substituted (texts.take (marks pieces)) pieces ++
        substituted (texts.drop (marks pieces)) more := by
  induction pieces generalizing texts with
  | nil => simp [marks]
  | cons p pieces ih =>
      by_cases hp : p = .mark
      · subst hp
        have hmarks : marks (.mark :: pieces) = marks pieces + 1 := by simp [marks]
        rw [hmarks, List.cons_append]
        cases texts with
        | nil => simp [substituted_mark_nil, ih []]
        | cons text texts =>
            rw [substituted_mark, ih, List.take_succ_cons, List.drop_succ_cons, substituted_mark,
              List.append_assoc]
      · have hmarks : marks (p :: pieces) = marks pieces := by
          simp [marks, List.count_cons_of_ne hp]
        rw [hmarks, List.cons_append, substituted_cons _ _ hp, ih, substituted_cons _ _ hp,
          List.append_assoc]

end Substitution

/-! ## Filling -/

/-- Inside a region a template is passed over up to the quote behind it. -/
theorem RegionBody.fillFrom {quote : Char} {body : List Char} (hquote : isQuote quote = true)
    (h : RegionBody quote body) (texts : List (List Char)) (rest : List Char) :
    Sql.fillFrom (.inside quote) texts (body ++ rest) =
      body ++ Sql.fillFrom (.inside quote) texts rest := by
  induction h with
  | nil => rfl
  | char hc hslash _ ih =>
      rw [List.cons_append, Sql.fillFrom.eq_def]
      simpa [Region.next, hc, hslash] using ih
  | escaped hback _ ih =>
      have hslash := ne_slash_of_isQuote hquote
      simpa [Sql.fillFrom, Region.next, hback] using ih

/-- Behind the body of a region a template goes on outside quotes, or it ends. -/
theorem fillFrom_quote {quote : Char} (hquote : isQuote quote = true) (texts : List (List Char))
    (rest : List Char) :
    fillFrom (.inside quote) texts (quote :: rest) = quote :: fillFrom .outside texts rest := by
  rw [fillFrom.eq_def]
  simp [Region.next, ne_slash_of_isQuote hquote]

/-- Filling a template is substitution for its placeholders. -/
theorem Splits.fillFrom {template : List Char} {pieces : List Piece} (h : Splits template pieces)
    (texts : List (List Char)) :
    Sql.fillFrom .outside texts template = substituted texts pieces := by
  have hopening : ∀ {quote : Char}, isQuote quote = true → ∀ texts rest,
      Sql.fillFrom .outside texts (quote :: rest) =
        quote :: Sql.fillFrom (.inside quote) texts rest := by
    intro quote hquote texts rest
    rw [Sql.fillFrom.eq_def]
    simp [ne_mark_of_isQuote hquote, Region.next, hquote]
  induction h generalizing texts with
  | nil => rfl
  | mark _ ih =>
      cases texts with
      | nil => rw [substituted_mark_nil, ← ih, Sql.fillFrom.eq_def]; rfl
      | cons text texts => rw [substituted_mark, ← ih, Sql.fillFrom.eq_def]; rfl
  | plain hmark hquote _ ih =>
      rw [fillFrom_cons hmark hquote, ih, substituted_cons _ _ (by simp)]
      rfl
  | quoted hquote hbody _ ih =>
      rw [hopening hquote, hbody.fillFrom hquote, fillFrom_quote hquote, ih,
        substituted_cons _ _ (by simp)]
      simp [Piece.text]
  | @unclosed quote body tail hquote hbody hend hopen =>
      have htail : Sql.fillFrom (.inside quote) texts tail = tail := by
        cases hend with
        | closed => simp at hopen
        | missing => rfl
        | slash => rfl
      rw [hopening hquote, hbody.fillFrom hquote, htail, substituted_cons _ _ (by simp)]
      simp [Piece.text]

/-- The statement that a template and its arguments make.  A template is split into pieces in one
way, which its arguments have no part in; the pieces are the template, and the statement has each
of them as it is, next to the placeholders, where the text of the first argument stands for the
first and so on.  A placeholder without an argument stays and arguments beyond the placeholders are
left out.  A template that ends outside quotes and another one behind it make the statement that
they make one after the other, with the arguments that are left for the second one. -/
theorem format_substitutes (template : String) :
    ∃ pieces, (∀ pieces', Splits template.toList pieces' ↔ pieces' = pieces) ∧
      pieces.flatMap Piece.text = template.toList ∧
      (∀ params, format template params =
        String.ofList (substituted (params.map fun p => p.text.toList) pieces)) ∧
      ((∀ p ∈ pieces, p.isClosed = true) → ∀ rest params,
        format (template ++ rest) params =
          format template (params.take (marks pieces)) ++
            format rest (params.drop (marks pieces))) := by
  have hformat : ∀ {text : String} {pieces : List Piece}, Splits text.toList pieces →
      ∀ params, format text params =
        String.ofList (substituted (params.map fun p => p.text.toList) pieces) := by
    intro text pieces hsplits params
    rw [format, fill, hsplits.fillFrom, List.map_map]
    rfl
  obtain ⟨pieces, hpieces⟩ := exists_splits template.toList
  refine ⟨pieces, fun pieces' => ?_, hpieces.flatMap_text, hformat hpieces,
    fun hclosed rest params => ?_⟩
  · constructor
    · exact fun h => h.unique hpieces
    · rintro rfl
      exact hpieces
  · obtain ⟨more, hmore⟩ := exists_splits rest.toList
    have hboth : Splits (template ++ rest).toList (pieces ++ more) := by
      rw [String.toList_append]
      exact hpieces.append hclosed hmore
    rw [hformat hboth, substituted_append, String.ofList_append, hformat hpieces, hformat hmore,
      List.map_take, List.map_drop]

/-- The placeholder in a quoted region stays, the quoted one in the text of an argument is not looked
at again, and a backslash between backticks escapes nothing. -/
theorem format_substitutes_regions :
    ∃ pieces, Splits "'?\\'' = ?".toList pieces ∧ (∀ p ∈ pieces, p.isClosed = true) ∧
      marks pieces = 1 ∧
      format ("'?\\'' = ?" ++ " or `\\` = ?") [.literal (.string "?'"), .raw "?"] =
        format "'?\\'' = ?" [.literal (.string "?'")] ++ format " or `\\` = ?" [.raw "?"] ∧
      format "'?\\'' = ?" [.literal (.string "?'")] = "'?\\'' = '?\\''" := by
  have hbody : RegionBody '\'' ['?', '\\', '\''] :=
    .char (by decide) (by decide) (.escaped (by decide) .nil)
  have hsplits : Splits "'?\\'' = ?".toList
      [.quoted '\'' ['?', '\\', '\''], .plain ' ', .plain '=', .plain ' ', .mark] :=
    .quoted rfl hbody (.plain (by decide) rfl (.plain (by decide) rfl (.plain (by decide) rfl
      (.mark .nil))))
  obtain ⟨pieces, hunique, -, -, happend⟩ := format_substitutes "'?\\'' = ?"
  obtain rfl := (hunique _).1 hsplits
  exact ⟨_, hsplits, by decide, rfl, happend (by decide) _ _, rfl⟩

end Persistence.Sql
