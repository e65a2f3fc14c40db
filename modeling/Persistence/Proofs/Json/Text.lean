import Persistence.Json.Parser
import Persistence.Json.Printer
import Persistence.Proofs.Number.Shortest

/-!
# JSON texts tell values apart

The text of a value ends where the value does: whatever follows a value inside of an array or an
object cannot be taken for a part of it.  Strings are read back by the reader of strings, numbers
end at the first character that no number has, and arrays and objects end at their brackets.

Main results:

- `Json.takeString?_quote`: a quoted string reads back.
- `Json.Number.eq_of_text_eq`: numbers with the same text are the same.
- `Json.text_injective`: values with the same text are the same.
-/

namespace Persistence.Json

/-! ## Strings -/

/-- An escape with one letter reads back. -/
theorem takeString?_escape {c letter : Char} (hletter : escapeLetter? c = some letter)
    (hu : c ≠ 'u') (rest : List Char) :
    takeString? ('\\' :: c :: rest) =
      (takeString? rest).map fun (s, rest) => (letter :: s, rest) := by
  rw [takeString?, hletter]
  intro _ _ _ _ _ hc
  exact absurd hc hu

/-- A character that is not escaped reads back. -/
theorem takeString?_plain {c : Char} (hquote : c ≠ '"') (hslash : c ≠ '\\')
    (hcontrol : ¬c.toNat < 0x20) (rest : List Char) :
    takeString? (c :: rest) = (takeString? rest).map fun (s, rest) => (c :: s, rest) := by
  rw [takeString?.eq_def]
  split <;> simp_all

theorem codeUnit?_control : ∀ n : Fin 32,
    codeUnit? '0' '0' (hexDigit (n / 16)) (hexDigit n) = some n.val ∧
      isHighSurrogate n = false ∧ isLowSurrogate n = false := by
  decide

/-- A control character reads back from its code. -/
theorem takeString?_control {c : Char} (hcontrol : c.toNat < 0x20) (rest : List Char) :
    takeString? ('\\' :: 'u' :: '0' :: '0' :: hexDigit (c.toNat / 16) :: hexDigit c.toNat :: rest) =
      (takeString? rest).map fun (s, rest) => (c :: s, rest) := by
  obtain ⟨hunit, hhigh, hlow⟩ := codeUnit?_control ⟨c.toNat, hcontrol⟩
  rw [takeString?.eq_def]
  simp only at hunit hhigh hlow
  simp [hunit, hhigh, hlow]

/-- A character reads back from a string literal. -/
theorem takeString?_quoteChar (c : Char) (rest : List Char) :
    takeString? (quoteChar c ++ rest) =
      (takeString? rest).map fun (s, rest) => (c :: s, rest) := by
  rw [quoteChar]
  split_ifs with h₁ h₂ h₃ h₄ h₅ h₆ h₇ h₈
  · rw [h₁]
    exact takeString?_escape (by decide) (by decide) rest
  · rw [h₂]
    exact takeString?_escape (by decide) (by decide) rest
  · rw [h₃]
    exact takeString?_escape (by decide) (by decide) rest
  · rw [h₄]
    exact takeString?_escape (by decide) (by decide) rest
  · rw [h₅]
    exact takeString?_escape (by decide) (by decide) rest
  · rw [h₆]
    exact takeString?_escape (by decide) (by decide) rest
  · rw [h₇]
    exact takeString?_escape (by decide) (by decide) rest
  · exact takeString?_control h₈ rest
  · exact takeString?_plain h₁ h₂ h₈ rest

/-- A quoted string reads back, behind its first quote. -/
theorem takeString?_quote (s rest : List Char) :
    takeString? ((quote s ++ rest).tail) = some (s, rest) := by
  show takeString? (s.flatMap quoteChar ++ ['"'] ++ rest) = some (s, rest)
  rw [List.append_assoc]
  induction s with
  | nil => rfl
  | cons c s ih =>
      rw [List.flatMap_cons, List.append_assoc, takeString?_quoteChar, ih]
      rfl

/-- A string literal ends where its string does. -/
theorem quote_append_inj {s s' rest rest' : List Char}
    (h : quote s ++ rest = quote s' ++ rest') : s = s' ∧ rest = rest' := by
  have hread := takeString?_quote s rest
  rw [h, takeString?_quote] at hread
  simp only [Option.some.injEq, Prod.mk.injEq] at hread
  exact ⟨hread.1.symm, hread.2.symm⟩

/-! ## Numbers -/

/-- A text that no number goes on with. -/
def EndsNumber (rest : List Char) : Prop := ∀ c, rest.head? = some c → ¬Decimal.IsNumberChar c

/-- Numbers have none of the characters that start other values or stand between values. -/
theorem not_isNumberChar {c : Char}
    (hc : c = 'n' ∨ c = 't' ∨ c = 'f' ∨ c = '"' ∨ c = '[' ∨ c = '{' ∨ c = ',' ∨ c = ']' ∨ c = '}') :
    ¬Decimal.IsNumberChar c := by
  intro h
  rcases hc with rfl | rfl | rfl | rfl | rfl | rfl | rfl | rfl | rfl <;>
    simp [Decimal.IsNumberChar] at h

namespace Number

/-- The text of a number has only characters of numbers. -/
theorem isNumberChar_of_mem_text {n : Number} {c : Char} (hc : c ∈ n.text) :
    Decimal.IsNumberChar c := by
  cases n with
  | int n _ =>
      rcases Decimal.mem_toString hc with hc | hc
      · exact .inl hc
      · exact .inr (.inr (.inr (.inr hc)))
  | float x hx => exact Binary64.isNumberChar_of_mem_text hx hc

/-- A floating-point number is not written like an integer. -/
theorem toString_ne_text (n : Int) {x : Binary64} (hx : x.isFinite = true) :
    (toString n).toList ≠ (x.text Decimal.Layout.json).toList := by
  intro h
  obtain ⟨c, hc, hpoint⟩ :=
    Decimal.exists_mem_text (show Decimal.Layout.json.wholePoint = true from rfl)
      (Decimal.shortest Decimal.Layout.json.tie x)
  have hmem : c ∈ (toString n).toList := by
    rw [h, Binary64.toList_text hx]
    exact List.mem_append_right _ hc
  rcases Decimal.mem_toString hmem with hdigit | hminus
  · rcases hpoint with rfl | rfl <;> simp at hdigit
  · rcases hpoint with rfl | rfl <;> simp at hminus

/-- Numbers with the same text are the same. -/
theorem eq_of_text_eq {m n : Number} (h : m.text = n.text) : m = n := by
  cases m with
  | int m hm =>
      cases n with
      | int n hn =>
          have hstring : toString m = toString n := String.toList_inj.1 h
          have heq : m = n := Int.repr_injective hstring
          subst heq
          rfl
      | float y hy => exact absurd h (toString_ne_text m hy)
  | float x hx =>
      cases n with
      | int n hn => exact absurd h.symm (toString_ne_text n hx)
      | float y hy =>
          have hstring := String.toList_inj.1 h
          obtain rfl := Binary64.eq_of_text_eq hx hy hstring
          rfl

/-- A number ends where its text does. -/
theorem text_append_inj {m n : Number} {rest rest' : List Char} (hrest : EndsNumber rest)
    (hrest' : EndsNumber rest') (h : m.text ++ rest = n.text ++ rest') :
    m = n ∧ rest = rest' := by
  classical
  have htake : ∀ (n : Number) (rest : List Char), EndsNumber rest →
      (n.text ++ rest).takeWhile (fun c => decide (Decimal.IsNumberChar c)) = n.text := by
    intro n rest hrest
    rw [List.takeWhile_append_of_pos fun c hc => decide_eq_true (isNumberChar_of_mem_text hc)]
    cases rest with
    | nil => simp
    | cons c rest => rw [List.takeWhile_cons_of_neg (by simpa using hrest c rfl), List.append_nil]
  have htext : m.text = n.text := by
    rw [← htake m rest hrest, h, htake n rest' hrest']
  rw [htext] at h
  exact ⟨eq_of_text_eq htext, List.append_cancel_left h⟩

/-- The text of a number is not empty. -/
theorem text_ne_nil (n : Number) : n.text ≠ [] := by
  intro hnil
  cases n with
  | int n hn =>
      have hempty : n.repr = "" := String.toList_eq_nil_iff.1 hnil
      rw [Int.repr_eq_if] at hempty
      split at hempty
      · exact Nat.repr_ne_empty hempty
      · simp at hempty
  | float x hx =>
      obtain ⟨c, hc, _⟩ :=
        Decimal.exists_mem_text (show Decimal.Layout.json.wholePoint = true from rfl)
          (Decimal.shortest Decimal.Layout.json.tie x)
      rw [text, Binary64.toList_text hx] at hnil
      rw [(List.append_eq_nil_iff.1 hnil).2] at hc
      exact List.not_mem_nil hc

end Number

/-! ## Values -/

/-- The characters that the text of a value may start with. -/
def StartsWith (c : Char) : Json → Prop
  | null => c = 'n'
  | bool _ => c = 't' ∨ c = 'f'
  | num _ => Decimal.IsNumberChar c
  | str _ => c = '"'
  | arr _ => c = '['
  | obj _ => c = '{'

/-- A text starts with a character of its value. -/
theorem render_eq_cons (j : Json) : ∃ c cs, render j = c :: cs ∧ StartsWith c j := by
  cases j with
  | null => exact ⟨_, _, rfl, rfl⟩
  | bool b =>
      cases b with
      | false => exact ⟨_, _, rfl, .inr rfl⟩
      | true => exact ⟨_, _, rfl, .inl rfl⟩
  | num n =>
      obtain ⟨c, cs, htext⟩ := List.exists_cons_of_ne_nil n.text_ne_nil
      exact ⟨c, cs, htext, Number.isNumberChar_of_mem_text (htext ▸ List.mem_cons_self)⟩
  | str s => exact ⟨_, _, rfl, rfl⟩
  | arr items => exact ⟨_, _, rfl, rfl⟩
  | obj fields => exact ⟨_, _, rfl, rfl⟩

/-- Values of one constructor. -/
inductive Alike : Json → Json → Prop
  | null : Alike null null
  | bool (b b' : Bool) : Alike (bool b) (bool b')
  | num (m n : Number) : Alike (num m) (num n)
  | str (s s' : String) : Alike (str s) (str s')
  | arr (items items' : List Json) : Alike (arr items) (arr items')
  | obj (fields fields' : List (String × Json)) : Alike (obj fields) (obj fields')

/-- The first character of a text tells the constructor of its value. -/
theorem StartsWith.alike {c : Char} {a b : Json} (ha : StartsWith c a) (hb : StartsWith c b) :
    Alike a b := by
  cases a <;> cases b <;> first | constructor | exfalso
  all_goals
    simp only [StartsWith] at ha hb
    grind [not_isNumberChar]

/-- Texts with the same beginning have values of one constructor. -/
theorem alike_of_render {a b : Json} {rest rest' : List Char}
    (h : render a ++ rest = render b ++ rest') : Alike a b := by
  obtain ⟨c, cs, ha, hca⟩ := render_eq_cons a
  obtain ⟨d, ds, hb, hdb⟩ := render_eq_cons b
  rw [ha, hb] at h
  obtain rfl : c = d := (List.cons.inj h).1
  exact hca.alike hdb

/-- A value does not start with a closing bracket. -/
theorem render_ne_close {j : Json} {c : Char} {rest rest' : List Char} (hc : c = ']' ∨ c = '}')
    (h : render j ++ rest = c :: rest') : False := by
  obtain ⟨d, ds, hj, hd⟩ := render_eq_cons j
  rw [hj] at h
  obtain rfl : d = c := (List.cons.inj h).1
  rcases hc with rfl | rfl <;> cases j <;> simp [StartsWith, Decimal.IsNumberChar] at hd

/-- What follows an item of an array. -/
def afterItem (items : List Json) : List Char :=
  if items.isEmpty then [']'] else ',' :: renderItems items

/-- What follows a field of an object. -/
def afterField (fields : List (String × Json)) : List Char :=
  if fields.isEmpty then ['}'] else ',' :: renderFields fields

theorem renderItems_cons (item : Json) (items : List Json) :
    renderItems (item :: items) = render item ++ afterItem items := by
  cases items <;> rfl

theorem renderFields_cons (key : String) (value : Json) (fields : List (String × Json)) :
    renderFields ((key, value) :: fields) =
      quote key.toList ++ ':' :: (render value ++ afterField fields) := by
  cases fields <;> simp [renderFields, afterField]

theorem endsNumber_afterItem (items : List Json) (rest : List Char) :
    EndsNumber (afterItem items ++ rest) := by
  intro c hc
  rw [afterItem] at hc
  split at hc <;> simp at hc <;> exact not_isNumberChar (by simp [← hc])

theorem endsNumber_afterField (fields : List (String × Json)) (rest : List Char) :
    EndsNumber (afterField fields ++ rest) := by
  intro c hc
  rw [afterField] at hc
  split at hc <;> simp at hc <;> exact not_isNumberChar (by simp [← hc])

mutual

/-- A value ends where its text does. -/
theorem render_append_inj : ∀ (a b : Json) {rest rest' : List Char}, EndsNumber rest →
    EndsNumber rest' → render a ++ rest = render b ++ rest' → a = b ∧ rest = rest'
  | null, b, rest, rest', _, _, h => by
      cases alike_of_render h
      exact ⟨rfl, List.append_cancel_left h⟩
  | bool v, b, rest, rest', _, _, h => by
      cases alike_of_render h with
      | bool _ v' =>
          cases v <;> cases v' <;> simp [render] at h <;> exact ⟨rfl, h⟩
  | num m, b, rest, rest', hrest, hrest', h => by
      cases alike_of_render h with
      | num _ n =>
          obtain ⟨rfl, hrests⟩ := Number.text_append_inj hrest hrest' h
          exact ⟨rfl, hrests⟩
  | str s, b, rest, rest', _, _, h => by
      cases alike_of_render h with
      | str _ s' =>
          obtain ⟨hs, hrests⟩ := quote_append_inj h
          exact ⟨congrArg str (String.toList_inj.1 hs), hrests⟩
  | arr items, b, rest, rest', _, _, h => by
      cases alike_of_render h with
      | arr _ items' =>
          obtain ⟨rfl, hrests⟩ := renderItems_append_inj items items' (List.cons.inj h).2
          exact ⟨rfl, hrests⟩
  | obj fields, b, rest, rest', _, _, h => by
      cases alike_of_render h with
      | obj _ fields' =>
          obtain ⟨rfl, hrests⟩ := renderFields_append_inj fields fields' (List.cons.inj h).2
          exact ⟨rfl, hrests⟩

/-- The items of an array end at its bracket. -/
theorem renderItems_append_inj : ∀ (xs ys : List Json) {rest rest' : List Char},
    renderItems xs ++ rest = renderItems ys ++ rest' → xs = ys ∧ rest = rest'
  | [], [], rest, rest', h => ⟨rfl, List.append_cancel_left h⟩
  | [], y :: ys, rest, rest', h => by
      rw [renderItems_cons, List.append_assoc] at h
      exact (render_ne_close (.inl rfl) h.symm).elim
  | x :: xs, [], rest, rest', h => by
      rw [renderItems_cons, List.append_assoc] at h
      exact (render_ne_close (.inl rfl) h).elim
  | x :: xs, y :: ys, rest, rest', h => by
      rw [renderItems_cons, renderItems_cons, List.append_assoc, List.append_assoc] at h
      obtain ⟨rfl, hafter⟩ := render_append_inj x y (endsNumber_afterItem xs rest)
        (endsNumber_afterItem ys rest') h
      cases xs with
      | nil =>
          cases ys with
          | nil => exact ⟨rfl, List.append_cancel_left hafter⟩
          | cons y ys => simp [afterItem] at hafter
      | cons z zs =>
          cases ys with
          | nil => simp [afterItem] at hafter
          | cons y ys =>
              obtain ⟨htail, hrests⟩ :=
                renderItems_append_inj (z :: zs) (y :: ys) (List.cons.inj hafter).2
              rw [htail]
              exact ⟨rfl, hrests⟩

/-- The fields of an object end at its brace. -/
theorem renderFields_append_inj : ∀ (fs gs : List (String × Json)) {rest rest' : List Char},
    renderFields fs ++ rest = renderFields gs ++ rest' → fs = gs ∧ rest = rest'
  | [], [], rest, rest', h => ⟨rfl, List.append_cancel_left h⟩
  | [], (key, value) :: gs, rest, rest', h => by
      rw [renderFields_cons] at h
      simp [renderFields, quote] at h
  | (key, value) :: fs, [], rest, rest', h => by
      rw [renderFields_cons] at h
      simp [renderFields, quote] at h
  | (key, value) :: fs, (key', value') :: gs, rest, rest', h => by
      rw [renderFields_cons, renderFields_cons, List.append_assoc, List.append_assoc] at h
      obtain ⟨hkey, hvalue⟩ := quote_append_inj h
      obtain rfl := String.toList_inj.1 hkey
      have hvalue : render value ++ afterField fs ++ rest =
          render value' ++ afterField gs ++ rest' := (List.cons.inj hvalue).2
      rw [List.append_assoc, List.append_assoc] at hvalue
      obtain ⟨rfl, hafter⟩ := render_append_inj value value' (endsNumber_afterField fs rest)
        (endsNumber_afterField gs rest') hvalue
      cases fs with
      | nil =>
          cases gs with
          | nil => exact ⟨rfl, List.append_cancel_left hafter⟩
          | cons g gs => simp [afterField] at hafter
      | cons f fs =>
          cases gs with
          | nil => simp [afterField] at hafter
          | cons g gs =>
              obtain ⟨htail, hrests⟩ :=
                renderFields_append_inj (f :: fs) (g :: gs) (List.cons.inj hafter).2
              rw [htail]
              exact ⟨rfl, hrests⟩

end

/-- Values with the same text are the same. -/
theorem text_injective : Function.Injective text := by
  intro a b h
  have hrender : render a ++ [] = render b ++ [] := by
    rw [List.append_nil, List.append_nil]
    exact String.ofList_inj.1 h
  have hnil : EndsNumber [] := fun c hc => absurd hc (by simp)
  exact (render_append_inj a b hnil hnil hrender).1

end Persistence.Json
