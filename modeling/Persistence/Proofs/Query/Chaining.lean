import Persistence.Proofs.Query.Building

/-!
# The text of a chain

The text of a query is what its items contribute, in their order.  A condition contributes its own
text, and a group the text of its chain in parentheses, or nothing if that is empty.  In front of
each contribution but the first stands the connector that is right in front of its item in the
chain, so that connectors at the ends of a chain, and those in front of an item that contributes
nothing, do not count.

Main results:

- `joins_led`: the text of a chain with a connector behind every item.
- `Query.whereText_eq_empty_iff`: the text is empty exactly without conditions.
- `Query.Made.follows_chain`: the text of a query that was built.
-/

namespace Persistence

variable {m : Mapping} {c : Connector} {links : List Link}

/-! ## Contributions -/

/-- What an item contributes to the text of its chain. -/
def Link.contribution? (m : Mapping) : Link → Option String
  | .connector _ => none
  | .condition c => some (c.text m)
  | .group sub =>
      let text := Query.whereText { Query.empty with links := sub } m
      if text = "" then none else some ("(" ++ text ++ ")")

/-- What the items of a chain contribute, each with the connector that stands right in front of the
item, if there is one; `front` is what stands in front of the chain. -/
def led (m : Mapping) (front : Option Connector) : List Link → List (Option Connector × String)
  | [] => []
  | .connector c :: links => led m (some c) links
  | item :: links =>
      (item.contribution? m).toList.map (fun text => (front, text)) ++ led m none links

/-- Contributions in a row, each behind its connector. -/
def behindConnectors (rest : List (Connector × String)) : String :=
  String.join (rest.map fun (c, text) => " " ++ c.text ++ " " ++ text)

/-- A text is the given contributions, with the connectors in front of all but the first. -/
inductive Joins : List (Option Connector × String) → String → Prop
  | empty : Joins [] ""
  | cons (front : Option Connector) (first : String) (rest : List (Connector × String)) :
      Joins ((front, first) :: rest.map fun (c, text) => (some c, text))
        (first ++ behindConnectors rest)

/-- Contributions make one text. -/
theorem Joins.unique {items : List (Option Connector × String)} {text text' : String}
    (h : Joins items text) (h' : Joins items text') : text = text' := by
  have hinjective : Function.Injective
      fun (c, text) => ((some c, text) : Option Connector × String) := by
    rintro ⟨c, text⟩ ⟨c', text'⟩ hpair
    cases hpair
    rfl
  generalize hitems : items = items' at h'
  cases h with
  | empty =>
      cases h' with
      | empty => rfl
      | cons front first rest => cases hitems
  | cons front first rest =>
      cases h' with
      | empty => cases hitems
      | cons front' first' rest' =>
          obtain ⟨hhead, hrest⟩ := List.cons.inj hitems
          obtain rfl := List.map_injective_iff.2 hinjective hrest
          cases hhead
          rfl

/-! ## Fragments -/

theorem joinFragments_cons (c : Connector) (first : String) (rest : List (Connector × String)) :
    joinFragments ((c, first) :: rest) = first ++ behindConnectors rest := by
  induction rest generalizing c first with
  | nil => simp [joinFragments, behindConnectors]
  | cons next rest ih =>
      obtain ⟨d, text⟩ := next
      rw [joinFragments, ih]
      simp [behindConnectors, String.append_assoc]

/-- No condition has an empty text. -/
theorem Condition.text_ne_empty (condition : Condition) (m : Mapping) : condition.text m ≠ "" := by
  intro h
  have hlength := congrArg String.length h
  cases condition with
  | among negated field values =>
      rw [text] at hlength
      split at hlength
      · simp [String.length_append] at hlength
      · cases negated <;> simp at hlength
  | _ => simp [text, String.length_append] at hlength

/-- No fragment is empty. -/
theorem ne_empty_of_mem_fragments {fragment : Connector × String}
    (h : fragment ∈ fragments m c links) : fragment.2 ≠ "" := by
  fun_induction fragments m c links with
  | case1 c => cases h
  | case2 c next links ih => exact ih h
  | case3 c condition links ih =>
      rcases List.mem_cons.1 h with rfl | h
      · exact condition.text_ne_empty m
      · exact ih h
  | case4 c sub links hsub ihsub ih => exact ih h
  | case5 c sub links hsub ihsub ih =>
      rcases List.mem_cons.1 h with rfl | h
      · intro hempty
        have hlength := congrArg String.length hempty
        simp [String.length_append] at hlength
      · exact ih h

/-- A chain has fragments exactly if it has conditions. -/
theorem fragments_eq_nil_iff : fragments m c links = [] ↔ conditions links = [] := by
  fun_induction fragments m c links with
  | case1 c => simp [conditions]
  | case2 c next links ih => simpa [conditions] using ih
  | case3 c condition links ih => simp [conditions]
  | case4 c sub links hsub ihsub ih => simp [conditions, ih, ihsub.1 hsub]
  | case5 c sub links hsub ihsub ih =>
      have hsome : conditions sub ≠ [] := fun hnone => hsub (ihsub.2 hnone)
      simp [conditions, hsome]

/-- The text of a query is empty exactly if there are no fragments. -/
theorem Query.whereText_eq_empty_iff_fragments {q : Query} :
    q.whereText m = "" ↔ fragments m .and q.links = [] := by
  rw [whereText]
  cases hfragments : fragments m .and q.links with
  | nil => simp [joinFragments]
  | cons fragment rest =>
      obtain ⟨c, first⟩ := fragment
      have hmem : (c, first) ∈ fragments m .and q.links := hfragments ▸ List.mem_cons_self
      have hfirst : first ≠ "" := ne_empty_of_mem_fragments hmem
      simp [joinFragments_cons, hfirst]

/-- The text of a query is empty exactly if no condition occurs in it or in a group of it. -/
theorem Query.whereText_eq_empty_iff {q : Query} :
    q.whereText m = "" ↔ conditions q.links = [] :=
  whereText_eq_empty_iff_fragments.trans fragments_eq_nil_iff

/-- The fragment of a single link is what it contributes. -/
theorem fragments_singleton (link : Link) :
    fragments m c [link] = (link.contribution? m).toList.map fun text => (c, text) := by
  cases link with
  | connector next => simp [fragments, Link.contribution?]
  | condition condition => simp [fragments, Link.contribution?]
  | group sub =>
      have hempty : Query.whereText { Query.empty with links := sub } m = "" ↔
          fragments m .and sub = [] := Query.whereText_eq_empty_iff_fragments
      rw [fragments, Link.contribution?]
      split
      · next hnone => simp [hempty.2 hnone, fragments]
      · next hsome =>
        simp only [mt hempty.1 hsome, if_false, fragments]
        rfl

/-- Behind a connector, a chain goes on as if it started there. -/
theorem fragments_append_connector (front back : List Link) (k : Connector) :
    fragments m c (front ++ .connector k :: back) = fragments m c front ++ fragments m k back := by
  fun_induction fragments m c front with
  | case1 c => simp [fragments]
  | case2 c next links ih => simpa [fragments] using ih
  | case3 c condition links ih => simp [fragments, ih]
  | case4 c sub links hsub _ ih => simpa [fragments, hsub] using ih
  | case5 c sub links hsub _ ih => simp [fragments, ih]

theorem fragments_item (item : Link) (k : Connector) :
    fragments m c (item :: .connector k :: links) =
      fragments m c [item] ++ fragments m k links :=
  fragments_append_connector [item] links k

theorem led_item {item : Link} (hitem : item.isConnector = false) (front : Option Connector)
    (k : Connector) :
    led m front (item :: .connector k :: links) =
      (fragments m c [item]).map (fun fragment => (front, fragment.2)) ++
        led m (some k) links := by
  rw [fragments_singleton, List.map_map]
  cases item with
  | connector next => cases hitem
  | condition condition => rfl
  | group sub => rfl

/-! ## Chains with connectors behind their items -/

/-- The items of such a chain are those of its fragments, with the same connectors. -/
theorem Alternates.led_some (h : Alternates links) (c : Connector) :
    led m (some c) links = (fragments m c links).map fun (k, text) => (some k, text) := by
  have hsingle : ∀ (c : Connector) (item : Link), (fragments m c [item]).map
      (fun fragment => (some c, fragment.2)) = (fragments m c [item]).map
        fun (k, text) => (some k, text) := by
    intro c item
    rw [fragments_singleton, List.map_map, List.map_map]
    rfl
  induction h generalizing c with
  | nil => simp [led, fragments]
  | condition condition k _ ih =>
      rw [led_item rfl (c := c), fragments_item, List.map_append, ih, hsingle]
  | group k _ _ _ ih => rw [led_item rfl (c := c), fragments_item, List.map_append, ih, hsingle]

/-- The text of such a chain is what its items contribute. -/
theorem Alternates.joins_led (h : Alternates links) (front : Option Connector) (c : Connector) :
    Joins (led m front links) (joinFragments (fragments m c links)) := by
  have hitem : ∀ {item : Link} {links : List Link} {k : Connector}, item.isConnector = false →
      Alternates links →
      (∀ front c, Joins (led m front links) (joinFragments (fragments m c links))) →
      ∀ (front : Option Connector) (c : Connector),
        Joins (led m front (item :: .connector k :: links))
          (joinFragments (fragments m c (item :: .connector k :: links))) := by
    intro item links k hitem hlinks ih front c
    rw [led_item hitem (c := c), fragments_item, fragments_singleton]
    cases item.contribution? m with
    | none => exact ih (some k) k
    | some text =>
        rw [hlinks.led_some k]
        have hjoin := joinFragments_cons c text (fragments m k links)
        exact hjoin ▸ Joins.cons front text (fragments m k links)
  induction h generalizing front c with
  | nil => simpa [led, fragments, joinFragments] using Joins.empty
  | condition condition k hlinks ih => exact hitem rfl hlinks (fun front c => ih front c) front c
  | group k hsub hlinks _ ih => exact hitem rfl hlinks (fun front c => ih front c) front c

/-! ## Queries that were built -/

/-- The condition of a query that was built follows its chain.  The chain has a connector behind
each item.  The text is what the items contribute, each but the first behind the connector that
stands right in front of it.  A condition that is left open is no part of it: the call that makes it
leaves the query as it is.  The text is empty exactly if no condition occurs in the chain and in its
groups, whatever the mapping is. -/
theorem Query.Made.follows_chain {q : Query} (h : q.Made) (m : Mapping) :
    Alternates q.links ∧ Joins (led m none q.links) (q.whereText m) ∧
      (∀ call : BuilderCall, call.isOpen = true → call.apply q = .ok q) ∧
      (q.whereText m = "" ↔ conditions q.links = []) ∧
      q.isEmpty = (q.whereText m).isEmpty := by
  refine ⟨h.alternates, h.alternates.joins_led none .and,
    fun call hopen => call.apply_of_isOpen hopen q, whereText_eq_empty_iff, ?_⟩
  rw [Bool.eq_iff_iff, isEmpty, String.isEmpty_iff, String.isEmpty_iff, whereText_eq_empty_iff,
    whereText_eq_empty_iff]

namespace Query

/-- A group of two conditions with a connector left at its end. -/
def eitherName : Query := ((empty.eq "name" (.string "it's")).or.eq "nick" (.string "it")).or

/-- Calls with connectors at both ends, a condition that is left open and an empty group. -/
def looseCalls : List BuilderCall :=
  [.connect .or, .compare .eq "id" (.int 1), .compare .gt "age" .null,
    .connectNested .or eitherName, .nested empty, .connect .or, .isNull false "parent",
    .connect .and]

/-- The query that the loose calls build. -/
def loose : Query :=
  { empty with
    links := [.condition (.compare .eq "id" (.int 1)), .connector .or, .group eitherName.links,
      .connector .and, .group [], .connector .or, .condition (.isNull false "parent"),
      .connector .and] }

theorem made_eitherName : eitherName.Made := by
  have hcalls : BuilderCall.applyAll [.compare .eq "name" (.string "it's"), .connect .or,
      .compare .eq "nick" (.string "it"), .connect .or] empty = .ok eitherName := rfl
  exact Made.empty.applyAll (by simp [BuilderCall.sub?]) hcalls

/-- The loose query was built, and its text has neither the connectors at its ends nor the open
condition and the empty group. -/
theorem loose_follows_chain :
    BuilderCall.applyAll looseCalls empty = .ok loose ∧ loose.Made ∧
      Joins [(none, "id = 1"), (some .or, "(name = 'it\\'s' or nick = 'it')"),
        (some .or, "parent is null")] (loose.whereText Mapping.empty) ∧
      loose.whereText Mapping.empty =
        "id = 1 or (name = 'it\\'s' or nick = 'it') or parent is null" := by
  have hcalls : BuilderCall.applyAll looseCalls empty = .ok loose := rfl
  have hmade : loose.Made := by
    refine Made.empty.applyAll (fun call hcall sub hsub => ?_) hcalls
    simp only [looseCalls, List.mem_cons, List.not_mem_nil, or_false] at hcall
    rcases hcall with rfl | rfl | rfl | rfl | rfl | rfl | rfl | rfl <;> cases hsub
    · exact made_eitherName
    · exact .empty
  obtain ⟨-, hjoins, -⟩ := hmade.follows_chain Mapping.empty
  have hgroup : Link.contribution? Mapping.empty (.group eitherName.links) =
      some "(name = 'it\\'s' or nick = 'it')" := by
    have hlinks : eitherName.links = [.condition (.compare .eq "name" (.string "it's")),
        .connector .or, .condition (.compare .eq "nick" (.string "it")), .connector .or] := rfl
    rw [Link.contribution?, hlinks]
    simp only [whereText, fragments]
    rfl
  have hled : led Mapping.empty none loose.links = [(none, "id = 1"),
      (some .or, "(name = 'it\\'s' or nick = 'it')"), (some .or, "parent is null")] := by
    have hnone : Link.contribution? Mapping.empty (.group []) = none := by
      simp [Link.contribution?, whereText, fragments, joinFragments]
    simp only [loose, led, hgroup, hnone]
    rfl
  rw [hled] at hjoins
  exact ⟨hcalls, hmade, hjoins, hjoins.unique (.cons none "id = 1"
    [(.or, "(name = 'it\\'s' or nick = 'it')"), (.or, "parent is null")])⟩

end Query

end Persistence
