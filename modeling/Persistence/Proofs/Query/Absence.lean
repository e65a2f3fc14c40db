import Persistence.Proofs.Query.Chaining

/-!
# Absent filters

A condition that is left open leaves a query as it is.  A group without text is an absent filter as
well, but it is appended, with an `and` behind it that takes the place of the connector in front of
it.  So the text of the query is what it is without the group, unless an `or` stood there and the
next call asks for something right away: this is then joined with `and`.

Main results:

- `Alternates.join_run`: the text of a chain behind further edits.
- `Query.Made.absent_iff`: when a group without text makes no difference.
- `Query.absent_drops_or`: a group without text that turns an `or` into an `and`.
-/

namespace Persistence

variable {m : Mapping} {front links : List Link}

/-! ## Fragments of edits -/

/-- The fragments that edits add to a chain with the connector `k` at its end. -/
def following (m : Mapping) (k : Connector) : List Edit → List (Connector × String)
  | [] => []
  | .connect c :: edits => following m c edits
  | .append link :: edits => fragments m k [link] ++ following m .and edits

/-- The connector at the end of a chain. -/
def lastConnector (links : List Link) : Connector :=
  match links.getLast? with
  | some (.connector c) => c
  | _ => .and

section Edits

variable {edits : List Edit}

/-- Edits of a chain with items leave its fragments as they are. -/
theorem fragments_run (hne : front ≠ []) (k : Connector) :
    fragments m .and (Edit.run edits (front ++ [.connector k])) =
      fragments m .and front ++ following m k edits := by
  -- every edit leaves a chain with items in front of one connector
  induction edits generalizing front k with
  | nil => simp [following, fragments_append_connector, fragments]
  | cons e edits ih =>
      cases e with
      | connect c => rw [Edit.run_cons, Edit.apply_connect_concat hne, ih hne, following]
      | append link =>
          have happend : (Edit.append link).apply (front ++ [.connector k]) =
              (front ++ [.connector k, link]) ++ [.connector .and] := by simp [Edit.apply]
          rw [Edit.run_cons, happend, ih (by simp), fragments_append_connector, following,
            List.append_assoc]

/-- The connector in front of the first contribution does not count. -/
theorem join_following (k k' : Connector) :
    joinFragments (following m k edits) = joinFragments (following m k' edits) := by
  cases edits with
  | nil => rfl
  | cons e edits =>
      cases e with
      | connect c => rfl
      | append link =>
          simp only [following, fragments_singleton]
          cases link.contribution? m with
          | none => rfl
          | some text =>
              exact (joinFragments_cons k text _).trans (joinFragments_cons k' text _).symm

theorem join_run_nil (k : Connector) :
    joinFragments (fragments m .and (Edit.run edits [])) = joinFragments (following m k edits) := by
  induction edits generalizing k with
  | nil => simp [fragments, following]
  | cons e edits ih =>
      cases e with
      | connect c => exact ih c
      | append link =>
          have happend : (Edit.append link).apply [] = [link] ++ [.connector .and] := rfl
          have hfirst : joinFragments (following m .and (.append link :: edits)) =
              joinFragments (following m k (.append link :: edits)) := join_following .and k
          rw [Edit.run_cons, happend, fragments_run (by simp)]
          exact hfirst

/-- The text of a chain behind edits is what the chain and the edits contribute. -/
theorem Alternates.join_run (h : Alternates links) (edits : List Edit) :
    joinFragments (fragments m .and (Edit.run edits links)) =
      joinFragments (fragments m .and links ++ following m (lastConnector links) edits) := by
  by_cases hempty : links = []
  · subst hempty
    simpa [fragments] using join_run_nil (lastConnector [])
  · obtain ⟨front, k, hne, rfl, -⟩ := h.exists_concat hempty
    have hlast : lastConnector (front ++ [.connector k]) = k := by simp [lastConnector]
    rw [fragments_run hne, hlast, fragments_append_connector]
    simp [fragments]

/-- Another connector in front of what edits add makes another text, exactly if there are fragments
on both sides of it. -/
theorem join_append_following_iff {before : List (Connector × String)} :
    joinFragments (before ++ following m .or edits) =
        joinFragments (before ++ following m .and edits) ↔
      before = [] ∨ ∀ link rest, edits = .append link :: rest → link.contribution? m = none := by
  cases before with
  | nil => simpa using join_following .or .and
  | cons fragment before =>
      obtain ⟨c, first⟩ := fragment
      cases edits with
      | nil => simp [following]
      | cons e edits =>
          cases e with
          | connect c => simp [following]
          | append link =>
              simp only [following, fragments_singleton]
              cases hlink : link.contribution? m with
              | none => simp [hlink]
              | some text =>
                  refine iff_of_false (fun heq => ?_) (by simp [hlink])
                  -- the two texts differ by the length of one connector
                  have hlength := congrArg String.length heq
                  simp [joinFragments_cons, behindConnectors, String.length_append,
                    Connector.text] at hlength
                  exact absurd hlength (by decide)

end Edits

namespace BuilderCall

/-! ## Absent groups -/

/-- The calls that append a group without text: an empty query, or an object without a field that is
not null. -/
inductive Absent : BuilderCall → Prop
  | nested {sub : Query} : sub.isEmpty = true → Absent (.nested sub)
  | everyEq {object : Json} : Query.objectFields object = .ok [] → Absent (.everyEq object)
  | someEq {object : Json} : Query.objectFields object = .ok [] → Absent (.someEq object)

/-- An absent call appends a group without fragments. -/
theorem Absent.edits {call : BuilderCall} (h : call.Absent) :
    ∃ sub, call.edits = .ok [.append (.group sub)] ∧ ∀ m k, fragments m k [.group sub] = [] := by
  have hnone : ∀ {sub : List Link}, conditions sub = [] → ∀ m k, fragments m k [.group sub] = [] :=
    fun hsub m k => fragments_eq_nil_iff.2 (by simp [conditions, hsub])
  cases h with
  | nested hsub =>
      rw [Query.isEmpty, String.isEmpty_iff, Query.whereText_eq_empty_iff] at hsub
      exact ⟨_, rfl, hnone hsub⟩
  | everyEq hobject | someEq hobject =>
      refine ⟨[], ?_, hnone (by simp [conditions])⟩
      rw [BuilderCall.edits, hobject]
      rfl

/-- The text behind calls, as the edits make it. -/
theorem map_whereText_applyAll (calls : List BuilderCall) (q : Query) (m : Mapping) :
    (Query.whereText · m) <$> applyAll calls q =
      (fun edits => joinFragments (fragments m .and (Edit.run edits q.links))) <$>
        allEdits calls := by
  have hlinks := congrArg (Functor.map fun links => joinFragments (fragments m .and links))
    (map_links_applyAll calls q)
  simpa only [Functor.map_map, Query.whereText] using hlinks

/-- Calls whose first edit appends a condition, or a group with one. -/
def AsksFirst (calls : List BuilderCall) : Prop :=
  ∃ link edits, allEdits calls = .ok (.append link :: edits) ∧ conditions [link] ≠ []

end BuilderCall

theorem Link.contribution?_eq_none_iff {link : Link} :
    link.contribution? m = none ↔ conditions [link] = [] := by
  rw [← fragments_eq_nil_iff (m := m) (c := .and), fragments_singleton]
  cases link.contribution? m <;> simp

/-- The text of a chain behind edits is the same with and without a group that contributes nothing
in front of them, unless it parts an `or` from an item that contributes. -/
theorem Alternates.join_run_group_iff {sub : List Link} (h : Alternates links)
    (hsub : ∀ k, fragments m k [.group sub] = []) (edits : List Edit) :
    joinFragments (fragments m .and (Edit.run (.append (.group sub) :: edits) links)) =
        joinFragments (fragments m .and (Edit.run edits links)) ↔
      ¬((conditions links ≠ [] ∧ lastConnector links = .or) ∧
        ∃ link rest, edits = .append link :: rest ∧ conditions [link] ≠ []) := by
  rw [h.join_run, h.join_run, following, hsub, List.nil_append]
  cases lastConnector links with
  | and => simp
  | or =>
      rw [eq_comm, join_append_following_iff, fragments_eq_nil_iff]
      simp only [Link.contribution?_eq_none_iff]
      grind

namespace Query

/-- A query that asks for something and ends with an `or`. -/
def AwaitsOr (q : Query) : Prop := conditions q.links ≠ [] ∧ lastConnector q.links = .or

/-- At any place among the calls that build a query, a call that appends a group without text leaves
the text that comes out as it is, unless it parts an `or` from a call that asks for something.  A
condition that is left open never makes a difference. -/
theorem Made.absent_iff {q : Query} (hq : q.Made) {call : BuilderCall} (hcall : call.Absent)
    (calls : List BuilderCall) (m : Mapping) :
    ((whereText · m) <$> BuilderCall.applyAll (call :: calls) q =
        (whereText · m) <$> BuilderCall.applyAll calls q ↔
      ¬(q.AwaitsOr ∧ BuilderCall.AsksFirst calls)) ∧
    ∀ other : BuilderCall, other.isOpen = true →
      BuilderCall.applyAll (other :: calls) q = BuilderCall.applyAll calls q := by
  constructor
  · obtain ⟨sub, hedits, hsub⟩ := hcall.edits
    have hall : BuilderCall.allEdits (call :: calls) =
        (.append (.group sub) :: ·) <$> BuilderCall.allEdits calls := by
      rw [BuilderCall.allEdits, hedits]
      rfl
    rw [BuilderCall.map_whereText_applyAll, BuilderCall.map_whereText_applyAll, hall,
      Functor.map_map]
    cases hcalls : BuilderCall.allEdits calls with
    | error e => simp [BuilderCall.AsksFirst, hcalls]
    | ok edits =>
        have hjoin := hq.alternates.join_run_group_iff (hsub m) edits
        simpa [BuilderCall.AsksFirst, hcalls, AwaitsOr] using hjoin
  · intro other hopen
    rw [BuilderCall.applyAll, other.apply_of_isOpen hopen]
    rfl

/-- A condition with an `or` behind it. -/
def firstOr : Query := (empty.eq "a" (.int 1)).or

/-- A condition that asks for the second of two values. -/
def eqSecond : BuilderCall := .compare .eq "b" (.int 2)

theorem made_firstOr : firstOr.Made :=
  have hcalls : BuilderCall.applyAll [.compare .eq "a" (.int 1), .connect .or] empty =
      .ok firstOr := rfl
  Made.empty.applyAll (by simp [BuilderCall.sub?]) hcalls

theorem absent_empty : BuilderCall.Absent (.nested empty) :=
  .nested (by simp [isEmpty, whereText, empty, fragments, joinFragments])

theorem whereText_firstOr_eqSecond :
    (whereText · Mapping.empty) <$> BuilderCall.applyAll [eqSecond] firstOr =
      .ok "a = 1 or b = 2" := by
  have happly : BuilderCall.applyAll [eqSecond] firstOr = .ok { empty with
      links := [.condition (.compare .eq "a" (.int 1)), .connector .or,
        .condition (.compare .eq "b" (.int 2)), .connector .and] } := rfl
  rw [happly]
  simp only [Functor.map, Except.map, whereText, fragments]
  rfl

/-- Behind an `or`, an empty group in front of another `or` makes no difference. -/
theorem absent_keeps_or :
    firstOr.Made ∧ BuilderCall.Absent (.nested empty) ∧
      (whereText · Mapping.empty) <$>
        BuilderCall.applyAll [.nested empty, .connect .or, eqSecond] firstOr =
          .ok "a = 1 or b = 2" := by
  have hiff := (made_firstOr.absent_iff absent_empty [.connect .or, eqSecond] Mapping.empty).1
  have hasks : ¬BuilderCall.AsksFirst [.connect .or, eqSecond] := by
    rintro ⟨link, edits, hedits, -⟩
    cases hedits
  exact ⟨made_firstOr, absent_empty,
    (hiff.2 fun h => hasks h.2).trans whereText_firstOr_eqSecond⟩

/-- An empty group that turns an `or` into an `and`. -/
theorem absent_drops_or :
    firstOr.Made ∧ BuilderCall.Absent (.nested empty) ∧
      (whereText · Mapping.empty) <$> BuilderCall.applyAll [eqSecond] firstOr =
        .ok "a = 1 or b = 2" ∧
      (whereText · Mapping.empty) <$> BuilderCall.applyAll [.nested empty, eqSecond] firstOr =
        .ok "a = 1 and b = 2" := by
  refine ⟨made_firstOr, absent_empty, whereText_firstOr_eqSecond, ?_⟩
  have happly : BuilderCall.applyAll [.nested empty, eqSecond] firstOr = .ok { empty with
      links := [.condition (.compare .eq "a" (.int 1)), .connector .or, .group [],
        .connector .and, .condition (.compare .eq "b" (.int 2)), .connector .and] } := rfl
  rw [happly]
  simp only [Functor.map, Except.map, whereText, fragments]
  rfl

end Query

end Persistence
