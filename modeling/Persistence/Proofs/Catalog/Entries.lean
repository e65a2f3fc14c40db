import Mathlib
import Persistence.Keyed

/-!
# Entries by key

What a written entry does to the entries that are there, beside what it does to reading them.

Main results:

- `Keyed.put_of_lookup_eq_none`, `Keyed.put_of_lookup_eq_some`: the entries behind a new key, and
  behind one that had the value already.
- `Keyed.lookup_eq_some_iff_of_nodup`: entries with distinct keys are read back one by one.
- `Keyed.lookup_filterMap`: what is left of such entries is read back key by key.
- `Keyed.pairwise_keys_putSorted`: entries in ascending order stay so.
-/

namespace Persistence.Keyed

variable {α : Type} {key k : String} {value v : α} {entries : List (String × α)}

/-- The entries behind a new key. -/
theorem put_of_lookup_eq_none (value : α) (h : entries.lookup key = none) :
    put key value entries = entries ++ [(key, value)] := by
  induction entries with
  | nil => rfl
  | cons entry entries ih =>
      obtain ⟨k, v⟩ := entry
      rw [lookup_cons] at h
      split at h
      · simp at h
      · next hne => rw [put, if_neg (Ne.symm hne), ih h, List.cons_append]

/-- Nothing changes behind a key that has the value already. -/
theorem put_of_lookup_eq_some (h : entries.lookup key = some value) :
    put key value entries = entries := by
  induction entries with
  | nil => cases h
  | cons entry entries ih =>
      obtain ⟨k, v⟩ := entry
      rw [lookup_cons] at h
      split at h
      · next heq =>
          obtain rfl := Option.some.inj h
          rw [put, if_pos heq.symm, heq]
      · next hne => rw [put, if_neg (Ne.symm hne), ih h]

theorem mem_values_of_lookup (h : entries.lookup key = some value) :
    value ∈ values entries := by
  induction entries with
  | nil => cases h
  | cons entry entries ih =>
      obtain ⟨k, v⟩ := entry
      rw [lookup_cons] at h
      split at h
      · exact List.mem_cons.2 (.inl (Option.some.inj h).symm)
      · exact List.mem_cons_of_mem _ (ih h)

theorem mem_values_put (h : v ∈ values (put key value entries)) :
    v = value ∨ v ∈ values entries := by
  induction entries with
  | nil => exact .inl (List.mem_singleton.1 h)
  | cons entry entries ih =>
      rw [put] at h
      split at h
      · rcases List.mem_cons.1 h with h | h
        · exact .inl h
        · exact .inr (List.mem_cons_of_mem _ h)
      · rcases List.mem_cons.1 h with h | h
        · exact .inr (List.mem_cons.2 (.inl h))
        · exact (ih h).imp_right (List.mem_cons_of_mem _)

/-! ## Distinct keys -/

theorem lookup_of_notMem (h : key ∉ keys entries) : entries.lookup key = none := by
  rw [List.lookup_eq_none_iff]
  rintro ⟨k, v⟩ hmem
  simpa using fun heq : key = k => h (heq ▸ List.mem_map_of_mem hmem)

/-- Entries with distinct keys are read back one by one. -/
theorem lookup_eq_some_iff_of_nodup (h : (keys entries).Nodup) :
    entries.lookup key = some value ↔ (key, value) ∈ entries := by
  induction entries with
  | nil => simp
  | cons entry entries ih =>
      obtain ⟨k, v⟩ := entry
      obtain ⟨hfirst, hrest⟩ := List.nodup_cons.1 h
      rw [lookup_cons, List.mem_cons, Prod.mk.injEq]
      split
      · next heq =>
          have hother : (k, value) ∉ entries := fun hmem =>
            hfirst (List.mem_map.2 ⟨_, hmem, rfl⟩)
          simp [heq, hother, eq_comm]
      · next hne => simp [hne, ih hrest]

/-- What is left of entries with distinct keys is read back key by key. -/
theorem lookup_filterMap {β : Type} (h : (keys entries).Nodup) (f : α → Option β) (key : String) :
    (entries.filterMap fun entry => (f entry.2).map (entry.1, ·)).lookup key =
      (entries.lookup key).bind f := by
  induction entries with
  | nil => rfl
  | cons entry entries ih =>
      obtain ⟨k, a⟩ := entry
      obtain ⟨hfirst, hrest⟩ := List.nodup_cons.1 h
      rw [lookup_cons]
      cases hvalue : f a with
      | some b =>
          rw [List.filterMap_cons_some (b := (k, b)) (by simp [hvalue]), lookup_cons, ih hrest]
          split
          · rw [Option.bind_some, hvalue]
          · rfl
      | none =>
          rw [List.filterMap_cons_none (by simp [hvalue]), ih hrest]
          split
          · next heq =>
            rw [heq, lookup_of_notMem hfirst, Option.bind_some, hvalue, Option.bind_none]
          · rfl

/-! ## Ascending order -/

theorem mem_putSorted (h : (k, v) ∈ putSorted key value entries) :
    (k, v) = (key, value) ∨ (k, v) ∈ entries := by
  induction entries with
  | nil => exact .inl (List.mem_singleton.1 h)
  | cons entry entries ih =>
      rw [putSorted] at h
      split at h
      · rcases List.mem_cons.1 h with h | h
        · exact .inl h
        · exact .inr (List.mem_cons_of_mem _ h)
      · split at h
        · exact List.mem_cons.1 h
        · rcases List.mem_cons.1 h with h | h
          · exact .inr (List.mem_cons.2 (.inl h))
          · exact (ih h).imp_right (List.mem_cons_of_mem _)

/-- Entries in ascending order stay so when one is written. -/
theorem pairwise_keys_putSorted (h : (keys entries).Pairwise (· < ·)) :
    (keys (putSorted key value entries)).Pairwise (· < ·) := by
  induction entries with
  | nil => exact List.pairwise_singleton _ _
  | cons entry entries ih =>
      obtain ⟨k, v⟩ := entry
      obtain ⟨hfirst, hrest⟩ := List.pairwise_cons.1 h
      rw [putSorted]
      split
      · next heq => exact heq ▸ h
      · next hne =>
          split
          · next hlt =>
              refine List.pairwise_cons.2 ⟨fun other hother => ?_, h⟩
              rcases List.mem_cons.1 hother with rfl | hother
              · exact hlt
              · exact hlt.trans (hfirst other hother)
          · next hnot =>
              refine List.pairwise_cons.2 ⟨fun other hother => ?_, ih hrest⟩
              obtain ⟨⟨other, w⟩, hmem, rfl⟩ := List.mem_map.1 hother
              rcases mem_putSorted hmem with heq | hmem
              · rw [(Prod.mk.inj heq).1]
                exact lt_of_le_of_ne (not_lt.1 hnot) hne
              · exact hfirst other (List.mem_map_of_mem hmem)

/-- What is left of entries in ascending order is in that order. -/
theorem pairwise_keys_filterMap {β : Type} (h : (keys entries).Pairwise (· < ·))
    (f : α → Option β) :
    (keys (entries.filterMap fun entry => (f entry.2).map (entry.1, ·))).Pairwise (· < ·) := by
  induction entries with
  | nil => exact List.Pairwise.nil
  | cons entry entries ih =>
      obtain ⟨k, a⟩ := entry
      obtain ⟨hfirst, hrest⟩ := List.pairwise_cons.1 h
      cases hvalue : f a with
      | none =>
          rw [List.filterMap_cons_none (by simp [hvalue])]
          exact ih hrest
      | some b =>
          rw [List.filterMap_cons_some (b := (k, b)) (by simp [hvalue])]
          refine List.pairwise_cons.2 ⟨fun other hother => ?_, ih hrest⟩
          obtain ⟨⟨other, b'⟩, hmem, rfl⟩ := List.mem_map.1 hother
          obtain ⟨⟨key, a'⟩, hentry, hmade⟩ := List.mem_filterMap.1 hmem
          obtain ⟨b'', -, heq⟩ := Option.map_eq_some_iff.1 hmade
          obtain rfl := (Prod.mk.inj heq).1
          exact hfirst key (List.mem_map_of_mem hentry)

theorem nodup_of_pairwise (h : (keys entries).Pairwise (· < ·)) : (keys entries).Nodup :=
  h.imp ne_of_lt

/-- Entries in ascending order are read back one by one. -/
theorem lookup_eq_some_iff (h : (keys entries).Pairwise (· < ·)) :
    entries.lookup key = some value ↔ (key, value) ∈ entries :=
  lookup_eq_some_iff_of_nodup (nodup_of_pairwise h)

end Persistence.Keyed
