/-!
# Entries kept by key

Association lists over text keys, in two disciplines.  `Keyed.put` keeps entries in the order in
which their keys first arrived, `Keyed.putSorted` keeps them in ascending order of the keys.  Both
replace the value of a key that is already there, and both are read with `List.lookup`.

Main results:

- `Keyed.lookup_put`: a written key reads back its value, every other key is untouched.
- `Keyed.lookup_putSorted`: the same of sorted entries.
-/

namespace Persistence.Keyed

variable {α : Type}

/-- The keys of some entries, in order. -/
def keys (entries : List (String × α)) : List String := entries.map Prod.fst

/-- The values of some entries, in order. -/
def values (entries : List (String × α)) : List α := entries.map Prod.snd

/-- Write the value of a key: in the place of the key if it is there, else at the end. -/
def put (key : String) (value : α) : List (String × α) → List (String × α)
  | [] => [(key, value)]
  | (k, v) :: entries =>
      if k = key then (key, value) :: entries else (k, v) :: put key value entries

/-- Write the value of a key into entries that ascend by key. -/
def putSorted (key : String) (value : α) : List (String × α) → List (String × α)
  | [] => [(key, value)]
  | (k, v) :: entries =>
      if k = key then (key, value) :: entries
      else if key < k then (key, value) :: (k, v) :: entries
      else (k, v) :: putSorted key value entries

/-- Change the value of a key, or start it from `initial`, in the order of first arrival. -/
def alter (key : String) (initial : α) (change : α → α) (entries : List (String × α)) :
    List (String × α) :=
  put key (change ((entries.lookup key).getD initial)) entries

/-- Reading from a nonempty list asks the first entry first. -/
theorem lookup_cons (other k : String) (v : α) (entries : List (String × α)) :
    ((k, v) :: entries).lookup other = if other = k then some v else entries.lookup other := by
  rw [List.lookup_cons]
  by_cases h : other = k
  · simp [h]
  · have hb : (other == k) = false := by simpa using h
    simp [hb, h]

/-- A written key reads back its value, and every other key reads as before. -/
theorem lookup_put (key other : String) (value : α) (entries : List (String × α)) :
    (put key value entries).lookup other =
      if other = key then some value else entries.lookup other := by
  induction entries with
  | nil => simp [put, lookup_cons]
  | cons entry entries ih =>
      obtain ⟨k, v⟩ := entry
      by_cases hk : k = key
      · subst hk
        by_cases h : other = k <;> simp [put, lookup_cons, h]
      · by_cases h : other = key
        · subst h
          simp [put, hk, lookup_cons, ih, Ne.symm hk]
        · simp [put, hk, lookup_cons, ih, h]

/-- A written key reads back its value, and every other key reads as before. -/
theorem lookup_putSorted (key other : String) (value : α) (entries : List (String × α)) :
    (putSorted key value entries).lookup other =
      if other = key then some value else entries.lookup other := by
  induction entries with
  | nil => simp [putSorted, lookup_cons]
  | cons entry entries ih =>
      obtain ⟨k, v⟩ := entry
      by_cases hk : k = key
      · subst hk
        by_cases h : other = k <;> simp [putSorted, lookup_cons, h]
      · by_cases hlt : key < k
        · by_cases h : other = key <;> simp [putSorted, hk, hlt, lookup_cons, h]
        · by_cases h : other = key
          · subst h
            simp [putSorted, hk, hlt, lookup_cons, ih, Ne.symm hk]
          · simp [putSorted, hk, hlt, lookup_cons, ih, h]

end Persistence.Keyed
