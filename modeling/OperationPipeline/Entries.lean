set_option autoImplicit false

/-! # Entries by key

Two ways to keep values under text keys, both as plain lists of pairs:

* in the order of first insertion (`put`, `remove`), as the errors and exceptions of an outcome are
  kept, and
* sorted by key (`place`), as the fields of a JSON object are kept, where the order of keys is the
  order of their code points.

Each key occurs at most once in a list that is built from `[]` by one of the two. -/

namespace OperationPipeline

/-- Values of `α` under text keys. -/
abbrev Entries (α : Type) := List (String × α)

namespace Entries

variable {α β : Type}

/-- The value under `key`. -/
def at? (key : String) : Entries α → Option α
  | [] => none
  | (k, v) :: rest => if k = key then some v else at? key rest

/-- Whether there is a value under `key`. -/
def holds (key : String) (entries : Entries α) : Bool :=
  (entries.at? key).isSome

/-- The keys, in order. -/
def keys (entries : Entries α) : List String :=
  entries.map (·.1)

/-! ## Insertion order -/

/-- Stores `value` under `key`: in place if the key is present, else at the end. -/
def put (key : String) (value : α) : Entries α → Entries α
  | [] => [(key, value)]
  | (k, v) :: rest => if k = key then (k, value) :: rest else (k, v) :: put key value rest

/-- Removes the entry of `key`; the others keep their order. -/
def remove (key : String) : Entries α → Entries α
  | [] => []
  | (k, v) :: rest => if k = key then rest else (k, v) :: remove key rest

/-- Stores every entry of `added` in turn. -/
def putAll (entries added : Entries α) : Entries α :=
  added.foldl (fun acc (key, value) => acc.put key value) entries

/-! ## Key order -/

/-- Stores `value` under `key` in a list sorted by key: in place if the key is present, else before
    the first greater key. -/
def place (key : String) (value : α) : Entries α → Entries α
  | [] => [(key, value)]
  | (k, v) :: rest =>
    if k = key then (k, value) :: rest
    else if key < k then (key, value) :: (k, v) :: rest
    else (k, v) :: place key value rest

/-- Stores every entry of `added` in turn; a later value wins over an earlier one. -/
def placeAll (entries added : Entries α) : Entries α :=
  added.foldl (fun acc (key, value) => acc.place key value) entries

/-- The sorted list of the given pairs; of several values for one key the last one counts. -/
def sorted (pairs : List (String × α)) : Entries α :=
  placeAll [] pairs

/-! ## Comparison -/

/-- Whether two lists hold the same keys with equal values, in whatever order. -/
def agree (same : α → α → Bool) (a b : Entries α) : Bool :=
  a.length == b.length && a.all fun (key, value) =>
    match b.at? key with
    | some other => same value other
    | none => false

/-! ## What is under a key after an update -/

@[simp] theorem at?_nil (key : String) : at? key ([] : Entries α) = none := rfl

theorem at?_put (key other : String) (value : α) (entries : Entries α) :
    (entries.put key value).at? other = if key = other then some value else entries.at? other := by
  induction entries with
  | nil => rfl
  | cons entry rest ih =>
    obtain ⟨k, v⟩ := entry
    by_cases hk : k = key
    · subst hk
      by_cases ho : k = other <;> simp [put, at?, ho]
    · by_cases ho : key = other
      · subst ho
        simp [put, at?, hk, ih]
      · by_cases hko : k = other
        · subst hko
          simp [put, at?, hk, ho]
        · simp [put, at?, hk, hko, ho, ih]

theorem at?_place (key other : String) (value : α) (entries : Entries α) :
    (entries.place key value).at? other =
      if key = other then some value else entries.at? other := by
  induction entries with
  | nil => rfl
  | cons entry rest ih =>
    obtain ⟨k, v⟩ := entry
    by_cases hk : k = key
    · subst hk
      by_cases ho : k = other <;> simp [place, at?, ho]
    · by_cases hlt : key < k
      · by_cases ho : key = other
        · subst ho
          simp [place, at?, hk, hlt]
        · simp [place, at?, hk, hlt, ho]
      · by_cases ho : key = other
        · subst ho
          simp [place, at?, hk, hlt, ih]
        · by_cases hko : k = other
          · subst hko
            simp [place, at?, hk, hlt, ho]
          · simp [place, at?, hk, hlt, hko, ho, ih]

/-- The keys after `put`: a new key comes last. -/
theorem keys_put (key : String) (value : α) (entries : Entries α) :
    (entries.put key value).keys
      = if key ∈ entries.keys then entries.keys else entries.keys ++ [key] := by
  induction entries with
  | nil => rfl
  | cons entry rest ih =>
    obtain ⟨k, v⟩ := entry
    by_cases hk : k = key
    · subst hk
      simp [put, keys]
    · have hk' : ¬ key = k := fun h => hk h.symm
      simp only [keys] at ih
      by_cases hm : key ∈ List.map (·.1) rest <;> simp_all [put, keys]

/-! ## Key order is kept -/

/-- Whether the keys ascend from each entry to the next. -/
def Ascending (entries : Entries α) : Prop :=
  entries.keys.Pairwise (· < ·)

theorem mem_keys_place (key other : String) (value : α) (entries : Entries α) :
    other ∈ (entries.place key value).keys ↔ other = key ∨ other ∈ entries.keys := by
  induction entries with
  | nil => simp [place, keys]
  | cons entry rest ih =>
    obtain ⟨k, v⟩ := entry
    simp only [keys] at ih
    by_cases hk : k = key
    · subst hk
      simp [place, keys]
    · by_cases hlt : key < k
      · simp [place, keys, hk, hlt]
      · simp only [place, keys, if_neg hk, if_neg hlt, List.map_cons, List.mem_cons, ih]
        exact or_left_comm

/-- Of two different keys one is less than the other. -/
theorem key_lt_of_not_lt {a b : String} (hne : a ≠ b) (h : ¬ b < a) : a < b :=
  Decidable.byContradiction fun h' =>
    hne (String.le_antisymm (String.not_lt.1 h) (String.not_lt.1 h'))

theorem ascending_place (key : String) (value : α) {entries : Entries α}
    (h : entries.Ascending) : (entries.place key value).Ascending := by
  induction entries with
  | nil => simp [place, Ascending, keys]
  | cons entry rest ih =>
    obtain ⟨k, v⟩ := entry
    obtain ⟨hfirst, hrest⟩ := List.pairwise_cons.1 h
    by_cases hk : k = key
    · -- the entry is replaced in place
      subst hk
      simpa [place, Ascending, keys] using h
    · by_cases hlt : key < k
      · -- the new entry comes first, and everything after `k` is greater still
        rw [place, if_neg hk, if_pos hlt]
        refine List.pairwise_cons.2 ⟨fun other hother => ?_, h⟩
        rcases List.mem_cons.1 hother with rfl | hmem
        · exact hlt
        · exact String.lt_trans hlt (hfirst other hmem)
      · -- the new entry goes into the rest
        rw [place, if_neg hk, if_neg hlt]
        refine List.pairwise_cons.2 ⟨fun other hother => ?_, ih hrest⟩
        rcases (mem_keys_place key other value rest).1 hother with rfl | hmem
        · exact key_lt_of_not_lt hk hlt
        · exact hfirst other hmem

theorem ascending_placeAll {entries : Entries α} (added : Entries α) (h : entries.Ascending) :
    (entries.placeAll added).Ascending := by
  induction added generalizing entries with
  | nil => exact h
  | cons entry rest ih => exact ih (ascending_place entry.1 entry.2 h)

/-- A sorted list is in the order of its keys. -/
theorem ascending_sorted (pairs : List (String × α)) : (sorted pairs).Ascending :=
  ascending_placeAll pairs List.Pairwise.nil

end Entries

end OperationPipeline
