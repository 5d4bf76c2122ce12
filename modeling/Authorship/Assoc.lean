/-
Module: Authorship.Assoc
Purpose: Finite maps as lists of pairs with distinct keys, in the order in which the keys first
  came. Writing to a key that is present keeps its place. Two views determine a map: `get?`, which
  says what a key holds, and `keys`, which says in which order the keys came.
Main exports: Assoc, Assoc.get?, Assoc.insert, Assoc.erase, Assoc.keys, Assoc.size
-/

namespace Authorship

/-! ## Lists of pairs -/

namespace Pairs

variable {κ ν : Type} [DecidableEq κ]

/-- The value at the first pair with the key. -/
def find? (key : κ) : List (κ × ν) → Option ν
  | [] => none
  | (other, value) :: rest => if other = key then some value else find? key rest

/-- Put a value at the first pair with the key, or at the end. -/
def put (key : κ) (value : ν) : List (κ × ν) → List (κ × ν)
  | [] => [(key, value)]
  | (other, old) :: rest =>
    if other = key then (key, value) :: rest else (other, old) :: put key value rest

/-- Drop the first pair with the key. -/
def drop (key : κ) : List (κ × ν) → List (κ × ν)
  | [] => []
  | (other, old) :: rest => if other = key then rest else (other, old) :: drop key rest

theorem find?_eq_none_iff {key : κ} {pairs : List (κ × ν)} :
    find? key pairs = none ↔ key ∉ pairs.map Prod.fst := by
  induction pairs with
  | nil => simp [find?]
  | cons pair rest ih =>
    by_cases same : pair.1 = key
    · simp [find?, same]
    · simp [find?, same, ih, Ne.symm same]

theorem find?_put (key wanted : κ) (value : ν) (pairs : List (κ × ν)) :
    find? wanted (put key value pairs)
      = if key = wanted then some value else find? wanted pairs := by
  induction pairs with
  | nil => simp [find?, put]
  | cons pair rest ih =>
    by_cases same : pair.1 = key
    · simp only [put, same, if_true, find?]
      split <;> rfl
    · simp only [put, same, if_false, find?, ih]
      by_cases here : pair.1 = wanted
      · have : key ≠ wanted := fun h => same (here.trans h.symm)
        simp [here, this]
      · simp [here]

theorem keys_put (key : κ) (value : ν) (pairs : List (κ × ν)) :
    (put key value pairs).map Prod.fst =
      if key ∈ pairs.map Prod.fst then pairs.map Prod.fst else pairs.map Prod.fst ++ [key] := by
  induction pairs with
  | nil => simp [put]
  | cons pair rest ih =>
    by_cases same : pair.1 = key
    · simp [put, same]
    · simp only [put, same, if_false, List.map_cons, ih, List.mem_cons, Ne.symm same, false_or]
      split <;> simp

/-- What is put later replaces what was put before. -/
theorem put_put (key : κ) (first second : ν) (pairs : List (κ × ν)) :
    put key second (put key first pairs) = put key second pairs := by
  induction pairs with
  | nil => simp [put]
  | cons pair rest ih =>
    by_cases same : pair.1 = key
    · simp [put, same]
    · simp [put, same, ih]

theorem keys_drop (key : κ) (pairs : List (κ × ν)) :
    (drop key pairs).map Prod.fst = (pairs.map Prod.fst).erase key := by
  induction pairs with
  | nil => simp [drop]
  | cons pair rest ih =>
    by_cases same : pair.1 = key
    · simp [drop, same]
    · simp [drop, same, ih]

theorem find?_drop_of_ne {key wanted : κ} (different : key ≠ wanted) (pairs : List (κ × ν)) :
    find? wanted (drop key pairs) = find? wanted pairs := by
  induction pairs with
  | nil => rfl
  | cons pair rest ih =>
    by_cases same : pair.1 = key
    · have : pair.1 ≠ wanted := fun h => different (same.symm.trans h)
      simp [drop, find?, same, different]
    · simp [drop, find?, same, ih]

end Pairs

/-! ## Maps -/

/-- A finite map that remembers the order in which its keys first came. -/
structure Assoc (κ ν : Type) where
  entries : List (κ × ν) := []
  nodup : (entries.map Prod.fst).Nodup := by exact List.nodup_nil

namespace Assoc

variable {κ ν : Type}

@[ext] theorem ext {one two : Assoc κ ν} (same : one.entries = two.entries) : one = two := by
  cases one; cases two; cases same; rfl

instance [DecidableEq κ] [DecidableEq ν] : DecidableEq (Assoc κ ν) := fun one two =>
  if same : one.entries = two.entries then isTrue (ext same)
  else isFalse fun equal => same (congrArg entries equal)

def empty : Assoc κ ν := {}

instance : Inhabited (Assoc κ ν) := ⟨empty⟩

/-- The keys, in the order in which they first came. -/
def keys (map : Assoc κ ν) : List κ := map.entries.map Prod.fst

def size (map : Assoc κ ν) : Nat := map.entries.length

theorem size_eq_length_keys (map : Assoc κ ν) : map.size = map.keys.length := by
  simp [size, keys]

@[simp] theorem keys_empty : (empty : Assoc κ ν).keys = [] := rfl

theorem nodup_keys (map : Assoc κ ν) : map.keys.Nodup := map.nodup

variable [DecidableEq κ]

def get? (map : Assoc κ ν) (key : κ) : Option ν := Pairs.find? key map.entries

def contains (map : Assoc κ ν) (key : κ) : Bool := (map.get? key).isSome

/-- Let a key hold a value. -/
def insert (map : Assoc κ ν) (key : κ) (value : ν) : Assoc κ ν where
  entries := Pairs.put key value map.entries
  nodup := by
    rw [Pairs.keys_put]
    split
    · exact map.nodup
    · next absent =>
      rw [List.nodup_append]
      exact ⟨map.nodup, List.pairwise_singleton .., by
        intro one present two here
        cases List.mem_singleton.mp here
        exact fun equal => absent (equal ▸ present)⟩

def erase (map : Assoc κ ν) (key : κ) : Assoc κ ν where
  entries := Pairs.drop key map.entries
  nodup := by
    rw [Pairs.keys_drop]
    exact map.nodup.erase key

/-- The map of all pairs; of several pairs with one key the last one counts. -/
def ofPairs (pairs : List (κ × ν)) : Assoc κ ν :=
  pairs.foldl (fun map pair => map.insert pair.1 pair.2) empty

@[simp] theorem get?_empty (key : κ) : (empty : Assoc κ ν).get? key = none := rfl

theorem get?_eq_none_iff {map : Assoc κ ν} {key : κ} : map.get? key = none ↔ key ∉ map.keys :=
  Pairs.find?_eq_none_iff

theorem mem_keys_iff {map : Assoc κ ν} {key : κ} :
    key ∈ map.keys ↔ ∃ value, map.get? key = some value := by
  cases found : map.get? key with
  | none => simpa using get?_eq_none_iff.mp found
  | some value =>
    refine iff_of_true (Decidable.byContradiction fun absent => ?_) ⟨value, rfl⟩
    rw [get?_eq_none_iff.mpr absent] at found
    cases found

theorem get?_insert (map : Assoc κ ν) (key wanted : κ) (value : ν) :
    (map.insert key value).get? wanted = if key = wanted then some value else map.get? wanted :=
  Pairs.find?_put key wanted value map.entries

@[simp] theorem get?_insert_self (map : Assoc κ ν) (key : κ) (value : ν) :
    (map.insert key value).get? key = some value := by
  simp [get?_insert]

theorem keys_insert (map : Assoc κ ν) (key : κ) (value : ν) :
    (map.insert key value).keys = if key ∈ map.keys then map.keys else map.keys ++ [key] :=
  Pairs.keys_put key value map.entries

theorem insert_insert (map : Assoc κ ν) (key : κ) (first second : ν) :
    (map.insert key first).insert key second = map.insert key second :=
  ext (Pairs.put_put key first second map.entries)

theorem keys_erase (map : Assoc κ ν) (key : κ) : (map.erase key).keys = map.keys.erase key :=
  Pairs.keys_drop key map.entries

theorem get?_erase (map : Assoc κ ν) (key wanted : κ) :
    (map.erase key).get? wanted = if key = wanted then none else map.get? wanted := by
  split
  · next same =>
    subst same
    refine Pairs.find?_eq_none_iff.mpr ?_
    have absent : key ∉ map.keys.erase key := map.nodup_keys.not_mem_erase
    rwa [← keys_erase] at absent
  · next different => exact Pairs.find?_drop_of_ne different map.entries

end Assoc

end Authorship
