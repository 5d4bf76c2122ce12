/-
Module: Authorship.NameMap
Purpose: Finite maps from names, listed in the order of the names. Names are compared by their
  characters' numbers.
Main exports: NameMap, NameMap.get?, NameMap.names, NameMap.update, NameMap.ofPairs
-/

namespace Authorship

namespace NamedValues

variable {ν : Type}

/-- The value under a name. -/
def find? (name : String) : List (String × ν) → Option ν
  | [] => none
  | (first, value) :: rest => if first = name then some value else find? name rest

/-- Change the value under a name, at the name's place in the order. -/
def update (name : String) (change : Option ν → ν) : List (String × ν) → List (String × ν)
  | [] => [(name, change none)]
  | (first, value) :: rest =>
    if name < first then (name, change none) :: (first, value) :: rest
    else if name = first then (first, change (some value)) :: rest
    else (first, value) :: update name change rest

/-- The names come in order, each once. -/
def Sorted (pairs : List (String × ν)) : Prop :=
  pairs.Pairwise fun one two => one.1 < two.1

theorem lt_of_not_lt {one two : String} (notLess : ¬ one < two) (different : one ≠ two) :
    two < one := by
  rcases String.le_total one two with less | greater
  · exact (different (String.le_antisymm less (String.not_lt.mp notLess))).elim
  · exact Decidable.byContradiction fun notGreater =>
      different (String.le_antisymm (String.not_lt.mp notGreater) greater)

theorem mem_update {name : String} {change : Option ν → ν} {pair : String × ν}
    {pairs : List (String × ν)} (member : pair ∈ update name change pairs) :
    pair.1 = name ∧ (∃ before, pair.2 = change before) ∨ pair ∈ pairs := by
  induction pairs with
  | nil =>
    rw [update, List.mem_singleton] at member
    exact member ▸ .inl ⟨rfl, none, rfl⟩
  | cons head rest ih =>
    obtain ⟨first, value⟩ := head
    rw [update] at member
    split at member
    · rcases List.mem_cons.mp member with rfl | later
      · exact .inl ⟨rfl, none, rfl⟩
      · exact .inr later
    · split at member
      · next same =>
        rcases List.mem_cons.mp member with rfl | later
        · exact .inl ⟨same.symm, some value, rfl⟩
        · exact .inr (List.mem_cons_of_mem _ later)
      · rcases List.mem_cons.mp member with rfl | later
        · exact .inr List.mem_cons_self
        · exact (ih later).imp id (List.mem_cons_of_mem _)

theorem sorted_update {pairs : List (String × ν)} (sorted : Sorted pairs) (name : String)
    (change : Option ν → ν) : Sorted (update name change pairs) := by
  induction pairs with
  | nil => exact List.pairwise_singleton ..
  | cons head rest ih =>
    obtain ⟨first, value⟩ := head
    obtain ⟨below, sortedRest⟩ := List.pairwise_cons.mp sorted
    rw [update]
    split
    · next less =>
      refine List.pairwise_cons.mpr ⟨fun pair member => ?_, sorted⟩
      rcases List.mem_cons.mp member with rfl | later
      · exact less
      · exact String.lt_trans less (below pair later)
    · next notLess =>
      split
      · exact List.pairwise_cons.mpr ⟨below, sortedRest⟩
      · next different =>
        refine List.pairwise_cons.mpr ⟨fun pair member => ?_, ih sortedRest⟩
        rcases mem_update member with ⟨same, _⟩ | old
        · exact same ▸ lt_of_not_lt notLess different
        · exact below pair old

/-- A name above all others goes to the end. -/
theorem update_of_above {name : String} {pairs : List (String × ν)}
    (above : ∀ pair ∈ pairs, pair.1 < name) (change : Option ν → ν) :
    update name change pairs = pairs ++ [(name, change none)] := by
  induction pairs with
  | nil => rfl
  | cons head rest ih =>
    obtain ⟨first, value⟩ := head
    have less : first < name := above _ List.mem_cons_self
    have different : name ≠ first := fun same => String.lt_irrefl name (same ▸ less)
    rw [update, if_neg (String.lt_asymm less), if_neg different,
      ih fun pair member => above pair (List.mem_cons_of_mem _ member), List.cons_append]

/-- What a name above all others holds changes at the end. -/
theorem update_of_last {name : String} {pairs : List (String × ν)}
    (above : ∀ pair ∈ pairs, pair.1 < name) (value : ν) (change : Option ν → ν) :
    update name change (pairs ++ [(name, value)]) = pairs ++ [(name, change (some value))] := by
  induction pairs with
  | nil => rw [List.nil_append, update, if_neg (String.lt_irrefl name), if_pos rfl, List.nil_append]
  | cons head rest ih =>
    obtain ⟨first, value⟩ := head
    have less : first < name := above _ List.mem_cons_self
    have different : name ≠ first := fun same => String.lt_irrefl name (same ▸ less)
    rw [List.cons_append, update, if_neg (String.lt_asymm less), if_neg different,
      ih fun pair member => above pair (List.mem_cons_of_mem _ member), List.cons_append]

theorem find?_update (name wanted : String) (change : Option ν → ν) {pairs : List (String × ν)}
    (sorted : Sorted pairs) :
    find? wanted (update name change pairs)
      = if name = wanted then some (change (find? name pairs)) else find? wanted pairs := by
  induction pairs with
  | nil => simp [update, find?]
  | cons head rest ih =>
    obtain ⟨first, value⟩ := head
    obtain ⟨below, sortedRest⟩ := List.pairwise_cons.mp sorted
    rw [update]
    split
    · next less =>
      have absent : ∀ pairs : List (String × ν), (∀ pair ∈ pairs, name < pair.1) →
          find? name pairs = none := by
        intro pairs above
        induction pairs with
        | nil => rfl
        | cons head rest ih =>
          have different : head.1 ≠ name := fun same =>
            String.lt_irrefl name (same ▸ above head List.mem_cons_self)
          rw [find?, if_neg different, ih fun pair member =>
            above pair (List.mem_cons_of_mem _ member)]
      rw [absent ((first, value) :: rest) fun pair member => by
        rcases List.mem_cons.mp member with rfl | later
        · exact less
        · exact String.lt_trans less (below pair later)]
      rw [find?]
    · split
      · next same => subst same; by_cases hit : name = wanted <;> simp [find?, hit]
      · next different =>
        have other : first ≠ name := fun same => different same.symm
        rw [find?, find?, find?, if_neg other, ih sortedRest]
        by_cases hit : first = wanted
        · subst hit
          simp [different]
        · simp [hit]

end NamedValues

/-- A finite map from names. -/
structure NameMap (ν : Type) where
  entries : List (String × ν) := []
  sorted : NamedValues.Sorted entries := by exact List.Pairwise.nil

namespace NameMap

variable {ν : Type}

@[ext] theorem ext {one two : NameMap ν} (same : one.entries = two.entries) : one = two := by
  cases one; cases two; cases same; rfl

instance [DecidableEq ν] : DecidableEq (NameMap ν) := fun one two =>
  if same : one.entries = two.entries then isTrue (ext same)
  else isFalse fun equal => same (congrArg entries equal)

def empty : NameMap ν := {}

instance : Inhabited (NameMap ν) := ⟨empty⟩

/-- The names, in their order. -/
def names (map : NameMap ν) : List String := map.entries.map Prod.fst

/-- What a name holds. -/
def get? (map : NameMap ν) (name : String) : Option ν := NamedValues.find? name map.entries

/-- Change what a name holds. -/
def update (map : NameMap ν) (name : String) (change : Option ν → ν) : NameMap ν where
  entries := NamedValues.update name change map.entries
  sorted := NamedValues.sorted_update map.sorted name change

/-- The map of all pairs; of several pairs with one name the last one counts. -/
def ofPairs (pairs : List (String × ν)) : NameMap ν :=
  pairs.foldl (fun map pair => map.update pair.1 fun _ => pair.2) empty

theorem get?_update (map : NameMap ν) (name wanted : String) (change : Option ν → ν) :
    (map.update name change).get? wanted
      = if name = wanted then some (change (map.get? name)) else map.get? wanted :=
  NamedValues.find?_update name wanted change map.sorted

theorem entries_foldl_update {map : NameMap ν} {pairs : List (String × ν)}
    (sorted : NamedValues.Sorted (map.entries ++ pairs)) :
    (pairs.foldl (fun map pair => map.update pair.1 fun _ => pair.2) map).entries =
      map.entries ++ pairs := by
  induction pairs generalizing map with
  | nil => exact (List.append_nil _).symm
  | cons pair more ih =>
    have above : ∀ earlier ∈ map.entries, earlier.1 < pair.1 := fun earlier member =>
      (List.pairwise_append.mp sorted).2.2 earlier member pair List.mem_cons_self
    have grown : (map.update pair.1 fun _ => pair.2).entries = map.entries ++ [pair] :=
      NamedValues.update_of_above above fun _ => pair.2
    rw [List.append_cons, ← grown] at sorted ⊢
    exact ih sorted

/-- Pairs that are in order make the map that lists them. -/
theorem entries_ofPairs {pairs : List (String × ν)} (sorted : NamedValues.Sorted pairs) :
    (ofPairs pairs).entries = pairs :=
  entries_foldl_update (show NamedValues.Sorted ((empty : NameMap ν).entries ++ pairs) from sorted)

end NameMap

end Authorship
