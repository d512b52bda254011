import Mathlib.Data.List.AList
import Mathlib.Data.List.Induction

/-! Hash maps and hash sets: finite maps that list their entries in an arbitrary order. -/

/-- A map from keys to values. -/
abbrev HashMap (κ ν : Type) := AList fun _ : κ => ν

/-- A set of keys. -/
abbrev HashSet (κ : Type) := HashMap κ Unit

namespace HashMap

variable {κ ν : Type}

def values (map : HashMap κ ν) : List ν := map.entries.map Sigma.snd

/-- `map.entry(key).or_default().push(value)`. -/
def push [DecidableEq κ] (map : HashMap κ (List ν)) (key : κ) (value : ν) : HashMap κ (List ν) :=
  map.insert key (((map.lookup key).getD []) ++ [value])

/-- `map.retain(keep)`. -/
def retain (keep : κ → ν → Bool) (map : HashMap κ ν) : HashMap κ ν :=
  ⟨map.entries.filter fun entry => keep entry.1 entry.2,
    map.nodupKeys.sublist List.filter_sublist⟩

/-- `map.extend(entries)`. -/
def extend [DecidableEq κ] (map : HashMap κ ν) (entries : List (κ × ν)) : HashMap κ ν :=
  entries.foldl (fun map entry => map.insert entry.1 entry.2) map

/-- The last value that a list of entries has for a key. -/
def lastOf [DecidableEq κ] (entries : List (κ × ν)) (key : κ) : Option ν :=
  (entries.reverse.find? fun entry => entry.1 = key).map Prod.snd

variable [DecidableEq κ] {map : HashMap κ ν} {key other : κ} {value : ν}

theorem lookup_insert_ite (map : HashMap κ ν) (key : κ) (value : ν) (other : κ) :
    (map.insert key value).lookup other = if other = key then some value else map.lookup other := by
  split
  next same => rw [same, AList.lookup_insert]
  next different => exact AList.lookup_insert_ne different

theorem lookup_erase_ite (map : HashMap κ ν) (key other : κ) :
    (map.erase key).lookup other = if other = key then none else map.lookup other := by
  split
  next same => rw [same, AList.lookup_erase]
  next different => exact AList.lookup_erase_ne different

/-- The last entry of a key counts, or else what was there. -/
theorem lookup_extend (map : HashMap κ ν) (entries : List (κ × ν)) (key : κ) :
    (map.extend entries).lookup key = (lastOf entries key).or (map.lookup key) := by
  induction entries using List.reverseRecOn with
  | nil => rfl
  | append_singleton entries entry ih =>
      rw [extend, List.foldl_append, List.foldl_cons, List.foldl_nil, lookup_insert_ite, lastOf,
        List.reverse_append, List.reverse_singleton, List.singleton_append, List.find?_cons]
      by_cases same : key = entry.1
      · rw [if_pos same, decide_eq_true same.symm]
        rfl
      · rw [if_neg same, decide_eq_false (Ne.symm same)]
        exact ih

/-- A push appends to the list of its key alone. -/
theorem mem_push {map : HashMap κ (List ν)} {key other : κ} {value value' : ν} :
    value' ∈ ((map.push key value).lookup other).getD [] ↔
      value' ∈ (map.lookup other).getD [] ∨ (other = key ∧ value' = value) := by
  rw [push, lookup_insert_ite]
  split
  next same =>
    subst same
    simp
  next different => simp [different]

theorem mem_entries {map : HashMap κ ν} {entry : Sigma fun _ : κ => ν} :
    entry ∈ map.entries ↔ map.lookup entry.1 = some entry.2 := by
  rw [← Option.mem_def, AList.mem_lookup_iff]

theorem lookup_of_singleton {entry : Sigma fun _ : κ => ν} (only : map.entries = [entry]) :
    map.lookup key = some value ↔ key = entry.1 ∧ value = entry.2 := by
  have listed := @mem_entries κ ν _ map ⟨key, value⟩
  rw [only, List.mem_singleton] at listed
  rw [← listed, Sigma.ext_iff, heq_eq_eq]

/-- What is retained is what was there and is to be kept. -/
theorem lookup_retain {keep : κ → ν → Bool} :
    (map.retain keep).lookup key = some value ↔
      map.lookup key = some value ∧ keep key value = true := by
  have listed (map : HashMap κ ν) : map.lookup key = some value ↔
      (⟨key, value⟩ : Sigma fun _ : κ => ν) ∈ map.entries := by
    rw [mem_entries]
  rw [listed, listed]
  exact List.mem_filter

theorem mem_values {map : HashMap κ ν} {key : κ} {value : ν} (found : map.lookup key = some value) :
    value ∈ map.values :=
  List.mem_map_of_mem (f := Sigma.snd) (AList.mem_lookup_iff.mp found)

end HashMap
