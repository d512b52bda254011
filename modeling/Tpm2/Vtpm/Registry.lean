import Tpm2.Algorithm.NameIndex
import Tpm2.Vtpm.Cache

/-! What the cache is about: the keys that are live under their handles, and the index of their
names. Every operation on the cache takes this registry along steps that store one key or drop some
keys. -/

namespace Tpm2

open ByteCodec

/-- The keys of a cache and the index of their names. -/
@[ext] structure Registry where
  key : UInt32 → Option VtpmKey
  index : NameIndex UInt32 Tpm2bName

namespace Registry

/-- The key takes the place of the one that `v` had, and `v` publishes its name. -/
noncomputable def store (registry : Registry) (v : UInt32) (key : VtpmKey) (name : Tpm2bName) :
    Registry where
  key := Function.update registry.key v (some key)
  index := registry.index.publish v name

open Classical in
/-- The keys in `S` go, and take their names back. -/
noncomputable def drop (registry : Registry) (S : Set UInt32) : Registry where
  key v := if v ∈ S then none else registry.key v
  index := registry.index.retire S

variable {registry : Registry} {v w : UInt32} {key key' : VtpmKey} {name : Tpm2bName}
  {S T : Set UInt32}

theorem key_drop_eq_some :
    (registry.drop S).key v = some key ↔ v ∉ S ∧ registry.key v = some key := by
  by_cases mem : v ∈ S <;> simp [drop, mem]

@[simp] theorem drop_empty : registry.drop ∅ = registry := by
  simp [drop]

theorem drop_drop : (registry.drop S).drop T = registry.drop (S ∪ T) := by
  apply Registry.ext
  · funext v
    refine Option.ext fun key => ?_
    simp only [key_drop_eq_some, Set.mem_union]
    tauto
  · exact NameIndex.retire_retire

theorem key_store_eq_some : (registry.store v key name).key w = some key' ↔
    (w = v ∧ key' = key) ∨ (w ≠ v ∧ registry.key w = some key') := by
  by_cases same : w = v
  · subst same
    simp [store, eq_comm]
  · simp [store, same]

/-- What one step does: a key is stored under its own handle, transient or persistent, and
publishes its name; or some keys are dropped. -/
inductive Step (crypto : Libcrypto) (registry : Registry) : Registry → Prop
  | store {v : UInt32} {key : VtpmKey} {name : Tpm2bName} (handle : key.handle.value = v)
      (range : IsTransient v ∨ IsPersistent v) (named : tpmMakeName crypto key.public = .ok name) :
      Step crypto registry (registry.store v key name)
  | drop (S : Set UInt32) : Step crypto registry (registry.drop S)

/-- Any number of steps. -/
abbrev Steps (crypto : Libcrypto) : Registry → Registry → Prop :=
  Relation.ReflTransGen (Step crypto)

/-- The registry before the first key: only the supplied handles resolve. -/
def initial (supplied : HashMap Tpm2bName TpmHandle) : Registry where
  key _ := none
  index := ⟨fun n => (supplied.lookup n).map TpmInt.value, fun _ => none⟩

/-- The index agrees with the keys, and the keys with their handles. -/
structure Consistent (crypto : Libcrypto) (supplied : HashMap Tpm2bName TpmHandle)
    (registry : Registry) : Prop where
  named : ∀ v, (registry.index.name v).isSome ↔ (registry.key v).isSome
  name_eq : ∀ v key name, registry.key v = some key → registry.index.name v = some name →
    tpmMakeName crypto key.public = .ok name
  backed : registry.index.Backed fun n v => (supplied.lookup n).map TpmInt.value = some v
  handle : ∀ v key, registry.key v = some key →
    key.handle.value = v ∧ (IsTransient v ∨ IsPersistent v)

namespace Consistent

variable {crypto : Libcrypto} {supplied : HashMap Tpm2bName TpmHandle}

theorem initial : Consistent crypto supplied (Registry.initial supplied) where
  named v := by simp [Registry.initial]
  name_eq v key name live := by simp [Registry.initial] at live
  backed _ _ := .inl
  handle v key live := by simp [Registry.initial] at live

/-- The name that a live key has published is its own. -/
theorem name_iff (consistent : Consistent crypto supplied registry) :
    registry.index.name v = some name ↔
      ∃ key, registry.key v = some key ∧ tpmMakeName crypto key.public = .ok name := by
  constructor
  · intro named
    obtain ⟨key, live⟩ := Option.isSome_iff_exists.mp ((consistent.named v).mp (by simp [named]))
    exact ⟨key, live, consistent.name_eq v key name live named⟩
  · rintro ⟨key, live, computed⟩
    obtain ⟨name', named⟩ := Option.isSome_iff_exists.mp ((consistent.named v).mpr (by simp [live]))
    have computed' := consistent.name_eq v key name' live named
    rw [computed] at computed'
    rw [named, Except.ok.inj computed']

theorem step (consistent : Consistent crypto supplied registry) {registry' : Registry}
    (step : Step crypto registry registry') : Consistent crypto supplied registry' := by
  cases step with
  | @store v key name handle range computed =>
      refine ⟨fun w => ?_, fun w key' name' live named => ?_, consistent.backed.publish v name,
        fun w key' live => ?_⟩
      · by_cases same : w = v
        · simp [Registry.store, NameIndex.publish, same]
        · simp [Registry.store, NameIndex.publish, same, consistent.named w]
      · rcases key_store_eq_some.mp live with ⟨rfl, rfl⟩ | ⟨other, live⟩
        · rcases NameIndex.name_publish_eq_some.mp named with ⟨-, rfl⟩ | ⟨other, -⟩
          · exact computed
          · exact (other rfl).elim
        · rcases NameIndex.name_publish_eq_some.mp named with ⟨same, -⟩ | ⟨-, named⟩
          · exact (other same).elim
          · exact consistent.name_eq w key' name' live named
      · rcases key_store_eq_some.mp live with ⟨rfl, rfl⟩ | ⟨-, live⟩
        · exact ⟨handle, range⟩
        · exact consistent.handle w key' live
  | drop S =>
      refine ⟨fun w => ?_, fun w key' name' live named => ?_, consistent.backed.retire S,
        fun w key' live => ?_⟩
      · by_cases mem : w ∈ S
        · simp [Registry.drop, NameIndex.retire, mem]
        · simp [Registry.drop, NameIndex.retire, mem, consistent.named w]
      · exact consistent.name_eq w key' name' (key_drop_eq_some.mp live).2
          (NameIndex.name_retire_eq_some.mp named).2
      · exact consistent.handle w key' (key_drop_eq_some.mp live).2

theorem steps (consistent : Consistent crypto supplied registry) {registry' : Registry}
    (steps : Steps crypto registry registry') : Consistent crypto supplied registry' := by
  induction steps with
  | refl => exact consistent
  | tail _ last ih => exact ih.step last

end Consistent
end Registry
end Tpm2
