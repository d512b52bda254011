import Tpm2.Vtpm.Registry

/-! The operations on the cache that do not remove keys refine steps of its registry. -/

namespace Tpm2

open ByteCodec

theorem handleType_toNat (v : UInt32) : (handleType v).toNat = v.toNat / 2 ^ 24 := by
  have bound := v.toNat_lt
  have shift : (24 : UInt32).toNat % 32 = 24 := rfl
  simp only [handleType, UInt32.toNat_toUInt8, UInt32.toNat_shiftRight, Nat.shiftRight_eq_div_pow,
    shift]
  omega

theorem isTransient_iff {v : UInt32} :
    IsTransient v ↔ 0x80000000 ≤ v.toNat ∧ v.toNat ≤ 0x80FFFFFF := by
  unfold IsTransient
  rw [← UInt8.toNat_inj, handleType_toNat]
  change v.toNat / 2 ^ 24 = 128 ↔ _
  omega

theorem isPersistent_iff {v : UInt32} :
    IsPersistent v ↔ 0x81000000 ≤ v.toNat ∧ v.toNat ≤ 0x81FFFFFF := by
  unfold IsPersistent
  rw [← UInt8.toNat_inj, handleType_toNat]
  change v.toNat / 2 ^ 24 = 129 ↔ _
  omega

namespace VtpmCache

/-- The registry that the maps of a cache represent. -/
def registry (cache : VtpmCache) : Registry where
  key v := cache.contexts.lookup v
  index := ⟨fun n => (cache.handles.lookup n).map TpmInt.value, fun v => cache.names.lookup v⟩

variable {cache : VtpmCache} {v : UInt32}

@[simp] theorem registry_withDir (cache : VtpmCache) (dir : Directory) :
    (cache.withDir dir).registry = cache.registry := rfl

@[simp] theorem registry_markDirty (cache : VtpmCache) (v : UInt32) :
    (cache.markDirty v).registry = cache.registry := rfl

theorem key_registry (cache : VtpmCache) (v : UInt32) :
    cache.registry.key v = cache.contexts.lookup v := rfl

theorem resolve_registry (cache : VtpmCache) (n : Tpm2bName) :
    cache.registry.index.resolve n = (cache.handles.lookup n).map TpmInt.value := rfl

theorem lookup_handles {n : Tpm2bName} {handle : TpmHandle} :
    cache.registry.index.resolve n = some handle.value ↔ cache.handles.lookup n = some handle := by
  rw [resolve_registry]
  constructor
  · intro resolves
    obtain ⟨handle', found, same⟩ := Option.map_eq_some_iff.mp resolves
    rw [found, ← TpmInt.new_value handle', same, TpmInt.new_value]
  · intro found
    rw [found]
    rfl

theorem name_registry (cache : VtpmCache) (v : UInt32) :
    cache.registry.index.name v = cache.names.lookup v := rfl

theorem names_unpublishName (cache : VtpmCache) (v w : UInt32) :
    (cache.unpublishName v).names.lookup w = if w = v then none else cache.names.lookup w := by
  unfold unpublishName
  split
  next none =>
    split
    next same => rw [same, none]
    next => rfl
  next name named =>
    dsimp only
    rw [← HashMap.lookup_erase_ite]
    split <;> rfl

theorem handles_unpublishName (cache : VtpmCache) (v : UInt32) (n : Tpm2bName) :
    (cache.unpublishName v).handles.lookup n =
      if (cache.handles.lookup n).map TpmInt.value = some v ∧
        cache.names.lookup v = some n then none
      else cache.handles.lookup n := by
  unfold unpublishName
  split
  next none => simp [none]
  next name named =>
    dsimp only
    by_cases same : n = name
    · subst same
      split
      next own => simp [own, named]
      next foreign => simp [foreign]
    · split
      · rw [HashMap.lookup_erase_ite]
        simp [named, same, Ne.symm same]
      · simp [named, Ne.symm same]

theorem index_unpublishName (cache : VtpmCache) (v : UInt32) :
    (cache.unpublishName v).registry.index = cache.registry.index.retire {v} := by
  apply NameIndex.ext
  · funext n
    simp only [registry, NameIndex.retire, handles_unpublishName, Set.mem_singleton_iff,
      exists_eq_left]
    split <;> rfl
  · funext w
    simp only [registry, NameIndex.retire, names_unpublishName, Set.mem_singleton_iff]

theorem registry_takeOut (cache : VtpmCache) (v : UInt32) :
    (cache.takeOut v).registry = cache.registry.drop {v} := by
  apply Registry.ext
  · funext w
    simp only [key_registry, contexts_takeOut, HashMap.lookup_erase_ite, Registry.drop,
      Set.mem_singleton_iff]
  · exact index_unpublishName { cache with contexts := cache.contexts.erase v } v

theorem registry_insertKey (cache : VtpmCache) (v : UInt32) (key : VtpmKey) (name : Tpm2bName) :
    (cache.insertKey v key name).registry = cache.registry.store v key name := by
  have index := index_unpublishName { cache with contexts := cache.contexts.insert v key } v
  apply Registry.ext
  · funext w
    simp only [insertKey, publishName, key_registry, contexts_unpublishName,
      HashMap.lookup_insert_ite, Registry.store, Function.update_apply]
  · apply NameIndex.ext
    · funext n
      have resolve := congrFun (congrArg NameIndex.resolve index) n
      simp only [resolve_registry] at resolve
      simp only [insertKey, publishName, resolve_registry, HashMap.lookup_insert_ite,
        Registry.store, NameIndex.publish]
      split
      · simp
      · exact resolve
    · funext w
      simp only [insertKey, publishName, name_registry, HashMap.lookup_insert_ite,
        names_unpublishName, Registry.store, NameIndex.publish]
      split <;> rfl

theorem contexts_insertKey (cache : VtpmCache) (v : UInt32) (key : VtpmKey) (name : Tpm2bName) :
    (cache.insertKey v key name).contexts = cache.contexts.insert v key := by
  simp [insertKey, publishName]

@[simp] theorem cacheDir_insertKey (cache : VtpmCache) (v : UInt32) (key : VtpmKey)
    (name : Tpm2bName) : (cache.insertKey v key name).cacheDir = cache.cacheDir := by
  simp [insertKey, publishName]

@[simp] theorem dirty_insertKey (cache : VtpmCache) (v : UInt32) (key : VtpmKey)
    (name : Tpm2bName) : (cache.insertKey v key name).dirty = cache.dirty := by
  simp [insertKey, publishName]

@[simp] theorem next_insertKey (cache : VtpmCache) (v : UInt32) (key : VtpmKey)
    (name : Tpm2bName) :
    (cache.insertKey v key name).nextVirtualHandle = cache.nextVirtualHandle := by
  simp [insertKey, publishName]

theorem registry_skipUsed (cache : VtpmCache) : cache.skipUsed.registry = cache.registry := by
  unfold skipUsed
  split
  · rfl
  · split <;> rfl

theorem dirty_skipUsed (cache : VtpmCache) : cache.skipUsed.dirty = cache.dirty := by
  unfold skipUsed
  split
  · rfl
  · split <;> rfl

theorem isTransient_nextAfter (used : IsTransient v ∨ IsPersistent v) :
    IsTransient (nextAfter v) := by
  rw [isTransient_iff, isPersistent_iff] at used
  unfold nextAfter
  dsimp only
  split
  · decide
  next inside =>
    rw [gt_iff_lt, UInt32.lt_iff_toNat_lt] at inside
    rw [isTransient_iff]
    rw [UInt32.toNat_add] at inside ⊢
    simp only [transientEnd, UInt32.reduceToNat] at inside ⊢
    omega

/-- Round `i` of the search tries the handle `i` places behind the cursor, around the range. -/
theorem toNat_candidate (next : IsTransient cache.nextVirtualHandle) {i : Nat}
    (round : i < transientCount) : (cache.candidate i).toNat =
      0x80000000 + (cache.nextVirtualHandle.toNat - 0x80000000 + i) % transientCount := by
  rw [isTransient_iff] at next
  simp only [transientCount] at round ⊢
  have small : (UInt32.ofNat i).toNat = i := UInt32.toNat_ofNat_of_lt' (by rw [UInt32.size]; omega)
  unfold candidate
  dsimp only
  split
  next outside =>
    rw [gt_iff_lt, UInt32.lt_iff_toNat_lt, UInt32.toNat_add, small] at outside
    rw [UInt32.toNat_add, UInt32.toNat_sub, UInt32.toNat_sub, UInt32.toNat_add, small]
    simp only [transientStart, transientEnd, UInt32.reduceToNat] at outside ⊢
    omega
  next inside =>
    rw [gt_iff_lt, UInt32.lt_iff_toNat_lt, UInt32.toNat_add, small] at inside
    rw [UInt32.toNat_add, small]
    simp only [transientEnd, UInt32.reduceToNat] at inside
    omega

theorem isTransient_candidate (next : IsTransient cache.nextVirtualHandle) {i : Nat}
    (round : i < transientCount) : IsTransient (cache.candidate i) := by
  have place := Nat.mod_lt (cache.nextVirtualHandle.toNat - 0x80000000 + i)
    (by decide : 0 < transientCount)
  rw [isTransient_iff, toNat_candidate next round]
  simp only [transientCount] at place ⊢
  omega

theorem vacantHandle_spec (next : IsTransient cache.nextVirtualHandle) {n : Nat}
    (rounds : n ≤ transientCount) (found : cache.vacantHandle n = some v) :
    IsTransient v ∧ cache.contexts.lookup v = none := by
  induction n with
  | zero => cases found
  | succ n ih =>
      rw [vacantHandle] at found
      split at found
      next vacant =>
        obtain rfl := Option.some.inj found
        exact ⟨isTransient_candidate next (by rw [transientCount] at *; omega),
          Option.isNone_iff_eq_none.mp vacant⟩
      next => exact ih (by omega) found

theorem keyName_eq_ok {crypto : Libcrypto} {pub : TpmtPublic} {name : Tpm2bName} :
    keyName crypto pub = .ok name ↔ tpmMakeName crypto pub = .ok name := mapError_eq_ok

/-- A transient key is stored under the first free handle, or nothing changes. -/
theorem after_saveTransient (crypto : Libcrypto) (context : TpmsContext)
    (pub parent : TpmtPublic) (policy : Option (List VtpmPolicyCommand)) (cache : VtpmCache) :
    Fallible.after ((saveTransient crypto context pub parent policy).run cache) = cache ∨
      ∃ v name, cache.vacantHandle transientCount = some v ∧ tpmMakeName crypto pub = .ok name ∧
        Fallible.after ((saveTransient crypto context pub parent policy).run cache) =
          { (cache.insertKey v ⟨.new version, .new v, pub, parent, context, policy.getD []⟩
              name).markDirty v with nextVirtualHandle := nextAfter v } := by
  rw [saveTransient, EStateM.run_bind, EStateM.run_get]
  dsimp only
  cases vacant : cache.vacantHandle transientCount with
  | none => exact .inl rfl
  | some v =>
      dsimp only
      rw [EStateM.run_bind]
      cases named : keyName crypto pub with
      | error e => exact .inl rfl
      | ok name => exact .inr ⟨v, name, rfl, keyName_eq_ok.mp named, rfl⟩

/-- A persistent key is stored under its handle, or nothing changes. -/
theorem after_savePersistent (crypto : Libcrypto) (handle : TpmHandle) (pub parent : TpmtPublic)
    (policy : Option (List VtpmPolicyCommand)) (cache : VtpmCache) :
    Fallible.after ((savePersistent crypto handle pub parent policy).run cache) = cache ∨
      ∃ name, IsPersistent handle.value ∧ tpmMakeName crypto pub = .ok name ∧
        Fallible.after ((savePersistent crypto handle pub parent policy).run cache) =
          (cache.insertKey handle.value ⟨.new version, handle, pub, parent, persistentContext,
            policy.getD []⟩ name).markDirty handle.value := by
  unfold savePersistent
  by_cases persistent : IsPersistent handle.value
  · rw [if_neg (not_not_intro persistent), EStateM.run_bind]
    cases named : keyName crypto pub with
    | error e => exact .inl rfl
    | ok name => exact .inr ⟨name, persistent, keyName_eq_ok.mp named, rfl⟩
  · rw [if_pos persistent]
    exact .inl rfl

/-- What saving files leaves as it is. -/
structure SameMaps (cache cache' : VtpmCache) : Prop where
  contexts : cache'.contexts = cache.contexts
  handles : cache'.handles = cache.handles
  names : cache'.names = cache.names
  next : cache'.nextVirtualHandle = cache.nextVirtualHandle

theorem SameMaps.refl (cache : VtpmCache) : SameMaps cache cache := ⟨rfl, rfl, rfl, rfl⟩

theorem SameMaps.trans {a b c : VtpmCache} (h : SameMaps a b) (h' : SameMaps b c) :
    SameMaps a c :=
  ⟨h'.contexts.trans h.contexts, h'.handles.trans h.handles, h'.names.trans h.names,
    h'.next.trans h.next⟩

theorem SameMaps.registry {cache cache' : VtpmCache} (h : SameMaps cache cache') :
    cache'.registry = cache.registry := by
  unfold VtpmCache.registry
  rw [h.contexts, h.handles, h.names]

theorem onDir_moves {α : Type} (x : Fallible VtpmError Directory α) :
    Fallible.Moves SameMaps (onDir x) := by
  intro cache
  rw [onDir_run]
  cases x.run cache.cacheDir <;> exact ⟨rfl, rfl, rfl, rfl⟩

theorem clearDirty_moves (v : UInt32) : Fallible.Moves (ε := VtpmError) SameMaps
    (modify fun cache => cache.clearDirty v) :=
  Fallible.moves_modify fun _ => ⟨rfl, rfl, rfl, rfl⟩

theorem saveContext_moves (v : UInt32) : Fallible.Moves SameMaps (saveContext v) := by
  refine .bind .trans (.get .refl) fun cache => ?_
  cases cache.contexts.lookup v with
  | none => exact clearDirty_moves v
  | some context => exact .bind .trans (onDir_moves _) fun _ => clearDirty_moves v

theorem saveAll_moves (handles : List UInt32) : Fallible.Moves SameMaps (saveAll handles) := by
  induction handles with
  | nil => exact .pure .refl ()
  | cons v handles ih => exact .bind .trans (saveContext_moves v) fun _ => ih

theorem flush_moves : Fallible.Moves SameMaps flush :=
  .bind .trans (.get .refl) fun _ => saveAll_moves _

end VtpmCache
end Tpm2
