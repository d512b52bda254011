import Tpm2.Vtpm.Run

/-! How a transient handle is found: the search goes once around the transient range, from a cursor
that never leaves it. -/

namespace Tpm2

open ByteCodec

namespace VtpmCache

variable {crypto : Libcrypto} {supplied : HashMap Tpm2bName TpmHandle} {dir : Directory}
  {cache : VtpmCache} {v : UInt32}

theorem isTransient_iff_le : IsTransient v ↔ transientStart ≤ v ∧ v ≤ transientEnd := by
  rw [isTransient_iff, UInt32.le_iff_toNat_le, UInt32.le_iff_toNat_le]
  rfl

/-- Every handle of the range has its round. -/
theorem exists_candidate (next : IsTransient cache.nextVirtualHandle) (range : IsTransient v) :
    ∃ i < transientCount, cache.candidate i = v := by
  have nextRange := isTransient_iff.mp next
  rw [isTransient_iff] at range
  have round : (v.toNat + transientCount - cache.nextVirtualHandle.toNat) % transientCount <
      transientCount := Nat.mod_lt _ (by decide)
  refine ⟨_, round, ?_⟩
  rw [← UInt32.toNat_inj, toNat_candidate next round]
  simp only [transientCount]
  omega

/-- The search fails if and only if the handle of every round that is left is in use. -/
theorem vacantHandle_eq_none {n : Nat} (rounds : n ≤ transientCount) :
    cache.vacantHandle n = none ↔ ∀ i, transientCount - n ≤ i → i < transientCount →
      (cache.contexts.lookup (cache.candidate i)).isSome := by
  induction n with
  | zero =>
      rw [vacantHandle]
      refine iff_of_true rfl fun i low high => ?_
      omega
  | succ n ih =>
      rw [vacantHandle]
      have first : ∀ i, transientCount - (n + 1) ≤ i →
          i = transientCount - (n + 1) ∨ transientCount - n ≤ i := by
        intro i low
        omega
      split
      next free =>
        refine iff_of_false (Option.some_ne_none _) fun all => ?_
        have used := all _ (Nat.le_refl _) (by omega)
        rw [Option.isNone_iff_eq_none.mp free] at used
        cases used
      next taken =>
        rw [ih (by omega)]
        constructor
        · intro rest i low high
          rcases first i low with rfl | later
          · exact Option.isSome_iff_ne_none.mpr (by simpa using taken)
          · exact rest i later high
        · intro all i low high
          exact all i (by omega) high

/-- No handle is found if and only if the whole range is live. -/
theorem vacantHandle_eq_none_iff (next : IsTransient cache.nextVirtualHandle) :
    cache.vacantHandle transientCount = none ↔
      ∀ v, IsTransient v → (cache.contexts.lookup v).isSome := by
  rw [vacantHandle_eq_none (Nat.le_refl _)]
  constructor
  · intro all v range
    obtain ⟨i, round, rfl⟩ := exists_candidate next range
    exact all i (by omega) round
  · intro all i _ round
    exact all _ (isTransient_candidate next round)

/-- What is stored under the handle that was found. -/
def transientKey (v : UInt32) (context : TpmsContext) (pub parent : TpmtPublic)
    (policy : Option (List VtpmPolicyCommand)) : VtpmKey :=
  ⟨.new version, .new v, pub, parent, context, policy.getD []⟩

section
variable {context : TpmsContext} {pub parent : TpmtPublic}
  {policy : Option (List VtpmPolicyCommand)}

/-- The three ways in which saving ends. -/
theorem run_saveTransient (crypto : Libcrypto) (context : TpmsContext) (pub parent : TpmtPublic)
    (policy : Option (List VtpmPolicyCommand)) (cache : VtpmCache) :
    (saveTransient crypto context pub parent policy).run cache =
      match cache.vacantHandle transientCount, tpmMakeName crypto pub with
      | none, _ => .error .noHandles cache
      | some _, .error _ => .error .operationFailed cache
      | some v, .ok name => .ok (.new v)
          { (cache.insertKey v (transientKey v context pub parent policy) name).markDirty v with
            nextVirtualHandle := nextAfter v } := by
  rw [saveTransient, EStateM.run_bind, EStateM.run_get]
  dsimp only
  cases cache.vacantHandle transientCount with
  | none => rfl
  | some v =>
      dsimp only
      rw [EStateM.run_bind, keyName]
      cases tpmMakeName crypto pub <;> rfl

/-- Saving stores one key under a handle that was free, or fails and changes nothing. -/
theorem saveTransient_adds {handle : TpmHandle} {cache' : VtpmCache}
    (ok : (saveTransient crypto context pub parent policy).run cache = .ok handle cache') :
    cache.vacantHandle transientCount = some handle.value ∧
      cache'.contexts =
        cache.contexts.insert handle.value (transientKey handle.value context pub parent
          policy) := by
  rw [run_saveTransient] at ok
  split at ok
  · cases ok
  · cases ok
  next v name vacant named =>
    cases ok
    rw [TpmInt.value_new]
    exact ⟨vacant, contexts_insertKey cache v _ name⟩

theorem saveTransient_fails {e : VtpmError} {cache' : VtpmCache}
    (error : (saveTransient crypto context pub parent policy).run cache = .error e cache') :
    cache' = cache := by
  rw [run_saveTransient] at error
  split at error <;> cases error
  · rfl
  · rfl

theorem saveTransient_noHandles :
    (saveTransient crypto context pub parent policy).run cache = .error .noHandles cache ↔
      cache.vacantHandle transientCount = none := by
  rw [run_saveTransient]
  split
  next vacant => exact iff_of_true rfl vacant
  next vacant _ => exact iff_of_false nofun (by rw [vacant]; nofun)
  next vacant _ => exact iff_of_false nofun (by rw [vacant]; nofun)

end

/-- In every reachable cache, saving a transient key returns a handle of the transient range that
was free, and adds the key under it and nothing else, or it fails and changes nothing. It fails for
want of a handle if and only if all of the range is live, and it fails when the public area has no
name. The cursor is in the range, so the search does not overflow: round `i` tries the handle `i`
places behind the cursor, around the range, and live handles have a successor. -/
theorem saveTransient_allocates (run : Run crypto supplied dir AnyOp cache) (context : TpmsContext)
    (pub parent : TpmtPublic) (policy : Option (List VtpmPolicyCommand)) :
    (∀ handle cache', (saveTransient crypto context pub parent policy).run cache =
        .ok handle cache' →
      (transientStart ≤ handle.value ∧ handle.value ≤ transientEnd) ∧
      cache.contexts.lookup handle.value = none ∧
      cache'.contexts.lookup handle.value =
        some (transientKey handle.value context pub parent policy) ∧
      (∀ v, v ≠ handle.value → cache'.contexts.lookup v = cache.contexts.lookup v) ∧
      transientStart ≤ cache'.nextVirtualHandle ∧ cache'.nextVirtualHandle ≤ transientEnd) ∧
    (∀ e cache', (saveTransient crypto context pub parent policy).run cache = .error e cache' →
      cache' = cache) ∧
    ((saveTransient crypto context pub parent policy).run cache = .error .noHandles cache ↔
      ∀ v, transientStart ≤ v → v ≤ transientEnd → ∃ key, cache.contexts.lookup v = some key) ∧
    (∀ e, tpmMakeName crypto pub = .error e →
      ∃ e', (saveTransient crypto context pub parent policy).run cache = .error e' cache) ∧
    (transientStart ≤ cache.nextVirtualHandle ∧ cache.nextVirtualHandle ≤ transientEnd) ∧
    (∀ i < transientCount, cache.nextVirtualHandle.toNat + i < 2 ^ 32 ∧
      (cache.candidate i).toNat = transientStart.toNat +
        (cache.nextVirtualHandle.toNat - transientStart.toNat + i) % transientCount) ∧
    ∀ v key, cache.contexts.lookup v = some key → v.toNat + 1 < 2 ^ 32 := by
  have next := run.steps.2
  have range := isTransient_iff_le.mp next
  refine ⟨fun handle cache' ok => ?_, fun e cache' => saveTransient_fails, ?_, fun e unnamed => ?_,
    range, fun i round => ⟨?_, toNat_candidate next round⟩, fun v key live => ?_⟩
  · obtain ⟨vacant, contexts⟩ := saveTransient_adds ok
    obtain ⟨transient, free⟩ := vacantHandle_spec next (Nat.le_refl _) vacant
    have after := (Run.step (.saveTransient context pub parent policy) run trivial).steps.2
    rw [perform, ok, Fallible.after_ok] at after
    refine ⟨isTransient_iff_le.mp transient, free, ?_, fun v other => ?_,
      isTransient_iff_le.mp after⟩
    · rw [contexts, AList.lookup_insert]
    · rw [contexts, AList.lookup_insert_ne other]
  · rw [saveTransient_noHandles, vacantHandle_eq_none_iff next]
    simp only [isTransient_iff_le, and_imp, Option.isSome_iff_exists]
  · rw [run_saveTransient, unnamed]
    cases cache.vacantHandle transientCount with
    | none => exact ⟨_, rfl⟩
    | some v => exact ⟨_, rfl⟩
  · rw [isTransient_iff] at next
    rw [transientCount] at round
    omega
  · have used := (run.consistent.handle v key live).2
    rw [isTransient_iff, isPersistent_iff] at used
    omega

-- The first handle is in use.
example : Fallible.value? ((saveTransient sampleCrypto sampleContext (samplePublic 2) noParent
    none).run (emptyCache.perform sampleCrypto (.save 1 noParent))) = some (.new 0x80000001) := by
  decide +kernel

/-- The directory with the record files of two keys, at the end and at the start of the range. -/
def wrappedDir : Directory :=
  let cache := [.save 1 noParent, .save 2 noParent].foldl (perform sampleCrypto)
    { emptyCache with nextVirtualHandle := transientEnd }
  (Fallible.after (flush.run cache)).cacheDir

/-- The cache on the directory: its cursor has wrapped around to a handle in use. -/
def wrappedCache : VtpmCache :=
  (Fallible.value? ((new sampleCrypto ∅).run wrappedDir)).getD emptyCache

theorem wrappedCache_run : Run sampleCrypto ∅ wrappedDir AnyOp wrappedCache := by
  have opens : (Fallible.value? ((new sampleCrypto ∅).run wrappedDir)).isSome := by decide +kernel
  obtain ⟨cache, opened⟩ := Option.isSome_iff_exists.mp opens
  have same : wrappedCache = cache := congrArg (Option.getD · emptyCache) opened
  rw [same]
  exact .start (Fallible.value?_eq_some.mp opened)

/-- The handle at the cursor is in use, and another one is allocated. -/
theorem saveTransient_allocates_wrapped : ∃ handle cache',
    (saveTransient sampleCrypto sampleContext (samplePublic 3) noParent none).run wrappedCache =
        .ok handle cache' ∧
      (transientStart ≤ handle.value ∧ handle.value ≤ transientEnd) ∧
      handle.value ≠ wrappedCache.nextVirtualHandle ∧
      cache'.contexts.lookup handle.value =
        some (transientKey handle.value sampleContext (samplePublic 3) noParent none) := by
  have saves : (Fallible.value? ((saveTransient sampleCrypto sampleContext (samplePublic 3) noParent
      none).run wrappedCache)).isSome := by
    decide +kernel
  have taken : (wrappedCache.contexts.lookup wrappedCache.nextVirtualHandle).isSome := by
    decide +kernel
  obtain ⟨handle, saved⟩ := Option.isSome_iff_exists.mp saves
  have ok := Fallible.value?_eq_some.mp saved
  obtain ⟨allocates, -⟩ := saveTransient_allocates wrappedCache_run sampleContext (samplePublic 3)
    noParent none
  obtain ⟨range, vacant, added, -⟩ := allocates _ _ ok
  refine ⟨handle, _, ok, range, fun same => ?_, added⟩
  rw [← same, vacant] at taken
  cases taken

end VtpmCache
end Tpm2
