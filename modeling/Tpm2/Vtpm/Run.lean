import Tpm2.Vtpm.Loading
import Tpm2.Vtpm.Removal

/-! Runs of the cache: it is opened on a directory, then operations follow one another, whichever of
them fail. -/

namespace Tpm2

open ByteCodec

namespace VtpmCache

/-- An operation on the cache, with its arguments. -/
inductive Op
  | saveTransient (context : TpmsContext) (pub parent : TpmtPublic)
      (policy : Option (List VtpmPolicyCommand))
  | savePersistent (handle : TpmHandle) (pub parent : TpmtPublic)
      (policy : Option (List VtpmPolicyCommand))
  | remove (handle : TpmHandle)
  | flush

/-- The cache after an operation, successful or not. -/
def perform (crypto : Libcrypto) (cache : VtpmCache) : Op → VtpmCache
  | .saveTransient context pub parent policy =>
      Fallible.after ((VtpmCache.saveTransient crypto context pub parent policy).run cache)
  | .savePersistent handle pub parent policy =>
      Fallible.after ((VtpmCache.savePersistent crypto handle pub parent policy).run cache)
  | .remove handle => Fallible.after ((VtpmCache.remove handle).run cache)
  | .flush => Fallible.after (VtpmCache.flush.run cache)

/-- The same cache, with the entries of its maps in another order. -/
structure Reorders (cache cache' : VtpmCache) : Prop where
  contexts : cache.contexts.entries.Perm cache'.contexts.entries
  handles : cache.handles.entries.Perm cache'.handles.entries
  names : cache.names.entries.Perm cache'.names.entries
  dirty : cache.dirty.entries.Perm cache'.dirty.entries
  files : cache.cacheDir.files.entries.Perm cache'.cacheDir.files.entries
  faults : cache'.cacheDir.faults = cache.cacheDir.faults
  processId : cache'.cacheDir.processId = cache.cacheDir.processId
  next : cache'.nextVirtualHandle = cache.nextVirtualHandle

/-- The caches that come out of `new` on `dir` by operations that `Meets` admits. Maps list their
entries in an arbitrary order, which may change at any time. -/
inductive Run (crypto : Libcrypto) (supplied : HashMap Tpm2bName TpmHandle) (dir : Directory)
    (Meets : VtpmCache → Op → Prop) : VtpmCache → Prop
  | start {cache : VtpmCache} {dir' : Directory}
      (opened : (new crypto supplied).run dir = .ok cache dir') :
      Run crypto supplied dir Meets cache
  | step {cache : VtpmCache} (op : Op) (before : Run crypto supplied dir Meets cache)
      (meets : Meets cache op) : Run crypto supplied dir Meets (cache.perform crypto op)
  | reorder {cache cache' : VtpmCache} (before : Run crypto supplied dir Meets cache)
      (same : cache.Reorders cache') : Run crypto supplied dir Meets cache'

/-- Every operation is admitted. -/
abbrev AnyOp (_ : VtpmCache) (_ : Op) : Prop := True

theorem Reorders.registry {cache cache' : VtpmCache} (same : cache.Reorders cache') :
    cache'.registry = cache.registry := by
  unfold VtpmCache.registry
  simp only [← AList.perm_lookup same.contexts, ← AList.perm_lookup same.handles,
    ← AList.perm_lookup same.names]

variable {crypto : Libcrypto} {supplied : HashMap Tpm2bName TpmHandle} {dir : Directory}
  {Meets : VtpmCache → Op → Prop} {cache cache' : VtpmCache}

/-- What one operation does: nothing to the registry, or it stores one key, under a free transient
or any persistent handle, or drops some contexts. -/
inductive Effect (crypto : Libcrypto) (cache : VtpmCache) : Op → VtpmCache → Prop
  | same {op : Op} {cache' : VtpmCache} (registry : cache'.registry = cache.registry)
      (next : cache'.nextVirtualHandle = cache.nextVirtualHandle) : Effect crypto cache op cache'
  | saveTransient {context : TpmsContext} {pub parent : TpmtPublic}
      {policy : Option (List VtpmPolicyCommand)} {cache' : VtpmCache} {v : UInt32}
        {name : Tpm2bName}
      (vacant : cache.vacantHandle transientCount = some v)
      (named : tpmMakeName crypto pub = .ok name)
      (registry : cache'.registry = cache.registry.store v
        ⟨.new version, .new v, pub, parent, context, policy.getD []⟩ name)
      (next : cache'.nextVirtualHandle = nextAfter v) :
      Effect crypto cache (.saveTransient context pub parent policy) cache'
  | savePersistent {handle : TpmHandle} {pub parent : TpmtPublic}
      {policy : Option (List VtpmPolicyCommand)} {cache' : VtpmCache} {name : Tpm2bName}
      (persistent : IsPersistent handle.value) (named : tpmMakeName crypto pub = .ok name)
      (registry : cache'.registry = cache.registry.store handle.value
        ⟨.new version, handle, pub, parent, persistentContext, policy.getD []⟩ name)
      (next : cache'.nextVirtualHandle = cache.nextVirtualHandle) :
      Effect crypto cache (.savePersistent handle pub parent policy) cache'
  | remove {handle : TpmHandle} {cache' : VtpmCache} {gone : List UInt32}
      (drops : Drops gone cache cache')
      (reaches : ∀ v ∈ gone, Relation.ReflTransGen cache.ChildOf handle.value v) :
      Effect crypto cache (.remove handle) cache'

theorem perform_effect (crypto : Libcrypto) (cache : VtpmCache) (op : Op) :
    Effect crypto cache op (cache.perform crypto op) := by
  cases op with
  | saveTransient context pub parent policy =>
      rcases after_saveTransient crypto context pub parent policy cache with
        same | ⟨v, name, vacant, named, stored⟩
      · exact .same (congrArg _ same) (congrArg _ same)
      · refine .saveTransient vacant named ?_ ?_
        · exact (congrArg _ stored).trans (registry_insertKey cache v _ name)
        · exact congrArg _ stored
  | savePersistent handle pub parent policy =>
      rcases after_savePersistent crypto handle pub parent policy cache with
        same | ⟨name, persistent, named, stored⟩
      · exact .same (congrArg _ same) (congrArg _ same)
      · refine .savePersistent persistent named ?_ ?_
        · exact (congrArg _ stored).trans (registry_insertKey cache handle.value _ name)
        · exact (congrArg _ stored).trans (next_insertKey cache handle.value _ name)
  | remove handle =>
      obtain ⟨gone, drops, reaches⟩ := remove_drops handle cache
      exact .remove drops reaches
  | flush => exact .same (flush_moves cache).registry (flush_moves cache).next

/-- One operation is at most one step of the registry. -/
theorem perform_steps (crypto : Libcrypto) (next : IsTransient cache.nextVirtualHandle) (op : Op) :
    Registry.Steps crypto cache.registry (cache.perform crypto op).registry ∧
      IsTransient (cache.perform crypto op).nextVirtualHandle := by
  cases perform_effect crypto cache op with
  | same registry same => exact ⟨registry ▸ .refl, same ▸ next⟩
  | @saveTransient context pub parent policy _ v name vacant named registry after =>
      obtain ⟨transient, -⟩ := vacantHandle_spec next (Nat.le_refl _) vacant
      exact ⟨registry ▸ .single (.store (TpmInt.value_new v) (.inl transient) named),
        after ▸ isTransient_nextAfter (.inl transient)⟩
  | savePersistent persistent named registry same =>
      exact ⟨registry ▸ .single (.store rfl (.inr persistent) named), same ▸ next⟩
  | remove drops => exact ⟨drops.registry ▸ .single (.drop _), drops.next ▸ next⟩

theorem Run.steps (run : Run crypto supplied dir Meets cache) :
    Registry.Steps crypto (.initial supplied) cache.registry ∧
      IsTransient cache.nextVirtualHandle := by
  induction run with
  | start opened =>
      obtain ⟨records, opened⟩ := new_spec opened
      exact ⟨opened.steps, opened.next⟩
  | step op _ _ ih =>
      obtain ⟨steps, next⟩ := perform_steps crypto ih.2 op
      exact ⟨ih.1.trans steps, next⟩
  | reorder _ same ih => exact ⟨same.registry ▸ ih.1, same.next ▸ ih.2⟩

theorem Run.consistent (run : Run crypto supplied dir Meets cache) :
    cache.registry.Consistent crypto supplied :=
  Registry.Consistent.initial.steps run.steps.1

/-- The index agrees with the contexts in every cache that any operations, failing or not, lead to:
the handles with a recorded name are the live ones, a recorded name is the one of the context's
public area, an entry that was not supplied leads to a live context that has recorded its name, and
a live handle is transient or persistent and stands in its context. -/
theorem index_consistent (run : Run crypto supplied dir AnyOp cache) :
    (∀ v, (∃ name, cache.names.lookup v = some name) ↔
      ∃ key, cache.contexts.lookup v = some key) ∧
    (∀ v key name, cache.contexts.lookup v = some key → cache.names.lookup v = some name →
      tpmMakeName crypto key.public = .ok name) ∧
    (∀ name handle, cache.handles.lookup name = some handle →
      supplied.lookup name = some handle ∨ ∃ key, cache.contexts.lookup handle.value = some key ∧
        cache.names.lookup handle.value = some name) ∧
    ∀ v key, cache.contexts.lookup v = some key →
      (IsTransient v ∨ IsPersistent v) ∧ key.handle.value = v := by
  have consistent := run.consistent
  refine ⟨fun v => ?_, consistent.name_eq, fun name handle resolves => ?_, fun v key live =>
    (consistent.handle v key live).symm⟩
  · rw [← Option.isSome_iff_exists, ← Option.isSome_iff_exists]
    exact consistent.named v
  · refine (consistent.backed name handle.value (lookup_handles.mpr resolves)).imp
      (fun entry => ?_) fun named => ?_
    · obtain ⟨handle', found, same⟩ := Option.map_eq_some_iff.mp entry
      rw [found, ← TpmInt.new_value handle', same, TpmInt.new_value]
    · obtain ⟨key, live, -⟩ := consistent.name_iff.mp named
      exact ⟨key, live, named⟩

/-- SHA-256 of the sample public areas. -/
def sampleDigests : List (Bytes × Nat) :=
  let area (n : Nat) := toBytes 15 (256 * 0x8000b00000000000000100001 + n)
  [(area 1, 0x11b97e404105cf37e380110a73cc1ee0a5950aa42f5184bace14b128fc7a98fe),
   (area 2, 0x5833daf4fc8f40f69d3957d038511c5cf1b040180c6a989014e42b1175670972),
   (area 3, 0xac929f982b81d46ab85a187015570966958d31b42284c15452515c6ec0376f07)]

/-- Libcrypto with SHA-256 alone, on the inputs of a table. -/
def sha256Table (digests : List (Bytes × Nat)) : Libcrypto where
  size _ := 32
  hash alg data :=
    match digests.lookup data with
    | some digest => if alg = .sha256 then .ok (toBytes 32 digest) else .error .crypto
    | none => .error .crypto
  length_hash {alg data digest} ok := by
    cases found : digests.lookup data with
    | none => simp [found] at ok
    | some value =>
        by_cases sha256 : alg = .sha256
        · simp only [found, sha256, if_true, Except.ok.injEq] at ok
          rw [← ok, length_toBytes]
        · simp [found, sha256] at ok

/-- Libcrypto, as far as the sample caches need it. -/
def sampleCrypto : Libcrypto := sha256Table sampleDigests

/-- A keyed hash object with the unique field `[n]`. -/
def samplePublic (n : UInt8) : TpmtPublic :=
  ⟨.keyedHash, .sha256, ⟨0⟩, .new, .keyedHash ⟨⟨.null, .null⟩⟩,
    .keyedHash ⟨[n], by simp [maxDigestSize], by simp [u16Max]⟩⟩

/-- The name of the sample key 1. -/
def sampleName : Tpm2bName :=
  ⟨[0, 11] ++ toBytes 32 0x11b97e404105cf37e380110a73cc1ee0a5950aa42f5184bace14b128fc7a98fe,
    by decide, by decide⟩

/-- The parent of a primary key. -/
def noParent : TpmtPublic := ⟨.null, .null, ⟨0⟩, .new, .null, .null⟩

def sampleContext : TpmsContext := ⟨.new 1, .new 0x80000000, .owner, .new⟩

/-- An empty directory whose operations all succeed. -/
def emptyDir : Directory := ⟨∅, [], 1⟩

/-- The cache on an empty directory. -/
def emptyCache : VtpmCache := ⟨∅, ∅, ∅, ∅, emptyDir, transientStart⟩

theorem emptyCache_run (crypto : Libcrypto) (Meets : VtpmCache → Op → Prop) :
    Run crypto ∅ emptyDir Meets emptyCache :=
  .start (show (new crypto ∅).run emptyDir = .ok emptyCache emptyDir from rfl)

/-- Saves the sample key `n` under the parent `parent`. -/
def Op.save (n : UInt8) (parent : TpmtPublic) : Op :=
  .saveTransient sampleContext (samplePublic n) parent none

theorem index_consistent_saved : ∃ name,
    (emptyCache.perform sampleCrypto (.save 1 noParent)).names.lookup 0x80000000 = some name :=
  ((index_consistent (.step (.save 1 noParent) (emptyCache_run _ _) trivial)).1 _).mpr
    (Option.isSome_iff_exists.mp (by decide +kernel))

end VtpmCache
end Tpm2
