import Tpm2.Vtpm.Opening
import Tpm2.Vtpm.Storing

/-! Persistence: after a flush that succeeds, a new cache on the same directory holds the keys that
were live, as far as their records can be loaded. -/

namespace Tpm2

open ByteCodec Directory

variable {crypto : Libcrypto} {supplied : HashMap Tpm2bName TpmHandle} {dir dir' disk : Directory}
  {path : Bytes} {v : UInt32} {key : VtpmKey}

theorem Registry.isSome_storeAll {registry : Registry} (records : List Record)
    (live : (registry.key v).isSome) : ((registry.storeAll records).key v).isSome := by
  induction records generalizing registry with
  | nil => exact live
  | cons record records ih =>
      refine @ih (registry.store record.handle record.key record.name) ?_
      change (Function.update registry.key record.handle (some record.key) v).isSome
      rw [Function.update_apply]
      split
      · rfl
      · exact live

namespace VtpmCache

variable {Meets : VtpmCache → Op → Prop} {cache cache' : VtpmCache}

/-- A cache on an empty directory has no contexts. -/
theorem new_of_empty (empty : dir.files = ∅) (ok : (new crypto supplied).run dir = .ok cache dir') :
    cache = ⟨∅, supplied, ∅, ∅, dir.next.next, transientStart⟩ := by
  obtain ⟨_, _, checked, ok⟩ := Fallible.run_bind_eq_ok.mp ok
  obtain ⟨-, rfl⟩ := Fallible.run_ofExcept_eq_ok.mp checked
  obtain ⟨_, dir₁, created, ok⟩ := Fallible.run_bind_eq_ok.mp ok
  cases run_next_of_ok (Fallible.run_adaptExcept_eq_ok.mp created)
  rw [EStateM.run_bind, EStateM.run_get] at ok
  dsimp only at ok
  have files : dir.next.files = ∅ := empty
  have loaded : (load crypto).run ⟨∅, supplied, ∅, ∅, dir.next, transientStart⟩ =
      .ok () ⟨∅, supplied, ∅, ∅, dir.next.next, transientStart⟩ ∨
      ∃ e c, (load crypto).run ⟨∅, supplied, ∅, ∅, dir.next, transientStart⟩ = .error e c := by
    rw [load, EStateM.run_bind, Fallible.run_outcome, onDir_run, EStateM.run_adaptExcept]
    rcases readDir_of_empty files with ⟨e, ran⟩ | ran
    · rw [ran]
      cases e with
      | notFound => exact .inl rfl
      | other code => exact .inr ⟨_, _, rfl⟩
    · rw [ran]
      exact .inl rfl
  rcases loaded with ran | ⟨e, c, ran⟩
  · rw [ran] at ok
    cases ok
    rfl
  · rw [ran] at ok
    cases ok

/-- The directory is in step with the contexts in every cache that comes out of an empty directory,
by any operations, whichever of them fail. -/
theorem Run.synced (run : Run crypto supplied dir Meets cache) (empty : dir.files = ∅)
    (truthful : dir.Truthful) : Synced cache := by
  induction run with
  | start opened =>
      rw [new_of_empty empty opened]
      have drains : Drains dir dir.next.next := (drains_next dir).trans (drains_next dir.next)
      have none (name : Bytes) : dir.next.next.files.lookup name = none := by
        change dir.files.lookup name = none
        rw [empty, AList.lookup_empty]
      exact {
        truthful := drains.truthful truthful
        live := fun name v bytes _ found => by
          rw [none] at found
          cases found
        stored := fun v key live => by
          rw [AList.lookup_empty] at live
          cases live
        current := fun v key live => by
          rw [AList.lookup_empty] at live
          cases live }
  | step op _ _ ih => exact ih.perform op
  | reorder _ same ih =>
      refine ih.congr (fun v => (AList.perm_lookup same.contexts).symm) (fun v => ?_) ?_
        fun name _ => (AList.perm_lookup same.files).symm
      · rw [← AList.lookup_isSome, ← AList.lookup_isSome, AList.perm_lookup same.dirty]
      · intro fault mem
        rw [same.faults] at mem
        exact mem

theorem saveContext_dirty (ok : (saveContext v).run cache = .ok () cache') :
    cache'.dirty = cache.dirty.erase v := by
  rw [run_saveContext] at ok
  split at ok
  · cases ok
    rfl
  · split at ok
    · cases ok
    · cases ok
      rfl

theorem saveAll_dirty {handles : List UInt32} (ok : (saveAll handles).run cache = .ok () cache')
    (w : UInt32) : w ∈ cache'.dirty ↔ w ∈ cache.dirty ∧ w ∉ handles := by
  induction handles generalizing cache with
  | nil =>
      cases ok
      simp
  | cons v handles ih =>
      obtain ⟨_, cache₁, first, rest⟩ := Fallible.run_bind_eq_ok.mp ok
      rw [ih rest, saveContext_dirty first, AList.mem_erase, List.mem_cons]
      tauto

/-- A flush that succeeds leaves nothing dirty. -/
theorem flush_clean (ok : flush.run cache = .ok () cache') (w : UInt32) : w ∉ cache'.dirty := by
  have saved : (saveAll cache.dirty.keys).run cache = .ok () cache' := ok
  rw [saveAll_dirty saved, AList.mem_keys.symm]
  tauto

/-- Without file errors, the key of a record is live once its file has been loaded. -/
theorem loadEntry_live (healthy : cache.cacheDir.Healthy)
    (record : RecordAt cache.cacheDir path v key)
    (ok : (loadEntry crypto path).run cache = .ok () cache') :
    (cache'.contexts.lookup v).isSome := by
  obtain ⟨dir', loaded⟩ := VtpmKey.load_of_healthy healthy record
  unfold loadEntry at ok
  rw [record.handle] at ok
  dsimp only at ok
  rw [if_pos record.range, EStateM.run_bind, Fallible.run_outcome, onDir_run, loaded] at ok
  dsimp only at ok
  rw [EStateM.run_bind] at ok
  cases named : keyName crypto key.public with
  | error e =>
      rw [named] at ok
      cases ok
  | ok name =>
      rw [named] at ok
      cases ok
      rw [contexts_insertKey, AList.lookup_insert]
      rfl

/-- Loading more files keeps what is live. -/
theorem EntriesLoaded.live {paths : List Bytes} {records : List Record}
    (loaded : EntriesLoaded crypto paths records cache cache')
    (live : (cache.contexts.lookup v).isSome) : (cache'.contexts.lookup v).isSome := by
  rw [← key_registry, loaded.registry]
  exact Registry.isSome_storeAll records live

theorem loadEntries_live {paths : List Bytes} (nodup : paths.Nodup)
    (healthy : cache.cacheDir.Healthy) (mem : path ∈ paths)
    (record : RecordAt cache.cacheDir path v key)
    (ok : (loadEntries crypto paths).run cache = .ok () cache') :
    (cache'.contexts.lookup v).isSome := by
  induction paths generalizing cache with
  | nil => cases mem
  | cons first paths ih =>
      obtain ⟨other, nodup'⟩ := List.nodup_cons.mp nodup
      have loaded := loadEntry_spec crypto first cache
      obtain ⟨_, cache₁, ran, rest⟩ := Fallible.run_bind_eq_ok.mp ok
      rw [ran, Fallible.after_ok] at loaded
      rcases List.mem_cons.mp mem with rfl | later
      · obtain ⟨records, others⟩ := loadEntries_spec crypto nodup' cache₁
        rw [rest, Fallible.after_ok] at others
        exact others.live (loadEntry_live healthy record ran)
      · have different : path ∉ ({first} : Set Bytes) := by
          rintro rfl
          exact other later
        exact ih nodup' (loaded.keeps.healthy healthy) later
          ((RecordAt.iff_of_keeps loaded.keeps different).mpr record) rest

/-- Without file errors, a new cache holds a key for every record of its directory. -/
theorem new_live (healthy : dir.Healthy)
    (persistent : ∀ n handle, supplied.lookup n = some handle → IsPersistent handle.value)
    (record : RecordAt dir path v key) (ok : (new crypto supplied).run dir = .ok cache dir') :
    (cache.contexts.lookup v).isSome := by
  rw [run_new healthy persistent] at ok
  split at ok
  · cases ok
  next cache₁ loaded =>
    cases ok
    obtain ⟨dir₁, listed⟩ := readDir_of_healthy healthy.next
    have created : Keeps ∅ dir dir.next := keeps_faults fun _ => List.mem_of_mem_tail
    have kept : Keeps ∅ dir.next _ := readDir_keeps dir.next
    rw [listed, Fallible.after_ok] at kept
    rw [load, EStateM.run_bind, Fallible.run_outcome, onDir_run, EStateM.run_adaptExcept,
      listed] at loaded
    obtain ⟨bytes, found, -⟩ := record.decodes
    have mem : path ∈ dir.files.keys :=
      AList.mem_keys.mp (AList.lookup_isSome.mp (by rw [found]; rfl))
    have live := loadEntries_live dir.files.keys_nodup (kept.healthy healthy.next) mem
      ((RecordAt.iff_of_keeps (created.trans kept) (Set.notMem_empty path)).mpr record) loaded
    rw [← key_registry, registry_skipUsed]
    exact live

/-- The caches hold the same keys under the same handles. -/
def SameKeys (cache cache' : VtpmCache) : Prop :=
  ∀ v, Option.Rel VtpmKey.Same (cache.contexts.lookup v) (cache'.contexts.lookup v)

/-- What a flush leaves on the disk: the records of the live keys, and no others. -/
structure Flushed (crypto : Libcrypto) (cache : VtpmCache) (disk : Directory) : Prop where
  stored : ∀ v key, cache.contexts.lookup v = some key →
    ∃ bytes, key.record = .ok bytes ∧ disk.files.lookup (binName v) = some bytes
  live : ∀ name v bytes, recordHandle name = some v → disk.files.lookup name = some bytes →
    name = binName v ∧ ∃ key, cache.contexts.lookup v = some key
  current : ∀ v key, cache.contexts.lookup v = some key →
    key.version = .new version ∧ key.handle.value = v ∧ (IsTransient v ∨ IsPersistent v)
  named : ∀ v key, cache.contexts.lookup v = some key →
    ∃ name, tpmMakeName crypto key.public = .ok name

theorem Run.flushed (run : Run crypto supplied dir Meets cache) (empty : dir.files = ∅)
    (truthful : dir.Truthful) (ok : flush.run cache = .ok () cache')
    (same : ∀ name, disk.files.lookup name = cache'.cacheDir.files.lookup name) :
    Flushed crypto cache disk := by
  have moved := flush_moves cache
  have synced := flush_synced cache (run.synced empty truthful)
  rw [ok, Fallible.after_ok] at moved synced
  have consistent := run.consistent
  constructor
  case stored =>
    intro v key live
    rw [same]
    exact synced.stored v key (moved.contexts ▸ live) (flush_clean ok v)
  case live =>
    intro name v bytes handle found
    rw [same] at found
    obtain ⟨own, key, live⟩ := synced.live name v bytes handle found
    exact ⟨own, key, moved.contexts ▸ live⟩
  case current =>
    intro v key live
    obtain ⟨current, handle⟩ := synced.current v key (moved.contexts ▸ live)
    exact ⟨current, handle, (consistent.handle v key live).2⟩
  case named =>
    intro v key live
    have named := (consistent.named v).mpr (by rw [key_registry, live]; rfl)
    obtain ⟨name, named⟩ := Option.isSome_iff_exists.mp named
    exact ⟨name, consistent.name_eq v key name live named⟩

namespace Flushed

variable {loaded : VtpmKey} (flushed : Flushed crypto cache disk)
include flushed

/-- A record that can be loaded is that of a live key. -/
theorem recordAt (record : RecordAt disk path v loaded) : ∃ key bytes,
    cache.contexts.lookup v = some key ∧ key.record = .ok bytes ∧
      bytes.length ≤ maxRecordSize ∧ VtpmKey.decode bytes v = .ok loaded := by
  obtain ⟨bytes, found, small, decodes⟩ := record.decodes
  obtain ⟨rfl, key, live⟩ := flushed.live path v bytes record.handle found
  obtain ⟨bytes', saved, stored⟩ := flushed.stored v key live
  rw [found] at stored
  cases stored
  exact ⟨key, bytes, live, saved, small, decodes⟩

/-- A live key whose record is loaded as the same key is loadable, and a loadable one is loaded. -/
theorem loads_iff (live : cache.contexts.lookup v = some key) :
    (∃ loaded, RecordAt disk (binName v) v loaded ∧ key.Same loaded) ↔ key.Loadable := by
  obtain ⟨current, rfl, range⟩ := flushed.current v key live
  obtain ⟨bytes, saved, stored⟩ := flushed.stored _ key live
  rw [← VtpmKey.loads_iff current saved]
  constructor
  · rintro ⟨loaded, record, same⟩
    obtain ⟨bytes', found, small, decodes⟩ := record.decodes
    rw [stored] at found
    cases found
    exact ⟨small, loaded, decodes, same⟩
  · rintro ⟨small, loaded, decodes, same⟩
    exact ⟨loaded, ⟨recordHandle_binName _, range, bytes, stored, small, decodes⟩, same⟩

/-- Where the same keys are there again, all of them were loadable. -/
theorem loadable {reopened : VtpmCache} (ok : (new crypto supplied).run disk = .ok reopened dir')
    (same : SameKeys cache reopened) (live : cache.contexts.lookup v = some key) :
    key.Loadable := by
  have again := same v
  rw [live] at again
  cases again' : reopened.contexts.lookup v with
  | none =>
      rw [again'] at again
      cases again
  | some loaded =>
      rw [again'] at again
      cases again with
      | some kept =>
          obtain ⟨path, record⟩ := recordAt_of_new ok v loaded again'
          obtain ⟨bytes, found, -⟩ := record.decodes
          obtain ⟨rfl, -⟩ := flushed.live path v bytes record.handle found
          exact (flushed.loads_iff live).mp ⟨loaded, record, kept⟩

/-- Where all live keys are loadable, a new cache holds the same keys. -/
theorem reopens (loadable : ∀ v key, cache.contexts.lookup v = some key → key.Loadable)
    (healthy : disk.Healthy)
    (persistent : ∀ n handle, supplied.lookup n = some handle → IsPersistent handle.value) :
    ∃ reopened disk', (new crypto supplied).run disk = .ok reopened disk' ∧
      SameKeys cache reopened := by
  -- every record is that of a live key, which is loaded from it
  have records {path : Bytes} {v : UInt32} {loaded : VtpmKey}
      (record : RecordAt disk path v loaded) :
      ∃ key, cache.contexts.lookup v = some key ∧ key.Same loaded := by
    obtain ⟨key, bytes, live, saved, -, decodes⟩ := flushed.recordAt record
    obtain ⟨current, rfl, -⟩ := flushed.current v key live
    obtain ⟨-, loaded', decodes', same⟩ :=
      (VtpmKey.loads_iff current saved).mpr (loadable _ key live)
    rw [decodes] at decodes'
    cases decodes'
    exact ⟨key, live, same⟩
  have nameable : ∀ path, Nameable crypto disk path := by
    intro path v loaded record
    obtain ⟨key, live, same⟩ := records record
    rw [same.pub]
    exact flushed.named v key live
  have created : Keeps ∅ disk disk.next := keeps_faults fun _ => List.mem_of_mem_tail
  let opened : VtpmCache := ⟨∅, supplied, ∅, ∅, disk.next, transientStart⟩
  obtain ⟨last, ran⟩ : ∃ last, (load crypto).run opened = .ok () last :=
    (load_ok_iff healthy.next).mpr fun path =>
      (nameable_iff_of_keeps created (Set.notMem_empty path)).mpr (nameable path)
  have ok : (new crypto supplied).run disk = .ok last.skipUsed last.cacheDir := by
    rw [run_new healthy persistent, ran]
  refine ⟨_, _, ok, fun v => ?_⟩
  cases again : last.skipUsed.contexts.lookup v with
  | some loaded =>
      obtain ⟨path, record⟩ := recordAt_of_new ok v loaded again
      obtain ⟨key, live, same⟩ := records record
      rw [live]
      exact .some same
  | none =>
      cases live : cache.contexts.lookup v with
      | none => exact .none
      | some key =>
          obtain ⟨loaded, record, -⟩ := (flushed.loads_iff live).mpr (loadable v key live)
          have isLive := new_live healthy persistent record ok
          rw [again] at isLive
          cases isLive

end Flushed

/-- Persistence. In every run from an empty directory, whichever operations fail, a flush that
succeeds leaves a directory on which a new cache holds the keys that were live, each with its public
areas, its context and its policy, and no others, exactly when each of them is loadable: its public
areas are such as can be read, its policy has at most sixteen steps, which are all accepted, and its
record is small. No file operation may report a file as missing that is there. -/
theorem reopens_iff (run : Run crypto supplied dir AnyOp cache) (empty : dir.files = ∅)
    (truthful : dir.Truthful) (ok : flush.run cache = .ok () cache') {disk : Directory}
    (same : ∀ name, disk.files.lookup name = cache'.cacheDir.files.lookup name)
    (healthy : disk.Healthy) {supplied' : HashMap Tpm2bName TpmHandle}
    (persistent : ∀ n handle, supplied'.lookup n = some handle → IsPersistent handle.value) :
    (∃ reopened disk', (new crypto supplied').run disk = .ok reopened disk' ∧
      SameKeys cache reopened) ↔ ∀ v key, cache.contexts.lookup v = some key → key.Loadable := by
  have flushed := run.flushed empty truthful ok same
  constructor
  · rintro ⟨reopened, disk', opened, kept⟩ v key live
    exact flushed.loadable opened kept live
  · intro loadable
    exact flushed.reopens loadable healthy persistent

/-- The cache after the sample key 1 has been saved with a policy. -/
def savedCache (policy : List VtpmPolicyCommand) : VtpmCache :=
  emptyCache.perform sampleCrypto
    (.saveTransient sampleContext (samplePublic 1) noParent (some policy))

theorem savedCache_run (policy : List VtpmPolicyCommand) :
    Run sampleCrypto ∅ emptyDir AnyOp (savedCache policy) :=
  .step _ (emptyCache_run sampleCrypto AnyOp) trivial

/-- The cache after a flush. -/
def afterFlush (cache : VtpmCache) : VtpmCache := Fallible.after (flush.run cache)

theorem flush_of_isSome (cache : VtpmCache) (flushes : (Fallible.value? (flush.run cache)).isSome) :
    flush.run cache = .ok () (afterFlush cache) := by
  obtain ⟨_, flushed⟩ := Option.isSome_iff_exists.mp flushes
  exact Fallible.value?_eq_some.mp flushed

theorem truthful_emptyDir : emptyDir.Truthful := by
  intro fault mem
  cases mem

theorem healthy_of_faults (none : dir.faults = []) : dir.Healthy := by
  intro fault mem
  rw [none] at mem
  cases mem

/-- `PolicyAuthValue`. -/
def authValueStep : VtpmPolicyCommand := .default ⟨.policyAuthValue, []⟩

/-- A key with a policy of one step is there again. -/
theorem reopens_iff_authValue : ∃ reopened disk',
    (new sampleCrypto ∅).run (afterFlush (savedCache [authValueStep])).cacheDir =
        .ok reopened disk' ∧
      SameKeys (savedCache [authValueStep]) reopened := by
  have ok := flush_of_isSome (savedCache [authValueStep]) (by decide +kernel)
  have healthy : (afterFlush (savedCache [authValueStep])).cacheDir.Healthy :=
    healthy_of_faults (by decide +kernel)
  have entries : (savedCache [authValueStep]).contexts.entries = [⟨0x80000000,
      ⟨.new version, .new 0x80000000, samplePublic 1, noParent, sampleContext,
        [authValueStep]⟩⟩] := by
    decide +kernel
  have persistent : ∀ n handle, (∅ : HashMap Tpm2bName TpmHandle).lookup n = some handle →
      IsPersistent handle.value := by
    simp
  have reopens := reopens_iff (savedCache_run [authValueStep]) rfl truthful_emptyDir ok
    (fun _ => rfl) healthy persistent
  refine reopens.mpr fun v key live => ?_
  obtain ⟨rfl, rfl⟩ := (HashMap.lookup_of_singleton entries).mp live
  have accepted : vtpmPolicyCommandFromParts .policyAuthValue [] = .ok authValueStep := rfl
  exact {
    pub := ⟨rfl, ⟨⟨rfl, trivial⟩, trivial⟩, trivial⟩
    parent := ⟨rfl, trivial, trivial⟩
    few := by decide
    accepted := fun step mem => List.mem_singleton.mp mem ▸ ⟨authValueStep, accepted⟩
    small := by decide +kernel }

/-- A key with a policy of seventeen steps is lost. -/
theorem reopens_fails : ¬ ∀ crypto supplied dir cache cache' disk,
    Run crypto supplied dir AnyOp cache → dir.files = ∅ → dir.Truthful →
      flush.run cache = .ok () cache' →
        (∀ name, disk.files.lookup name = cache'.cacheDir.files.lookup name) → disk.Healthy →
          ∃ reopened disk', (new crypto supplied).run disk = .ok reopened disk' ∧
            SameKeys cache reopened := by
  intro claim
  have run := savedCache_run (.replicate 17 authValueStep)
  have ok := flush_of_isSome (savedCache (.replicate 17 authValueStep)) (by decide +kernel)
  have healthy : (afterFlush (savedCache (.replicate 17 authValueStep))).cacheDir.Healthy :=
    healthy_of_faults (by decide +kernel)
  obtain ⟨reopened, disk', opened, same⟩ :=
    claim _ _ _ _ _ _ run rfl truthful_emptyDir ok (fun _ => rfl) healthy
  have live : ((savedCache (.replicate 17 authValueStep)).contexts.lookup 0x80000000).map
      VtpmKey.policy = some (.replicate 17 authValueStep) := by
    decide +kernel
  obtain ⟨key, live, policy⟩ := Option.map_eq_some_iff.mp live
  have few := ((run.flushed rfl truthful_emptyDir ok fun _ => rfl).loadable opened same live).few
  rw [policy] at few
  exact absurd few (by decide)

end VtpmCache
end Tpm2
