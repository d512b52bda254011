import Tpm2.Vtpm.Refinement

/-! Loading the cache directory: every record file that can be read and decoded stores one key. -/

namespace Tpm2

open ByteCodec

/-- A loaded record: its file, its handle, the key and the name of the key. -/
structure Record where
  path : Bytes
  handle : UInt32
  key : VtpmKey
  name : Tpm2bName

/-- The file `path` holds a record that `load` uses: the key of a transient or persistent handle. -/
structure RecordAt (dir : Directory) (path : Bytes) (v : UInt32) (key : VtpmKey) : Prop where
  handle : recordHandle path = some v
  range : IsTransient v ∨ IsPersistent v
  decodes : ∃ bytes, dir.files.lookup path = some bytes ∧ bytes.length ≤ maxRecordSize ∧
    VtpmKey.decode bytes v = .ok key

theorem RecordAt.of_keeps {dir dir' : Directory} {names : Set Bytes} {path : Bytes} {v : UInt32}
    {key : VtpmKey} (keeps : Directory.Keeps names dir dir') (other : path ∉ names)
    (record : RecordAt dir' path v key) : RecordAt dir path v key :=
  ⟨record.handle, record.range, keeps.files path other ▸ record.decodes⟩

/-- `dir` holds the record, and its name is the name of its key. -/
structure Record.Valid (crypto : Libcrypto) (dir : Directory) (record : Record) : Prop where
  stored : RecordAt dir record.path record.handle record.key
  named : tpmMakeName crypto record.key.public = .ok record.name

/-- The records are stored one after another. -/
noncomputable def Registry.storeAll (registry : Registry) (records : List Record) : Registry :=
  records.foldl (fun registry record => registry.store record.handle record.key record.name)
    registry

namespace VtpmKey

theorem decode_handle {bytes : Bytes} {v : UInt32} {key : VtpmKey}
    (ok : decode bytes v = .ok key) : key.handle.value = v := by
  obtain ⟨⟨version, tail⟩, -, ok⟩ := bind_eq_ok.mp ok
  dsimp only at ok
  split at ok
  · cases ok
  obtain ⟨⟨handle, tail⟩, -, ok⟩ := bind_eq_ok.mp ok
  dsimp only at ok
  split at ok
  · cases ok
  next expected =>
    obtain ⟨pub, -, ok⟩ := bind_eq_ok.mp ok
    obtain ⟨parent, -, ok⟩ := bind_eq_ok.mp ok
    obtain ⟨context, -, ok⟩ := bind_eq_ok.mp ok
    obtain ⟨policy, -, ok⟩ := bind_eq_ok.mp ok
    split at ok
    · cases ok
    · cases ok
      exact Decidable.not_not.mp expected

theorem load_keeps (path : Bytes) (v : UInt32) :
    Fallible.Moves (Directory.Keeps ∅) (load path v) := by
  have rest : Fallible.Moves (Directory.Keeps ∅) (do
      let buffer ← EStateM.adaptExcept .io (Directory.read path)
      Fallible.ofExcept (decode buffer v)) :=
    .bind .trans (.adaptExcept _ (Directory.read_keeps path)) fun _ => .ofExcept .refl _
  refine .bind .trans (.adaptExcept _ (Directory.metadataLen_keeps path)) fun size => ?_
  dsimp only
  split
  · exact .bind .trans (.throw .refl _) fun _ => rest
  · exact rest

/-- The file is as long when it is read as it was when it was measured. -/
theorem load_eq_ok {path : Bytes} {v : UInt32} {key : VtpmKey} {dir dir' : Directory}
    (ok : (load path v).run dir = .ok key dir') :
    ∃ bytes, dir.files.lookup path = some bytes ∧ bytes.length ≤ maxRecordSize ∧
      decode bytes v = .ok key := by
  obtain ⟨size, dir₁, measured, ok⟩ := Fallible.run_bind_eq_ok.mp ok
  have measured := Fallible.run_adaptExcept_eq_ok.mp measured
  have kept : Directory.Keeps ∅ dir _ := Directory.metadataLen_keeps path dir
  rw [measured, Fallible.after_ok] at kept
  obtain ⟨bytes, content, rfl⟩ := Directory.metadataLen_eq_ok measured
  dsimp only at ok
  split at ok
  · cases ok
  next small =>
    obtain ⟨buffer, dir₂, loaded, ok⟩ := Fallible.run_bind_eq_ok.mp ok
    have content' := Directory.read_eq_ok (Fallible.run_adaptExcept_eq_ok.mp loaded)
    rw [kept.files path (Set.notMem_empty path), content] at content'
    obtain rfl := Option.some.inj content'
    exact ⟨bytes, content, Nat.not_lt.mp small, (Fallible.run_ofExcept_eq_ok.mp ok).1⟩

end VtpmKey

namespace VtpmCache

/-- What loading one directory entry does to the cache. -/
structure EntryLoaded (crypto : Libcrypto) (path : Bytes) (cache cache' : VtpmCache) : Prop where
  keeps : Directory.Keeps {path} cache.cacheDir cache'.cacheDir
  dirty : cache'.dirty = cache.dirty
  next : cache'.nextVirtualHandle = cache.nextVirtualHandle
  registry : cache'.registry = cache.registry ∨ ∃ record : Record, record.path = path ∧
    record.Valid crypto cache.cacheDir ∧
    cache'.registry = cache.registry.store record.handle record.key record.name

theorem EntryLoaded.unused {crypto : Libcrypto} {path : Bytes} {cache : VtpmCache}
    {dir : Directory} (keeps : Directory.Keeps {path} cache.cacheDir dir) :
    EntryLoaded crypto path cache (cache.withDir dir) :=
  ⟨keeps, rfl, rfl, .inl rfl⟩

/-- Discarding a file never fails. -/
theorem run_discardFile (path : Bytes) (cache : VtpmCache) : (discardFile path).run cache =
    .ok () (cache.withDir (Fallible.after ((Directory.removeFile path).run cache.cacheDir))) := by
  rw [discardFile, EStateM.run_bind, Fallible.run_outcome, onDir_run, EStateM.run_adaptExcept]
  cases (Directory.removeFile path).run cache.cacheDir <;> rfl

theorem loadEntry_spec (crypto : Libcrypto) (path : Bytes) (cache : VtpmCache) :
    EntryLoaded crypto path cache (Fallible.after ((loadEntry crypto path).run cache)) := by
  unfold loadEntry
  cases named : recordHandle path with
  | none => exact .unused (.refl _)
  | some v =>
      dsimp only
      split
      next range =>
        have kept := (VtpmKey.load_keeps path v cache.cacheDir).mono (Set.empty_subset {path})
        rw [EStateM.run_bind, Fallible.run_outcome, onDir_run]
        cases loaded : (VtpmKey.load path v).run cache.cacheDir with
        | error e dir =>
            rw [loaded] at kept
            dsimp only
            rw [run_discardFile]
            exact .unused (kept.trans (Directory.removeFile_keeps path dir))
        | ok key dir =>
            rw [loaded] at kept
            dsimp only
            rw [EStateM.run_bind]
            cases computed : keyName crypto key.public with
            | error e => exact .unused kept
            | ok name =>
                rw [Fallible.run_ofExcept_ok]
                dsimp only
                rw [EStateM.run_modify, Fallible.after_ok]
                exact ⟨cacheDir_insertKey (cache.withDir dir) v key name ▸ kept,
                  dirty_insertKey .., next_insertKey .., .inr ⟨⟨path, v, key, name⟩, rfl,
                    ⟨⟨named, range, VtpmKey.load_eq_ok loaded⟩, keyName_eq_ok.mp computed⟩,
                    registry_insertKey (cache.withDir dir) v key name⟩⟩
      next =>
        split
        · rw [run_discardFile]
          exact .unused (Directory.removeFile_keeps path cache.cacheDir)
        · exact .unused (.refl _)

/-- What loading some directory entries does to the cache: it stores records from different
files. -/
structure EntriesLoaded (crypto : Libcrypto) (paths : List Bytes) (records : List Record)
    (cache cache' : VtpmCache) : Prop where
  keeps : Directory.Keeps {path | path ∈ paths} cache.cacheDir cache'.cacheDir
  dirty : cache'.dirty = cache.dirty
  next : cache'.nextVirtualHandle = cache.nextVirtualHandle
  paths : (records.map Record.path).Sublist paths
  valid : ∀ record ∈ records, record.Valid crypto cache.cacheDir
  registry : cache'.registry = cache.registry.storeAll records

theorem EntriesLoaded.nil (crypto : Libcrypto) (paths : List Bytes) (cache : VtpmCache) :
    EntriesLoaded crypto paths [] cache cache :=
  ⟨.refl _, rfl, rfl, List.nil_sublist _, by simp, rfl⟩

theorem EntriesLoaded.cons {crypto : Libcrypto} {path : Bytes} {paths : List Bytes}
    {records : List Record} {a b c : VtpmCache} (first : EntryLoaded crypto path a b)
    (rest : EntriesLoaded crypto paths records b c) (other : path ∉ paths) :
    ∃ records', EntriesLoaded crypto (path :: paths) records' a c := by
  have here : ({path} : Set Bytes) ⊆ {p | p ∈ path :: paths} := by
    rintro p rfl
    exact List.mem_cons_self
  have there : {p | p ∈ paths} ⊆ {p | p ∈ path :: paths} := fun p mem => List.mem_cons_of_mem _ mem
  have keeps := (first.keeps.mono here).trans (rest.keeps.mono there)
  have valid : ∀ record ∈ records, record.Valid crypto a.cacheDir := by
    intro record mem
    obtain ⟨stored, named⟩ := rest.valid record mem
    refine ⟨stored.of_keeps first.keeps fun same => other ?_, named⟩
    exact Set.mem_singleton_iff.mp same ▸ rest.paths.subset (List.mem_map_of_mem mem)
  rcases first.registry with same | ⟨record, rfl, own, stored⟩
  · exact ⟨records, keeps, rest.dirty.trans first.dirty, rest.next.trans first.next,
      rest.paths.cons _, valid, same ▸ rest.registry⟩
  · refine ⟨record :: records, keeps, rest.dirty.trans first.dirty, rest.next.trans first.next,
      rest.paths.cons_cons _, List.forall_mem_cons.mpr ⟨own, valid⟩, ?_⟩
    rw [rest.registry, stored]
    rfl

theorem loadEntries_spec (crypto : Libcrypto) {paths : List Bytes} (nodup : paths.Nodup)
    (cache : VtpmCache) : ∃ records, EntriesLoaded crypto paths records cache
      (Fallible.after ((loadEntries crypto paths).run cache)) := by
  induction paths generalizing cache with
  | nil => exact ⟨[], .nil crypto [] cache⟩
  | cons path paths ih =>
      obtain ⟨other, nodup⟩ := List.nodup_cons.mp nodup
      have first := loadEntry_spec crypto path cache
      rw [loadEntries, EStateM.run_bind]
      cases loaded : (loadEntry crypto path).run cache with
      | error e cache' =>
          rw [loaded] at first
          exact EntriesLoaded.cons first (.nil crypto paths cache') other
      | ok _ cache' =>
          rw [loaded] at first
          obtain ⟨records, rest⟩ := ih nodup cache'
          exact EntriesLoaded.cons first rest other

/-- Listing the directory first changes nothing. -/
theorem EntriesLoaded.of_keeps {crypto : Libcrypto} {paths : List Bytes} {records : List Record}
    {cache cache' : VtpmCache} {dir : Directory} (keeps : Directory.Keeps ∅ cache.cacheDir dir)
    (loaded : EntriesLoaded crypto paths records (cache.withDir dir) cache') :
    EntriesLoaded crypto paths records cache cache' :=
  ⟨(keeps.mono (Set.empty_subset _)).trans loaded.keeps, loaded.dirty, loaded.next, loaded.paths,
    fun record mem => ⟨(loaded.valid record mem).stored.of_keeps keeps (Set.notMem_empty _),
      (loaded.valid record mem).named⟩, loaded.registry⟩

theorem load_spec (crypto : Libcrypto) (cache : VtpmCache) :
    ∃ paths records, paths.Nodup ∧ EntriesLoaded crypto paths records cache
      (Fallible.after ((load crypto).run cache)) := by
  have kept : Directory.Keeps ∅ cache.cacheDir _ := Directory.readDir_keeps cache.cacheDir
  rw [load, EStateM.run_bind, Fallible.run_outcome, onDir_run, EStateM.run_adaptExcept]
  cases listed : Directory.readDir.run cache.cacheDir with
  | error e dir =>
      rw [listed, Fallible.after_error] at kept
      refine ⟨[], [], .nil, .of_keeps kept ?_⟩
      cases e <;> exact .nil crypto [] _
  | ok paths dir =>
      rw [listed, Fallible.after_ok] at kept
      have nodup := cache.cacheDir.files.keys_nodup.sublist (Directory.readDir_sublist listed)
      obtain ⟨records, loaded⟩ := loadEntries_spec crypto nodup (cache.withDir dir)
      exact ⟨paths, records, nodup, .of_keeps kept loaded⟩

theorem steps_storeAll {crypto : Libcrypto} {dir : Directory} {records : List Record}
    (valid : ∀ record ∈ records, record.Valid crypto dir) (registry : Registry) :
    Registry.Steps crypto registry (registry.storeAll records) := by
  induction records generalizing registry with
  | nil => exact .refl
  | cons record records ih =>
      obtain ⟨own, valid⟩ := List.forall_mem_cons.mp valid
      obtain ⟨bytes, -, -, decodes⟩ := own.stored.decodes
      exact .head (.store (VtpmKey.decode_handle decodes) own.stored.range own.named) (ih valid _)

/-- The keys that `new` loads come from records. -/
theorem recordAt_of_storeAll {crypto : Libcrypto} {dir : Directory} {records : List Record}
    {registry : Registry} (valid : ∀ record ∈ records, record.Valid crypto dir)
    (fromRecords : ∀ v key, registry.key v = some key → ∃ path, RecordAt dir path v key)
    (v : UInt32) (key : VtpmKey) (live : (registry.storeAll records).key v = some key) :
    ∃ path, RecordAt dir path v key := by
  induction records generalizing registry with
  | nil => exact fromRecords v key live
  | cons record records ih =>
      obtain ⟨own, valid⟩ := List.forall_mem_cons.mp valid
      refine @ih (registry.store record.handle record.key record.name) valid ?_ live
      intro w key' live'
      rcases Registry.key_store_eq_some.mp live' with ⟨rfl, rfl⟩ | ⟨-, live'⟩
      · exact ⟨_, own.stored⟩
      · exact fromRecords w key' live'

theorem isTransient_skipUsed {cache : VtpmCache} (next : IsTransient cache.nextVirtualHandle)
    (range : ∀ v key, cache.contexts.lookup v = some key → IsTransient v ∨ IsPersistent v) :
    IsTransient cache.skipUsed.nextVirtualHandle := by
  unfold skipUsed
  split
  · exact next
  next maxHandle found =>
    have choice : Std.MaxEqOr UInt32 := ⟨fun a b => (ite_eq_or_eq (a ≤ b) b a).symm⟩
    split
    · obtain ⟨key, live⟩ := Option.isSome_iff_exists.mp
        (AList.lookup_isSome.mpr (List.max?_mem found))
      exact isTransient_nextAfter (range maxHandle key live)
    · exact next

/-- What `new` builds: the records of some files, stored over the supplied handles. -/
structure Opened (crypto : Libcrypto) (supplied : HashMap Tpm2bName TpmHandle) (dir : Directory)
    (records : List Record) (cache : VtpmCache) : Prop where
  paths : (records.map Record.path).Nodup
  valid : ∀ record ∈ records, record.Valid crypto dir
  registry : cache.registry = (Registry.initial supplied).storeAll records
  dirty : cache.dirty = ∅
  next : IsTransient cache.nextVirtualHandle
  persistent : ∀ n handle, supplied.lookup n = some handle → IsPersistent handle.value

theorem checkHandles_eq_ok {handles : List TpmHandle} :
    checkHandles handles = .ok () ↔ ∀ handle ∈ handles, IsPersistent handle.value := by
  induction handles with
  | nil => simp [checkHandles, pure, Except.pure]
  | cons handle handles ih =>
      rw [checkHandles, List.forall_mem_cons, ← ih]
      split
      next persistent => exact (and_iff_right persistent).symm
      next other => exact iff_of_false nofun fun all => other all.1

theorem Opened.steps {crypto : Libcrypto} {supplied : HashMap Tpm2bName TpmHandle} {dir : Directory}
    {records : List Record} {cache : VtpmCache}
    (opened : Opened crypto supplied dir records cache) :
    Registry.Steps crypto (.initial supplied) cache.registry := by
  rw [opened.registry]
  exact steps_storeAll opened.valid _

theorem new_spec {crypto : Libcrypto} {supplied : HashMap Tpm2bName TpmHandle}
    {dir dir' : Directory} {cache : VtpmCache}
    (ok : (new crypto supplied).run dir = .ok cache dir') :
    ∃ records, Opened crypto supplied dir records cache := by
  obtain ⟨_, _, checked, ok⟩ := Fallible.run_bind_eq_ok.mp ok
  obtain ⟨persistent, rfl⟩ := Fallible.run_ofExcept_eq_ok.mp checked
  obtain ⟨_, dir₁, created, ok⟩ := Fallible.run_bind_eq_ok.mp ok
  have kept : Directory.Keeps ∅ dir _ := Directory.createDirAll_keeps dir
  rw [Fallible.run_adaptExcept_eq_ok.mp created, Fallible.after_ok] at kept
  rw [EStateM.run_bind, EStateM.run_get] at ok
  dsimp only at ok
  obtain ⟨paths, records, nodup, loaded⟩ := load_spec crypto
    ⟨∅, supplied, ∅, ∅, dir₁, transientStart⟩
  split at ok
  next e cache₁ ran => cases ok
  next _ cache₁ ran =>
    cases ok
    rw [ran, Fallible.after_ok] at loaded
    have valid : ∀ record ∈ records, record.Valid crypto dir := fun record mem =>
      ⟨(loaded.valid record mem).stored.of_keeps kept (Set.notMem_empty _),
        (loaded.valid record mem).named⟩
    have registry : cache₁.registry = (Registry.initial supplied).storeAll records :=
      loaded.registry
    have steps := steps_storeAll valid (.initial supplied)
    rw [← registry] at steps
    have consistent := Registry.Consistent.initial.steps steps
    refine ⟨records, nodup.sublist loaded.paths, valid, (registry_skipUsed _).trans registry, ?_,
      ?_, fun n handle found => checkHandles_eq_ok.mp persistent handle ?_⟩
    · rw [dirty_skipUsed, loaded.dirty]
    · have first : IsTransient transientStart := by decide
      exact isTransient_skipUsed (loaded.next ▸ first) fun v key live =>
        (consistent.handle v key live).2
    · exact HashMap.mem_values found

end VtpmCache
end Tpm2
