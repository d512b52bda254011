import Tpm2.Vtpm.Run

/-! Which contents of its directory keep a cache from being opened. -/

namespace Tpm2

open ByteCodec

variable {crypto : Libcrypto} {supplied : HashMap Tpm2bName TpmHandle} {dir dir' : Directory}
  {names : Set Bytes} {path : Bytes} {v : UInt32} {key : VtpmKey}

theorem RecordAt.iff_of_keeps (keeps : Directory.Keeps names dir dir') (other : path ∉ names) :
    RecordAt dir' path v key ↔ RecordAt dir path v key :=
  ⟨.of_keeps keeps other, fun record =>
    ⟨record.handle, record.range, (keeps.files path other).symm ▸ record.decodes⟩⟩

/-- Without file errors, a record that decodes is loaded. -/
theorem VtpmKey.load_of_healthy (healthy : dir.Healthy) (record : RecordAt dir path v key) :
    ∃ dir', (load path v).run dir = .ok key dir' := by
  obtain ⟨bytes, found, small, decodes⟩ := record.decodes
  refine ⟨dir.next.next, ?_⟩
  rw [load, EStateM.run_bind, EStateM.run_adaptExcept,
    Directory.metadataLen_of_healthy healthy found]
  dsimp only
  rw [if_neg (Nat.not_lt.mpr small), EStateM.run_bind, EStateM.run_adaptExcept,
    Directory.read_of_healthy healthy.next found]
  dsimp only
  rw [decodes]
  rfl

/-- Every usable record in the file has a name. -/
def Nameable (crypto : Libcrypto) (dir : Directory) (path : Bytes) : Prop :=
  ∀ v key, RecordAt dir path v key → ∃ name, tpmMakeName crypto key.public = .ok name

theorem nameable_iff_of_keeps (keeps : Directory.Keeps names dir dir') (other : path ∉ names) :
    Nameable crypto dir' path ↔ Nameable crypto dir path :=
  forall₂_congr fun v key => by rw [RecordAt.iff_of_keeps keeps other]

namespace VtpmCache

variable {cache : VtpmCache}

theorem loadEntry_ok_iff (healthy : cache.cacheDir.Healthy) :
    (∃ cache', (loadEntry crypto path).run cache = .ok () cache') ↔
      Nameable crypto cache.cacheDir path := by
  unfold loadEntry
  cases named : recordHandle path with
  | none =>
      refine iff_of_true ⟨cache, rfl⟩ fun v key record => ?_
      have handle := record.handle
      rw [named] at handle
      cases handle
  | some v =>
      have only : ∀ w key, RecordAt cache.cacheDir path w key → w = v := by
        intro w key record
        exact Option.some.inj (record.handle.symm.trans named)
      dsimp only
      split
      next range =>
        rw [EStateM.run_bind, Fallible.run_outcome, onDir_run]
        cases loaded : (VtpmKey.load path v).run cache.cacheDir with
        | error e dir =>
            dsimp only
            rw [run_discardFile]
            refine iff_of_true ⟨_, rfl⟩ fun w key record => ?_
            obtain ⟨dir', ok⟩ := VtpmKey.load_of_healthy healthy (only w key record ▸ record)
            rw [loaded] at ok
            cases ok
        | ok key dir =>
            have record : RecordAt cache.cacheDir path v key :=
              ⟨named, range, VtpmKey.load_eq_ok loaded⟩
            dsimp only
            rw [EStateM.run_bind]
            cases computed : tpmMakeName crypto key.public with
            | error e =>
                have failed : keyName crypto key.public = .error .operationFailed := by
                  rw [keyName, computed]
                  rfl
                rw [failed]
                refine iff_of_false nofun fun nameable => ?_
                obtain ⟨name, ok⟩ := nameable v key record
                rw [computed] at ok
                cases ok
            | ok name =>
                rw [keyName_eq_ok.mpr computed]
                refine iff_of_true ⟨_, rfl⟩ fun w key' record' => ?_
                obtain rfl := only w key' record'
                obtain ⟨bytes, found, -, decodes⟩ := record.decodes
                obtain ⟨bytes', found', -, decodes'⟩ := record'.decodes
                rw [found] at found'
                cases found'
                rw [decodes] at decodes'
                cases decodes'
                exact ⟨name, computed⟩
      next range =>
        refine iff_of_true ?_ fun w key record => ?_
        · split
          · rw [run_discardFile]
            exact ⟨_, rfl⟩
          · exact ⟨cache, rfl⟩
        · exact (range (only w key record ▸ record.range)).elim

theorem loadEntries_ok_iff {paths : List Bytes} (nodup : paths.Nodup)
    (healthy : cache.cacheDir.Healthy) :
    (∃ cache', (loadEntries crypto paths).run cache = .ok () cache') ↔
      ∀ path ∈ paths, Nameable crypto cache.cacheDir path := by
  induction paths generalizing cache with
  | nil => exact iff_of_true ⟨cache, rfl⟩ (by simp)
  | cons path paths ih =>
      obtain ⟨other, nodup⟩ := List.nodup_cons.mp nodup
      have first : (∃ cache', (loadEntry crypto path).run cache = .ok () cache') ↔
          Nameable crypto cache.cacheDir path := loadEntry_ok_iff healthy
      have loaded := loadEntry_spec crypto path cache
      rw [loadEntries, EStateM.run_bind, List.forall_mem_cons, ← first]
      cases ran : (loadEntry crypto path).run cache with
      | error e cache' =>
          apply iff_of_false
          · rintro ⟨_, ok⟩
            cases ok
          · rintro ⟨⟨_, ok⟩, -⟩
            cases ok
      | ok _ cache' =>
          rw [ran, Fallible.after_ok] at loaded
          have rest := ih nodup (loaded.keeps.healthy healthy)
          dsimp only
          rw [rest, and_iff_right ⟨cache', rfl⟩]
          exact forall₂_congr fun path' mem => nameable_iff_of_keeps loaded.keeps fun same =>
            other (Set.mem_singleton_iff.mp same ▸ mem)

theorem load_ok_iff (healthy : cache.cacheDir.Healthy) :
    (∃ cache', (load crypto).run cache = .ok () cache') ↔
      ∀ path, Nameable crypto cache.cacheDir path := by
  obtain ⟨dir', listed⟩ := Directory.readDir_of_healthy healthy
  have kept : Directory.Keeps ∅ cache.cacheDir _ := Directory.readDir_keeps cache.cacheDir
  rw [listed, Fallible.after_ok] at kept
  have entries : (∃ cache', (loadEntries crypto cache.cacheDir.files.keys).run
    (cache.withDir dir') =
      .ok () cache') ↔ _ :=
    loadEntries_ok_iff cache.cacheDir.files.keys_nodup (kept.healthy healthy)
  rw [load, EStateM.run_bind, Fallible.run_outcome, onDir_run, EStateM.run_adaptExcept, listed]
  dsimp only
  rw [entries]
  have same : ∀ path, Nameable crypto dir' path ↔ Nameable crypto cache.cacheDir path :=
    fun path => nameable_iff_of_keeps kept (Set.notMem_empty path)
  constructor
  · intro all path v key record
    obtain ⟨bytes, found, -⟩ := record.decodes
    have mem : path ∈ cache.cacheDir.files := AList.lookup_isSome.mp (by rw [found]; rfl)
    exact (same path).mp (all path (AList.mem_keys.mp mem)) v key record
  · exact fun all path _ => (same path).mpr (all path)

/-- The keys of a new cache come from records of its directory. -/
theorem recordAt_of_new (ok : (new crypto supplied).run dir = .ok cache dir') (v : UInt32)
    (key : VtpmKey) (live : cache.contexts.lookup v = some key) :
    ∃ path, RecordAt dir path v key := by
  obtain ⟨records, opened⟩ := new_spec ok
  rw [← key_registry, opened.registry] at live
  exact recordAt_of_storeAll opened.valid (by simp [Registry.initial]) v key live

/-- Without file errors and with persistent handles, a new cache is what loading its directory makes
of an empty one. -/
theorem run_new (healthy : dir.Healthy)
    (persistent : ∀ n handle, supplied.lookup n = some handle → IsPersistent handle.value) :
    (new crypto supplied).run dir =
      match (load crypto).run ⟨∅, supplied, ∅, ∅, dir.next, transientStart⟩ with
      | .error e cache => .error e cache.cacheDir
      | .ok () cache => .ok cache.skipUsed cache.cacheDir := by
  have checked : checkHandles supplied.values = .ok () := by
    refine checkHandles_eq_ok.mpr fun handle mem => ?_
    obtain ⟨entry, isEntry, rfl⟩ := List.mem_map.mp mem
    exact persistent entry.1 entry.2 (HashMap.mem_entries.mp isEntry)
  rw [new, EStateM.run_bind, checked, Fallible.run_ofExcept_ok]
  dsimp only
  rw [EStateM.run_bind, EStateM.run_adaptExcept, Directory.createDirAll_of_healthy healthy]
  dsimp only
  rw [EStateM.run_bind, EStateM.run_get]
  dsimp only
  cases (load crypto).run ⟨∅, supplied, ∅, ∅, dir.next, transientStart⟩ <;> rfl

/-- Without file errors and with persistent handles, the cache opens, on nothing but records of its
directory, exactly when every record that decodes has a name. -/
theorem new_ok_iff (healthy : dir.Healthy)
    (persistent : ∀ n handle, supplied.lookup n = some handle → IsPersistent handle.value) :
    (∃ cache dir', (new crypto supplied).run dir = .ok cache dir' ∧
      ∀ v key, cache.contexts.lookup v = some key → ∃ path, RecordAt dir path v key) ↔
    ∀ path, Nameable crypto dir path := by
  have kept : Directory.Keeps ∅ dir _ := Directory.createDirAll_keeps dir
  rw [Directory.createDirAll_of_healthy healthy, Fallible.after_ok] at kept
  let opened : VtpmCache := ⟨∅, supplied, ∅, ∅, dir.next, transientStart⟩
  have loads : (∃ cache', (load crypto).run opened = .ok () cache') ↔ _ :=
    load_ok_iff healthy.next
  refine Iff.trans ⟨?_, ?_⟩ (loads.trans (forall_congr' fun path =>
    nameable_iff_of_keeps kept (Set.notMem_empty path)))
  · rintro ⟨cache, dir', ok, -⟩
    rw [run_new healthy persistent] at ok
    split at ok
    next => cases ok
    next cache' ran => exact ⟨cache', ran⟩
  · rintro ⟨cache', ran⟩
    have ok : (new crypto supplied).run dir = .ok cache'.skipUsed cache'.cacheDir := by
      rw [run_new healthy persistent, ran]
    exact ⟨_, _, ok, recordAt_of_new ok⟩

/-- A directory with the record of one key, whose public area has the name algorithm `nameAlg`. -/
def recordDir (nameAlg : TpmAlgId) : Directory :=
  let key : VtpmKey := ⟨.new version, .new 0x80000000, { samplePublic 1 with nameAlg }, noParent,
    sampleContext, []⟩
  ⟨(∅ : HashMap Bytes Bytes).insert (binName 0x80000000) (key.record.toOption.getD []), [], 1⟩

theorem new_ok_iff_record : ∃ cache dir', (new sampleCrypto ∅).run (recordDir .sha256) =
    .ok cache dir' := by
  have healthy : (recordDir .sha256).Healthy := by simp [Directory.Healthy, recordDir]
  obtain ⟨cache, dir', ok, -⟩ := (@new_ok_iff sampleCrypto ∅ _ healthy (by simp)).mpr
    fun path v key record => by
      obtain ⟨bytes, found, -, decodes⟩ := record.decodes
      rw [recordDir, HashMap.lookup_insert_ite] at found
      split at found
      next same =>
        have handle := record.handle
        rw [same] at handle
        obtain rfl : v = 0x80000000 := Option.some.inj (handle.symm.trans (by decide +kernel))
        have own : (VtpmKey.decode bytes 0x80000000).map VtpmKey.public = .ok (samplePublic 1) := by
          cases found
          decide +kernel
        rw [decodes] at own
        rw [Except.ok.inj own]
        exact ⟨sampleName, by decide +kernel⟩
      next => simp at found
  exact ⟨cache, dir', ok⟩

/-- A record without a name algorithm decodes, but no cache opens on its directory. -/
theorem new_fails : ¬ ∀ crypto supplied dir, Directory.Healthy dir →
    (∀ n handle, AList.lookup n supplied = some handle → IsPersistent handle.value) →
      ∃ cache dir', (new crypto supplied).run dir = .ok cache dir' := by
  intro claim
  obtain ⟨cache, dir', ok⟩ := claim sampleCrypto ∅ (recordDir .null)
    (by simp [Directory.Healthy, recordDir]) (by simp)
  have failed : (Fallible.value? ((new sampleCrypto ∅).run (recordDir .null))).isSome = false := by
    decide +kernel
  rw [ok] at failed
  cases failed

end VtpmCache
end Tpm2
