import Tpm2.Vtpm.FileName
import Tpm2.Vtpm.Record
import Tpm2.Vtpm.Run

/-! What the operations on the cache do to the files of its directory: a context that is not dirty
has its record there, and there are no other records. -/

namespace Tpm2

open ByteCodec Directory

/-- The temporary file of `path`. -/
def tempOf (dir : Directory) (path : Bytes) : Bytes := tempName path dir.processId

/-- The file `path` is written by way of its temporary file. -/
def writeTemp (temp bytes : Bytes) : Fallible IoError Directory Unit := do
  createFile temp
  writeAll temp bytes
  syncAll

theorem writeTemp_keeps (temp bytes : Bytes) : Fallible.Moves (Keeps {temp})
    (writeTemp temp bytes) :=
  .bind .trans (createFile_keeps temp) fun _ => .bind .trans (writeAll_keeps temp bytes) fun _ =>
    syncAll_keeps

theorem writeTemp_drains (temp bytes : Bytes) : Fallible.Moves Drains (writeTemp temp bytes) :=
  .bind .trans (createFile_drains temp) fun _ => .bind .trans (writeAll_drains temp bytes) fun _ =>
    syncAll_drains

theorem run_writeAtomic (path bytes : Bytes) (dir : Directory) :
    (writeAtomic path bytes).run dir =
      match (writeTemp (tempOf dir path) bytes).run dir with
      | .error e dir' => .error e (Fallible.after ((removeFile (tempOf dir path)).run dir'))
      | .ok () dir' =>
          match (rename (tempOf dir path) path).run dir' with
          | .error e dir'' => .error e (Fallible.after ((removeFile (tempOf dir path)).run dir''))
          | .ok () dir'' => .ok () dir'' := by
  rw [writeAtomic, EStateM.run_bind, EStateM.run_get]
  dsimp only
  rw [EStateM.run_bind, Fallible.run_outcome]
  unfold writeTemp tempOf
  generalize EStateM.run (createFile _ >>= _) dir = written
  cases written with
  | error e dir' =>
      dsimp only
      rw [EStateM.run_bind, Fallible.run_outcome]
      cases (removeFile _).run dir' <;> rfl
  | ok _ dir' =>
      dsimp only
      rw [EStateM.run_bind, Fallible.run_outcome]
      cases (rename _ _).run dir' with
      | error e dir'' =>
          dsimp only
          rw [EStateM.run_bind, Fallible.run_outcome]
          cases (removeFile _).run dir'' <;> rfl
      | ok _ dir'' => rfl

theorem writeAtomic_drains (path bytes : Bytes) :
    Fallible.Moves Drains (writeAtomic path bytes) := by
  intro dir
  have written := writeTemp_drains (tempOf dir path) bytes dir
  rw [run_writeAtomic]
  cases ran : (writeTemp (tempOf dir path) bytes).run dir with
  | error e dir' =>
      rw [ran] at written
      exact written.trans (removeFile_drains _ _)
  | ok _ dir' =>
      rw [ran] at written
      have renamed := rename_drains (tempOf dir path) path dir'
      dsimp only
      cases ran' : (rename (tempOf dir path) path).run dir' with
      | error e dir'' =>
          rw [ran'] at renamed
          exact (written.trans renamed).trans (removeFile_drains _ _)
      | ok _ dir'' =>
          rw [ran'] at renamed
          exact written.trans renamed

/-- A write that fails leaves all files but the temporary one as they were. -/
theorem writeAtomic_fails {path bytes : Bytes} {dir dir' : Directory} {e : IoError}
    (failed : (writeAtomic path bytes).run dir = .error e dir') :
    Keeps {tempOf dir path} dir dir' := by
  have written := writeTemp_keeps (tempOf dir path) bytes dir
  rw [run_writeAtomic] at failed
  cases ran : (writeTemp (tempOf dir path) bytes).run dir with
  | error e' dir₁ =>
      rw [ran] at written failed
      cases failed
      exact written.trans (removeFile_keeps _ _)
  | ok _ dir₁ =>
      rw [ran] at written failed
      dsimp only at failed
      rcases run_rename (tempOf dir path) path dir₁ with ⟨content, -, renamed⟩ | ⟨e', renamed⟩
      · rw [renamed] at failed
        cases failed
      · rw [renamed] at failed
        cases failed
        have same : Keeps {tempOf dir path} dir₁ dir₁.next :=
          keeps_faults fun _ => List.mem_of_mem_tail
        exact (written.trans same).trans (removeFile_keeps _ _)

theorem writeTemp_ok {temp bytes : Bytes} {dir dir' : Directory}
    (ok : (writeTemp temp bytes).run dir = .ok () dir') (name : Bytes) :
    dir'.files.lookup name = if name = temp then some bytes else dir.files.lookup name := by
  obtain ⟨_, dir₁, created, ok⟩ := Fallible.run_bind_eq_ok.mp ok
  obtain ⟨_, dir₂, filled, synced⟩ := Fallible.run_bind_eq_ok.mp ok
  obtain rfl := createFile_eq_ok created
  obtain rfl := writeAll_eq_ok filled
  obtain rfl := syncAll_eq_ok synced
  change ((dir.files.insert temp []).insert temp bytes).lookup name = _
  rw [HashMap.lookup_insert_ite, HashMap.lookup_insert_ite]
  split <;> rfl

/-- A write that succeeds puts the bytes into the file, and nothing stays of the temporary one. -/
theorem writeAtomic_ok {path bytes : Bytes} {dir dir' : Directory}
    (ok : (writeAtomic path bytes).run dir = .ok () dir') (name : Bytes) :
    dir'.files.lookup name = if name = path then some bytes
      else if name = tempOf dir path then none else dir.files.lookup name := by
  rw [run_writeAtomic] at ok
  cases ran : (writeTemp (tempOf dir path) bytes).run dir with
  | error e dir₁ =>
      rw [ran] at ok
      cases ok
  | ok _ dir₁ =>
      have written := writeTemp_ok ran
      rw [ran] at ok
      dsimp only at ok
      rcases run_rename (tempOf dir path) path dir₁ with ⟨content, found, renamed⟩ | ⟨e, renamed⟩
      · rw [renamed] at ok
        cases ok
        rw [written, if_pos rfl] at found
        obtain rfl := Option.some.inj found
        rw [files_withFiles, HashMap.lookup_insert_ite, HashMap.lookup_erase_ite, written]
        split
        · rfl
        split <;> rfl
      · rw [renamed] at ok
        cases ok

/-- Deleting a record removes its file alone, or fails and changes nothing, where no file that is
there is reported as missing. -/
theorem run_delete_truthful (key : VtpmKey) {dir : Directory} (truthful : dir.Truthful) :
    (∃ dir', key.delete.run dir = .ok () dir' ∧ Drains dir dir' ∧ ∀ name,
      dir'.files.lookup name = if name = binName key.handle.value then none
        else dir.files.lookup name) ∨
    ∃ e, key.delete.run dir = .error e dir.next := by
  rw [VtpmKey.delete, EStateM.run_bind, Fallible.run_outcome]
  rcases removeFile_cases (binName key.handle.value) dir with
    ran | ⟨missing, ran⟩ | ⟨fault, struck, ran⟩
  · rw [ran]
    exact .inl ⟨_, rfl, drains_next dir, HashMap.lookup_erase_ite dir.files _⟩
  · rw [ran]
    refine .inl ⟨_, rfl, drains_next dir, fun name => ?_⟩
    split
    next same => exact same ▸ missing
    next => rfl
  · rw [ran]
    have present := truthful fault struck
    dsimp only
    cases error : fault.error with
    | notFound => exact (present error).elim
    | other code => exact .inr ⟨_, rfl⟩

theorem VtpmKey.run_save (key : VtpmKey) (path : Bytes) (dir : Directory) :
    (key.save path).run dir = match key.record with
      | .error e => .error e dir
      | .ok bytes =>
          match (writeAtomic path bytes).run dir with
          | .error e dir' => .error (.io e) dir'
          | .ok () dir' => .ok () dir' := by
  rw [save, EStateM.run_bind]
  cases key.record with
  | error e => rfl
  | ok bytes =>
      rw [Fallible.run_ofExcept_ok]
      dsimp only
      rw [EStateM.run_adaptExcept]
      cases (writeAtomic path bytes).run dir <;> rfl

namespace VtpmCache

/-- What the directory holds between the operations: the record of every live context that is not
dirty, and of no handle that is not live. -/
structure Synced (cache : VtpmCache) : Prop where
  truthful : cache.cacheDir.Truthful
  live : ∀ name v bytes, recordHandle name = some v →
    cache.cacheDir.files.lookup name = some bytes →
      name = binName v ∧ ∃ key, cache.contexts.lookup v = some key
  stored : ∀ v key, cache.contexts.lookup v = some key → v ∉ cache.dirty →
    ∃ bytes, key.record = .ok bytes ∧ cache.cacheDir.files.lookup (binName v) = some bytes
  current : ∀ v key, cache.contexts.lookup v = some key →
    key.version = .new version ∧ key.handle.value = v

variable {crypto : Libcrypto} {supplied : HashMap Tpm2bName TpmHandle} {dir dir' : Directory}
  {Meets : VtpmCache → Op → Prop} {cache cache' : VtpmCache} {v : UInt32} {key : VtpmKey}

namespace Synced

/-- Only the lookups matter, and the files of records. -/
theorem congr (synced : Synced cache)
    (contexts : ∀ v, cache'.contexts.lookup v = cache.contexts.lookup v)
    (dirty : ∀ v, v ∈ cache'.dirty ↔ v ∈ cache.dirty)
    (drains : Drains cache.cacheDir cache'.cacheDir)
    (files : ∀ name, (recordHandle name).isSome →
      cache'.cacheDir.files.lookup name = cache.cacheDir.files.lookup name) : Synced cache' where
  truthful := drains.truthful synced.truthful
  live name v bytes handle found := by
    rw [files name (by rw [handle]; rfl)] at found
    rw [contexts]
    exact synced.live name v bytes handle found
  stored v key live clean := by
    rw [contexts] at live
    rw [dirty] at clean
    rw [files _ (by simp)]
    exact synced.stored v key live clean
  current v key live := synced.current v key (contexts v ▸ live)

/-- Taking a fault off the list, or writing to other files than records, changes nothing. -/
theorem withDir (synced : Synced cache) (drains : Drains cache.cacheDir dir)
    (files : ∀ name, (recordHandle name).isSome →
      dir.files.lookup name = cache.cacheDir.files.lookup name) : Synced (cache.withDir dir) :=
  synced.congr (fun _ => rfl) (fun _ => .rfl) drains files

/-- A key that is put into the cache is dirty. -/
theorem insert (synced : Synced cache) (now : key.version = .new version)
    (handle : key.handle.value = v) (name : Tpm2bName) (next : UInt32) :
    Synced { (cache.insertKey v key name).markDirty v with nextVirtualHandle := next } := by
  constructor
  case truthful => exact cacheDir_insertKey cache v key name ▸ synced.truthful
  case live =>
    intro name' w bytes named found
    change (cache.insertKey v key name).cacheDir.files.lookup name' = some bytes at found
    rw [cacheDir_insertKey] at found
    obtain ⟨own, key', live⟩ := synced.live name' w bytes named found
    refine ⟨own, ?_⟩
    change ∃ key', (cache.insertKey v key name).contexts.lookup w = some key'
    rw [contexts_insertKey, HashMap.lookup_insert_ite]
    split
    · exact ⟨key, rfl⟩
    · exact ⟨key', live⟩
  case stored =>
    intro w key' live clean
    change (cache.insertKey v key name).contexts.lookup w = some key' at live
    change w ∉ (cache.insertKey v key name).dirty.insert v () at clean
    change ∃ bytes, _ ∧ (cache.insertKey v key name).cacheDir.files.lookup (binName w) = some bytes
    rw [dirty_insertKey, AList.mem_insert, not_or] at clean
    rw [contexts_insertKey, AList.lookup_insert_ne clean.1] at live
    rw [cacheDir_insertKey]
    exact synced.stored w key' live clean.2
  case current =>
    intro w key' live
    change (cache.insertKey v key name).contexts.lookup w = some key' at live
    rw [contexts_insertKey, HashMap.lookup_insert_ite] at live
    split at live
    next same =>
      cases live
      exact ⟨now, same ▸ handle⟩
    next => exact synced.current w key' live

/-- A context goes together with its file. -/
theorem takeOut (synced : Synced cache) (drains : Drains cache.cacheDir dir)
    (files : ∀ name, dir.files.lookup name =
      if name = binName v then none else cache.cacheDir.files.lookup name) :
    Synced ((cache.withDir dir).takeOut v) := by
  have cacheDir : ((cache.withDir dir).takeOut v).cacheDir = dir := by
    simp only [VtpmCache.takeOut, cacheDir_unpublishName]
    rfl
  have dirty : ((cache.withDir dir).takeOut v).dirty = cache.dirty.erase v := by
    simp only [VtpmCache.takeOut, dirty_unpublishName]
    rfl
  have contexts (w : UInt32) : ((cache.withDir dir).takeOut v).contexts.lookup w =
      if w = v then none else cache.contexts.lookup w := by
    rw [contexts_takeOut]
    exact HashMap.lookup_erase_ite cache.contexts v w
  constructor
  case truthful =>
    rw [cacheDir]
    exact drains.truthful synced.truthful
  case live =>
    intro name w bytes named found
    rw [cacheDir, files] at found
    split at found
    · cases found
    next other =>
      obtain ⟨own, key, live⟩ := synced.live name w bytes named found
      have stays : w ≠ v := fun same => other (same ▸ own)
      exact ⟨own, key, by rw [contexts, if_neg stays, live]⟩
  case stored =>
    intro w key live clean
    rw [contexts] at live
    split at live
    · cases live
    next other =>
      have before : w ∉ cache.dirty := by
        intro mem
        rw [dirty, AList.mem_erase] at clean
        exact clean ⟨other, mem⟩
      rw [cacheDir, files, if_neg fun same => other (binName_injective same)]
      exact synced.stored w key live before
  case current =>
    intro w key live
    rw [contexts] at live
    split at live
    · cases live
    · exact synced.current w key live

/-- A context whose record has been written is no longer dirty. -/
theorem written (synced : Synced cache) (live : cache.contexts.lookup v = some key) {bytes : Bytes}
    (saved : key.record = .ok bytes) (drains : Drains cache.cacheDir dir)
    (files : ∀ name, (recordHandle name).isSome → dir.files.lookup name =
      if name = binName v then some bytes else cache.cacheDir.files.lookup name) :
    Synced ((cache.withDir dir).clearDirty v) where
  truthful := drains.truthful synced.truthful
  live name w content handle found := by
    change dir.files.lookup name = some content at found
    rw [files name (by rw [handle]; rfl)] at found
    split at found
    next own =>
      rw [own, recordHandle_binName] at handle
      cases handle
      exact ⟨own, key, live⟩
    next => exact synced.live name w content handle found
  stored w key' live' clean := by
    change ∃ bytes, _ ∧ dir.files.lookup (binName w) = some bytes
    rw [files _ (by simp)]
    split
    next own =>
      obtain rfl := binName_injective own
      have same : cache.contexts.lookup w = some key' := live'
      rw [live] at same
      cases same
      exact ⟨bytes, saved, rfl⟩
    next other =>
      refine synced.stored w key' live' fun mem => clean ?_
      have different : w ≠ v := fun same => other (congrArg binName same)
      exact AList.mem_erase.mpr ⟨different, mem⟩
  current := synced.current

/-- A handle without a context need not be saved. -/
theorem clearDirty (synced : Synced cache) (dead : cache.contexts.lookup v = none) :
    Synced (cache.clearDirty v) where
  truthful := synced.truthful
  live := synced.live
  stored w key live clean := by
    refine synced.stored w key live fun mem => clean (AList.mem_erase.mpr ⟨?_, mem⟩)
    rintro rfl
    rw [show cache.contexts.lookup w = some key from live] at dead
    cases dead
  current := synced.current

end Synced

theorem run_saveContext (v : UInt32) (cache : VtpmCache) :
    (saveContext v).run cache = match cache.contexts.lookup v with
      | none => .ok () (cache.clearDirty v)
      | some key =>
          match (key.save (binName v)).run cache.cacheDir with
          | .error e dir => .error e (cache.withDir dir)
          | .ok () dir => .ok () ((cache.withDir dir).clearDirty v) := by
  rw [saveContext, EStateM.run_bind, EStateM.run_get]
  dsimp only
  cases cache.contexts.lookup v with
  | none => rfl
  | some key =>
      dsimp only
      rw [EStateM.run_bind, onDir_run]
      cases (key.save (binName v)).run cache.cacheDir <;> rfl

theorem saveContext_synced (v : UInt32) :
    Fallible.Moves (fun a b => Synced a → Synced b) (saveContext v) := by
  intro cache synced
  rw [run_saveContext]
  cases live : cache.contexts.lookup v with
  | none => exact synced.clearDirty live
  | some key =>
      dsimp only
      rw [VtpmKey.run_save]
      cases saved : key.record with
      | error e => exact synced.withDir (.refl _) fun _ _ => rfl
      | ok bytes =>
          have drains := writeAtomic_drains (binName v) bytes cache.cacheDir
          -- the temporary file is not the file of a record
          have other {name : Bytes} (isRecord : (recordHandle name).isSome) :
              name ≠ tempOf cache.cacheDir (binName v) := by
            rintro rfl
            rw [tempOf, recordHandle_tempName] at isRecord
            cases isRecord
          dsimp only
          cases ran : (writeAtomic (binName v) bytes).run cache.cacheDir with
          | error e dir =>
              rw [ran] at drains
              exact synced.withDir drains fun name isRecord =>
                (writeAtomic_fails ran).files name (other isRecord)
          | ok _ dir =>
              rw [ran] at drains
              refine synced.written live saved drains fun name isRecord => ?_
              rw [writeAtomic_ok ran, if_neg (other isRecord)]

theorem saveAll_synced (handles : List UInt32) :
    Fallible.Moves (fun a b => Synced a → Synced b) (saveAll handles) := by
  induction handles with
  | nil => exact .pure (fun _ => id) ()
  | cons v handles ih =>
      exact .bind (fun first second synced => second (first synced)) (saveContext_synced v)
        fun _ => ih

theorem flush_synced : Fallible.Moves (fun a b => Synced a → Synced b) flush := by
  intro cache
  exact saveAll_synced cache.dirty.keys cache

/-- Every operation keeps the directory in step with the contexts, however it ends. -/
theorem Synced.perform (synced : Synced cache) (op : Op) : Synced (cache.perform crypto op) := by
  cases op with
  | saveTransient context pub parent policy =>
      rcases after_saveTransient crypto context pub parent policy cache with
        same | ⟨v, name, -, -, stored⟩
      · rw [VtpmCache.perform, same]
        exact synced
      · rw [VtpmCache.perform, stored]
        exact synced.insert rfl (TpmInt.value_new v) name _
  | savePersistent handle pub parent policy =>
      rcases after_savePersistent crypto handle pub parent policy cache with
        same | ⟨name, -, -, stored⟩
      · rw [VtpmCache.perform, same]
        exact synced
      · rw [VtpmCache.perform, stored]
        have now : (VtpmKey.mk (.new version) handle pub parent persistentContext
          (policy.getD [])).version = .new version := rfl
        exact synced.insert now rfl name _
  | remove handle =>
      refine remove_moves (R := fun a b => Synced a → Synced b) (fun _ => id)
        (fun first second synced => second (first synced)) ?failed ?taken handle cache synced
      case failed =>
        intro cache v key e dir live deletes synced
        rcases run_delete_truthful key synced.truthful with ⟨dir', ran, -⟩ | ⟨e', ran⟩
        · rw [ran] at deletes
          cases deletes
        · rw [ran] at deletes
          cases deletes
          exact synced.withDir (drains_next _) fun _ _ => rfl
      case taken =>
        intro cache v key dir live deletes synced
        rcases run_delete_truthful key synced.truthful with ⟨dir', ran, drains, files⟩ | ⟨e', ran⟩
        · rw [ran] at deletes
          cases deletes
          rw [(synced.current v key live).2] at files
          exact synced.takeOut drains files
        · rw [ran] at deletes
          cases deletes
  | flush => exact flush_synced cache synced

end VtpmCache
end Tpm2
