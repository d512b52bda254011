import Tpm2.Algorithm.Fallible
import Tpm2.Algorithm.HashMap
import Tpm2.ByteCodec.BigEndian
import Mathlib.Data.Set.Insert

/-! A directory of files whose operations may fail. -/

open ByteCodec

/-- `std::io::Error`: only one of its kinds is told apart. -/
inductive IoError
  | notFound
  | other (code : Nat)
  deriving DecidableEq

/-- How an operation fails; one that writes has written the first `written` bytes by then. -/
structure Fault where
  error : IoError
  written : Nat
  deriving DecidableEq

/-- The files of a directory, and how its next operations fare: each takes one entry of `faults`,
and all succeed when none is left. -/
structure Directory where
  files : HashMap Bytes Bytes
  faults : List (Option Fault)
  /-- `process::id()` of the process that works on the directory. -/
  processId : Nat

namespace Directory

variable {α : Type}

/-- The same directory with other files. -/
def withFiles (dir : Directory) (files : HashMap Bytes Bytes) : Directory := { dir with files }

@[simp] theorem files_withFiles (dir : Directory) (files : HashMap Bytes Bytes) :
    (dir.withFiles files).files = files := rfl
@[simp] theorem faults_withFiles (dir : Directory) (files : HashMap Bytes Bytes) :
    (dir.withFiles files).faults = dir.faults := rfl

/-- Carries out `effect`, or `failed` where a fault strikes. -/
def attempt (failed : Fault → Directory → Directory) (effect : Fallible IoError Directory α) :
    Fallible IoError Directory α := fun dir =>
  match dir.faults with
  | [] => effect dir
  | none :: faults => effect { dir with faults }
  | some fault :: faults => .error fault.error (failed fault { dir with faults })

/-- The content of a file. -/
def content (name : Bytes) : Fallible IoError Directory Bytes := fun dir =>
  match dir.files.lookup name with
  | some bytes => .ok bytes dir
  | none => .error .notFound dir

/-- `fs::create_dir_all`. -/
def createDirAll : Fallible IoError Directory Unit := attempt (fun _ dir => dir) (pure ())

/-- One entry that `fs::read_dir` yields. -/
def readEntry (name : Bytes) : Fallible IoError Directory Bytes :=
  attempt (fun _ dir => dir) (pure name)

/-- The entries that can be read: `entries.filter_map(Result::ok)`. -/
def readEntries : List Bytes → Fallible IoError Directory (List Bytes)
  | [] => pure []
  | name :: names => do
      let entry ← Fallible.outcome (readEntry name)
      let entries ← readEntries names
      return entry.toOption.toList ++ entries

/-- `fs::read_dir`. -/
def readDir : Fallible IoError Directory (List Bytes) := do
  attempt (fun _ dir => dir) (pure ())
  readEntries (← get).files.keys

/-- `fs::metadata(path)?.len()`. -/
def metadataLen (name : Bytes) : Fallible IoError Directory Nat :=
  attempt (fun _ dir => dir) do return (← content name).length

/-- `fs::read`. -/
def read (name : Bytes) : Fallible IoError Directory Bytes :=
  attempt (fun _ dir => dir) (content name)

/-- `fs::remove_file`. -/
def removeFile (name : Bytes) : Fallible IoError Directory Unit :=
  attempt (fun _ dir => dir) do
    let _ ← content name
    modify fun dir => dir.withFiles (dir.files.erase name)

/-- `File::create`: the file is empty afterwards. -/
def createFile (name : Bytes) : Fallible IoError Directory Unit :=
  attempt (fun _ dir => dir) (modify fun dir => dir.withFiles (dir.files.insert name []))

/-- `file.write_all(bytes)` on the empty file `name`. -/
def writeAll (name bytes : Bytes) : Fallible IoError Directory Unit :=
  attempt (fun fault dir => dir.withFiles (dir.files.insert name (bytes.take fault.written)))
    (modify fun dir => dir.withFiles (dir.files.insert name bytes))

/-- `file.sync_all()`. -/
def syncAll : Fallible IoError Directory Unit := attempt (fun _ dir => dir) (pure ())

/-- `fs::rename`. -/
def rename (source target : Bytes) : Fallible IoError Directory Unit :=
  attempt (fun _ dir => dir) do
    let bytes ← content source
    modify fun dir => dir.withFiles ((dir.files.erase source).insert target bytes)

/-- All operations succeed. -/
def Healthy (dir : Directory) : Prop := ∀ fault ∈ dir.faults, fault = none

/-- The files outside `names` are as they were. -/
structure Keeps (names : Set Bytes) (dir dir' : Directory) : Prop where
  processId : dir'.processId = dir.processId
  files : ∀ name ∉ names, dir'.files.lookup name = dir.files.lookup name
  healthy : dir.Healthy → dir'.Healthy

section
variable {names names' : Set Bytes} {dir dir' dir'' : Directory} {name : Bytes}
  {failed : Fault → Directory → Directory} {effect : Fallible IoError Directory α}

theorem Keeps.refl (dir : Directory) : Keeps names dir dir := ⟨rfl, fun _ _ => rfl, id⟩

theorem Keeps.trans (h : Keeps names dir dir') (h' : Keeps names dir' dir'') :
    Keeps names dir dir'' :=
  ⟨h'.processId.trans h.processId,
    fun name other => (h'.files name other).trans (h.files name other), h'.healthy ∘ h.healthy⟩

theorem Keeps.mono (subset : names ⊆ names') (h : Keeps names dir dir') : Keeps names' dir dir' :=
  ⟨h.processId, fun name other => h.files name fun mem => other (subset mem), h.healthy⟩

/-- Taking a fault off the list changes no file. -/
theorem keeps_faults {faults : List (Option Fault)} (subset : ∀ f ∈ faults, f ∈ dir.faults) :
    Keeps names dir { dir with faults } :=
  ⟨rfl, fun _ _ => rfl, fun healthy fault mem => healthy fault (subset fault mem)⟩

theorem attempt_keeps (failing : ∀ fault dir, Keeps names dir (failed fault dir))
    (moves : Fallible.Moves (Keeps names) effect) :
    Fallible.Moves (Keeps names) (attempt failed effect) := by
  intro dir
  unfold attempt EStateM.run
  dsimp only
  split
  next => exact moves dir
  next faults list =>
    exact (keeps_faults fun f mem => list ▸ List.mem_cons_of_mem _ mem).trans (moves _)
  next fault faults list =>
    exact (keeps_faults fun f mem => list ▸ List.mem_cons_of_mem _ mem).trans (failing fault _)

theorem content_keeps (name : Bytes) : Fallible.Moves (Keeps names) (content name) := by
  intro dir
  unfold content EStateM.run
  dsimp only
  split <;> exact .refl _

theorem withFiles_keeps {files : HashMap Bytes Bytes}
    (same : ∀ name ∉ names, files.lookup name = dir.files.lookup name) :
    Keeps names dir (dir.withFiles files) :=
  ⟨rfl, same, id⟩

theorem createDirAll_keeps : Fallible.Moves (Keeps names) createDirAll :=
  attempt_keeps (fun _ => .refl) (.pure .refl _)

theorem metadataLen_keeps (name : Bytes) : Fallible.Moves (Keeps names) (metadataLen name) :=
  attempt_keeps (fun _ => .refl) (.bind .trans (content_keeps name) fun _ => .pure .refl _)

theorem read_keeps (name : Bytes) : Fallible.Moves (Keeps names) (read name) :=
  attempt_keeps (fun _ => .refl) (content_keeps name)

theorem removeFile_keeps (name : Bytes) : Fallible.Moves (Keeps {name}) (removeFile name) := by
  refine attempt_keeps (fun _ => .refl) (.bind .trans (content_keeps name) fun _ => ?_)
  refine Fallible.moves_modify fun dir => withFiles_keeps fun other different => ?_
  exact AList.lookup_erase_ne different

theorem createFile_keeps (name : Bytes) : Fallible.Moves (Keeps {name}) (createFile name) :=
  attempt_keeps (fun _ => .refl) (Fallible.moves_modify fun _ => withFiles_keeps
    fun _ different => AList.lookup_insert_ne different)

theorem writeAll_keeps (name bytes : Bytes) :
    Fallible.Moves (Keeps {name}) (writeAll name bytes) :=
  attempt_keeps (fun _ _ => withFiles_keeps fun _ different => AList.lookup_insert_ne different)
    (Fallible.moves_modify fun _ => withFiles_keeps
      fun _ different => AList.lookup_insert_ne different)

theorem syncAll_keeps : Fallible.Moves (Keeps names) syncAll :=
  attempt_keeps (fun _ => .refl) (.pure .refl _)

theorem readEntries_keeps (entries : List Bytes) :
    Fallible.Moves (Keeps names) (readEntries entries) := by
  induction entries with
  | nil => exact .pure .refl _
  | cons name entries ih =>
      exact .bind .trans (.outcome (attempt_keeps (fun _ => .refl) (.pure .refl _))) fun _ =>
        .bind .trans ih fun _ => .pure .refl _

theorem readDir_keeps : Fallible.Moves (Keeps names) readDir :=
  .bind .trans (attempt_keeps (fun _ => .refl) (.pure .refl _)) fun _ =>
    .bind .trans (.get .refl) fun dir => readEntries_keeps dir.files.keys

/-- A successful operation is its effect, on a directory with the same files. -/
theorem attempt_eq_ok {a : α} (ok : (attempt failed effect).run dir = .ok a dir') :
    ∃ faults, effect.run { dir with faults } = .ok a dir' := by
  unfold attempt EStateM.run at ok
  dsimp only at ok
  split at ok
  next list => exact ⟨dir.faults, ok⟩
  next faults list => exact ⟨faults, ok⟩
  next fault faults list => cases ok

theorem content_eq_ok {bytes : Bytes} (ok : (content name).run dir = .ok bytes dir') :
    dir.files.lookup name = some bytes ∧ dir' = dir := by
  unfold content EStateM.run at ok
  dsimp only at ok
  split at ok
  next bytes found =>
    cases ok
    exact ⟨found, rfl⟩
  next => cases ok

theorem read_eq_ok {bytes : Bytes} (ok : (read name).run dir = .ok bytes dir') :
    dir.files.lookup name = some bytes := by
  obtain ⟨faults, ok⟩ := attempt_eq_ok ok
  exact (content_eq_ok ok).1

theorem metadataLen_eq_ok {size : Nat} (ok : (metadataLen name).run dir = .ok size dir') :
    ∃ bytes, dir.files.lookup name = some bytes ∧ bytes.length = size := by
  obtain ⟨faults, ok⟩ := attempt_eq_ok ok
  obtain ⟨bytes, _, ok, returned⟩ := Fallible.run_bind_eq_ok.mp ok
  cases returned
  exact ⟨bytes, (content_eq_ok ok).1, rfl⟩

theorem readEntry_eq {entry : Except IoError Bytes}
    (ok : (Fallible.outcome (φ := IoError) (readEntry name)).run dir = .ok entry dir') :
    entry.toOption.toList = [name] ∨ entry.toOption.toList = [] := by
  rw [Fallible.run_outcome] at ok
  split at ok
  next found _ read =>
    obtain ⟨faults, returned⟩ := attempt_eq_ok read
    cases returned
    cases ok
    exact .inl rfl
  next =>
    cases ok
    exact .inr rfl

theorem readEntries_sublist {entries names : List Bytes}
    (ok : (readEntries entries).run dir = .ok names dir') : names.Sublist entries := by
  induction entries generalizing dir names with
  | nil =>
      cases ok
      exact .slnil
  | cons name entries ih =>
      obtain ⟨entry, _, first, ok⟩ := Fallible.run_bind_eq_ok.mp ok
      obtain ⟨rest, _, others, returned⟩ := Fallible.run_bind_eq_ok.mp ok
      cases returned
      rcases readEntry_eq first with listed | skipped
      · rw [listed]
        exact (ih others).cons_cons name
      · rw [skipped]
        exact (ih others).cons name

theorem readDir_sublist {names : List Bytes} (ok : (readDir).run dir = .ok names dir') :
    names.Sublist dir.files.keys := by
  obtain ⟨_, opened, begun, ok⟩ := Fallible.run_bind_eq_ok.mp ok
  obtain ⟨faults, begun⟩ := attempt_eq_ok begun
  cases begun
  exact readEntries_sublist ok

/-- The directory once the next operation has taken its fault. -/
def next (dir : Directory) : Directory := { dir with faults := dir.faults.tail }

/-- An operation fails with its fault, or has its effect. -/
theorem run_attempt (failed : Fault → Directory → Directory)
    (effect : Fallible IoError Directory α) (dir : Directory) :
    (∃ f, dir.faults[0]? = some (some f) ∧
      (attempt failed effect).run dir = .error f.error (failed f dir.next)) ∨
    (∀ f, dir.faults[0]? ≠ some (some f)) ∧ (attempt failed effect).run dir =
      effect.run dir.next := by
  obtain ⟨files, faults, processId⟩ := dir
  cases faults with
  | nil => exact .inr ⟨by simp, rfl⟩
  | cons fault faults =>
      cases fault with
      | none => exact .inr ⟨by simp, rfl⟩
      | some fault => exact .inl ⟨fault, rfl, rfl⟩

/-- The operation fails, and not because there is no file. -/
def Stops (fault : Option (Option Fault)) : Prop :=
  ∃ f, fault = some (some f) ∧ f.error ≠ .notFound

theorem Healthy.noFault (healthy : dir.Healthy) (i : Nat) (f : Fault) :
    dir.faults[i]? ≠ some (some f) := by
  intro found
  cases healthy (some f) (List.mem_of_getElem? found)

theorem Healthy.not_stops (healthy : dir.Healthy) (i : Nat) : ¬ Stops dir.faults[i]? :=
  fun ⟨f, found, _⟩ => healthy.noFault i f found

theorem Healthy.next (healthy : dir.Healthy) : dir.next.Healthy :=
  fun fault mem => healthy fault (List.mem_of_mem_tail mem)

/-- Without faults an operation has its effect. -/
theorem Healthy.run_attempt (healthy : dir.Healthy) :
    (attempt failed effect).run dir = effect.run dir.next := by
  rcases Directory.run_attempt failed effect dir with
    ⟨f, found, -⟩ | ⟨-, ran⟩
  · exact (healthy.noFault 0 f found).elim
  · exact ran

/-- Without faults the whole directory is listed. -/
theorem readEntries_of_healthy (entries : List Bytes) (healthy : dir.Healthy) :
    ∃ dir', (readEntries entries).run dir = .ok entries dir' := by
  induction entries generalizing dir with
  | nil => exact ⟨dir, rfl⟩
  | cons name entries ih =>
      obtain ⟨dir', listed⟩ := ih healthy.next
      refine ⟨dir', ?_⟩
      rw [readEntries, EStateM.run_bind, Fallible.run_outcome, readEntry, healthy.run_attempt,
        EStateM.run_pure]
      dsimp only
      rw [EStateM.run_bind, listed]
      rfl

theorem readDir_of_healthy (healthy : dir.Healthy) :
    ∃ dir', readDir.run dir = .ok dir.files.keys dir' := by
  obtain ⟨dir', listed⟩ := readEntries_of_healthy dir.files.keys healthy.next
  refine ⟨dir', ?_⟩
  rw [readDir, EStateM.run_bind, healthy.run_attempt, EStateM.run_pure]
  exact listed

theorem createDirAll_of_healthy (healthy : dir.Healthy) :
    createDirAll.run dir = .ok () dir.next := by
  rw [createDirAll, healthy.run_attempt]
  rfl

theorem run_content (name : Bytes) (dir : Directory) :
    (content name).run dir = match dir.files.lookup name with
      | some bytes => .ok bytes dir
      | none => .error .notFound dir := rfl

/-- Without faults an existing file can be measured and read. -/
theorem metadataLen_of_healthy {bytes : Bytes} (healthy : dir.Healthy)
    (found : dir.files.lookup name = some bytes) :
    (metadataLen name).run dir = .ok bytes.length dir.next := by
  have found' : dir.next.files.lookup name = some bytes := found
  rw [metadataLen, healthy.run_attempt, EStateM.run_bind, run_content, found']
  rfl

theorem read_of_healthy {bytes : Bytes} (healthy : dir.Healthy)
    (found : dir.files.lookup name = some bytes) :
    (read name).run dir = .ok bytes dir.next := by
  have found' : dir.next.files.lookup name = some bytes := found
  rw [read, healthy.run_attempt, run_content, found']

/-- Removing a file takes one fault. If it does not stop there, the file is gone or was missing. -/
theorem run_removeFile (name : Bytes) (dir : Directory) : ∃ dir', dir'.faults = dir.faults.tail ∧
    ((∃ e, Stops dir.faults[0]? ∧ e ≠ .notFound ∧ (removeFile name).run dir = .error e dir') ∨
      ¬ Stops dir.faults[0]? ∧ ((removeFile name).run dir = .ok () dir' ∨
        (removeFile name).run dir = .error .notFound dir')) := by
  unfold removeFile
  rcases run_attempt _ _ dir with ⟨f, found, ran⟩ | ⟨free, ran⟩
  · refine ⟨dir.next, rfl, ?_⟩
    rw [ran]
    by_cases missing : f.error = .notFound
    · refine .inr ⟨?_, .inr (missing ▸ rfl)⟩
      rintro ⟨f', found', stops⟩
      rw [found] at found'
      cases found'
      exact stops missing
    · exact .inl ⟨f.error, ⟨f, found, missing⟩, missing, rfl⟩
  · have goesOn : ¬ Stops dir.faults[0]? := fun ⟨f, found, _⟩ => free f found
    rw [ran, EStateM.run_bind, run_content]
    cases dir.next.files.lookup name with
    | none => exact ⟨dir.next, rfl, .inr ⟨goesOn, .inr rfl⟩⟩
    | some bytes =>
        exact ⟨dir.next.withFiles (dir.next.files.erase name), rfl, .inr ⟨goesOn, .inl rfl⟩⟩

/-- No operation reports a file as missing that is there. -/
def Truthful (dir : Directory) : Prop := ∀ fault, some fault ∈ dir.faults → fault.error ≠ .notFound

/-- The later faults are among the earlier ones. -/
def Drains (dir dir' : Directory) : Prop := ∀ fault ∈ dir'.faults, fault ∈ dir.faults

theorem Drains.refl (dir : Directory) : Drains dir dir := fun _ => id

theorem Drains.trans {a b c : Directory} (first : Drains a b) (second : Drains b c) : Drains a c :=
  fun fault mem => first fault (second fault mem)

theorem Drains.truthful (drains : Drains dir dir')
    (truthful : dir.Truthful) : dir'.Truthful :=
  fun fault mem => truthful fault (drains _ mem)

theorem drains_next (dir : Directory) : Drains dir dir.next := fun _ => List.mem_of_mem_tail

theorem attempt_drains (failing : ∀ fault dir, Drains dir (failed fault dir))
    (moves : Fallible.Moves Drains effect) : Fallible.Moves Drains (attempt failed effect) := by
  intro dir
  rcases run_attempt failed effect dir with ⟨fault, -, ran⟩ | ⟨-, ran⟩
  · rw [ran]
    exact (drains_next dir).trans (failing fault _)
  · rw [ran]
    exact (drains_next dir).trans (moves _)

theorem content_drains (name : Bytes) : Fallible.Moves Drains (content name) := by
  intro dir
  rw [run_content]
  split <;> exact .refl _

theorem withFiles_drains (files : Directory → HashMap Bytes Bytes) :
    Fallible.Moves Drains (modify fun dir => dir.withFiles (files dir) :
      Fallible IoError Directory PUnit) :=
  Fallible.moves_modify fun dir => .refl dir

theorem removeFile_drains (name : Bytes) : Fallible.Moves Drains (removeFile name) :=
  attempt_drains (fun _ => .refl) (.bind .trans (content_drains name) fun _ => withFiles_drains _)

theorem createFile_drains (name : Bytes) : Fallible.Moves Drains (createFile name) :=
  attempt_drains (fun _ => .refl) (withFiles_drains _)

theorem writeAll_drains (name bytes : Bytes) : Fallible.Moves Drains (writeAll name bytes) :=
  attempt_drains (fun _ => .refl) (withFiles_drains _)

theorem syncAll_drains : Fallible.Moves Drains syncAll :=
  attempt_drains (fun _ => .refl) (.pure .refl _)

theorem rename_drains (source target : Bytes) : Fallible.Moves Drains (rename source target) :=
  attempt_drains (fun _ => .refl) (.bind .trans (content_drains source) fun _ =>
    withFiles_drains _)

/-- A successful operation is its effect once it has taken its fault. -/
theorem run_next_of_ok {a : α} (ok : (attempt failed effect).run dir = .ok a dir') :
    effect.run dir.next = .ok a dir' := by
  rcases run_attempt failed effect dir with ⟨fault, -, ran⟩ | ⟨-, ran⟩
  · rw [ran] at ok
    cases ok
  · rw [← ran, ok]

theorem createFile_eq_ok (ok : (createFile name).run dir = .ok () dir') :
    dir' = dir.next.withFiles (dir.files.insert name []) := by
  cases run_next_of_ok ok
  rfl

theorem writeAll_eq_ok {bytes : Bytes} (ok : (writeAll name bytes).run dir = .ok () dir') :
    dir' = dir.next.withFiles (dir.files.insert name bytes) := by
  cases run_next_of_ok ok
  rfl

theorem syncAll_eq_ok (ok : syncAll.run dir = .ok () dir') : dir' = dir.next := by
  cases run_next_of_ok ok
  rfl

/-- Nothing is listed of an empty directory. -/
theorem readDir_of_empty (empty : dir.files = ∅) :
    (∃ e, readDir.run dir = .error e dir.next) ∨ readDir.run dir = .ok [] dir.next := by
  rw [readDir, EStateM.run_bind]
  rcases run_attempt (fun _ dir => dir) (pure () : Fallible IoError Directory Unit) dir with
    ⟨fault, -, ran⟩ | ⟨-, ran⟩
  · rw [ran]
    exact .inl ⟨fault.error, rfl⟩
  · have files : dir.next.files = ∅ := empty
    rw [ran, EStateM.run_pure]
    dsimp only
    rw [EStateM.run_bind, EStateM.run_get]
    dsimp only
    rw [files]
    exact .inr rfl

/-- A file is renamed, or nothing happens. -/
theorem run_rename (source target : Bytes) (dir : Directory) :
    (∃ bytes, dir.files.lookup source = some bytes ∧ (rename source target).run dir =
      .ok () (dir.next.withFiles ((dir.files.erase source).insert target bytes))) ∨
    ∃ e, (rename source target).run dir = .error e dir.next := by
  unfold rename
  rcases run_attempt _ _ dir with ⟨fault, -, ran⟩ | ⟨-, ran⟩
  · exact .inr ⟨fault.error, ran⟩
  · rw [ran, EStateM.run_bind, run_content]
    have same : dir.next.files = dir.files := rfl
    rw [same]
    cases found : dir.files.lookup source with
    | none => exact .inr ⟨.notFound, rfl⟩
    | some bytes => exact .inl ⟨bytes, rfl, rfl⟩

/-- A file is removed, or was missing, or a fault keeps it. -/
theorem removeFile_cases (name : Bytes) (dir : Directory) :
    (removeFile name).run dir = .ok () (dir.next.withFiles (dir.files.erase name)) ∨
    (dir.files.lookup name = none ∧ (removeFile name).run dir = .error .notFound dir.next) ∨
    ∃ fault, some fault ∈ dir.faults ∧ (removeFile name).run dir = .error fault.error dir.next := by
  unfold removeFile
  rcases run_attempt _ _ dir with ⟨fault, found, ran⟩ | ⟨-, ran⟩
  · exact .inr (.inr ⟨fault, List.mem_of_getElem? found, ran⟩)
  · rw [ran, EStateM.run_bind, run_content]
    have same : dir.next.files = dir.files := rfl
    rw [same]
    cases found : dir.files.lookup name with
    | none => exact .inr (.inl ⟨rfl, rfl⟩)
    | some bytes => exact .inl rfl

end
end Directory
