import Tpm2.Sh.Task

/-! The handles that a task tracks: whatever the device answers, no two virtual handles stand for
the same physical handle, and each stands for one that is tracked. -/

namespace Tpm2

namespace TaskState

/-- Every virtual handle stands for a tracked physical handle, and for one of its own. -/
structure Tracked (task : TaskState) : Prop where
  tracked : ∀ vhandle phandle, task.virtHandles.lookup vhandle = some phandle →
    phandle ∈ task.physHandles
  distinct : ∀ vhandle vhandle' phandle, task.virtHandles.lookup vhandle = some phandle →
    task.virtHandles.lookup vhandle' = some phandle → vhandle = vhandle'

/-- The program keeps the handles tracked, also where it fails. -/
abbrev KeepsTracked {ε α : Type} (x : Fallible ε TaskState α) : Prop :=
  Fallible.Moves (fun s t => s.Tracked → t.Tracked) x

section
variable {ε α β : Type} {s t : TaskState}

/-- The other fields of the state do not matter. -/
theorem Tracked.of_same (tracked : s.Tracked) (virt : t.virtHandles = s.virtHandles)
    (phys : t.physHandles = s.physHandles) : t.Tracked where
  tracked := by
    rw [virt, phys]
    exact tracked.tracked
  distinct := by
    rw [virt]
    exact tracked.distinct

theorem KeepsTracked.bind {x : Fallible ε TaskState α} {f : α → Fallible ε TaskState β}
    (first : KeepsTracked x) (next : ∀ a, KeepsTracked (f a)) : KeepsTracked (x >>= f) :=
  Fallible.Moves.bind (fun one two tracked => two (one tracked)) first next

theorem keepsTracked_pure (a : α) : KeepsTracked (pure a : Fallible ε TaskState α) :=
  Fallible.Moves.pure (fun _ => id) a

theorem keepsTracked_get : KeepsTracked (get : Fallible ε TaskState TaskState) :=
  Fallible.Moves.get fun _ => id

theorem keepsTracked_throw (e : ε) : KeepsTracked (throw e : Fallible ε TaskState α) :=
  Fallible.Moves.throw (fun _ => id) e

/-- What stands behind an error does not matter. -/
theorem keepsTracked_throw_bind (e : ε) (f : α → Fallible ε TaskState β) :
    KeepsTracked (throw e >>= f) := fun _ => id

theorem keepsTracked_ofExcept (y : Except ε α) : KeepsTracked (Fallible.ofExcept y) :=
  Fallible.Moves.ofExcept (fun _ => id) y

/-- A change of other fields keeps the handles. -/
theorem keepsTracked_modify {f : TaskState → TaskState}
    (virt : ∀ s, (f s).virtHandles = s.virtHandles)
    (phys : ∀ s, (f s).physHandles = s.physHandles) :
    KeepsTracked (modify f : Fallible ε TaskState PUnit) :=
  Fallible.moves_modify fun s tracked => tracked.of_same (virt s) (phys s)

theorem keepsTracked_onDevice (x : Fallible ε TpmDevice α) : KeepsTracked (onDevice x) := by
  intro s tracked
  rw [onDevice_run]
  cases x.run s.device with
  | ok a device => exact tracked.of_same rfl rfl
  | error e device => exact tracked.of_same rfl rfl

theorem keepsTracked_outcome {φ : Type} (x : Fallible ε TpmDevice α) :
    KeepsTracked (Fallible.outcome (onDevice x) : Fallible φ TaskState _) :=
  (keepsTracked_onDevice x).outcome

theorem keepsTracked_withDevice (x : Fallible TpmDeviceError TpmDevice α) :
    KeepsTracked (withDevice x) :=
  (keepsTracked_onDevice x).adaptExcept deviceErr

theorem keepsTracked_onCache (x : Fallible VtpmError VtpmCache α) : KeepsTracked (onCache x) := by
  refine Fallible.Moves.adaptExcept TaskError.vtpm ?_
  intro s tracked
  rw [Fallible.run_part]
  cases x.run s.cache with
  | ok a cache => exact tracked.of_same rfl rfl
  | error e cache => exact tracked.of_same rfl rfl

end

/-- A tracked handle is refused, and one that is not is added. -/
theorem track_after (phandle : TpmHandle) (s : TaskState) :
    (phandle ∈ s.physHandles ∧
      (∀ u t, (track phandle).run s ≠ .ok u t) ∧
      (Fallible.after ((track phandle).run s)).virtHandles = s.virtHandles ∧
      (Fallible.after ((track phandle).run s)).physHandles = s.physHandles) ∨
    (phandle ∉ s.physHandles ∧ (track phandle).run s =
      .ok () { s with physHandles := s.physHandles.insert phandle () }) := by
  unfold track
  rw [EStateM.run_bind, EStateM.run_get]
  dsimp only
  by_cases present : phandle ∈ s.physHandles
  · refine .inl ⟨present, ?_⟩
    rw [if_pos present, EStateM.run_bind, Fallible.run_outcome, onDevice_run]
    cases (TpmDevice.flushContext phandle).run s.device with
    | ok u device => exact ⟨(fun u t ok => by cases ok), rfl, rfl⟩
    | error e device => exact ⟨(fun u t ok => by cases ok), rfl, rfl⟩
  · refine .inr ⟨present, ?_⟩
    rw [if_neg present]
    rfl

theorem Tracked.insert_phys {s : TaskState} (tracked : s.Tracked) (phandle : TpmHandle) :
    Tracked { s with physHandles := s.physHandles.insert phandle () } where
  tracked vhandle phandle' found := by
    have before := tracked.tracked vhandle phandle' found
    exact (AList.mem_insert _).mpr (.inr before)
  distinct := tracked.distinct

theorem keepsTracked_track (phandle : TpmHandle) : KeepsTracked (track phandle) := by
  intro s tracked
  rcases track_after phandle s with ⟨-, -, virt, phys⟩ | ⟨-, ran⟩
  · exact tracked.of_same virt phys
  · rw [ran]
    exact tracked.insert_phys phandle

theorem Tracked.untrack {s : TaskState} (tracked : s.Tracked) (phandle : TpmHandle) :
    (s.untrack phandle).Tracked where
  tracked vhandle phandle' found := by
    obtain ⟨before, differs⟩ := HashMap.lookup_retain.mp found
    exact AList.mem_erase.mpr ⟨of_decide_eq_true differs, tracked.tracked vhandle phandle' before⟩
  distinct vhandle vhandle' phandle' found found' :=
    tracked.distinct vhandle vhandle' phandle' (HashMap.lookup_retain.mp found).1
      (HashMap.lookup_retain.mp found').1

/-- A handle that was not tracked is nobody's: it can be given to a virtual handle. -/
theorem Tracked.insert_virt {s : TaskState} (tracked : s.Tracked) {phandle : TpmHandle}
    (fresh : phandle ∉ s.physHandles) (vhandle : UInt32) :
    Tracked { s with physHandles := s.physHandles.insert phandle (),
                     virtHandles := s.virtHandles.insert vhandle phandle } where
  tracked vhandle' phandle' found := by
    rw [HashMap.lookup_insert_ite] at found
    split at found
    · cases found
      exact (AList.mem_insert _).mpr (.inl rfl)
    · exact (AList.mem_insert _).mpr (.inr (tracked.tracked vhandle' phandle' found))
  distinct vhandle₁ vhandle₂ phandle' found₁ found₂ := by
    have other {v : UInt32} (found : s.virtHandles.lookup v = some phandle') :
        phandle' ≠ phandle := fun same => fresh (same ▸ tracked.tracked v phandle' found)
    rw [HashMap.lookup_insert_ite] at found₁ found₂
    split at found₁
    next first =>
      split at found₂
      next second => rw [first, second]
      next =>
        cases found₁
        exact absurd rfl (other found₂)
    next =>
      split at found₂
      next =>
        cases found₂
        exact absurd rfl (other found₁)
      next => exact tracked.distinct vhandle₁ vhandle₂ phandle' found₁ found₂

/-- Loading a key gives the virtual handle a physical handle that was not tracked, or fails. -/
theorem keepsTracked_loadKeyByHandle (target : TpmHandle) :
    KeepsTracked (loadKeyByHandle target) := by
  refine keepsTracked_get.bind fun task => ?_
  cases task.virtHandles.lookup target.value with
  | some phandle => exact keepsTracked_pure phandle
  | none =>
      dsimp only
      split
      · exact keepsTracked_pure _
      refine keepsTracked_get.bind fun task => ?_
      cases task.cache.findByHandle target with
      | none => exact keepsTracked_throw _
      | some key =>
          refine (keepsTracked_withDevice _).bind fun loadedPhandle => ?_
          intro s tracked
          rw [EStateM.run_bind]
          rcases track_after loadedPhandle s with ⟨-, refused, virt, phys⟩ | ⟨fresh, ran⟩
          · cases result : (track loadedPhandle).run s with
            | ok u t => exact absurd result (refused u t)
            | error e t =>
                rw [result] at virt phys
                exact tracked.of_same virt phys
          · rw [ran]
            exact tracked.insert_virt fresh target.value

theorem keepsTracked_loadKeyByName (name : Tpm2bName) : KeepsTracked (loadKeyByName name) := by
  refine keepsTracked_get.bind fun task => ?_
  cases task.cache.findByName name with
  | none => exact keepsTracked_throw _
  | some key => exact keepsTracked_loadKeyByHandle _

theorem keepsTracked_fetchPolicy (handle : TpmHandle) : KeepsTracked (fetchPolicy handle) := by
  refine (keepsTracked_loadKeyByHandle handle).bind fun physHandle => ?_
  split
  · refine keepsTracked_get.bind fun task => ?_
    cases task.cache.findByHandle handle with
    | none => exact keepsTracked_throw _
    | some key => exact keepsTracked_pure _
  · exact (keepsTracked_withDevice _).bind fun «public» => keepsTracked_pure _

theorem keepsTracked_secretHandle (secret : VtpmPolicySecretCommand) :
    KeepsTracked (secretHandle secret) := by
  unfold secretHandle
  split
  · exact keepsTracked_pure _
  · exact keepsTracked_loadKeyByName _

theorem keepsTracked_loadPolicySecret (vtpmCmd : VtpmPolicyCommand) :
    KeepsTracked (loadPolicySecret vtpmCmd) := by
  refine (keepsTracked_ofExcept _).bind fun (secret, rest) => ?_
  dsimp only
  split
  · exact keepsTracked_throw_bind _ _
  · refine (keepsTracked_secretHandle secret).bind fun liveHandle => ?_
    refine keepsTracked_get.bind fun task => ?_
    cases task.secretAuth secret with
    | session vhandle => exact keepsTracked_throw _
    | password password =>
        exact (keepsTracked_ofExcept _).bind fun authCmd => keepsTracked_pure _

theorem keepsTracked_loadPolicyStep (vtpmCmd : VtpmPolicyCommand) :
    KeepsTracked (loadPolicyStep vtpmCmd) := by
  unfold loadPolicyStep
  split
  · exact keepsTracked_loadPolicySecret vtpmCmd
  · exact (keepsTracked_ofExcept _).bind fun tpmCmd => keepsTracked_pure _

theorem keepsTracked_loadPolicySteps (policy : List VtpmPolicyCommand) :
    KeepsTracked (loadPolicySteps policy) := by
  induction policy with
  | nil => exact keepsTracked_pure _
  | cons vtpmCmd policy ih =>
      refine (keepsTracked_loadPolicyStep vtpmCmd).bind fun command => ?_
      exact ih.bind fun commands => keepsTracked_pure _

theorem keepsTracked_loadPolicy (policy : List VtpmPolicyCommand) :
    KeepsTracked (loadPolicy policy) := by
  unfold loadPolicy
  split
  · exact keepsTracked_pure _
  · exact (keepsTracked_loadPolicySteps policy).bind fun commands => keepsTracked_pure _

theorem keepsTracked_runPolicy (crypto : Libcrypto) (nameAlg : TpmAlgId)
    (commands : TpmCommandList) : KeepsTracked (runPolicy crypto nameAlg commands) := by
  refine (keepsTracked_withDevice _).bind fun session => ?_
  refine (keepsTracked_outcome _).bind fun ran => ?_
  cases ran with
  | error e =>
      exact (keepsTracked_outcome _).bind fun _ => keepsTracked_throw _
  | ok u =>
      have inserted : KeepsTracked (modify fun task : TaskState =>
          { task with sessions := task.sessions.insert session.handle session } :
          Fallible TaskError TaskState PUnit) :=
        keepsTracked_modify (fun _ => rfl) fun _ => rfl
      exact inserted.bind fun _ => keepsTracked_pure _

theorem keepsTracked_resolveAuth (crypto : Libcrypto) (handle : TpmHandle) :
    KeepsTracked (resolveAuth crypto handle) := by
  refine (keepsTracked_fetchPolicy handle).bind fun (physHandle, policy, nameAlg) => ?_
  refine keepsTracked_get.bind fun task => ?_
  cases task.authMap.lookup handle with
  | some auth => exact keepsTracked_pure _
  | none =>
      refine (keepsTracked_loadPolicy policy).bind fun commands => ?_
      cases commands with
      | none => exact keepsTracked_pure _
      | some commands =>
          cases commands with
          | nil => exact keepsTracked_pure _
          | cons command commands =>
              exact (keepsTracked_runPolicy crypto nameAlg _).bind fun auth => keepsTracked_pure _

theorem keepsTracked_removeEntry (vhandle : TpmHandle) : KeepsTracked (removeEntry vhandle) :=
  (keepsTracked_onCache _).bind fun _ => keepsTracked_pure _

theorem keepsTracked_validateEntry (crypto : Libcrypto) (vhandle : TpmHandle) :
    KeepsTracked (validateEntry crypto vhandle) := by
  refine keepsTracked_get.bind fun task => ?_
  cases task.cache.findByHandle vhandle with
  | none => exact keepsTracked_pure _
  | some key =>
      refine (keepsTracked_outcome _).bind fun read => ?_
      have noted (answer : Answer) :
          KeepsTracked (modify fun task => task.note vhandle.value answer :
            Fallible TaskError TaskState PUnit) :=
        keepsTracked_modify (fun _ => rfl) fun _ => rfl
      cases read with
      | error e => exact (noted _).bind fun _ => keepsTracked_removeEntry vhandle
      | ok «public» =>
          refine (keepsTracked_ofExcept _).bind fun cachedName => ?_
          split
          · exact (noted _).bind fun _ => keepsTracked_removeEntry vhandle
          · exact noted _

theorem keepsTracked_validateEntries (crypto : Libcrypto) (vhandles : List TpmHandle) :
    KeepsTracked (validateEntries crypto vhandles) := by
  induction vhandles with
  | nil => exact keepsTracked_pure _
  | cons vhandle vhandles ih =>
      exact (keepsTracked_validateEntry crypto vhandle).bind fun _ => ih

/-- A task as `TaskState::new` makes it, before it looks at the persistent handles. -/
def initial (device : TpmDevice) (cache : VtpmCache) (authMap : HashMap TpmHandle Auth) :
    TaskState :=
  ⟨device, cache, ∅, ∅, ∅, authMap, []⟩

/-- `TaskState::new`: what it leaves behind, whether it succeeds or fails. -/
def new (crypto : Libcrypto) (device : TpmDevice) (cache : VtpmCache)
    (authMap : HashMap TpmHandle Auth) : TaskState :=
  Fallible.after ((validatePersistentHandles crypto).run (initial device cache authMap))

theorem initial_tracked (device : TpmDevice) (cache : VtpmCache)
    (authMap : HashMap TpmHandle Auth) : (initial device cache authMap).Tracked where
  tracked _ _ found := by cases found
  distinct _ _ _ found := by cases found

theorem new_tracked (crypto : Libcrypto) (device : TpmDevice) (cache : VtpmCache)
    (authMap : HashMap TpmHandle Auth) : (new crypto device cache authMap).Tracked := by
  have keeps : KeepsTracked (validatePersistentHandles crypto) :=
    keepsTracked_get.bind fun task => keepsTracked_validateEntries crypto _
  exact keeps _ (initial_tracked device cache authMap)

/-- A call that has to do with tracked handles. -/
inductive TrackingCall
  | track (physHandle : TpmHandle)
  | untrack (handle : TpmHandle)
  | loadKeyByHandle (target : TpmHandle)
  | loadKeyByName (name : Tpm2bName)
  | resolveAuth (crypto : Libcrypto) (handle : TpmHandle)

/-- Makes a call, and forgets what it returns. -/
def TrackingCall.run : TrackingCall → Fallible TaskError TaskState Unit
  | .track physHandle => TaskState.track physHandle
  | .untrack handle => modify fun task => task.untrack handle
  | .loadKeyByHandle target => do
      let _ ← TaskState.loadKeyByHandle target
      return
  | .loadKeyByName name => do
      let _ ← TaskState.loadKeyByName name
      return
  | .resolveAuth crypto handle => do
      let _ ← TaskState.resolveAuth crypto handle
      return

/-- Makes calls one after the other, successful or not, each with a device of its own. -/
def runCalls : List (TpmDevice × TrackingCall) → TaskState → TaskState
  | [], task => task
  | (device, call) :: calls, task =>
      runCalls calls (Fallible.after (call.run.run { task with device }))

theorem TrackingCall.keepsTracked (call : TrackingCall) : KeepsTracked call.run := by
  cases call with
  | track physHandle => exact keepsTracked_track physHandle
  | untrack handle => exact Fallible.moves_modify fun s tracked => tracked.untrack handle
  | loadKeyByHandle target =>
      exact (keepsTracked_loadKeyByHandle target).bind fun _ => keepsTracked_pure ()
  | loadKeyByName name =>
      exact (keepsTracked_loadKeyByName name).bind fun _ => keepsTracked_pure ()
  | resolveAuth crypto handle =>
      exact (keepsTracked_resolveAuth crypto handle).bind fun _ => keepsTracked_pure ()

theorem runCalls_tracked (calls : List (TpmDevice × TrackingCall)) {task : TaskState}
    (tracked : task.Tracked) : (runCalls calls task).Tracked := by
  induction calls generalizing task with
  | nil => exact tracked
  | cons call calls ih =>
      obtain ⟨device, call⟩ := call
      exact ih (call.keepsTracked _ (tracked.of_same rfl rfl))

/-- Handle tracking never aliases: after any calls on a new task, with any devices, every virtual
handle stands for a tracked physical handle, and no two stand for the same. -/
theorem tracking_never_aliases (crypto : Libcrypto) (device : TpmDevice) (cache : VtpmCache)
    (authMap : HashMap TpmHandle Auth) (calls : List (TpmDevice × TrackingCall)) :
    (runCalls calls (new crypto device cache authMap)).Tracked :=
  runCalls_tracked calls (new_tracked crypto device cache authMap)

end TaskState
end Tpm2
