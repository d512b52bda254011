import Mathlib.Data.Set.Insert
import Tpm2.Device.Outstanding
import Tpm2.Sh.Policy
import Tpm2.Sh.Tracking

/-! What a task has to flush: every handle that an answer has given it is tracked, or is that of a
session of the task, whatever the TPM answers. -/

namespace Tpm2

open TpmDevice (Quiet KeepsQuiet)

namespace TaskState

/-- The TPM gave the handles `new`, and the task has kept what it is to flush. -/
structure Gains (new : List TpmHandle) (s t : TaskState) : Prop where
  device : TpmDevice.Gains new s.device t.device
  phys : t.physHandles = s.physHandles
  sessions : t.sessions = s.sessions

/-- The TPM gave nothing, and the task has kept what it is to flush. -/
abbrev Steady (s t : TaskState) : Prop := Gains [] s t

abbrev KeepsSteady {ε α : Type} (x : Fallible ε TaskState α) : Prop := Fallible.Moves Steady x

/-- Every handle that is outstanding is one that the task will flush, or one of `left`. -/
structure Accounted (left : Set TpmHandle) (task : TaskState) : Prop where
  keyed : ∀ key session, task.sessions.lookup key = some session → session.handle = key
  held : ∀ handle ∈ task.device.outstanding,
    handle ∈ task.physHandles ∨ handle ∈ task.sessions ∨ handle ∈ left

/-- The program keeps the handles accounted for, also where it fails. -/
abbrev KeepsAccounted {ε α : Type} (x : Fallible ε TaskState α) : Prop :=
  Fallible.Moves (fun s t => ∀ left, s.Accounted left → t.Accounted left) x

section
variable {s t u : TaskState} {new : List TpmHandle} {left : Set TpmHandle} {ε φ α β : Type}

theorem Steady.refl (task : TaskState) : Steady task task := ⟨Quiet.refl _, rfl, rfl⟩

theorem Gains.behind (first : Steady s t) (second : Gains new t u) : Gains new s u :=
  ⟨first.device.behind second.device, second.phys.trans first.phys,
    second.sessions.trans first.sessions⟩

theorem Steady.trans (first : Steady s t) (second : Steady t u) : Steady s u :=
  Gains.behind first second

theorem Steady.of_quiet (device : Quiet s.device t.device) (phys : t.physHandles = s.physHandles)
    (sessions : t.sessions = s.sessions) : Steady s t :=
  ⟨device, phys, sessions⟩

/-- What the TPM gives is left over. -/
theorem Accounted.gain (accounted : s.Accounted left) (gains : Gains new s t) :
    t.Accounted (left ∪ {handle | handle ∈ new}) where
  keyed := by
    rw [gains.sessions]
    exact accounted.keyed
  held handle outstanding := by
    rw [gains.device.outstanding, List.mem_append] at outstanding
    rw [gains.phys, gains.sessions]
    rcases outstanding with given | before
    · exact .inr (.inr (.inr given))
    · exact (accounted.held handle before).imp_right (Or.imp_right .inl)

theorem Accounted.gain_one {handle : TpmHandle} (accounted : s.Accounted left)
    (gains : Gains [handle] s t) : t.Accounted (insert handle left) := by
  have gained := accounted.gain gains
  rwa [show {other | other ∈ [handle]} = ({handle} : Set TpmHandle) by ext; simp,
    Set.union_singleton] at gained

theorem Accounted.steady (accounted : s.Accounted left) (steady : Steady s t) :
    t.Accounted left := by
  have gained := accounted.gain steady
  rwa [show {handle | handle ∈ ([] : List TpmHandle)} = (∅ : Set TpmHandle) by simp,
    Set.union_empty] at gained

theorem KeepsSteady.bind {x : Fallible ε TaskState α} {f : α → Fallible ε TaskState β}
    (first : KeepsSteady x) (next : ∀ a, KeepsSteady (f a)) : KeepsSteady (x >>= f) :=
  Fallible.Moves.bind .trans first next

theorem KeepsSteady.accounted {x : Fallible ε TaskState α} (steady : KeepsSteady x) :
    KeepsAccounted x := fun s _ accounted => accounted.steady (steady s)

theorem KeepsAccounted.bind {x : Fallible ε TaskState α} {f : α → Fallible ε TaskState β}
    (first : KeepsAccounted x) (next : ∀ a, KeepsAccounted (f a)) : KeepsAccounted (x >>= f) :=
  Fallible.Moves.bind (fun one two left accounted => two left (one left accounted)) first next

theorem keepsSteady_pure (a : α) : KeepsSteady (pure a : Fallible ε TaskState α) :=
  Fallible.Moves.pure .refl a

theorem keepsSteady_get : KeepsSteady (get : Fallible ε TaskState TaskState) :=
  Fallible.Moves.get .refl

theorem keepsSteady_throw (e : ε) : KeepsSteady (throw e : Fallible ε TaskState α) :=
  Fallible.Moves.throw .refl e

theorem keepsSteady_ofExcept (y : Except ε α) : KeepsSteady (Fallible.ofExcept y) :=
  Fallible.Moves.ofExcept .refl y

/-- A change of other fields is steady. -/
theorem keepsSteady_modify {f : TaskState → TaskState} (device : ∀ s, (f s).device = s.device)
    (phys : ∀ s, (f s).physHandles = s.physHandles) (sessions : ∀ s, (f s).sessions = s.sessions) :
    KeepsSteady (modify f : Fallible ε TaskState PUnit) :=
  Fallible.moves_modify fun s => .of_quiet (by rw [device]; exact .refl _) (phys s) (sessions s)

theorem keepsSteady_onDevice {x : Fallible ε TpmDevice α} (quiet : KeepsQuiet x) :
    KeepsSteady (onDevice x) := by
  intro s
  have device := quiet s.device
  rw [onDevice_run]
  cases ran : x.run s.device with
  | ok a device' | error e device' =>
      rw [ran] at device
      exact .of_quiet device rfl rfl

theorem keepsSteady_withDevice {x : Fallible TpmDeviceError TpmDevice α} (quiet : KeepsQuiet x) :
    KeepsSteady (withDevice x) :=
  (keepsSteady_onDevice quiet).adaptExcept deviceErr

theorem keepsSteady_onCache (x : Fallible VtpmError VtpmCache α) : KeepsSteady (onCache x) := by
  refine Fallible.Moves.adaptExcept TaskError.vtpm ?_
  intro s
  rw [Fallible.run_part]
  cases x.run s.cache <;> exact .of_quiet (.refl _) rfl rfl

end

theorem keepsSteady_removeEntry (vhandle : TpmHandle) : KeepsSteady (removeEntry vhandle) :=
  (keepsSteady_onCache _).bind fun _ => keepsSteady_pure _

section
variable (crypto : Libcrypto)

theorem keepsSteady_sessionNonce (hashAlg : TpmAlgId) :
    KeepsSteady (sessionNonce crypto hashAlg) := by
  refine (keepsSteady_ofExcept _).bind fun hash => ?_
  refine (keepsSteady_onDevice fun _ => .of_sent rfl rfl).bind fun nonceBytes => ?_
  split
  · exact keepsSteady_throw _
  · exact keepsSteady_ofExcept _

theorem keepsSteady_authCommand (auth : Auth) : KeepsSteady (authCommand crypto auth) := by
  cases auth with
  | password password => exact keepsSteady_ofExcept _
  | session vhandle =>
      refine keepsSteady_get.bind fun task => ?_
      cases task.sessions.lookup (.new vhandle) with
      | none => exact keepsSteady_throw _
      | some session =>
          exact (keepsSteady_sessionNonce crypto _).bind fun _ => keepsSteady_pure _

theorem keepsSteady_authCommands (authList : List Auth) :
    KeepsSteady (authCommands crypto authList) := by
  induction authList with
  | nil => exact keepsSteady_pure _
  | cons auth authList ih =>
      exact (keepsSteady_authCommand crypto auth).bind fun _ => ih.bind fun _ => keepsSteady_pure _

section
variable {C R : TpmBodyType} (mem : (C, R) ∈ tpmDispatch) (other : C.CC ≠ .flushContext)
include mem other

/-- A command whose response has no handle is executed without a change of what is to be flushed. -/
theorem keepsSteady_execute (few : R.HANDLES = 0) (command : TpmBody C) (authList : List Auth) :
    KeepsSteady (execute crypto command authList) :=
  (keepsSteady_authCommands crypto authList).bind fun _ =>
    keepsSteady_withDevice (TpmDevice.transmit_quiet mem other few _ _)

/-- A command is executed and its response is read. -/
theorem execute_gains (command : TpmBody C) (authList : List Auth) (s : TaskState) :
    (∃ e t, (execute crypto command authList >>= fun response =>
        Fallible.ofExcept ((response.unmarshal R).mapError .protocol)).run s = .error e t ∧
      Steady s t) ∨
    ∃ body t, (execute crypto command authList >>= fun response =>
        Fallible.ofExcept ((response.unmarshal R).mapError .protocol)).run s = .ok body t ∧
      Gains body.handles.items.head?.toList s t := by
  rw [EStateM.run_bind, execute, EStateM.run_bind]
  have steady := keepsSteady_authCommands crypto authList s
  cases ran : (authCommands crypto authList).run s with
  | error e t =>
      rw [ran] at steady
      exact .inl ⟨e, t, rfl, steady⟩
  | ok sessions s₁ =>
      rw [ran] at steady
      dsimp only
      rw [withDevice_run]
      rcases TpmDevice.transmit_outstanding mem other command sessions s₁.device with
        ⟨e, device, sent, quiet⟩ | ⟨response, device, sent, gains⟩
      · rw [sent]
        exact .inl ⟨_, _, rfl, Steady.trans steady (.of_quiet quiet rfl rfl)⟩
      · rw [sent]
        dsimp only
        cases read : response.unmarshal R with
        | error e =>
            rw [read] at gains
            exact .inl ⟨_, _, rfl, Steady.trans steady ⟨gains, rfl, rfl⟩⟩
        | ok body =>
            rw [read] at gains
            exact .inr ⟨body, _, rfl, Gains.behind steady ⟨gains, rfl, rfl⟩⟩

end

theorem keepsSteady_evictControl (objectToEvict persistentHandle : TpmHandle) :
    KeepsSteady (evictControl crypto objectToEvict persistentHandle) := by
  refine keepsSteady_get.bind fun task => ?_
  refine (keepsSteady_execute crypto (R := TpmEvictControlResponse) (tpmDispatch_mem rfl)
    (by decide) rfl _ _).bind fun response => ?_
  exact (keepsSteady_ofExcept _).bind fun _ => keepsSteady_pure _

end

/-- A handle that is refused is flushed, and one that is not is to be flushed. -/
theorem run_track (phandle : TpmHandle) (s : TaskState) : (track phandle).run s =
    if phandle ∈ s.physHandles then
      .error (.handleAlreadyTracked phandle)
        { s with device := Fallible.after ((TpmDevice.flushContext phandle).run s.device) }
    else
      .ok () { s with physHandles := s.physHandles.insert phandle () } := by
  unfold track
  rw [EStateM.run_bind, EStateM.run_get]
  dsimp only
  split
  · rw [EStateM.run_bind, Fallible.run_outcome, onDevice_run]
    cases (TpmDevice.flushContext phandle).run s.device <;> rfl
  · rfl

/-- A flush settles its handle. -/
theorem Accounted.settle {left : Set TpmHandle} {s : TaskState} {handle : TpmHandle}
    (accounted : s.Accounted (insert handle left)) {device : TpmDevice}
    (flushed : ∀ other ∈ device.outstanding, other ∈ s.device.outstanding ∧ other ≠ handle) :
    Accounted left { s with device } where
  keyed := accounted.keyed
  held other outstanding := by
    obtain ⟨before, differs⟩ := flushed other outstanding
    refine (accounted.held other before).imp_right (Or.imp_right fun listed => ?_)
    exact (Set.mem_insert_iff.mp listed).resolve_left differs

theorem Accounted.flush {left : Set TpmHandle} {s : TaskState} {handle : TpmHandle}
    (accounted : s.Accounted (insert handle left)) : Accounted left
      { s with device := Fallible.after ((TpmDevice.flushContext handle).run s.device) } :=
  accounted.settle (TpmDevice.flushContext_subset handle s.device)

/-- What the TPM gave is accounted for once it is tracked. -/
theorem track_accounted (phandle : TpmHandle) {s : TaskState} {left : Set TpmHandle}
    (accounted : s.Accounted (insert phandle left)) :
    (Fallible.after ((track phandle).run s)).Accounted left := by
  rw [run_track]
  split
  · exact accounted.flush
  · refine ⟨accounted.keyed, fun handle outstanding => ?_⟩
    rcases accounted.held handle outstanding with tracked | session | same | rest
    · exact .inl ((AList.mem_insert _).mpr (.inr tracked))
    · exact .inr (.inl session)
    · exact .inl ((AList.mem_insert _).mpr (.inl same))
    · exact .inr (.inr rest)

/-- What a context load gives is accounted for once it is tracked. -/
theorem loadContext_accounted (context : TpmsContext) {left : Set TpmHandle} {s : TaskState}
    (accounted : s.Accounted left) :
    (∃ e t, (withDevice (TpmDevice.loadContext context)).run s = .error e t ∧ t.Accounted left) ∨
    ∃ phandle t, (withDevice (TpmDevice.loadContext context)).run s = .ok phandle t ∧
      t.Accounted (insert phandle left) := by
  rw [withDevice_run]
  rcases TpmDevice.loadContext_outstanding context s.device with
    ⟨e, device, ran, quiet⟩ | ⟨phandle, device, ran, given⟩
  · rw [ran]
    exact .inl ⟨_, _, rfl, accounted.steady (.of_quiet quiet rfl rfl)⟩
  · rw [ran]
    refine .inr ⟨phandle, _, rfl, ?_⟩
    have gains : Gains [phandle] s { s with device } := ⟨given, rfl, rfl⟩
    exact accounted.gain_one gains

theorem keepsAccounted_loadKeyByHandle (target : TpmHandle) :
    KeepsAccounted (loadKeyByHandle target) := by
  refine keepsSteady_get.accounted.bind fun task => ?_
  cases task.virtHandles.lookup target.value with
  | some phandle => exact (keepsSteady_pure phandle).accounted
  | none =>
      dsimp only
      split
      · exact (keepsSteady_pure _).accounted
      refine keepsSteady_get.accounted.bind fun task => ?_
      cases task.cache.findByHandle target with
      | none => exact (keepsSteady_throw _).accounted
      | some key =>
          intro s left accounted
          dsimp only
          rw [EStateM.run_bind]
          rcases loadContext_accounted key.context accounted with
            ⟨e, t, ran, kept⟩ | ⟨loadedPhandle, t, ran, given⟩
          · rw [ran]
            exact kept
          · rw [ran]
            dsimp only
            have tracked := track_accounted loadedPhandle given
            rw [EStateM.run_bind]
            cases ran : (track loadedPhandle).run t with
            | error e u =>
                rw [ran] at tracked
                exact tracked
            | ok _ u =>
                rw [ran] at tracked
                exact ⟨tracked.keyed, tracked.held⟩

theorem keepsAccounted_loadKeyByName (name : Tpm2bName) : KeepsAccounted (loadKeyByName name) := by
  refine keepsSteady_get.accounted.bind fun task => ?_
  cases task.cache.findByName name with
  | none => exact (keepsSteady_throw _).accounted
  | some key => exact keepsAccounted_loadKeyByHandle _

theorem keepsAccounted_fetchPolicy (handle : TpmHandle) :
    KeepsAccounted (fetchPolicy handle) := by
  refine (keepsAccounted_loadKeyByHandle handle).bind fun physHandle => ?_
  split
  · refine keepsSteady_get.accounted.bind fun task => ?_
    cases task.cache.findByHandle handle with
    | none => exact (keepsSteady_throw _).accounted
    | some key => exact (keepsSteady_pure _).accounted
  · exact ((keepsSteady_withDevice (TpmDevice.readPublic_quiet _)).bind fun _ =>
      keepsSteady_pure _).accounted

theorem keepsAccounted_loadPolicySecret (vtpmCmd : VtpmPolicyCommand) :
    KeepsAccounted (loadPolicySecret vtpmCmd) := by
  refine (keepsSteady_ofExcept _).accounted.bind fun (secret, rest) => ?_
  dsimp only
  split
  · exact fun _ _ => id
  · refine KeepsAccounted.bind ?handle fun liveHandle => ?_
    case handle =>
      unfold secretHandle
      split
      · exact (keepsSteady_pure _).accounted
      · exact keepsAccounted_loadKeyByName _
    refine keepsSteady_get.accounted.bind fun task => ?_
    cases task.secretAuth secret with
    | session vhandle => exact (keepsSteady_throw _).accounted
    | password password =>
        exact ((keepsSteady_ofExcept _).bind fun authCmd => keepsSteady_pure _).accounted

theorem keepsAccounted_loadPolicySteps (policy : List VtpmPolicyCommand) :
    KeepsAccounted (loadPolicySteps policy) := by
  induction policy with
  | nil => exact (keepsSteady_pure _).accounted
  | cons vtpmCmd policy ih =>
      refine KeepsAccounted.bind ?step fun command => ih.bind fun commands =>
        (keepsSteady_pure _).accounted
      unfold loadPolicyStep
      split
      · exact keepsAccounted_loadPolicySecret vtpmCmd
      · exact ((keepsSteady_ofExcept _).bind fun tpmCmd => keepsSteady_pure _).accounted

theorem keepsAccounted_loadPolicy (policy : List VtpmPolicyCommand) :
    KeepsAccounted (loadPolicy policy) := by
  unfold loadPolicy
  split
  · exact (keepsSteady_pure _).accounted
  · exact (keepsAccounted_loadPolicySteps policy).bind fun commands =>
      (keepsSteady_pure _).accounted

/-- A session that is opened is flushed where its policy fails, and is one of the task's where it
does not. -/
theorem keepsAccounted_runPolicy (crypto : Libcrypto) (nameAlg : TpmAlgId)
    (commands : TpmCommandList) : KeepsAccounted (runPolicy crypto nameAlg commands) := by
  intro s left accounted
  rw [runPolicy, EStateM.run_bind, withDevice_run]
  rcases Device.TpmPolicySessionBuilder.openSession_outstanding crypto { authHash := nameAlg }
      s.device with ⟨e, device, ran, quiet⟩ | ⟨session, device, ran, given⟩
  · rw [ran]
    exact accounted.steady (.of_quiet quiet rfl rfl)
  · rw [ran]
    dsimp only
    have gains : Gains [session.handle] s { s with device } := ⟨given, rfl, rfl⟩
    have given := accounted.gain_one gains
    have quiet := keepsSteady_onDevice (session.run_quiet commands) { s with device }
    rw [EStateM.run_bind, Fallible.run_outcome]
    cases ran : (onDevice (session.run commands)).run { s with device } with
    | error e t =>
        rw [ran] at quiet
        dsimp only
        rw [EStateM.run_bind, Fallible.run_outcome, onDevice_run]
        have kept : t.Accounted (insert session.handle left) := given.steady quiet
        have flushed := kept.flush
        cases ended : session.flush.run t.device with
        | ok _ device' | error _ device' =>
            have same : (TpmDevice.flushContext session.handle).run t.device = _ := ended
            rw [same] at flushed
            exact flushed
    | ok _ t =>
        rw [ran] at quiet
        have kept := given.steady quiet
        refine ⟨fun key other found => ?_, fun handle outstanding => ?_⟩
        · change (t.sessions.insert session.handle session).lookup key = some other at found
          rw [HashMap.lookup_insert_ite] at found
          split at found
          next same =>
            cases found
            exact same.symm
          next => exact kept.keyed key other found
        · rcases kept.held handle outstanding with tracked | listed | same | rest
          · exact .inl tracked
          · exact .inr (.inl ((AList.mem_insert _).mpr (.inr listed)))
          · exact .inr (.inl ((AList.mem_insert _).mpr (.inl same)))
          · exact .inr (.inr rest)

theorem keepsAccounted_resolveAuth (crypto : Libcrypto) (handle : TpmHandle) :
    KeepsAccounted (resolveAuth crypto handle) := by
  refine (keepsAccounted_fetchPolicy handle).bind fun (physHandle, policy, nameAlg) => ?_
  refine keepsSteady_get.accounted.bind fun task => ?_
  cases task.authMap.lookup handle with
  | some auth => exact (keepsSteady_pure _).accounted
  | none =>
      refine (keepsAccounted_loadPolicy policy).bind fun commands => ?_
      cases commands with
      | none => exact (keepsSteady_pure _).accounted
      | some commands =>
          cases commands with
          | nil => exact (keepsSteady_pure _).accounted
          | cons command commands =>
              exact (keepsAccounted_runPolicy crypto nameAlg _).bind fun auth =>
                (keepsSteady_pure _).accounted

theorem keepsSteady_saveVtpmSteps (crypto : Libcrypto) (commands : TpmCommandList) :
    KeepsSteady (saveVtpmSteps crypto commands) := by
  induction commands with
  | nil => exact keepsSteady_pure _
  | cons command commands ih =>
      refine KeepsSteady.bind ?step fun step => ih.bind fun steps => keepsSteady_pure _
      refine KeepsSteady.bind ?name fun name => (keepsSteady_ofExcept _).bind fun frame =>
        (keepsSteady_ofExcept _).bind fun commandFrame => keepsSteady_ofExcept _
      unfold objectName
      split
      · refine keepsSteady_get.bind fun task => ?_
        split
        · exact keepsSteady_ofExcept _
        · exact (keepsSteady_withDevice (TpmDevice.readPublic_quiet _)).bind fun _ =>
            keepsSteady_pure _
      · exact keepsSteady_pure _

theorem keepsSteady_saveVtpmPolicy (crypto : Libcrypto) (commands : TpmCommandList) :
    KeepsSteady (saveVtpmPolicy crypto commands) := by
  unfold saveVtpmPolicy
  split
  · exact keepsSteady_pure _
  · exact keepsSteady_saveVtpmSteps crypto commands

theorem keepsSteady_saveKeyPolicy (crypto : Libcrypto) (commands : TpmCommandList) :
    KeepsSteady (saveKeyPolicy crypto commands) :=
  (keepsSteady_saveVtpmPolicy crypto commands).bind fun _ => keepsSteady_pure _

theorem keepsSteady_importKey (crypto : Libcrypto) (parentHandle : TpmHandle)
    («public» : Tpm2bPublic) (duplicate : Tpm2bPrivate) (inSymSeed : Tpm2bEncryptedSecret)
    (encryptionKey : Tpm2bData) (symmetricAlg : TpmtSymDefObject) (authList : List Auth) :
    KeepsSteady (importKey crypto parentHandle «public» duplicate inSymSeed encryptionKey
      symmetricAlg authList) :=
  (keepsSteady_execute crypto (R := TpmImportResponse) (tpmDispatch_mem rfl) (by decide) rfl _
    _).bind fun _ => (keepsSteady_ofExcept _).bind fun _ => keepsSteady_pure _

theorem keepsSteady_note {ε : Type} (vhandle : UInt32) (answer : Answer) :
    KeepsSteady (modify fun task => task.note vhandle answer : Fallible ε TaskState PUnit) :=
  keepsSteady_modify (fun _ => rfl) (fun _ => rfl) fun _ => rfl

theorem keepsSteady_validateEntries (crypto : Libcrypto) (vhandles : List TpmHandle) :
    KeepsSteady (validateEntries crypto vhandles) := by
  induction vhandles with
  | nil => exact keepsSteady_pure _
  | cons vhandle vhandles ih =>
      refine KeepsSteady.bind ?_ fun _ => ih
      refine keepsSteady_get.bind fun task => ?_
      cases task.cache.findByHandle vhandle with
      | none => exact keepsSteady_pure _
      | some key =>
          have read : KeepsSteady (Fallible.outcome (φ := TaskError)
              (onDevice (TpmDevice.readPublic vhandle))) :=
            (keepsSteady_onDevice (TpmDevice.readPublic_quiet vhandle)).outcome
          refine read.bind fun answer => ?_
          cases answer with
          | error e => exact (keepsSteady_note _ _).bind fun _ => keepsSteady_removeEntry vhandle
          | ok «public» =>
              refine (keepsSteady_ofExcept _).bind fun cachedName => ?_
              split
              · exact (keepsSteady_note _ _).bind fun _ => keepsSteady_removeEntry vhandle
              · exact keepsSteady_note _ _

theorem keepsSteady_validatePersistentHandles (crypto : Libcrypto) :
    KeepsSteady (validatePersistentHandles crypto) :=
  keepsSteady_get.bind fun _ => keepsSteady_validateEntries crypto _

/-- A context that is loaded to see whether it is valid is flushed again. -/
theorem refreshKey_subset (context : TpmsContext) (device : TpmDevice) :
    ∀ other ∈ (Fallible.after ((refreshKey context).run device)).outstanding,
      other ∈ device.outstanding := by
  rw [refreshKey, EStateM.run_bind, Fallible.run_outcome]
  rcases TpmDevice.loadContext_outstanding context device with
    ⟨e, device', ran, quiet⟩ | ⟨handle, device', ran, gains⟩
  · rw [ran, ← quiet.outstanding]
    dsimp only
    have stays : ∀ x : Fallible TpmDeviceError TpmDevice Bool, Fallible.Moves Eq x →
        ∀ other ∈ (Fallible.after (x.run device')).outstanding, other ∈ device'.outstanding := by
      intro x same other outstanding
      rwa [← same device'] at outstanding
    refine stays _ ?_
    cases e with
    | tpmRc rc =>
        dsimp only
        split
        · exact .pure (fun _ => rfl) _
        · exact .throw (fun _ => rfl) _
    | _ => exact .throw (fun _ => rfl) _
  · rw [ran]
    dsimp only
    rw [Fallible.after_bind_pure]
    intro other left
    obtain ⟨before, differs⟩ := TpmDevice.flushContext_subset handle device' other left
    rw [gains.outstanding] at before
    exact (List.mem_cons.mp before).resolve_left differs

theorem keepsAccounted_refreshKey (context : TpmsContext) :
    KeepsAccounted (Fallible.outcome (φ := TaskError) (onDevice (refreshKey context))) := by
  intro s left accounted
  have subset := refreshKey_subset context s.device
  rw [Fallible.after_outcome, onDevice_run]
  cases ran : (refreshKey context).run s.device with
  | ok _ device | error _ device =>
      rw [ran] at subset
      exact ⟨accounted.keyed, fun handle outstanding =>
        accounted.held handle (subset _ outstanding)⟩

theorem keepsAccounted_refreshEntries (vhandles : List UInt32) (firstError : Option TaskError)
    (handlesToRemove : List UInt32) :
    KeepsAccounted (refreshEntries vhandles firstError handlesToRemove) := by
  induction vhandles generalizing firstError handlesToRemove with
  | nil => exact (keepsSteady_pure _).accounted
  | cons vhandle vhandles ih =>
      refine KeepsAccounted.bind ?_ fun (firstError, handlesToRemove) => ih _ _
      unfold refreshEntry
      split
      · exact (keepsSteady_pure _).accounted
      refine keepsSteady_get.accounted.bind fun task => ?_
      cases task.cache.findByHandle (.new vhandle) with
      | none => exact (keepsSteady_pure _).accounted
      | some key =>
          refine (keepsAccounted_refreshKey key.context).bind fun answer => ?_
          rcases answer with e | valid
          · exact ((keepsSteady_note _ _).bind fun _ => keepsSteady_pure _).accounted
          · cases valid with
            | false => exact ((keepsSteady_note _ _).bind fun _ => keepsSteady_pure _).accounted
            | true =>
                have marked : KeepsSteady (modify fun task : TaskState =>
                    { task with cache := task.cache.markDirty vhandle }.note vhandle .valid :
                    Fallible TaskError TaskState PUnit) :=
                  keepsSteady_modify (fun _ => rfl) (fun _ => rfl) fun _ => rfl
                exact (marked.bind fun _ => keepsSteady_pure _).accounted

theorem keepsSteady_removeEntries (vhandles : List UInt32) (firstError : Option TaskError) :
    KeepsSteady (removeEntries vhandles firstError) := by
  induction vhandles generalizing firstError with
  | nil => exact keepsSteady_pure _
  | cons vhandle vhandles ih =>
      have removed : KeepsSteady (Fallible.outcome (φ := TaskError) (removeEntry (.new vhandle))) :=
        (keepsSteady_removeEntry _).outcome
      refine removed.bind fun ended => ?_
      cases ended with
      | ok _ => exact ih _
      | error e => exact ih _

theorem keepsAccounted_refreshCache : KeepsAccounted refreshCache := by
  refine keepsSteady_get.accounted.bind fun task => ?_
  refine (keepsAccounted_refreshEntries _ _ _).bind fun (firstError, handlesToRemove) => ?_
  refine (keepsSteady_removeEntries _ _).accounted.bind fun firstError => ?_
  cases firstError with
  | none => exact (keepsSteady_pure _).accounted
  | some e => exact (keepsSteady_throw _).accounted

/-- A session that is removed is flushed. -/
theorem keepsAccounted_removeSession (vhandle : TpmHandle) :
    KeepsAccounted (removeSession vhandle) := by
  intro s left accounted
  rw [removeSession, EStateM.run_bind, EStateM.run_get]
  dsimp only
  cases found : s.sessions.lookup vhandle with
  | none => exact accounted
  | some session =>
      have same := accounted.keyed vhandle session found
      have erased : Accounted (insert session.handle left)
          { s with sessions := s.sessions.erase vhandle } := by
        refine ⟨fun key other kept => ?_, fun handle outstanding => ?_⟩
        · by_cases equal : key = vhandle
          · rw [equal, AList.lookup_erase] at kept
            cases kept
          · exact accounted.keyed key other ((AList.lookup_erase_ne equal).symm.trans kept)
        · rcases accounted.held handle outstanding with tracked | listed | rest
          · exact .inl tracked
          · by_cases equal : handle = vhandle
            · exact .inr (.inr (.inl (equal.trans same.symm)))
            · exact .inr (.inl (AList.mem_erase.mpr ⟨equal, listed⟩))
          · exact .inr (.inr (.inr rest))
      have flushed := erased.flush
      dsimp only
      rw [EStateM.run_bind, EStateM.run_modify]
      dsimp only
      rw [withDevice_run]
      cases ended : session.flush.run s.device with
      | ok _ device | error _ device =>
          have ran : (TpmDevice.flushContext session.handle).run s.device = _ := ended
          rw [ran] at flushed
          exact flushed

/-- What is flushed is no longer outstanding. -/
theorem flushHandles_outstanding (handles : List TpmHandle) (device : TpmDevice) :
    (flushHandles handles device).outstanding = device.outstanding.filter (· ∉ handles) := by
  induction handles generalizing device with
  | nil => simp [flushHandles]
  | cons handle handles ih =>
      rw [flushHandles, ih, TpmDevice.flushContext_outstanding handle device, List.filter_filter]
      apply List.filter_congr
      intro other _
      simpa using Bool.and_comm _ _

/-- A task that is dropped leaves what it does not have to flush. -/
theorem drop_outstanding (task : TaskState) : task.drop.device.outstanding =
    task.device.outstanding.filter fun handle => handle ∉ task.physHandles ∧
      handle ∉ task.sessions.values.map Device.TpmPolicySession.handle := by
  show (flushHandles _ (flushHandles _ _)).outstanding = _
  rw [flushHandles_outstanding, flushHandles_outstanding, List.filter_filter]
  apply List.filter_congr
  intro handle _
  rw [Bool.decide_and, Bool.and_comm]
  simp only [AList.mem_keys]

/-- A task that is dropped has every handle flushed but those it is allowed to leave. -/
theorem Accounted.drop {left : Set TpmHandle} {task : TaskState} (accounted : task.Accounted left) :
    ∀ handle ∈ task.drop.device.outstanding, handle ∈ left := by
  intro handle outstanding
  rw [drop_outstanding, List.mem_filter, decide_eq_true_iff] at outstanding
  obtain ⟨before, untracked, ended⟩ := outstanding
  rcases accounted.held handle before with tracked | listed | rest
  · exact absurd tracked untracked
  · obtain ⟨session, found⟩ := Option.isSome_iff_exists.mp (AList.lookup_isSome.mpr listed)
    have member := List.mem_map_of_mem (f := Device.TpmPolicySession.handle)
      (HashMap.mem_values found)
    rw [accounted.keyed handle session found] at member
    exact absurd member ended
  · exact rest

end TaskState
end Tpm2
