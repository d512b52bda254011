import Tpm2.Sh.Accounted
import Tpm2.Sh.Cli

/-! What the commands leave to be flushed: all of them but one keep every handle that the TPM gave
accounted for. -/

namespace Tpm2

open ByteCodec
open TpmDevice (Quiet KeepsQuiet)

/-! ### Programs on the device -/

theorem readAllPcrs_quiet (rounds : Nat) : KeepsQuiet (readAllPcrs rounds) := by
  refine .bind .trans ?select fun reading => .bind .trans ?loop fun _ => .pure .refl _
  case select =>
    refine .bind .trans (TpmDevice.fetchPcrBankList_quiet.adaptExcept _) fun (algs, mask) =>
      .bind .trans (.ofExcept .refl _) fun _ => .pure .refl _
  case loop =>
    refine Rounds.loop_moves (R := fun _ => Quiet) (fun _ => .refl) .trans id fun reading => ?_
    refine .bind .trans ?read fun _ => .bind .trans (.ofExcept .refl _) fun _ =>
      .bind .trans (.ofExcept .refl _) fun _ => .pure .refl _
    refine .bind .trans (.adaptExcept _ ?_) fun _ => .bind .trans (.ofExcept .refl _) fun _ =>
      .pure .refl _
    exact TpmDevice.transmit_quiet (R := TpmPcrReadResponse) (tpmDispatch_mem rfl) (by decide)
      rfl _ _

theorem persistentNames_quiet (handles : List TpmHandle) (map : HashMap TpmHandle Tpm2bName) :
    KeepsQuiet (persistentNames handles map) := by
  induction handles generalizing map with
  | nil => exact .pure .refl _
  | cons h handles ih =>
      refine .bind .trans (TpmDevice.readPublic_quiet h).outcome fun read => ?_
      cases read with
      | ok _ => exact ih _
      | error _ => exact ih _

theorem fetchPersistentNames_quiet : KeepsQuiet fetchPersistentNames :=
  .bind .trans (TpmDevice.fetchHandles_quiet _) fun _ => persistentNames_quiet _ _

theorem Algorithm.testParms_quiet (parameters : TpmtPublicParms) :
    KeepsQuiet (Algorithm.testParms parameters) :=
  .bind .trans (TpmDevice.transmit_quiet (R := TpmTestParmsResponse) (tpmDispatch_mem rfl)
    (by decide) rfl _ _) fun _ => .pure .refl _

namespace Import

section
variable {ε E : Type} (libs : Libraries)

theorem randBytes_quiet (len : Nat) : Mutating.Moves Quiet (randBytes libcryptoRand len) := by
  intro s value t ends
  cases ends
  exact .of_sent rfl rfl

theorem inBuffer_quiet (size : Nat) (program : Mutating TpmCryptoError Bytes (Option Nat)) :
    Mutating.Moves Quiet (TpmHash.inBuffer size program) := by
  unfold TpmHash.inBuffer
  split
  · exact .pure .refl _
  · exact .throw .refl _
  · exact .orPanic .refl _

theorem kdfa_quiet (alg : TpmHash) (hmacKey label contextA contextB : Bytes) (keyBits : Nat) :
    Mutating.Moves Quiet (alg.kdfa libs.crypto libs.mac hmacKey label contextA contextB keyBits) :=
  .bind .trans (.result .refl _) fun _ => inBuffer_quiet _ _

theorem genBiguintRange_quiet (low high rounds : Nat) :
    Mutating.Moves Quiet (genBiguintRange libcryptoRand low high rounds) := by
  unfold genBiguintRange
  split
  · exact .throw .refl _
  · refine .bind .trans (Mutating.loop_moves .refl .trans (fun _ => ?_) _ _) fun _ =>
      .pure .refl _
    exact .bind .trans (randBytes_quiet _) fun _ => .bind .trans (.orPanic .refl _) fun _ =>
      .pure .refl _

theorem rsa_toSeed_quiet (key : TpmRsaExternalKey) (nameAlg : TpmHash) :
    Mutating.Moves Quiet (key.toSeed libs.crypto libs.keys libcryptoRand nameAlg) := by
  refine .bind .trans (.orPanic .refl _) fun _ => ?_
  refine .bind .trans ((randBytes_quiet _).adapt _) fun _ => ?_
  refine .bind .trans (.result .refl _) fun _ => ?_
  refine .bind .trans ((randBytes_quiet _).adapt _) fun _ => ?_
  exact .bind .trans (.result .refl _) fun _ => .bind .trans (.result .refl _) fun _ =>
    .pure .refl _

theorem ecc_toSeed_quiet (key : TpmEccExternalKey) (nameAlg : TpmHash) (rounds : Nat) :
    Mutating.Moves Quiet (key.toSeed libs.keys libs.crypto libcryptoRand nameAlg rounds) := by
  refine .bind .trans ?ecdh fun shared => ?_
  case ecdh =>
    refine .bind .trans (.result .refl _) fun nid => ?_
    refine .bind .trans (.result .refl _) fun degree => ?_
    refine .bind .trans (.result .refl _) fun _ => ?_
    refine .bind .trans (.result .refl _) fun order => ?_
    refine .bind .trans ((genBiguintRange_quiet _ _ _).adapt _) fun sampled => ?_
    cases sampled with
    | none => exact .pure .refl _
    | some priv =>
        refine .bind .trans (.result .refl _) fun _ => ?_
        refine .bind .trans (.result .refl _) fun _ => ?_
        refine .bind .trans (.result .refl _) fun _ => ?_
        refine .bind .trans ((inBuffer_quiet _ _).adapt _) fun _ => ?_
        exact .bind .trans (.result .refl _) fun _ => .pure .refl _
  cases shared with
  | none => exact .pure .refl _
  | some shared =>
      exact .bind .trans (.result .refl _) fun _ => .bind .trans (.result .refl _) fun _ =>
        .pure .refl _

theorem buildImportBlob_quiet (rounds : Nat) (parentPublic objectPublic : TpmtPublic)
    (privateBytes : Bytes) (objectName : Tpm2bName) (userAuth : Tpm2bAuth) :
    Mutating.Moves Quiet (buildImportBlob (E := E) libs libcryptoRand rounds parentPublic
      objectPublic privateBytes objectName userAuth) := by
  refine .bind .trans ?seed fun seeded => ?_
  case seed =>
    unfold parentSeed
    dsimp only
    split
    · refine .bind .trans (.result .refl _) fun key => .bind .trans (.result .refl _) fun hash =>
        .bind .trans ((rsa_toSeed_quiet libs key hash).adapt _) fun _ => .pure .refl _
    · refine .bind .trans (.result .refl _) fun key => .bind .trans (.result .refl _) fun hash =>
        (ecc_toSeed_quiet libs key hash rounds).adapt _
    · exact .throw .refl _
  cases seeded with
  | none => exact .pure .refl _
  | some seeded =>
      refine .bind .trans ?protect fun _ => .pure .refl _
      refine .bind .trans (.result .refl _) fun keyBits => .bind .trans ?keys fun _ =>
        .bind .trans (.result .refl _) fun _ => .result .refl _
      refine .bind .trans (.result .refl _) fun hash => ?_
      exact .bind .trans ((kdfa_quiet libs hash _ _ _ _ _).adapt _) fun _ =>
        .bind .trans ((kdfa_quiet libs hash _ _ _ _ _).adapt _) fun _ => .pure .refl _

end

end Import

/-- A program that may panic keeps what its runs keep. -/
theorem Fallible.moves_ofMutating {ε φ σ α : Type} {R : σ → σ → Prop} {x : Mutating ε σ α}
    (refl : ∀ s, R s s) (moves : Mutating.Moves R x) (panicked : φ) (wrap : ε → φ) :
    Fallible.Moves R (Fallible.ofMutating panicked wrap x) := by
  intro s
  show R s (Fallible.after (Fallible.ofMutating panicked wrap x s))
  unfold Fallible.ofMutating Fallible.ofRun
  dsimp only
  cases ended : x.outcome s with
  | none => exact refl s
  | some ending =>
      obtain ⟨value, t⟩ := ending
      have moved := moves s value t ended
      cases value with
      | ok a => exact moved
      | error e => exact moved

/-! ### Programs on the task -/

namespace TaskState

variable (crypto : Libcrypto)

theorem keepsSteady_readNvIndex (handle : UInt32) (rounds : Nat) :
    KeepsSteady (readNvIndex crypto handle rounds) := by
  refine KeepsSteady.bind ?opened fun nv => ?_
  case opened =>
    refine KeepsSteady.bind (.adaptExcept _
      (keepsSteady_withDevice (TpmDevice.fetchTpmProperty_quiet _))) fun maxReadSize =>
        KeepsSteady.bind ?_ fun nvPublic => keepsSteady_get.bind fun _ => keepsSteady_pure _
    refine KeepsSteady.bind (.adaptExcept _ (keepsSteady_execute crypto
      (R := TpmNvReadPublicResponse) (tpmDispatch_mem rfl) (by decide) rfl _ _)) fun _ =>
        (keepsSteady_ofExcept _).bind fun _ => keepsSteady_pure _
  split
  · exact keepsSteady_pure _
  · refine KeepsSteady.bind ?_ fun _ => keepsSteady_pure _
    refine Rounds.loop_moves (R := fun _ => Steady) (fun _ => .refl) .trans id fun reading => ?_
    refine (keepsSteady_ofExcept _).bind fun size => (keepsSteady_ofExcept _).bind fun offset => ?_
    refine KeepsSteady.bind (.adaptExcept _ (keepsSteady_execute crypto (C := TpmNvReadCommand)
      (R := TpmNvReadResponse) (tpmDispatch_mem rfl) (by decide) rfl _ _)) fun _ =>
        (keepsSteady_ofExcept _).bind fun _ => ?_
    dsimp only
    split <;> exact keepsSteady_pure _

/-- What is flushed need not be flushed any more. -/
theorem keepsAccounted_flush (handle : TpmHandle) :
    KeepsAccounted (withDevice (TpmDevice.flushContext handle)) := by
  intro s left accounted
  have flushed : Accounted left
      { s with device := Fallible.after ((TpmDevice.flushContext handle).run s.device) } :=
    Accounted.flush ⟨accounted.keyed, fun other outstanding =>
      (accounted.held other outstanding).imp_right (Or.imp_right .inr)⟩
  rw [withDevice_run]
  cases ran : (TpmDevice.flushContext handle).run s.device with
  | ok _ device | error _ device =>
      rw [ran] at flushed
      exact flushed

/-- A transient object that is flushed is no longer tracked. -/
theorem keepsAccounted_flushTracked (handle : TpmHandle) :
    KeepsAccounted (withDevice (TpmDevice.flushContext handle) >>= fun _ =>
      modify fun task => task.untrack handle : Fallible TaskError TaskState PUnit) := by
  intro s left accounted
  have subset := TpmDevice.flushContext_subset handle s.device
  rw [EStateM.run_bind, withDevice_run]
  cases ran : (TpmDevice.flushContext handle).run s.device with
  | error _ device =>
      rw [ran] at subset
      exact ⟨accounted.keyed, fun other outstanding =>
        accounted.held other (subset other outstanding).1⟩
  | ok _ device =>
      rw [ran] at subset
      refine ⟨accounted.keyed, fun other outstanding => ?_⟩
      obtain ⟨before, differs⟩ := subset other outstanding
      exact (accounted.held other before).imp_left fun tracked =>
        AList.mem_erase.mpr ⟨differs, tracked⟩

theorem keepsAccounted_deleteHandle («class» : TpmHt) (handle : TpmHandle) :
    KeepsAccounted (Delete.deleteHandle crypto «class» handle) := by
  unfold Delete.deleteHandle
  split
  · exact keepsAccounted_flush handle
  · exact keepsAccounted_flush handle
  · exact keepsAccounted_flushTracked handle
  · exact (keepsSteady_evictControl crypto handle handle).accounted
  · exact (keepsSteady_pure _).accounted

end TaskState

/-! ### Programs of the shell -/

namespace Shell

theorem run_onTask {E α : Type} (x : Fallible TaskError TaskState α) (s : Shell) :
    (onTask (E := E) x).run s = match x.run s.task with
      | .ok a task => .ok a { s with task }
      | .error e task => .error (.task e) { s with task } := by
  rw [onTask, onTaskWith, EStateM.run_adaptExcept, Fallible.run_part]
  cases x.run s.task <;> rfl

/-- The program keeps the handles accounted for, also where it fails. -/
abbrev KeepsAccounted {ε α : Type} (x : Fallible ε Shell α) : Prop :=
  Fallible.Moves (fun s t => ∀ left, s.task.Accounted left → t.task.Accounted left) x

/-- The program settles a handle that the TPM gave. -/
def Settles {ε α : Type} (handle : TpmHandle) (x : Fallible ε Shell α) : Prop :=
  ∀ s left, s.task.Accounted (insert handle left) →
    (Fallible.after (x.run s)).task.Accounted left

section
variable {ε E α β : Type}

theorem KeepsAccounted.bind {x : Fallible ε Shell α} {f : α → Fallible ε Shell β}
    (first : KeepsAccounted x) (next : ∀ a, KeepsAccounted (f a)) : KeepsAccounted (x >>= f) :=
  Fallible.Moves.bind (fun one two left accounted => two left (one left accounted)) first next

theorem keepsAccounted_pure (a : α) : KeepsAccounted (pure a : Fallible ε Shell α) :=
  Fallible.Moves.pure (fun _ _ => id) a

theorem keepsAccounted_get : KeepsAccounted (get : Fallible ε Shell Shell) :=
  Fallible.Moves.get fun _ _ => id

theorem keepsAccounted_throw (e : ε) : KeepsAccounted (throw e : Fallible ε Shell α) :=
  Fallible.Moves.throw (fun _ _ => id) e

theorem keepsAccounted_ofExcept (y : Except ε α) :
    KeepsAccounted (Fallible.ofExcept y : Fallible ε Shell α) :=
  Fallible.Moves.ofExcept (fun _ _ => id) y

theorem keepsAccounted_onTaskWith {x : Fallible ε TaskState α}
    (keeps : TaskState.KeepsAccounted x) (wrap : ε → CommandError E) :
    KeepsAccounted (onTaskWith wrap x) := by
  refine Fallible.Moves.adaptExcept wrap ?_
  intro s left accounted
  have kept := keeps s.task left accounted
  rw [Fallible.run_part]
  cases ran : x.run s.task with
  | ok a task | error e task =>
      rw [ran] at kept
      exact kept

theorem keepsAccounted_onTask {x : Fallible TaskError TaskState α}
    (keeps : TaskState.KeepsAccounted x) : KeepsAccounted (onTask (E := E) x) :=
  keepsAccounted_onTaskWith keeps .task

theorem keepsAccounted_onDevice {x : Fallible TpmDeviceError TpmDevice α}
    (quiet : KeepsQuiet x) : KeepsAccounted (onDevice (E := E) x) :=
  keepsAccounted_onTask (TaskState.keepsSteady_withDevice quiet).accounted

theorem keepsAccounted_tryDevice {x : Fallible TpmDeviceError TpmDevice α}
    (quiet : KeepsQuiet x) : KeepsAccounted (tryDevice (E := E) x) :=
  have steady : TaskState.KeepsSteady (Fallible.outcome (TaskState.onDevice x) :
      Fallible (CommandError E) TaskState _) := (TaskState.keepsSteady_onDevice quiet).outcome
  keepsAccounted_onTaskWith steady.accounted _

theorem keepsAccounted_requireValue (handle : Handle) :
    KeepsAccounted (requireValue (E := E) handle) :=
  (keepsAccounted_ofExcept _).bind fun _ => keepsAccounted_pure _

theorem keepsAccounted_finished (ended : Option α) :
    KeepsAccounted (finished (E := E) ended) := by
  cases ended with
  | none => exact keepsAccounted_throw _
  | some a => exact keepsAccounted_pure a

theorem keepsAccounted_write (output : Output) : KeepsAccounted (write (E := E) output) := by
  refine keepsAccounted_get.bind fun shell => keepsAccounted_get.bind fun shell' => ?_
  dsimp only
  split
  · exact keepsAccounted_throw _
  · exact Fallible.moves_modify fun _ _ => id

theorem keepsAccounted_writeLine (line : List Char) :
    KeepsAccounted (writeLine (E := E) line) :=
  keepsAccounted_write _

section
variable {C R : TpmBodyType} (mem : (C, R) ∈ tpmDispatch) (other : C.CC ≠ .flushContext)
  (crypto : Libcrypto)
include mem other

/-- A command whose response has no handle keeps the handles accounted for. -/
theorem keepsAccounted_perform (few : R.HANDLES = 0) (command : TpmBody C)
    (authList : List Auth) : KeepsAccounted (perform (E := E) crypto R command authList) :=
  keepsAccounted_onTask ((TaskState.keepsSteady_execute crypto mem other few command
    authList).bind fun _ => TaskState.keepsSteady_ofExcept _).accounted

/-- A command whose response has a handle that is settled behind it keeps the handles accounted
for. -/
theorem keepsAccounted_given (handle : TpmBody R → TpmHandle)
    (given : ∀ body, body.handles.items.head? = some (handle body)) (command : TpmBody C)
    (authList : List Auth) {next : TpmBody R → Fallible (CommandError E) Shell α}
    (settles : ∀ body, Settles (handle body) (next body)) :
    KeepsAccounted (perform (E := E) crypto R command authList >>= next) := by
  intro s left accounted
  rw [EStateM.run_bind, perform, run_onTask]
  rcases TaskState.execute_gains crypto mem other command authList s.task with
    ⟨e, task, ran, steady⟩ | ⟨body, task, ran, gains⟩
  · rw [ran]
    exact accounted.steady steady
  · rw [ran]
    rw [given body] at gains
    exact settles body { s with task } left (accounted.gain_one gains)

end

/-- A handle is settled by tracking it. -/
theorem settles_track {handle : TpmHandle} {next : Unit → Fallible (CommandError E) Shell α}
    (keeps : KeepsAccounted (next ())) :
    Settles handle (onTask (E := E) (TaskState.track handle) >>= next) := by
  intro s left given
  have tracked := TaskState.track_accounted handle given
  rw [EStateM.run_bind, run_onTask]
  cases ran : (TaskState.track handle).run s.task with
  | error e task =>
      rw [ran] at tracked
      exact tracked
  | ok _ task =>
      rw [ran] at tracked
      exact keeps { s with task } left tracked

end


theorem keepsAccounted_readFileInput {E : Type} (input : Option Path) :
    KeepsAccounted (readFileInput (E := E) input) := by
  refine keepsAccounted_get.bind fun shell => (keepsAccounted_ofExcept _).bind fun bytes => ?_
  split
  · exact keepsAccounted_throw _
  · split <;> exact keepsAccounted_pure _

section
variable (libs : Libraries) (rounds : Nat)

theorem keepsAccounted_writeKeyData (tpmKey : TpmKeyFile) (output : Option Path) :
    KeepsAccounted (writeKeyData libs tpmKey output) := by
  refine (keepsAccounted_ofExcept _).bind fun pem => ?_
  split <;> exact keepsAccounted_write _

theorem keepsAccounted_buildPolicyCommandList (policyExpression : Option (List Char))
    (nameAlg : TpmAlgId) :
    KeepsAccounted (buildPolicyCommandList libs policyExpression nameAlg rounds) := by
  cases policyExpression with
  | none => exact keepsAccounted_pure _
  | some expression =>
      refine (keepsAccounted_onTaskWith
        (TaskState.keepsSteady_onDevice (readAllPcrs_quiet rounds)).accounted _).bind fun read => ?_
      refine (keepsAccounted_finished read).bind fun pcrs => KeepsAccounted.bind ?_ fun names => ?_
      · exact (keepsAccounted_onDevice fetchPersistentNames_quiet).bind fun map =>
          keepsAccounted_get.bind fun shell => keepsAccounted_ofExcept _
      · exact (keepsAccounted_ofExcept _).bind fun policyContext =>
          (keepsAccounted_ofExcept _).bind fun ast =>
            (keepsAccounted_ofExcept _).bind fun compiled => keepsAccounted_pure _

theorem keepsAccounted_resolveAuth {E : Type} (handle : TpmHandle) :
    KeepsAccounted (onTask (E := E) (TaskState.resolveAuth libs.crypto handle)) :=
  keepsAccounted_onTask (TaskState.keepsAccounted_resolveAuth libs.crypto handle)

theorem keepsAccounted_buildObject (algorithm : TpmPublicTemplate)
    (password policyExpression : Option (List Char)) (lock : Bool) :
    KeepsAccounted (buildObject libs rounds algorithm password policyExpression lock) :=
  (keepsAccounted_ofExcept _).bind fun _ =>
    (keepsAccounted_buildPolicyCommandList libs rounds _ _).bind fun _ =>
      (keepsAccounted_ofExcept _).bind fun _ => keepsAccounted_pure _

theorem keepsAccounted_createObject (kind : TpmKeyType) (description : Option String)
    (parentPhysHandle : TpmHandle) (auth : Auth) (sensitive : TpmsSensitiveCreate)
    (publicArea : TpmtPublic) (policyCommands : TpmCommandList) :
    KeepsAccounted (createObject libs kind description parentPhysHandle auth sensitive publicArea
      policyCommands) :=
  (keepsAccounted_perform (R := TpmCreateResponse) (tpmDispatch_mem rfl) (by decide) libs.crypto
    rfl _ _).bind fun _ =>
      (keepsAccounted_onTask (TaskState.keepsSteady_saveKeyPolicy libs.crypto _).accounted).bind
        fun _ => keepsAccounted_pure _

theorem keepsAccounted_create (create : Create) : KeepsAccounted (create.run libs rounds) :=
  (keepsAccounted_requireValue _).bind fun _ =>
    (keepsAccounted_resolveAuth libs _).bind fun _ =>
      (keepsAccounted_buildObject libs rounds _ _ _ _).bind fun _ =>
        (keepsAccounted_createObject libs _ _ _ _ _ _ _).bind fun _ =>
          keepsAccounted_writeKeyData libs _ _

theorem keepsAccounted_saveLoaded (objectHandle : TpmHandle) («public» parentPublic : TpmtPublic)
    {policy : Fallible (CommandError libs.rasn.Asn1Error) Shell (Option (List VtpmPolicyCommand))}
    (keeps : KeepsAccounted policy) :
    KeepsAccounted (saveLoaded libs objectHandle «public» parentPublic policy) :=
  (keepsAccounted_onDevice (TpmDevice.saveContext_quiet _)).bind fun _ => keeps.bind fun _ =>
    (keepsAccounted_onTask (TaskState.keepsSteady_onCache _).accounted).bind fun _ =>
      keepsAccounted_writeLine _

theorem settles_keep (resp : TpmBody TpmCreatePrimaryResponse) (policyCommands : TpmCommandList) :
    Settles (resp.handles.get ⟨0, Nat.one_pos⟩) (CreatePrimary.keep libs resp policyCommands) := by
  have saved : KeepsAccounted (some <$> onTask (E := libs.rasn.Asn1Error)
      (TaskState.saveVtpmPolicy libs.crypto policyCommands)) :=
    (keepsAccounted_onTask
      (TaskState.keepsSteady_saveVtpmPolicy libs.crypto _).accounted).bind fun _ =>
        keepsAccounted_pure _
  exact settles_track (keepsAccounted_saveLoaded libs _ _ _ saved)

theorem keepsAccounted_createPrimary (create : CreatePrimary) :
    KeepsAccounted (create.run libs rounds) := by
  refine (keepsAccounted_buildObject libs rounds _ _ _ _).bind fun _ =>
    keepsAccounted_get.bind fun _ => ?_
  exact keepsAccounted_given (R := TpmCreatePrimaryResponse) (tpmDispatch_mem rfl) (by decide)
    libs.crypto (fun body => body.handles.get ⟨0, Nat.one_pos⟩)
    (fun body => body.handles.head?_items _ rfl) _ _ fun resp => settles_keep libs resp _

theorem keepsAccounted_resolveData {E : Type} (sealing : Seal) :
    KeepsAccounted (sealing.resolveData (E := E) libs) := by
  refine KeepsAccounted.bind ?bytes fun bytes => ?_
  case bytes =>
    unfold Seal.dataBytes
    split
    · exact keepsAccounted_readFileInput _
    · split
      · exact keepsAccounted_throw _
      · exact keepsAccounted_pure _
  split
  · exact keepsAccounted_throw _
  · exact keepsAccounted_ofExcept _

theorem keepsAccounted_seal (sealing : Seal) : KeepsAccounted (sealing.run libs rounds) :=
  (keepsAccounted_ofExcept _).bind fun _ => (keepsAccounted_requireValue _).bind fun _ =>
    (keepsAccounted_resolveAuth libs _).bind fun _ => (keepsAccounted_ofExcept _).bind fun _ =>
      (keepsAccounted_resolveData libs sealing).bind fun _ =>
        (keepsAccounted_buildPolicyCommandList libs rounds _ _).bind fun _ =>
          (keepsAccounted_ofExcept _).bind fun _ =>
            (keepsAccounted_createObject libs _ _ _ _ _ _ _).bind fun _ =>
              keepsAccounted_writeKeyData libs _ _

theorem keepsAccounted_loadKernelKey (tpmKey : TpmKeyFile) (name : List Char)
    (parentHandle : TpmHandle) :
    KeepsAccounted (Load.loadKernelKey libs tpmKey name parentHandle) := by
  refine (keepsAccounted_ofExcept _).bind fun _ =>
    (keepsAccounted_ofExcept _).bind fun payload => ?_
  split
  · exact keepsAccounted_throw _
  · split
    · exact keepsAccounted_throw _
    · exact keepsAccounted_writeLine _

theorem keepsAccounted_parentFromHandle {E : Type} (parent : TpmHandle) :
    KeepsAccounted (Load.parentFromHandle (E := E) parent) := by
  unfold Load.parentFromHandle
  split
  · exact (keepsAccounted_onDevice (TpmDevice.readPublic_quiet _)).bind fun _ =>
      keepsAccounted_pure _
  · refine keepsAccounted_get.bind fun shell => ?_
    split
    · exact keepsAccounted_throw _
    · exact keepsAccounted_pure _

theorem keepsAccounted_importPrivate {E : Type} (parentHandle : TpmHandle) (auth : Auth)
    (secret : Bytes) («public» : Tpm2bPublic) («private» : Tpm2bPrivate) : KeepsAccounted
      (Load.importPrivate (E := E) libs parentHandle auth secret «public» «private») := by
  unfold Load.importPrivate
  split
  · exact keepsAccounted_pure _
  · exact (keepsAccounted_ofExcept _).bind fun _ =>
      keepsAccounted_onTask (TaskState.keepsSteady_importKey libs.crypto _ _ _ _ _ _ _).accounted

theorem keepsAccounted_loadObject (tpmKey : TpmKeyFile) («public» : Tpm2bPublic)
    («private» : Tpm2bPrivate) (parent : TpmHandle) :
    KeepsAccounted (Load.loadObject libs tpmKey «public» «private» parent) := by
  refine (keepsAccounted_parentFromHandle parent).bind fun parentPublic =>
    (keepsAccounted_resolveAuth libs _).bind fun resolved =>
      (keepsAccounted_importPrivate libs _ _ _ _ _).bind fun objectPrivate => ?_
  refine keepsAccounted_given (R := TpmLoadResponse) (tpmDispatch_mem rfl) (by decide)
    libs.crypto (fun body => body.handles.get ⟨0, Nat.one_pos⟩)
    (fun body => body.handles.head?_items _ rfl) _ _ fun resp => ?_
  rw [Load.keep, bind_assoc]
  refine settles_track ?_
  rw [pure_bind]
  exact (keepsAccounted_ofExcept _).bind fun _ =>
    keepsAccounted_saveLoaded libs _ _ _ (keepsAccounted_pure _)

theorem keepsAccounted_load (load : Load) : KeepsAccounted (load.run libs) := by
  refine (keepsAccounted_readFileInput _).bind fun _ =>
    (keepsAccounted_ofExcept _).bind fun tpmKey =>
      (keepsAccounted_requireValue _).bind fun parent => ?_
  split
  · exact keepsAccounted_loadKernelKey libs tpmKey _ parent
  · exact (keepsAccounted_ofExcept _).bind fun _ => keepsAccounted_loadObject libs tpmKey _ _ parent

theorem keepsAccounted_unseal (self : Unseal) : KeepsAccounted (self.run libs) := by
  refine (keepsAccounted_requireValue _).bind fun _ => (keepsAccounted_resolveAuth libs _).bind
    fun _ => (keepsAccounted_perform (R := TpmUnsealResponse) (tpmDispatch_mem rfl) (by decide)
      libs.crypto rfl _ _).bind fun _ => ?_
  dsimp only
  split
  · exact keepsAccounted_write _
  · exact keepsAccounted_writeLine _

theorem keepsAccounted_pcrEvent (event : PcrEvent) : KeepsAccounted (event.run libs) :=
  (keepsAccounted_readFileInput _).bind fun _ => (keepsAccounted_ofExcept _).bind fun _ =>
    keepsAccounted_get.bind fun _ =>
      (keepsAccounted_perform (R := TpmPcrEventResponse) (tpmDispatch_mem rfl) (by decide)
        libs.crypto rfl _ _).bind fun _ => keepsAccounted_writeLine _

theorem keepsAccounted_resetLock : KeepsAccounted (ResetLock.run libs) :=
  keepsAccounted_get.bind fun _ =>
    (keepsAccounted_perform (R := TpmDictionaryAttackLockResetResponse) (tpmDispatch_mem rfl)
      (by decide) libs.crypto rfl _ _).bind fun _ => keepsAccounted_pure _

end

/-! ### Deletion -/

section
variable {E : Type} (pattern : Handle)

theorem keepsAccounted_deleteHandles (crypto : Libcrypto) («class» : TpmHt)
    (handles : List TpmHandle) (failed : Bool) :
    KeepsAccounted (Delete.deleteHandles (E := E) pattern crypto «class» handles failed) := by
  induction handles generalizing failed with
  | nil => exact keepsAccounted_pure _
  | cons handle handles ih =>
      unfold Delete.deleteHandles
      split
      · have deleted : KeepsAccounted (Fallible.outcome (φ := CommandError E)
            (onTask (E := E) (Delete.deleteHandle crypto «class» handle))) :=
          (keepsAccounted_onTask (TaskState.keepsAccounted_deleteHandle crypto _ _)).outcome
        refine deleted.bind fun ended => ?_
        cases ended with
        | ok _ => exact (keepsAccounted_writeLine _).bind fun _ => ih _
        | error _ => exact ih _
      · exact ih _

theorem keepsAccounted_deleteClasses (crypto : Libcrypto) (classes : List TpmHt) (failed : Bool) :
    KeepsAccounted (Delete.deleteClasses (E := E) pattern crypto classes failed) := by
  induction classes generalizing failed with
  | nil => exact keepsAccounted_pure _
  | cons «class» classes ih =>
      have fetched : KeepsAccounted (Fallible.outcome (φ := CommandError E)
          (onDevice (E := E) (TpmDevice.fetchHandles «class»))) :=
        (keepsAccounted_onDevice (TpmDevice.fetchHandles_quiet _)).outcome
      refine fetched.bind fun ended => ?_
      cases ended with
      | ok handles =>
          exact (keepsAccounted_deleteHandles pattern crypto «class» handles failed).bind
            fun _ => ih _
      | error _ => exact ih _

theorem keepsAccounted_printHandles (handles : List TpmHandle) :
    KeepsAccounted (Delete.printHandles (E := E) handles) := by
  induction handles with
  | nil => exact keepsAccounted_pure _
  | cons handle handles ih => exact (keepsAccounted_writeLine _).bind fun _ => ih

theorem keepsAccounted_deleteKeys (vhandles : List UInt32) (failed : Bool) :
    KeepsAccounted (Delete.deleteKeys (E := E) vhandles failed) := by
  induction vhandles generalizing failed with
  | nil => exact keepsAccounted_pure _
  | cons vhandle vhandles ih =>
      have removed : KeepsAccounted (Fallible.outcome (φ := CommandError E)
          (onTask (E := E) (TaskState.onCache (VtpmCache.remove (.new vhandle))))) :=
        (keepsAccounted_onTask (TaskState.keepsSteady_onCache _).accounted).outcome
      refine removed.bind fun ended => ?_
      cases ended with
      | ok deleted => exact (keepsAccounted_printHandles deleted).bind fun _ => ih _
      | error _ => exact ih _

theorem keepsAccounted_delete (crypto : Libcrypto) (delete : Delete) :
    KeepsAccounted (delete.run (E := E) crypto) := by
  have report (failed : Bool) : KeepsAccounted
      (if failed then throw .deleteFailed else pure () : Fallible (CommandError E) Shell Unit) := by
    split
    · exact keepsAccounted_throw _
    · exact keepsAccounted_pure _
  have tpm : KeepsAccounted (Delete.deleteTpmHandles (E := E) delete.handle crypto) :=
    (keepsAccounted_deleteClasses delete.handle crypto _ _).bind report
  have vtpm : KeepsAccounted (Delete.deleteVtpmHandles (E := E) delete.handle) := by
    refine keepsAccounted_get.bind fun shell => ?_
    dsimp only
    split
    · exact keepsAccounted_pure _
    · exact (keepsAccounted_deleteKeys _ _).bind report
  exact KeepsAccounted.bind (.outcome tpm) fun _ => KeepsAccounted.bind (.outcome vtpm) fun _ =>
    keepsAccounted_ofExcept _

end

/-! ### Listings -/

section
variable {E : Type}

theorem keepsAccounted_rowsOf {α : Type} {row : α → Fallible (CommandError E) Shell MemoryRow}
    (keeps : ∀ item, KeepsAccounted (row item)) (items : List α) :
    KeepsAccounted (Memory.rowsOf row items) := by
  induction items with
  | nil => exact keepsAccounted_pure _
  | cons item items ih =>
      exact (keeps item).bind fun _ => ih.bind fun _ => keepsAccounted_pure _

theorem keepsAccounted_deviceDetails (handle : TpmHandle) :
    KeepsAccounted (Memory.deviceDetails (E := E) handle) :=
  (keepsAccounted_onDevice (TpmDevice.readPublic_quiet handle)).bind fun _ =>
    keepsAccounted_ofExcept _

theorem keepsAccounted_fetched {α : Type} (ht : TpmHt)
    {next : List TpmHandle → Fallible (CommandError E) Shell α}
    (keeps : ∀ handles, KeepsAccounted (next handles)) :
    KeepsAccounted (onDevice (E := E) (TpmDevice.fetchHandles ht) >>= next) :=
  (keepsAccounted_onDevice (TpmDevice.fetchHandles_quiet ht)).bind keeps

variable (libs : Libraries) (rounds : Nat)

theorem keepsAccounted_buildNameToHandle :
    KeepsAccounted (Memory.buildNameToHandle (E := E) libs) :=
  (keepsAccounted_tryDevice fetchPersistentNames_quiet).bind fun _ =>
    keepsAccounted_get.bind fun _ => keepsAccounted_pure _

theorem keepsAccounted_inspectObject (handle : Handle) (handleVal : UInt32) :
    KeepsAccounted (Memory.inspectObject (E := E) libs handle handleVal) := by
  refine KeepsAccounted.bind ?described fun _ => (keepsAccounted_writeLine _).bind fun _ =>
    (keepsAccounted_writeLine _).bind fun _ => (keepsAccounted_writeLine _).bind fun _ =>
      (keepsAccounted_writeLine _).bind fun _ => ?_
  case described =>
    refine keepsAccounted_get.bind fun shell => ?_
    cases shell.task.cache.findByHandle (.new handleVal) with
    | some key =>
        refine KeepsAccounted.bind ?_ fun _ => keepsAccounted_pure _
        unfold Memory.resolveParentStr
        split
        · exact keepsAccounted_pure _
        · exact (keepsAccounted_buildNameToHandle libs).bind fun _ => keepsAccounted_pure _
    | none =>
        refine (keepsAccounted_tryDevice (TpmDevice.readPublic_quiet _)).bind fun read => ?_
        split
        · exact keepsAccounted_pure _
        · split <;> exact keepsAccounted_throw _
        · exact keepsAccounted_throw _
  split
  · exact keepsAccounted_writeLine _
  · exact keepsAccounted_pure _

theorem keepsAccounted_readNvIndex (handle : UInt32) :
    KeepsAccounted (onTaskWith (E := E) .nv (readNvIndex libs.crypto handle rounds)) :=
  keepsAccounted_onTaskWith (TaskState.keepsSteady_readNvIndex libs.crypto _ _).accounted _

theorem keepsAccounted_inspectNvIndex (handle : UInt32) :
    KeepsAccounted (Memory.inspectNvIndex (E := E) libs handle rounds) := by
  refine KeepsAccounted.bind ((keepsAccounted_readNvIndex libs rounds handle).bind
    keepsAccounted_finished) fun certBytes => ?_
  split
  · exact keepsAccounted_pure _
  split
  · exact keepsAccounted_writeLine _
  · exact keepsAccounted_writeLine _

theorem keepsAccounted_fetchCachedTransientRows :
    KeepsAccounted (Memory.fetchCachedTransientRows (E := E) libs) :=
  (keepsAccounted_onTask TaskState.keepsAccounted_refreshCache).bind fun _ =>
    (keepsAccounted_buildNameToHandle libs).bind fun _ => keepsAccounted_get.bind fun _ =>
      keepsAccounted_rowsOf (fun _ => keepsAccounted_ofExcept _) _

theorem keepsAccounted_nvRow (handle : TpmHandle) :
    KeepsAccounted (Memory.nvRow (E := E) libs rounds handle) := by
  refine KeepsAccounted.bind ?_ fun _ => keepsAccounted_pure _
  have read : KeepsAccounted (Fallible.outcome (φ := CommandError E)
      (onTaskWith (E := E) .nv (readNvIndex libs.crypto handle.value rounds))) :=
    (keepsAccounted_readNvIndex libs rounds handle.value).outcome
  refine read.bind fun ended => ?_
  split
  · exact keepsAccounted_pure _
  · exact keepsAccounted_throw _
  · split <;> exact keepsAccounted_pure _

theorem keepsAccounted_listAllMemory (isTty noCache : Bool) :
    KeepsAccounted (Memory.listAllMemory (E := E) libs isTty noCache rounds) := by
  have device : KeepsAccounted (Memory.fetchDeviceTransientRows (E := E)) :=
    keepsAccounted_fetched _ <| keepsAccounted_rowsOf fun handle =>
      (keepsAccounted_deviceDetails handle).bind fun _ => keepsAccounted_pure _
  have rest (persistent transient : List MemoryRow) : KeepsAccounted (do
      let session ← Memory.fetchSessionRows (E := E)
      let saved ← Memory.fetchSavedSessionRows
      let nv ← Memory.fetchNvRows libs rounds
      let rows := (persistent ++ transient ++ session ++ saved ++ nv).mergeSort
        fun a b => textLe a.handle b.handle
      Memory.printTable libs rows isTty) := by
    refine (keepsAccounted_fetched _ fun _ => keepsAccounted_pure _).bind fun _ =>
      (keepsAccounted_fetched _ fun _ => keepsAccounted_pure _).bind fun _ =>
        (keepsAccounted_fetched _ <| keepsAccounted_rowsOf <| keepsAccounted_nvRow libs rounds).bind
          fun _ => ?_
    dsimp only
    unfold Memory.printTable
    split
    · exact keepsAccounted_pure _
    · exact keepsAccounted_writeLine _
  refine (keepsAccounted_fetched _ <| keepsAccounted_rowsOf fun handle =>
    (keepsAccounted_deviceDetails handle).bind fun _ => keepsAccounted_pure _).bind fun _ => ?_
  dsimp only
  split
  · exact device.bind fun _ => rest _ _
  · exact (keepsAccounted_fetchCachedTransientRows libs).bind fun _ => rest _ _

theorem keepsAccounted_memory (memory : Memory) (isTty : Bool) :
    KeepsAccounted (memory.run (E := E) libs isTty rounds) := by
  unfold Memory.run
  split
  · refine (keepsAccounted_requireValue _).bind fun handleVal => ?_
    unfold Memory.inspectHandle
    split
    · exact keepsAccounted_inspectNvIndex libs rounds _
    · exact keepsAccounted_inspectObject libs _ _
  · exact keepsAccounted_listAllMemory libs rounds isTty _

end

section
variable {E : Type}

theorem keepsAccounted_supportedSizes (sizes : List UInt16) :
    KeepsAccounted (Algorithm.supportedSizes (E := E) sizes) := by
  induction sizes with
  | nil => exact keepsAccounted_pure _
  | cons bits sizes ih =>
      refine (keepsAccounted_tryDevice (Algorithm.testParms_quiet _)).bind fun tested => ?_
      split
      · exact ih.bind fun _ => keepsAccounted_pure _
      · split
        · exact ih
        · exact keepsAccounted_throw _
      · exact keepsAccounted_throw _

theorem keepsAccounted_testKeyedhashParms (scheme hashAlg : TpmAlgId) :
    KeepsAccounted (Fallible.outcome (φ := CommandError E)
      (Algorithm.testKeyedhashParms (E := E) scheme hashAlg)) := by
  have tested : KeepsAccounted (Algorithm.testKeyedhashParms (E := E) scheme hashAlg) :=
    (keepsAccounted_ofExcept _).bind fun _ => keepsAccounted_onDevice (Algorithm.testParms_quiet _)
  exact .outcome tested

theorem keepsAccounted_keyedhashAlg (start : List Char) (scheme hash : TpmAlgId) :
    KeepsAccounted (Algorithm.keyedhashAlg (E := E) start scheme hash) := by
  refine (keepsAccounted_testKeyedhashParms scheme hash).bind fun tested => ?_
  split <;> exact keepsAccounted_pure _

theorem keepsAccounted_keyedhashForms (nameAlgs : List TpmAlgId) :
    KeepsAccounted (Algorithm.keyedhashForms (E := E) nameAlgs) := by
  induction nameAlgs with
  | nil => exact keepsAccounted_pure _
  | cons hash nameAlgs ih =>
      exact (keepsAccounted_keyedhashAlg _ _ _).bind fun _ =>
        (keepsAccounted_keyedhashAlg _ _ _).bind fun _ => ih.bind fun _ => keepsAccounted_pure _

theorem keepsAccounted_whenHas {allAlgs : List TpmAlgId} {alg : TpmAlgId}
    {x : Fallible (CommandError E) Shell (List (List Char))} (keeps : KeepsAccounted x) :
    KeepsAccounted (Algorithm.whenHas allAlgs alg x) := by
  unfold Algorithm.whenHas
  split
  · exact keeps
  · exact keepsAccounted_pure _

theorem keepsAccounted_printLines (lines : List (List Char)) :
    KeepsAccounted (Algorithm.printLines (E := E) lines) := by
  induction lines with
  | nil => exact keepsAccounted_pure _
  | cons line lines ih => exact (keepsAccounted_writeLine _).bind fun _ => ih

theorem keepsAccounted_algorithm : KeepsAccounted (Algorithm.run (E := E)) := by
  refine KeepsAccounted.bind ?_ fun _ => keepsAccounted_printLines _
  refine (keepsAccounted_onDevice (TpmDevice.getCapability_quiet _ _ _ _ _)).bind fun _ => ?_
  refine (keepsAccounted_whenHas ?rsa).bind fun _ => (keepsAccounted_whenHas ?ecc).bind fun _ =>
    (keepsAccounted_whenHas ?keyedhash).bind fun _ => keepsAccounted_pure _
  case rsa => exact (keepsAccounted_supportedSizes _).bind fun _ => keepsAccounted_pure _
  case ecc =>
    exact (keepsAccounted_onDevice (TpmDevice.getCapability_quiet _ _ _ _ _)).bind fun _ =>
      keepsAccounted_pure _
  case keyedhash =>
    exact (keepsAccounted_testKeyedhashParms _ _).bind fun _ =>
      (keepsAccounted_keyedhashForms _).bind fun _ => keepsAccounted_pure _

end

/-! ### Imports, and all commands -/

section
variable (libs : Libraries) (rounds : Nat)

theorem keepsAccounted_buildKeyFile (self : Import) (parentHandle : TpmHandle)
    («public» : Tpm2bPublic) (duplicate : Tpm2bPrivate) (inSymSeed : Tpm2bEncryptedSecret)
    (encryptionKey : Tpm2bData) (auths : List Auth) (userAuth : Tpm2bAuth)
    (policyCommands : TpmCommandList) :
    KeepsAccounted (Import.buildKeyFile libs self parentHandle «public» duplicate inSymSeed
      encryptionKey auths userAuth policyCommands) := by
  refine (keepsAccounted_onTask
    (TaskState.keepsSteady_saveKeyPolicy libs.crypto _).accounted).bind fun _ => ?_
  dsimp only
  split
  · refine (keepsAccounted_onTask
      (TaskState.keepsSteady_importKey libs.crypto _ _ _ _ _ _ _).accounted).bind
        fun _ => (keepsAccounted_pure _).bind fun _ => ?_
    split <;> exact keepsAccounted_pure _
  · refine (keepsAccounted_pure _).bind fun _ => ?_
    split <;> exact keepsAccounted_pure _

theorem keepsAccounted_buildExternalKey (self : Import) (parentHandle : TpmHandle)
    (derBytes : Bytes) (template : TpmPublicTemplate) (auths : List Auth) (userAuth : Tpm2bAuth)
    (authPolicy : Tpm2bDigest) (objectAttributes : TpmaObject) (policyCommands : TpmCommandList) :
    KeepsAccounted (Import.buildExternalKey libs self rounds parentHandle derBytes template auths
      userAuth authPolicy objectAttributes policyCommands) := by
  refine (keepsAccounted_onDevice (TpmDevice.readPublic_quiet _)).bind fun _ =>
    (keepsAccounted_ofExcept _).bind fun _ => (keepsAccounted_ofExcept _).bind fun _ => ?_
  refine KeepsAccounted.bind (keepsAccounted_onTaskWith ?_ _) fun _ =>
    (keepsAccounted_finished _).bind fun _ => keepsAccounted_buildKeyFile libs _ _ _ _ _ _ _ _ _
  exact (TaskState.keepsSteady_onDevice (Fallible.moves_ofMutating .refl
    (Import.buildImportBlob_quiet libs rounds _ _ _ _ _) _ _)).accounted

theorem keepsAccounted_import (self : Import) : KeepsAccounted (self.run libs rounds) :=
  (keepsAccounted_requireValue _).bind fun _ => (keepsAccounted_resolveAuth libs _).bind fun _ =>
    (keepsAccounted_readFileInput _).bind fun _ => (keepsAccounted_ofExcept _).bind fun _ =>
      (keepsAccounted_ofExcept _).bind fun _ =>
        (keepsAccounted_buildPolicyCommandList libs rounds _ _).bind fun _ =>
          (keepsAccounted_buildExternalKey libs rounds _ _ _ _ _ _ _ _ _).bind fun _ =>
            keepsAccounted_writeKeyData libs _ _

/-- All commands but one keep the handles accounted for. -/
theorem keepsAccounted_run {command : Command} (other : ∀ cmd, command ≠ .evict cmd)
    (isTty : Bool) : KeepsAccounted (command.run libs rounds isTty) := by
  cases command with
  | algorithm => exact keepsAccounted_algorithm
  | create cmd => exact keepsAccounted_create libs rounds cmd
  | createPrimary cmd => exact keepsAccounted_createPrimary libs rounds cmd
  | delete cmd => exact keepsAccounted_delete libs.crypto cmd
  | evict cmd => exact absurd rfl (other cmd)
  | «import» cmd => exact keepsAccounted_import libs rounds cmd
  | load cmd => exact keepsAccounted_load libs cmd
  | memory cmd => exact keepsAccounted_memory libs rounds cmd isTty
  | pcrEvent cmd => exact keepsAccounted_pcrEvent libs cmd
  | returnCode cmd => exact keepsAccounted_writeLine _
  | resetLock => exact keepsAccounted_resetLock libs
  | «seal» cmd => exact keepsAccounted_seal libs rounds cmd
  | «unseal» cmd => exact keepsAccounted_unseal libs cmd

end

end Shell
end Tpm2
