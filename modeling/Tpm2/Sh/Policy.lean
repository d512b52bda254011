import Tpm2.PolicyLanguage.Commands
import Tpm2.Sh.Honest
import Tpm2.TpmKey.File
import Tpm2.Vtpm.Capture

/-! The policy commands of a compiled policy become the steps that are stored with a key. -/

namespace Tpm2

open ByteCodec
open TpmPolicyExpression (Compiled)

/-- The frame of a command with its authorizations. -/
def marshalCommandFrame (command : TpmCommandValue) (auths : TpmAuthCommands) :
    TpmResult Bytes := do
  let tag : TpmSt := if auths.items.isEmpty then .noSessions else .sessions
  let writer ← command.marshalFrame tag auths (Cursor.zeros tpmMaxCommandSize)
  return writer.written

namespace TaskState

/-- The name that is stored with a command: that of the object of a `PolicySecret`. -/
def objectName (crypto : Libcrypto) : TpmCommandValue → Fallible TaskError TaskState Tpm2bName
  | .policySecret inner => do
      let handle := inner.handles.get ⟨0, Nat.two_pos⟩
      match (← get).cache.findByHandle handle with
      | some key => Fallible.ofExcept ((tpmMakeName crypto key.public).mapError .crypto)
      | none => do
          let (_, name) ← withDevice (TpmDevice.readPublic handle)
          return name
  | _ => return .new

/-- One step of `saveVtpmPolicy`. -/
def saveVtpmStep (crypto : Libcrypto) (command : TpmCommandValue × TpmAuthCommands) :
    Fallible TaskError TaskState VtpmPolicyCommand := do
  let objectName ← objectName crypto command.1
  let frame ← Fallible.ofExcept ((marshalCommandFrame command.1 command.2).mapError .protocol)
  let commandFrame ← Fallible.ofExcept ((TpmCommand.cast frame).mapError .protocol)
  Fallible.ofExcept ((vtpmPolicyCommandFrom commandFrame objectName).mapError .vtpm)

/-- The loop of `saveVtpmPolicy`. -/
def saveVtpmSteps (crypto : Libcrypto) :
    TpmCommandList → Fallible TaskError TaskState (List VtpmPolicyCommand)
  | [] => return []
  | command :: commands => do
      let step ← saveVtpmStep crypto command
      let steps ← saveVtpmSteps crypto commands
      return step :: steps

/-- Converts an ephemeral list of TPM policy commands into a storable vTPM policy. -/
def saveVtpmPolicy (crypto : Libcrypto) (commands : TpmCommandList) :
    Fallible TaskError TaskState (List VtpmPolicyCommand) := do
  if commands.isEmpty then
    return []
  else
    saveVtpmSteps crypto commands

/-- Constructs the policy of a key file from the given sequence of policy commands. -/
def saveKeyPolicy (crypto : Libcrypto) (commands : TpmCommandList) :
    Fallible TaskError TaskState (List TpmKeyPolicyCommand) := do
  let vtpmPolicy ← saveVtpmPolicy crypto commands
  return vtpmPolicy.map fun cmd => ⟨cmd.cc, cmd.body⟩

end TaskState

/-- The step of a command: another command is restored from it, and that of a `PolicySecret` says
what object it needs. -/
inductive Captured (name : Tpm2bName) : TpmCommandValue → VtpmPolicyCommand → Prop
  | plain {command : TpmCommandValue} {step : VtpmPolicyCommand}
      (other : secretObject command = none) (code : step.cc ≠ .policySecret)
      (restored : step.toCommand = .ok command) : Captured name command step
  | secret (object : TpmHandle) (policyRef : Tpm2bDigest) : Captured name
      (.policySecret ⟨.two object (.new 0), .new, .new, policyRef, .new 0, ()⟩)
      (.secret ⟨object, name, policyRef⟩)

/-- The frame of a command that fits, as a view of it shows it. -/
theorem marshalCommandFrame_view (row : TpmBodyType × TpmBodyType) (command : TpmCommandValue)
    (mem : row ∈ tpmDispatch) {body : TpmBody row.1} (wf : body.WellFormed)
    (small : 10 + (row.1.HANDLES * 4 + TpmSpec.maxLen row.1.Parameters) ≤ tpmMaxCommandSize)
    (marshals : command.marshalFrame .noSessions .new = tpmMarshalCommand body .noSessions []) :
    ∃ frame view parameters, marshalCommandFrame command .new = .ok frame ∧
      TpmCommand.cast frame = .ok view ∧ castCommandView view = .ok row.1.CC ∧
      view.parameters = .ok parameters ∧ Emits body.marshalParameters parameters ∧
      view.unmarshal row.1 = .ok body := by
  have few : row.1.HANDLES ≤ 3 := (dispatch_handles_le _ (List.mem_map.mpr ⟨row, mem, rfl⟩)).1
  have fits : 10 + body.len ≤ tpmMaxCommandSize := by
    have := LawfulFields.len_le body.parameters
    rw [body.len_eq]
    omega
  obtain ⟨writer, written⟩ := tpmMarshalCommand_ok few wf fits
  obtain ⟨frame, view, cast, same, valid, -, dispatch, handles, -, parameters⟩ :=
    tpmMarshalCommand_valid mem wf rfl written
  have code := cc_of_dispatch same dispatch
  refine ⟨writer.written, view, frame.parameters, ?_, cast,
    castCommandView_eq_ok.mpr ⟨valid, code⟩, (TpmCommand.areas_frame same).2.1, parameters,
    unmarshal_of_emitted wf same valid dispatch handles parameters⟩
  have marshalled : command.marshalFrame .noSessions .new (Cursor.zeros tpmMaxCommandSize) =
      .ok writer := by rw [marshals, written]
  exact bind_eq_ok.mpr ⟨writer, marshalled, rfl⟩

/-- The frame of each command of a compiled policy becomes its step. -/
theorem captured_of_compiled {context : TpmPolicyContext} {command : TpmCommandValue}
    (compiled : Compiled context command) (name : Tpm2bName) : ∃ frame view step,
      marshalCommandFrame command .new = .ok frame ∧ TpmCommand.cast frame = .ok view ∧
      vtpmPolicyCommandFrom view name = .ok step ∧ Captured name command step := by
  cases compiled with
  | pcr pcrDigest pcrs =>
      let body : TpmBody TpmPolicyPcrCommand := ⟨.one (.new 0), pcrDigest, pcrs, ()⟩
      have wf : body.WellFormed :=
        ⟨trivial, ⟨Nat.le_trans pcrs.length_le (by decide), fun _ _ => trivial⟩, trivial⟩
      obtain ⟨frame, view, parameters, marshalled, cast, selected, area, emits, -⟩ :=
        marshalCommandFrame_view (TpmPolicyPcrCommand, TpmPolicyPcrResponse)
          (.policyPcr body) (tpmDispatch_mem rfl) wf (by decide +kernel) rfl
      have read := (LawfulFields.codec parameters.length).read_emitted wf emits []
      rw [List.append_nil] at read
      have restored : readBody readPcrBody parameters = .ok (pcrDigest, pcrs) :=
        readBody_eq_ok.mpr (unmarshalFields_two.mp read)
      refine ⟨frame, view, _, marshalled, cast,
        captured_copied (by simp [copiedCommands]) selected area, .plain rfl ?_ ?_⟩
      · rintro ⟨⟩
      · exact bind_eq_ok.mpr ⟨_, restored, rfl⟩
  | or list =>
      let body : TpmBody TpmPolicyOrCommand := ⟨.one (.new 0), list, ()⟩
      have wf : body.WellFormed :=
        ⟨⟨Nat.le_trans list.length_le (by decide), fun _ _ => trivial⟩, trivial⟩
      obtain ⟨frame, view, parameters, marshalled, cast, selected, area, emits, -⟩ :=
        marshalCommandFrame_view (TpmPolicyOrCommand, TpmPolicyOrResponse)
          (.policyOr body) (tpmDispatch_mem rfl) wf (by decide +kernel) rfl
      have read := (LawfulFields.codec parameters.length).read_emitted wf emits []
      rw [List.append_nil] at read
      have restored : readBody unmarshal parameters = .ok list :=
        readBody_eq_ok.mpr (unmarshalFields_one.mp read)
      refine ⟨frame, view, _, marshalled, cast,
        captured_copied (by simp [copiedCommands]) selected area, .plain rfl ?_ ?_⟩
      · rintro ⟨⟩
      · exact bind_eq_ok.mpr ⟨_, restored, rfl⟩
  | restart =>
      let body : TpmBody TpmPolicyRestartCommand := ⟨.one (.new 0), ()⟩
      have wf : body.WellFormed := trivial
      obtain ⟨frame, view, parameters, marshalled, cast, selected, -⟩ :=
        marshalCommandFrame_view (TpmPolicyRestartCommand, TpmPolicyRestartResponse)
          (.policyRestart body) (tpmDispatch_mem rfl) wf (by decide +kernel) rfl
      refine ⟨frame, view, .default ⟨.policyRestart, []⟩, marshalled, cast, ?_, .plain rfl ?_ rfl⟩
      · rw [vtpmPolicyCommandFrom, selected]
        rfl
      · rintro ⟨⟩
  | @secret object _ policyRef named =>
      let body : TpmBody TpmPolicySecretCommand :=
        ⟨.two object (.new 0), .new, .new, policyRef, .new 0, ()⟩
      have wf : body.WellFormed := ⟨trivial, trivial, trivial, trivial, trivial⟩
      obtain ⟨frame, view, parameters, marshalled, cast, selected, -, -, read⟩ :=
        marshalCommandFrame_view (TpmPolicySecretCommand, TpmPolicySecretResponse)
          (.policySecret body) (tpmDispatch_mem rfl) wf (by decide +kernel) rfl
      refine ⟨frame, view, _, marshalled, cast, ?_, .secret object policyRef⟩
      rw [vtpmPolicyCommandFrom, selected]
      show vtpmPolicySecretFromCommand view name = _
      rw [vtpmPolicySecretFromCommand, read]
      rfl

/-- A name is resolved for a hierarchy, or it stands in the context. -/
theorem lookup_of_resolveAuthName {context : TpmPolicyContext} {object : TpmHandle}
    {name : Tpm2bName} (ok : resolveAuthName context object = .ok name)
    (other : ¬ IsPermanent object.value) : context.names.lookup object = some name := by
  obtain ⟨ht, typed, ok⟩ := bind_eq_ok.mp ok
  have type := TpmEnum.tryFrom_eq_ok.mp (mapError_eq_ok.mp typed)
  cases ht with
  | persistent | transient =>
      dsimp only at ok
      split at ok
      next found known =>
        cases ok
        exact known
      next => cases ok
  | permanent => exact (other type).elim
  | _ => cases ok

namespace TaskState

variable {crypto : Libcrypto} {tpm : HonestTpm crypto} {context : TpmPolicyContext}
  {objects : List TpmHandle} {s s' : TaskState}

/-- The names of a context are the true names of what a task means by the handles `objects`. A
hierarchy has no name in it. -/
def NamesTrue (tpm : HonestTpm crypto) (context : TpmPolicyContext) (objects : List TpmHandle)
    (s : TaskState) : Prop :=
  ∀ object ∈ objects, ¬ IsPermanent object.value → ∀ name,
    context.names.lookup object = some name → tpm.trueName s object = some name

/-- Nothing but the device has changed, and what the TPM holds has not. -/
structure SameObjects (tpm : HonestTpm crypto) (s s' : TaskState) : Prop where
  cache : s'.cache = s.cache
  behind : tpm.Behind s'.device
  objects : tpm.objects s'.device = tpm.objects s.device

theorem SameObjects.trueName (same : SameObjects tpm s s') (object : TpmHandle) :
    tpm.trueName s' object = tpm.trueName s object := by
  rw [HonestTpm.trueName, HonestTpm.trueName, same.cache, HonestTpm.name, HonestTpm.name,
    same.objects]

theorem SameObjects.namesTrue (same : SameObjects tpm s s')
    (names : NamesTrue tpm context objects s) : NamesTrue tpm context objects s' := by
  intro object mem other name known
  rw [same.trueName]
  exact names object mem other name known

section
variable {object session : TpmHandle} {parameters : TpmPolicySecretCommand.Parameters}

/-- The true name of an object is what is stored with its command. -/
theorem objectName_ok (behind : tpm.Behind s.device) {name : Tpm2bName}
    (named : tpm.trueName s object = some name) : ∃ s',
      (objectName crypto (.policySecret ⟨.two object session, parameters⟩)).run s = .ok name s' ∧
        SameObjects tpm s s' := by
  rw [objectName, EStateM.run_bind, EStateM.run_get]
  dsimp only [TpmHandles.get_two]
  rcases HonestTpm.trueName_cases named with ⟨key, found, made⟩ | ⟨missing, pub, held, made⟩
  · refine ⟨s, ?_, rfl, behind, rfl⟩
    rw [found]
    dsimp only
    rw [made]
    rfl
  · obtain ⟨other, device, read, made', behind', objects⟩ := tpm.readPublic_ok behind held
    obtain rfl : name = other := Except.ok.inj (made.symm.trans made')
    refine ⟨{ s with device }, ?_, rfl, behind', objects⟩
    rw [missing]
    dsimp only
    rw [EStateM.run_bind, withDevice_run, read]
    rfl

/-- A hierarchy that is no cached key is not an object of the TPM, and its name is not read. -/
theorem objectName_error (behind : tpm.Behind s.device) (permanent : IsPermanent object.value)
    (uncached : s.cache.findByHandle object = none) : ∃ e s',
      (objectName crypto (.policySecret ⟨.two object session, parameters⟩)).run s =
        .error e s' := by
  have absent : (tpm.objects s.device).object object = none := by
    refine Option.eq_none_iff_forall_not_mem.mpr fun pub held => ?_
    rcases tpm.object_class behind held with transient | persistent
    · exact absurd (permanent.symm.trans transient) (by decide)
    · exact absurd (permanent.symm.trans persistent) (by decide)
  obtain ⟨e, device, read⟩ := tpm.readPublic_error behind absent
  refine ⟨deviceErr e, { s with device }, ?_⟩
  rw [objectName, EStateM.run_bind, EStateM.run_get]
  dsimp only [TpmHandles.get_two]
  rw [uncached]
  dsimp only
  rw [EStateM.run_bind, withDevice_run, read]

end

/-- What is stored of a command: a step that it is restored from, or for a `PolicySecret` one with
the name of its object. -/
inductive Stores (context : TpmPolicyContext) : TpmCommandValue → VtpmPolicyCommand → Prop
  | plain {command : TpmCommandValue} {step : VtpmPolicyCommand}
      (other : secretObject command = none) (code : step.cc ≠ .policySecret)
      (restored : step.toCommand = .ok command) : Stores context command step
  | secret {object : TpmHandle} {name : Tpm2bName} (policyRef : Tpm2bDigest)
      (resolved : resolveAuthName context object = .ok name)
      (known : context.names.lookup object = some name) (nonempty : name.bytes ≠ []) :
      Stores context
        (.policySecret ⟨.two object (.new 0), .new, .new, policyRef, .new 0, ()⟩)
        (.secret ⟨object, name, policyRef⟩)

theorem saveVtpmStep_run (command : TpmCommandValue) (s : TaskState) {name : Tpm2bName}
    (named : (objectName crypto command).run s = .ok name s')
    (compiled : Compiled context command) : ∃ step,
      (saveVtpmStep crypto (command, .new)).run s = .ok step s' ∧ Captured name command step := by
  obtain ⟨frame, view, step, marshalled, cast, from_view, captured⟩ :=
    captured_of_compiled compiled name
  refine ⟨step, ?_, captured⟩
  refine Fallible.run_bind_eq_ok.mpr ⟨name, s', named, ?_⟩
  refine Fallible.run_bind_eq_ok.mpr ⟨frame, s', ?_, ?_⟩
  · exact Fallible.run_ofExcept_eq_ok.mpr ⟨mapError_eq_ok.mpr marshalled, rfl⟩
  refine Fallible.run_bind_eq_ok.mpr ⟨view, s', ?_, ?_⟩
  · exact Fallible.run_ofExcept_eq_ok.mpr ⟨mapError_eq_ok.mpr cast, rfl⟩
  · exact Fallible.run_ofExcept_eq_ok.mpr ⟨mapError_eq_ok.mpr from_view, rfl⟩

/-- The object of a command is not a hierarchy. -/
def NoHierarchy (command : TpmCommandValue) : Prop :=
  ∀ object, secretObject command = some object → ¬ IsPermanent object.value

theorem saveVtpmStep_ok (behind : tpm.Behind s.device) (names : NamesTrue tpm context objects s)
    {command : TpmCommandValue} (compiled : Compiled context command)
    (among : ∀ object, secretObject command = some object → object ∈ objects)
    (other : NoHierarchy command) : ∃ step s',
      (saveVtpmStep crypto (command, .new)).run s = .ok step s' ∧ Stores context command step ∧
        SameObjects tpm s s' := by
  have whole := compiled
  cases compiled with
  | @secret object name policyRef resolved =>
      have known := lookup_of_resolveAuthName resolved (other object rfl)
      have true := names object (among object rfl) (other object rfl) name known
      obtain ⟨s', named, same⟩ := objectName_ok behind true
      obtain ⟨step, saved, captured⟩ := saveVtpmStep_run _ s named whole
      cases captured with
      | plain other => cases other
      | secret =>
          have nonempty := HonestTpm.trueName_ne_nil true
          exact ⟨_, s', saved, .secret policyRef resolved known nonempty, same⟩
  | _ =>
      obtain ⟨step, saved, captured⟩ := saveVtpmStep_run _ s rfl whole
      cases captured with
      | plain other code restored =>
          exact ⟨step, s, saved, .plain other code restored, rfl, behind, rfl⟩

theorem noHierarchy_of_saveVtpmStep (behind : tpm.Behind s.device)
    (uncached : ∀ object, IsPermanent object.value → s.cache.findByHandle object = none)
    {command : TpmCommandValue} (compiled : Compiled context command) {step : VtpmPolicyCommand}
    (ok : (saveVtpmStep crypto (command, .new)).run s = .ok step s') : NoHierarchy command := by
  obtain ⟨name, s₁, named, -⟩ := Fallible.run_bind_eq_ok.mp ok
  cases compiled with
  | @secret object _ policyRef _ =>
      rintro _ ⟨⟩ permanent
      obtain ⟨e, s₂, failed⟩ := objectName_error behind permanent (uncached object permanent)
      cases named.symm.trans failed
  | _ => exact nofun

section
variable {commands : List TpmCommandValue}
  (behind : tpm.Behind s.device) (names : NamesTrue tpm context objects s)
  (compiled : ∀ command ∈ commands, Compiled context command)
  (among : ∀ command ∈ commands, ∀ object, secretObject command = some object → object ∈ objects)
include behind names compiled among

theorem saveVtpmSteps_ok (others : ∀ command ∈ commands, NoHierarchy command) : ∃ steps s',
    (saveVtpmSteps crypto (commands.map fun command => (command, .new))).run s = .ok steps s' ∧
      List.Forall₂ (Stores context) commands steps := by
  induction commands generalizing s with
  | nil => exact ⟨[], s, rfl, .nil⟩
  | cons command commands ih =>
      obtain ⟨first, compiled⟩ := List.forall_mem_cons.mp compiled
      obtain ⟨object, among⟩ := List.forall_mem_cons.mp among
      obtain ⟨other, others⟩ := List.forall_mem_cons.mp others
      obtain ⟨step, s₁, saved, stores, same⟩ := saveVtpmStep_ok behind names first object other
      obtain ⟨steps, s', rest, stored⟩ :=
        ih same.behind (same.namesTrue names) compiled among others
      refine ⟨step :: steps, s', ?_, .cons stores stored⟩
      exact Fallible.run_bind_eq_ok.mpr ⟨step, s₁, saved,
        Fallible.run_bind_eq_ok.mpr ⟨steps, s', rest, rfl⟩⟩

/-- What could be stored has no hierarchy among its objects. -/
theorem noHierarchy_of_saveVtpmSteps
    (uncached : ∀ object, IsPermanent object.value → s.cache.findByHandle object = none)
    {steps : List VtpmPolicyCommand}
    (ok : (saveVtpmSteps crypto (commands.map fun command => (command, .new))).run s =
      .ok steps s') : ∀ command ∈ commands, NoHierarchy command := by
  induction commands generalizing s s' steps with
  | nil => simp
  | cons command commands ih =>
      obtain ⟨first, compiled⟩ := List.forall_mem_cons.mp compiled
      obtain ⟨object, among⟩ := List.forall_mem_cons.mp among
      obtain ⟨step, s₁, saved, ok⟩ := Fallible.run_bind_eq_ok.mp ok
      obtain ⟨rest, s₂, others, -⟩ := Fallible.run_bind_eq_ok.mp ok
      have other : NoHierarchy command := noHierarchy_of_saveVtpmStep behind uncached first saved
      obtain ⟨step', s₁', saved', -, same⟩ := saveVtpmStep_ok behind names first object other
      rw [saved] at saved'
      obtain ⟨rfl, rfl⟩ : step = step' ∧ s₁ = s₁' := by simpa using saved'
      refine List.forall_mem_cons.mpr ⟨other, ih same.behind (same.namesTrue names) compiled among
        ?_ others⟩
      rwa [same.cache]

end

end TaskState
end Tpm2
