import Tpm2.Sh.Reload
import Tpm2.Vtpm.Run

/-! Stored policies over an honest TPM: when the steps of a compiled policy can be stored, and when
they are loaded again as the policy that they were. -/

namespace Tpm2

open ByteCodec
open TpmReplay (Rehandled)

namespace TaskState

variable {crypto : Libcrypto} {tpm : HonestTpm crypto} {context : TpmPolicyContext}
  {s s' : TaskState}

/-- What a task needs for a command: for a `PolicySecret`, its object and a password. -/
def Serves (tpm : HonestTpm crypto) (context : TpmPolicyContext) (s : TaskState)
    (command : TpmCommandValue) : Prop :=
  ∀ object name, secretObject command = some object → context.names.lookup object = some name →
    Resolves tpm s name ∧ s.Authorizes name

/-- A command is restored, with a handle of the same object. -/
abbrev Restores (tpm : HonestTpm crypto) (alg : TpmHash) (context : TpmPolicyContext)
    (last : TaskState) : TpmCommandValue → TpmCommandValue → Prop :=
  Rehandled (TpmReplay.of crypto alg context) (tpm.session alg last.device)

section
variable {alg : TpmHash} {command : TpmCommandValue} {step : VtpmPolicyCommand}
  (tracks : tpm.Tracks s) (filed : Filed s.cache) (stores : Stores context command step)
include tracks filed stores

theorem loadPolicyStep_ok (serves : Serves tpm context s command) : ∃ loaded s',
    (loadPolicyStep step).run s = .ok loaded s' ∧ Later tpm s s' ∧
      (∀ last, Later tpm s' last → Restores tpm alg context last command loaded.1) ∧
      ∀ other, Resolves tpm s other → Resolves tpm s' other := by
  cases stores with
  | plain other code restored =>
      exact ⟨_, s, loadPolicyStep_plain code restored, .refl tracks, fun _ _ => .same other,
        fun _ resolves => resolves⟩
  | @secret object name policyRef resolved known nonempty =>
      obtain ⟨resolves, password, configured, fits⟩ := serves object name rfl known
      obtain ⟨handle, s', loads, later, named, kept⟩ := loadKeyByName_ok tracks filed resolves
      obtain ⟨command, built⟩ := buildPasswordSession_isOk.mpr fits
      refine ⟨_, s', (loadPolicyStep_secret nonempty).mpr
        ⟨handle, password, command, loads, ?_, built, rfl⟩, later, fun last behind => ?_, kept⟩
      · rw [later.nameAuth, configured]
      · refine .secret ?_
        rw [TpmReplay.name_of_resolveAuthName resolved]
        exact (HonestTpm.session_name (behind.name named).2).mpr (behind.name named).1

/-- Where a step was loaded and in the end has a handle of the same object, the task had what it
needs for the command. -/
theorem serves_of_loadPolicyStep {loaded : TpmCommandValue × TpmAuthCommands}
    (ok : (loadPolicyStep step).run s = .ok loaded s') : Later tpm s s' ∧
      ∀ last, Later tpm s' last → Restores tpm alg context last command loaded.1 →
        Serves tpm context s command := by
  cases stores with
  | plain other code restored =>
      rw [loadPolicyStep_plain code restored] at ok
      cases ok
      refine ⟨.refl tracks, fun _ _ _ object name needs _ => ?_⟩
      rw [other] at needs
      cases needs
  | @secret object name policyRef resolved known nonempty =>
      obtain ⟨handle, password, auth, loads, configured, built, rfl⟩ :=
        (loadPolicyStep_secret nonempty).mp ok
      obtain ⟨later, resolves⟩ := resolves_of_loadKeyByName tracks filed loads
      refine ⟨later, fun last behind restores => ?_⟩
      rintro _ name' ⟨⟩ known'
      obtain rfl : name = name' := Option.some.inj (known.symm.trans known')
      obtain ⟨_, ⟨⟩, same⟩ := restores.name_eq rfl
      have same : (tpm.session alg last.device).name handle = some name.bytes :=
        same.trans (TpmReplay.name_of_resolveAuthName resolved)
      refine ⟨resolves last behind same, password, ?_, buildPasswordSession_isOk.mp ⟨auth, built⟩⟩
      rw [← later.nameAuth, configured]

end

/-- What is found later was found before. -/
theorem Later.resolves (later : Later tpm s s') (filed : Filed s.cache) {name : Tpm2bName}
    (resolves : Resolves tpm s' name) : Resolves tpm s name := by
  obtain ⟨key, pub, found, led, made⟩ := resolves
  rw [later.cache] at found
  exact ⟨key, pub, found, later.keyObject key pub (live_of_findByName filed found) led, made⟩

theorem Serves.congr {command : TpmCommandValue} (later : Later tpm s s')
    (resolves : ∀ name, Resolves tpm s name ↔ Resolves tpm s' name) :
    Serves tpm context s command ↔ Serves tpm context s' command := by
  refine forall₂_congr fun object name => forall₂_congr fun _ _ => and_congr (resolves name) ?_
  rw [Authorizes, Authorizes, later.nameAuth]

section
variable {alg : TpmHash} {commands : List TpmCommandValue} {steps : List VtpmPolicyCommand}
  (stored : List.Forall₂ (Stores context) commands steps)
include stored

theorem loadPolicySteps_ok (tracks : tpm.Tracks s) (filed : Filed s.cache)
    (serves : ∀ command ∈ commands, Serves tpm context s command) : ∃ loaded s',
      (loadPolicySteps steps).run s = .ok loaded s' ∧ Later tpm s s' ∧
        List.Forall₂ (Restores tpm alg context s') commands (loaded.map Prod.fst) := by
  induction stored generalizing s with
  | nil => exact ⟨[], s, rfl, .refl tracks, .nil⟩
  | cons stores _ ih =>
      obtain ⟨first, serves⟩ := List.forall_mem_cons.mp serves
      obtain ⟨command, s₁, ran, later, restores, kept⟩ :=
        loadPolicyStep_ok tracks filed stores first
      have filed₁ : Filed s₁.cache := by rwa [later.cache]
      obtain ⟨loaded, s', rest, behind, restored⟩ := ih later.tracks filed₁ fun command mem =>
        (Serves.congr later fun name => ⟨kept name, later.resolves filed⟩).mp (serves command mem)
      refine ⟨command :: loaded, s', ?_, later.trans behind, .cons (restores s' behind) restored⟩
      exact Fallible.run_bind_eq_ok.mpr ⟨command, s₁, ran,
        Fallible.run_bind_eq_ok.mpr ⟨loaded, s', rest, rfl⟩⟩

theorem serves_of_loadPolicySteps (tracks : tpm.Tracks s) (filed : Filed s.cache)
    {loaded : TpmCommandList} (ok : (loadPolicySteps steps).run s = .ok loaded s') :
    Later tpm s s' ∧ ∀ last, Later tpm s' last →
      List.Forall₂ (Restores tpm alg context last) commands (loaded.map Prod.fst) →
        ∀ command ∈ commands, Serves tpm context s command := by
  induction stored generalizing s loaded with
  | nil =>
      cases ok
      exact ⟨.refl tracks, by simp⟩
  | cons stores _ ih =>
      obtain ⟨command, s₁, ran, ok⟩ := Fallible.run_bind_eq_ok.mp ok
      obtain ⟨rest, s₂, ran', returned⟩ := Fallible.run_bind_eq_ok.mp ok
      cases returned
      obtain ⟨later, first⟩ := serves_of_loadPolicyStep tracks filed stores ran
      have filed₁ : Filed s₁.cache := by rwa [later.cache]
      obtain ⟨behind, others⟩ := ih later.tracks filed₁ ran'
      refine ⟨later.trans behind, fun last after restores => ?_⟩
      rw [List.map_cons, List.forall₂_cons] at restores
      refine List.forall_mem_cons.mpr ⟨first last (behind.trans after) restores.1, ?_⟩
      intro command mem object name needs known
      obtain ⟨resolves, authorizes⟩ := others last after restores.2 command mem object name needs
        known
      refine ⟨later.resolves filed resolves, ?_⟩
      rwa [Authorizes, later.nameAuth] at authorizes

end

/-- With the restored commands a session reaches the digest of the original ones. -/
theorem replay_of_restores {alg : TpmHash} {last : TaskState}
    {commands commands' : List TpmCommandValue}
    (restores : List.Forall₂ (Restores tpm alg context last) commands commands') :
    (tpm.session alg last.device).replay commands' =
      (TpmReplay.of crypto alg context).replay commands :=
  TpmReplay.replay_rehandled rfl rfl restores

theorem saveVtpmPolicy_eq (crypto : Libcrypto) (commands : TpmCommandList) :
    saveVtpmPolicy crypto commands = saveVtpmSteps crypto commands := by
  cases commands <;> rfl

/-- A policy is loaded as its steps are, where an empty one gives no commands. -/
theorem loadPolicy_eq_ok {steps : List VtpmPolicyCommand} {commands : TpmCommandList} :
    (∃ loaded, (loadPolicy steps).run s = .ok loaded s' ∧ loaded.getD [] = commands) ↔
      (loadPolicySteps steps).run s = .ok commands s' := by
  cases steps with
  | nil =>
      constructor
      · rintro ⟨loaded, ⟨⟩, rfl⟩
        rfl
      · rintro ⟨⟩
        exact ⟨none, rfl, rfl⟩
  | cons step steps =>
      rw [loadPolicy, if_neg (by simp)]
      simp only [Fallible.run_bind_eq_ok]
      constructor
      · rintro ⟨loaded, ⟨commands', u, ran, returned⟩, rfl⟩
        cases returned
        exact ran
      · intro ran
        exact ⟨some commands, ⟨commands, s', ran, rfl⟩, rfl⟩

/-- A compiled policy is stored in the state `s` and loaded again in `s'`: the same commands come
back, but for handles of the same objects, and a session reaches the policy digest with them. -/
def Replayed (tpm : HonestTpm crypto) (alg : TpmHash) (context : TpmPolicyContext)
    (policy : TpmCompiledPolicy) (s s' : TaskState) : Prop :=
  ∃ steps s₁, (saveVtpmPolicy crypto policy.commands).run s = .ok steps s₁ ∧
    ∃ loaded s₂, (loadPolicy steps).run s' = .ok loaded s₂ ∧
      List.Forall₂ (Restores tpm alg context s₂) (policy.commands.map Prod.fst)
        ((loaded.getD []).map Prod.fst) ∧
      (tpm.session alg s₂.device).replay ((loaded.getD []).map Prod.fst) =
        some policy.digest.bytes

/-- No `Or` is empty, no object of a `Secret` is a hierarchy, and when the policy is loaded the task
finds each object by its name, with a password for it. -/
structure Replayable (tpm : HonestTpm crypto) (context : TpmPolicyContext)
    (expression : TpmPolicyExpression) (s' : TaskState) : Prop where
  branched : ∀ branches ∈ expression.disjunctions, branches ≠ []
  noHierarchy : ∀ object ∈ expression.secretObjects, ¬ IsPermanent object.value
  found : ∀ object ∈ expression.secretObjects, ∀ name, context.names.lookup object = some name →
    Resolves tpm s' name ∧ s'.Authorizes name

section
variable {sessionHashAlg : TpmAlgId} {alg : TpmHash} {expression : TpmPolicyExpression}
  {policy : TpmCompiledPolicy} {supplied : HashMap Tpm2bName TpmHandle} {dir : Directory}
  (compiled : expression.compile crypto sessionHashAlg context = .ok policy)
  (behind : tpm.Behind s.device) (names : NamesTrue tpm context expression.secretObjects s)
include compiled behind names

/-- A policy without hierarchies is stored. -/
theorem saveVtpmPolicy_ok
    (noHierarchy : ∀ object ∈ expression.secretObjects, ¬ IsPermanent object.value) :
    ∃ steps s', (saveVtpmPolicy crypto policy.commands).run s = .ok steps s' ∧
      List.Forall₂ (Stores context) (policy.commands.map Prod.fst) steps := by
  obtain ⟨commands, listed, shape⟩ := TpmPolicyExpression.compile_shaped compiled
  have fst := TpmPolicyExpression.map_fst_of_emitted listed
  have among (command : TpmCommandValue) (mem : command ∈ commands) (object : TpmHandle)
      (needs : secretObject command = some object) : object ∈ expression.secretObjects := by
    rw [← shape.objects]
    exact List.mem_filterMap.mpr ⟨command, mem, needs⟩
  rw [fst, listed, saveVtpmPolicy_eq]
  exact saveVtpmSteps_ok behind names shape.compiled among fun command mem object needs =>
    noHierarchy object (among command mem object needs)

/-- A policy with a hierarchy is not stored, as the TPM has no public area for it. -/
theorem noHierarchy_of_saveVtpmPolicy
    (reached : VtpmCache.Run crypto supplied dir VtpmCache.AnyOp s.cache)
    {steps : List VtpmPolicyCommand}
    (ok : (saveVtpmPolicy crypto policy.commands).run s = .ok steps s') :
    ∀ object ∈ expression.secretObjects, ¬ IsPermanent object.value := by
  obtain ⟨commands, listed, shape⟩ := TpmPolicyExpression.compile_shaped compiled
  have uncached (object : TpmHandle) (permanent : IsPermanent object.value) :
      s.cache.findByHandle object = none := by
    refine Option.eq_none_iff_forall_not_mem.mpr fun key live => ?_
    rcases (reached.consistent.handle object.value key live).2 with transient | persistent
    · exact absurd (permanent.symm.trans transient) (by decide)
    · exact absurd (permanent.symm.trans persistent) (by decide)
  rw [listed, saveVtpmPolicy_eq] at ok
  have others := noHierarchy_of_saveVtpmSteps behind names shape.compiled ?_ uncached ok
  · intro object mem
    rw [← shape.objects] at mem
    obtain ⟨command, among, needs⟩ := List.mem_filterMap.mp mem
    exact others command among object needs
  · intro command mem object needs
    rw [← shape.objects]
    exact List.mem_filterMap.mpr ⟨command, mem, needs⟩

end

/-- A compiled policy that is stored over an honest TPM is replayed later exactly when no `Or` is
empty, no `Secret` is about a hierarchy, and the later task finds each object by its name. -/
theorem storedPolicy_replayed_iff {sessionHashAlg : TpmAlgId} {alg : TpmHash}
    {expression : TpmPolicyExpression} {policy : TpmCompiledPolicy}
    {supplied supplied' : HashMap Tpm2bName TpmHandle} {dir dir' : Directory}
    (valid : TpmHash.tryFrom sessionHashAlg = .ok alg)
    (compiled : expression.compile crypto sessionHashAlg context = .ok policy)
    (reached : VtpmCache.Run crypto supplied dir VtpmCache.AnyOp s.cache)
    (reached' : VtpmCache.Run crypto supplied' dir' VtpmCache.AnyOp s'.cache)
    (behind : tpm.Behind s.device) (names : NamesTrue tpm context expression.secretObjects s)
    (tracks : tpm.Tracks s') :
    Replayed tpm alg context policy s s' ↔ Replayable tpm context expression s' := by
  obtain ⟨commands, listed, shape⟩ := TpmPolicyExpression.compile_shaped compiled
  have filed : Filed s'.cache := fun v key live => (reached'.consistent.handle v key live).1
  have fst := TpmPolicyExpression.map_fst_of_emitted listed
  have mem_objects {object : TpmHandle} : object ∈ expression.secretObjects ↔
      ∃ command ∈ policy.commands.map Prod.fst, secretObject command = some object := by
    rw [fst, ← shape.objects, List.mem_filterMap]
  constructor
  · rintro ⟨steps, s₁, saved, loaded, s₂, ran, restores, digest⟩
    have noHierarchy := noHierarchy_of_saveVtpmPolicy compiled behind names reached saved
    obtain ⟨steps', s₁', saved', stored⟩ := saveVtpmPolicy_ok compiled behind names noHierarchy
    rw [saved] at saved'
    obtain ⟨rfl, rfl⟩ : steps = steps' ∧ s₁ = s₁' := by simpa using saved'
    obtain ⟨later, serves⟩ := serves_of_loadPolicySteps stored tracks filed
      (loadPolicy_eq_ok.mp ⟨loaded, ran, rfl⟩)
    have served := serves s₂ (.refl later.tracks) restores
    rw [replay_of_restores restores, fst] at digest
    refine ⟨TpmReplay.branched_of_replay shape digest, noHierarchy, fun object mem => ?_⟩
    obtain ⟨command, among, needs⟩ := mem_objects.mp mem
    exact fun name known => served command among object name needs known
  · rintro ⟨branched, noHierarchy, found⟩
    obtain ⟨steps, s₁, saved, stored⟩ := saveVtpmPolicy_ok compiled behind names noHierarchy
    obtain ⟨loaded, s₂, ran, later, restores⟩ := loadPolicySteps_ok stored tracks filed
      fun command among object name needs known =>
        found object (mem_objects.mpr ⟨command, among, needs⟩) name known
    obtain ⟨result, ran, same⟩ := loadPolicy_eq_ok.mpr ran
    refine ⟨steps, s₁, saved, result, s₂, ran, ?_, ?_⟩
    · rw [same]
      exact restores
    · obtain ⟨commands', listed', replayed, -⟩ :=
        TpmPolicyExpression.compile_replays valid branched compiled
      rw [same, replay_of_restores restores, TpmPolicyExpression.map_fst_of_emitted listed',
        replayed]

/-- SHA-256 of what the sample policies hash. -/
def policyDigests : List (Bytes × Nat) :=
  let secret (name : Bytes) := toBytes 32 0 ++ ccBytes .policySecret ++ name
  let key := 0xef02ae91006279f209ecd0f9d1642a3df943afb327e4d4387255633c1ddb2f72
  let owner := 0x478cf794da0e0531f4117344277d77d086259043f037b6d67f63b132a08bfc27
  VtpmCache.sampleDigests ++
    [(secret VtpmCache.sampleName.bytes, key),
     (toBytes 32 key, 0x7da4cd1e31319341402a098c99f144fae78ec29d640b570b3255a34b1bb6ca3f),
     (secret (toBytes 4 0x40000001), owner),
     (toBytes 32 owner, 0x0d84f55daf6e43ac97966e62c9bb989d3397777d25c5f749868055d65394f952)]

/-- Libcrypto, as far as the sample policies need it. -/
def policyCrypto : Libcrypto := VtpmCache.sha256Table policyDigests

def sampleHandle : TpmHandle := .new 0x81000001

/-- The command frame that asks for the public area under a handle. -/
def readPublicFrame (handle : TpmHandle) : Bytes := frameHeader 0x8001 14 0x173 ++ handle.bytes

/-- Different handles are asked for differently. -/
theorem readPublicFrame_inj {a b : TpmHandle} (same : readPublicFrame a = readPublicFrame b) :
    a = b := TpmInt.ext (List.append_cancel_left same)

theorem prepareCommand_readPublic (handle : TpmHandle) :
    TpmDevice.prepareCommand (C := TpmReadPublicCommand) ⟨.one handle, ()⟩ [] =
      .ok (readPublicFrame handle) := by
  let command : TpmBody TpmReadPublicCommand := ⟨.one handle, ()⟩
  have mem : (TpmReadPublicCommand, TpmReadPublicResponse) ∈ tpmDispatch := tpmDispatch_mem rfl
  have wf : command.WellFormed := trivial
  obtain ⟨writer, written⟩ : ∃ writer, tpmMarshalCommand command .noSessions []
      (Cursor.zeros tpmMaxCommandSize) = .ok writer :=
    tpmMarshalCommand_ok (by decide) wf (by rw [TpmBody.len_eq]; show 14 ≤ 4096; decide)
  obtain ⟨frame, tag, dispatch, handles, -, parameters, -, fits, pushed⟩ :=
    tpmMarshalCommand_eq_ok mem wf written
  have handleBytes : frame.handles = handle.bytes ++ [] :=
    handles.unique ((TpmWriter.writeBytes_emits handle.bytes).bind .nil)
  have none : frame.parameters = [] := parameters.unique .nil
  have body : frame.body = handle.bytes := by
    simp [CommandParts.body, tag, handleBytes, none]
  refine bind_eq_ok.mpr ⟨_, mapError_eq_ok.mpr written, ?_⟩
  show Except.ok writer.written = _
  rw [pushed, pushed_written rfl fits, CommandParts.bytes, body, tag, dispatch, handle.length_bytes]
  rfl

/-- What the sample TPM answers: the sample key 1 is persistent, and there is nothing else. -/
def keyAnswer (frame : Bytes) : Bytes :=
  if frame = readPublicFrame sampleHandle then
    frameHeader 0x8001 99 0 ++ toBytes 17 0xf0008000b0000000000000010000101 ++
      toBytes 2 34 ++ VtpmCache.sampleName.bytes ++ toBytes 2 34 ++ [0, 11] ++
      toBytes 32 0x3da62f00a5429e32766d3587c8dbc199d39de824b2ba52168bf0281c2ccad3f6
  else
    frameHeader 0x8001 10 0x18b

/-- The name of the key, and how the two answers of the TPM are read. -/
theorem keyAnswer_read :
    tpmMakeName policyCrypto (VtpmCache.samplePublic 1) = .ok VtpmCache.sampleName ∧
    ((TpmDevice.answerBody TpmReadPublicCommand TpmReadPublicResponse
        (keyAnswer (readPublicFrame sampleHandle))).map
        fun body => (body.parameters.1.inner, body.parameters.2.1)) =
      .ok (VtpmCache.samplePublic 1, VtpmCache.sampleName) ∧
    (TpmDevice.answerBody TpmReadPublicCommand TpmReadPublicResponse
      (frameHeader 0x8001 10 0x18b)).isOk = false ∧
    ∀ answer ∈ [keyAnswer (readPublicFrame sampleHandle), frameHeader 0x8001 10 0x18b],
      (TpmDevice.answerBody TpmContextLoadCommand TpmContextLoadResponse answer).isOk = false := by
  decide +kernel

theorem keyAnswer_mem (frame : Bytes) :
    keyAnswer frame ∈ [keyAnswer (readPublicFrame sampleHandle), frameHeader 0x8001 10 0x18b] := by
  by_cases asked : frame = readPublicFrame sampleHandle
  · rw [asked]
    exact List.mem_cons_self
  · have rejected : keyAnswer frame = frameHeader 0x8001 10 0x18b := if_neg asked
    rw [rejected]
    exact List.mem_cons_of_mem _ (List.mem_singleton_self _)

def keyTransport (sent : List Bytes) : Exchange := .response (keyAnswer (sent.getLastD []))

/-- The objects of the sample TPM. -/
def keyObjects : TpmObjects where
  object handle := if handle = sampleHandle then some (VtpmCache.samplePublic 1) else none
  saved _ := none

theorem keyObjects_eq_some {handle : TpmHandle} {pub : TpmtPublic} :
    keyObjects.object handle = some pub ↔
      handle = sampleHandle ∧ VtpmCache.samplePublic 1 = pub := by
  simp [keyObjects]

section
variable {device : TpmDevice} {handle : TpmHandle} {context : TpmsContext} {pub : TpmtPublic}

theorem keyObjects_class (_ : device.transport = keyTransport)
    (held : keyObjects.object handle = some pub) :
    IsTransient handle.value ∨ IsPersistent handle.value := by
  obtain ⟨rfl, -⟩ := keyObjects_eq_some.mp held
  exact .inr (by decide)

theorem loadContext_key (_ : device.transport = keyTransport)
    (held : keyObjects.saved context = some pub) : ∃ handle device',
    (TpmDevice.loadContext context).run device = .ok handle device' ∧
      device'.transport = keyTransport ∧ keyObjects.Loads keyObjects handle pub := by
  cases held

variable (behind : device.transport = keyTransport)
include behind

theorem keyTransport_answers (frame : Bytes) :
    device.transport (device.sent ++ [frame]) = .response (keyAnswer frame) := by
  rw [behind, keyTransport]
  simp

theorem readPublic_key (held : keyObjects.object handle = some pub) : ∃ name device',
    (TpmDevice.readPublic handle).run device = .ok (pub, name) device' ∧
      tpmMakeName policyCrypto pub = .ok name ∧ device'.transport = keyTransport ∧
      keyObjects = keyObjects := by
  obtain ⟨rfl, rfl⟩ := keyObjects_eq_some.mp held
  obtain ⟨body, answered, same⟩ := map_eq_ok.mp keyAnswer_read.2.1
  have ran := TpmDevice.run_answered (prepareCommand_readPublic sampleHandle)
    (keyTransport_answers behind _)
    (fun body : TpmBody TpmReadPublicResponse =>
      pure (body.parameters.1.inner, body.parameters.2.1)) answered
  rw [same] at ran
  exact ⟨VtpmCache.sampleName, _, ran, keyAnswer_read.1, behind, rfl⟩

theorem readPublic_other (absent : keyObjects.object handle = none) : ∃ e device',
    (TpmDevice.readPublic handle).run device = .error e device' := by
  have other : handle ≠ sampleHandle := by
    rintro rfl
    cases absent
  have asked : readPublicFrame handle ≠ readPublicFrame sampleHandle :=
    fun same => other (readPublicFrame_inj same)
  have rejected : (TpmDevice.answerBody TpmReadPublicCommand TpmReadPublicResponse
      (keyAnswer (readPublicFrame handle))).isOk = false := by
    rw [keyAnswer, if_neg asked]
    exact keyAnswer_read.2.2.1
  exact TpmDevice.run_rejected (prepareCommand_readPublic handle) (keyTransport_answers behind _) _
    rejected

theorem loadContext_other (_ : keyObjects.saved context = none) : ∃ e device',
    (TpmDevice.loadContext context).run device = .error e device' := by
  cases prepared : TpmDevice.prepareCommand (C := TpmContextLoadCommand)
      ⟨⟨[], List.length_nil⟩, (context, ())⟩ [] with
  | error e =>
      refine ⟨e, device, ?_⟩
      rw [TpmDevice.loadContext, TpmDevice.transmit, prepared]
      rfl
  | ok frame =>
      have rejected := keyAnswer_read.2.2.2 _ (keyAnswer_mem frame)
      exact TpmDevice.run_rejected prepared (keyTransport_answers behind frame) _ rejected

end

/-- A TPM with the sample key 1 under a persistent handle, and nothing else. -/
def keyTpm : HonestTpm policyCrypto where
  Behind device := device.transport = keyTransport
  objects _ := keyObjects
  object_class := keyObjects_class
  readPublic_ok := readPublic_key
  readPublic_error := readPublic_other
  loadContext_ok := loadContext_key
  loadContext_error := loadContext_other

/-- Saves the sample key 1 as a persistent one. -/
def keySave : VtpmCache.Op :=
  .savePersistent sampleHandle (VtpmCache.samplePublic 1) VtpmCache.noParent none

/-- A task whose cache has the persistent key. -/
def keyTask : TaskState :=
  sampleTask (VtpmCache.emptyCache.perform policyCrypto keySave) keyTransport

theorem keyTask_run :
    VtpmCache.Run policyCrypto ∅ VtpmCache.emptyDir VtpmCache.AnyOp keyTask.cache := by
  dsimp only [keyTask, sampleTask]
  exact .step keySave (VtpmCache.emptyCache_run _ _) trivial

theorem keyTask_tracks : keyTpm.Tracks keyTask where
  behind := rfl
  tracked := ⟨fun _ _ found => (by cases found), fun _ _ _ found => (by cases found)⟩
  loaded phandle mem := (AList.notMem_empty phandle mem).elim

def keyContext : TpmPolicyContext := ⟨AList.singleton sampleHandle VtpmCache.sampleName, ∅, 0⟩

/-- `secret(81000001)`, about the persistent key. -/
def keyPolicy : TpmPolicyExpression := .secret (.handle sampleHandle) none

/-- `secret(40000001)`, about the owner hierarchy. -/
def ownerPolicy : TpmPolicyExpression := .secret (.handle (.new 0x40000001)) none

/-- What the policies and the task come to. -/
theorem keyTask_evaluates :
    (keyPolicy.compile policyCrypto .sha256 keyContext).isOk ∧
    (ownerPolicy.compile policyCrypto .sha256 keyContext).isOk ∧
    keyTpm.trueName keyTask sampleHandle = some VtpmCache.sampleName ∧
    (keyTask.cache.findByName VtpmCache.sampleName).map (keyTpm.keyObject keyTask) =
      some (some (VtpmCache.samplePublic 1)) ∧
    keyTask.nameAuth VtpmCache.sampleName = .password [] := by
  decide +kernel

theorem storedPolicy_replayed_iff_key : ∃ policy,
    keyPolicy.compile policyCrypto .sha256 keyContext = .ok policy ∧
      Replayed keyTpm .sha256 keyContext policy keyTask keyTask := by
  obtain ⟨compiles, -, named, resolves, configured⟩ := keyTask_evaluates
  obtain ⟨policy, compiled⟩ := exists_ok_of_isOk compiles
  obtain ⟨key, found, led⟩ := Option.map_eq_some_iff.mp resolves
  have single (object : TpmHandle) (mem : object ∈ keyPolicy.secretObjects) :
      object = sampleHandle := List.mem_singleton.mp mem
  have known (name : Tpm2bName) (known : keyContext.names.lookup sampleHandle = some name) :
      VtpmCache.sampleName = name := Option.some.inj known
  refine ⟨policy, compiled, (storedPolicy_replayed_iff rfl compiled keyTask_run keyTask_run rfl
    ?_ keyTask_tracks).mpr ⟨by simp [keyPolicy, TpmPolicyExpression.disjunctions], ?_, ?_⟩⟩
  · intro object mem _ name stored
    obtain rfl := single object mem
    obtain rfl := known name stored
    exact named
  · intro object mem
    obtain rfl := single object mem
    decide
  · intro object mem name stored
    obtain rfl := single object mem
    obtain rfl := known name stored
    exact ⟨⟨key, VtpmCache.samplePublic 1, found, led, keyAnswer_read.1⟩, [], configured,
      Nat.zero_le _⟩

/-- What the object of a `Secret` may be: a cached key, a persistent object or a hierarchy. -/
def Present (tpm : HonestTpm crypto) (s : TaskState) (object : TpmHandle) : Prop :=
  (s.cache.findByHandle object).isSome ∨
    (IsPersistent object.value ∧ ((tpm.objects s.device).object object).isSome) ∨
    IsPermanent object.value

/-- A policy about the owner hierarchy is compiled, but it cannot be stored. -/
theorem storedPolicy_fails : ¬ ∀ (expression : TpmPolicyExpression) (policy : TpmCompiledPolicy)
    (context : TpmPolicyContext) (s s' : TaskState),
    expression.compile policyCrypto .sha256 context = .ok policy →
    VtpmCache.Run policyCrypto ∅ VtpmCache.emptyDir VtpmCache.AnyOp s.cache →
    VtpmCache.Run policyCrypto ∅ VtpmCache.emptyDir VtpmCache.AnyOp s'.cache →
    keyTpm.Tracks s → keyTpm.Tracks s' → NamesTrue keyTpm context expression.secretObjects s →
    (∀ object ∈ expression.secretObjects, Present keyTpm s object ∧ Present keyTpm s' object) →
    Replayed keyTpm .sha256 context policy s s' := by
  intro claim
  obtain ⟨policy, compiled⟩ := exists_ok_of_isOk keyTask_evaluates.2.1
  have single (object : TpmHandle) (mem : object ∈ ownerPolicy.secretObjects) :
      IsPermanent object.value := by
    rw [List.mem_singleton.mp mem]
    decide
  have names : NamesTrue keyTpm keyContext ownerPolicy.secretObjects keyTask :=
    fun object mem other => absurd (single object mem) other
  obtain ⟨steps, s₁, saved, -⟩ := claim ownerPolicy policy keyContext keyTask keyTask compiled
    keyTask_run keyTask_run keyTask_tracks keyTask_tracks names fun object mem =>
      ⟨.inr (.inr (single object mem)), .inr (.inr (single object mem))⟩
  exact noHierarchy_of_saveVtpmPolicy compiled keyTask_tracks.behind names keyTask_run saved _
    (List.mem_singleton_self _) (single _ (List.mem_singleton_self _))

end TaskState
end Tpm2
