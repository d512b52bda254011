import Tpm2.Algorithm.Ledger
import Tpm2.Device.Buffers
import Tpm2.Device.Capability
import Tpm2.Device.Session

/-! The handles that a device was given, in answers that can be read, and that no `FlushContext` was
sent for since. Whether a flush is delivered and carried out is not looked at: the program only logs
that it failed. -/

namespace Tpm2

open ByteCodec

/-- A frame that is marshalled has the code of its command, whatever the payloads are. -/
theorem commandCode_of_marshalled {C : TpmBodyType} {command : TpmBody C} {tag : TpmSt}
    {sessions : List TpmsAuthCommand} {size : Nat} {writer : TpmWriter}
    (ok : tpmMarshalCommand command tag sessions (Cursor.zeros size) = .ok writer) :
    commandCode writer.written = .ok C.CC := by
  unfold tpmMarshalCommand at ok
  dsimp only at ok
  split at ok
  · cases ok
  split at ok
  · cases ok
  obtain ⟨-, -, ok⟩ := bind_eq_ok.mp ok
  obtain ⟨⟨frameSize, authAreaSize⟩, -, ok⟩ := bind_eq_ok.mp ok
  obtain ⟨handles, -, emitsHandles⟩ := command.marshalHandles_emits
  have tail : Writes fun writer : TpmWriter => (do
      let writer ← command.marshalHandles writer
      let writer ← writeCommandAuth tag sessions authAreaSize 0 writer
      command.marshalParameters writer) :=
    emitsHandles.writes.bind <| (writeCommandAuth_writes authAreaSize 0).bind <|
      (LawfulFields.codec 0).writes _
  have emitsTag : Emits (marshal tag) (toBytes 2 (TpmEnum.value tag).toNat) :=
    TpmWriter.writeBytes_emits _
  have sizeBytes : toBytes 4 (ofBytes frameSize.bytes) = frameSize.bytes := by
    have whole := toBytes_ofBytes frameSize.bytes
    rwa [frameSize.length_bytes] at whole
  have emitsSize : Emits (marshal frameSize) (toBytes 4 (ofBytes frameSize.bytes)) := by
    rw [sizeBytes]
    exact TpmWriter.writeBytes_emits frameSize.bytes
  have emitsCc : Emits (marshal C.CC) (toBytes 4 (TpmEnum.value C.CC).toNat) :=
    TpmWriter.writeBytes_emits _
  obtain ⟨rest, emits⟩ | refuses := tail
  · obtain ⟨fits, pushed⟩ :=
      (emitsTag.bind (emitsSize.bind (emitsCc.bind emits))).of_ok ok
    rw [pushed, pushed_written rfl fits]
    have bytes : toBytes 2 (TpmEnum.value tag).toNat ++ (toBytes 4 (ofBytes frameSize.bytes) ++
        (toBytes 4 (TpmEnum.value C.CC).toNat ++ rest)) =
          frameHeader (TpmEnum.value tag).toNat (ofBytes frameSize.bytes)
            (TpmEnum.value C.CC).toNat ++ rest := by
      simp only [frameHeader, List.append_assoc]
    rw [bytes]
    have small := ofBytes_lt frameSize.bytes
    rw [frameSize.length_bytes] at small
    exact commandCode_eq_ok.mpr (numberAt_frameHeader (UInt16.toNat_lt _) small
      (UInt32.toNat_lt _)).2.2
  · have refused := emitsTag.bind_refuses (emitsSize.bind_refuses (emitsCc.bind_refuses refuses))
    obtain ⟨e, failed⟩ := refused (Cursor.zeros size)
    cases ok.symm.trans failed

theorem commandCode_of_prepared {C : TpmBodyType} {command : TpmBody C}
    {sessions : List TpmsAuthCommand} {frame : Bytes}
    (prepared : TpmDevice.prepareCommand command sessions = .ok frame) :
    commandCode frame = .ok C.CC := by
  obtain ⟨writer, marshalled, written⟩ := bind_eq_ok.mp prepared
  obtain rfl : writer.written = frame := Except.ok.inj written
  exact commandCode_of_marshalled (mapError_eq_ok.mp marshalled)

/-- The commands of the dispatch table have different codes. -/
theorem dispatch_distinct : tpmDispatch.Pairwise fun row other => row.1.CC ≠ other.1.CC := by
  refine (List.pairwise_map.mp dispatchTable_sorted).imp fun {row other} less same => ?_
  unfold TpmDispatch.key TpmDispatch.of at less
  dsimp only at less
  rw [same] at less
  exact Nat.lt_irrefl _ less

theorem find?_of_distinct {α : Type 1} {κ : Type} [DecidableEq κ] (key : α → κ) {items : List α}
    (distinct : items.Pairwise fun a b => key a ≠ key b) {a : α} (member : a ∈ items) :
    items.find? (fun b => key b = key a) = some a := by
  induction items with
  | nil => cases member
  | cons first items ih =>
      obtain ⟨differs, distinct⟩ := List.pairwise_cons.mp distinct
      rcases List.mem_cons.mp member with rfl | later
      · exact List.find?_cons_of_pos (by simp)
      · rw [List.find?_cons_of_neg (by simpa using differs a later)]
        exact ih distinct later

theorem TpmHandles.head?_items {N : Nat} (handles : TpmHandles N) (i : Fin N) (first : i.val = 0) :
    handles.items.head? = some (handles.get i) := by
  obtain ⟨items, length⟩ := handles
  cases items with
  | nil =>
      subst length
      exact i.elim0
  | cons handle items =>
      obtain ⟨index, within⟩ := i
      obtain rfl : index = 0 := first
      rfl

/-- A command value is a command of the dispatch table. -/
theorem TpmCommandValue.exists_row (command : TpmCommandValue) : ∃ row ∈ tpmDispatch,
    ∃ body : TpmBody row.1, command.cc = row.1.CC ∧
      ∀ {α : Type} (f : {C : TpmBodyType} → TpmBody C → α), command.elim f = f body := by
  cases command with
  | other row unnamed cmd => exact ⟨tpmDispatch[row], List.getElem_mem _, cmd, rfl, fun _ => rfl⟩
  | policyAuthValue cmd =>
      exact ⟨(_, TpmPolicyAuthValueResponse), tpmDispatch_mem rfl, cmd, rfl, fun _ => rfl⟩
  | policyCommandCode cmd =>
      exact ⟨(_, TpmPolicyCommandCodeResponse), tpmDispatch_mem rfl, cmd, rfl, fun _ => rfl⟩
  | policyCounterTimer cmd =>
      exact ⟨(_, TpmPolicyCounterTimerResponse), tpmDispatch_mem rfl, cmd, rfl, fun _ => rfl⟩
  | policyCpHash cmd =>
      exact ⟨(_, TpmPolicyCpHashResponse), tpmDispatch_mem rfl, cmd, rfl, fun _ => rfl⟩
  | policyGetDigest cmd =>
      exact ⟨(_, TpmPolicyGetDigestResponse), tpmDispatch_mem rfl, cmd, rfl, fun _ => rfl⟩
  | policyNameHash cmd =>
      exact ⟨(_, TpmPolicyNameHashResponse), tpmDispatch_mem rfl, cmd, rfl, fun _ => rfl⟩
  | policyNvWritten cmd =>
      exact ⟨(_, TpmPolicyNvWrittenResponse), tpmDispatch_mem rfl, cmd, rfl, fun _ => rfl⟩
  | policyOr cmd =>
      exact ⟨(_, TpmPolicyOrResponse), tpmDispatch_mem rfl, cmd, rfl, fun _ => rfl⟩
  | policyPassword cmd =>
      exact ⟨(_, TpmPolicyPasswordResponse), tpmDispatch_mem rfl, cmd, rfl, fun _ => rfl⟩
  | policyPcr cmd =>
      exact ⟨(_, TpmPolicyPcrResponse), tpmDispatch_mem rfl, cmd, rfl, fun _ => rfl⟩
  | policyPhysicalPresence cmd =>
      exact ⟨(_, TpmPolicyPhysicalPresenceResponse), tpmDispatch_mem rfl, cmd, rfl, fun _ => rfl⟩
  | policyRestart cmd =>
      exact ⟨(_, TpmPolicyRestartResponse), tpmDispatch_mem rfl, cmd, rfl, fun _ => rfl⟩
  | policySecret cmd =>
      exact ⟨(_, TpmPolicySecretResponse), tpmDispatch_mem rfl, cmd, rfl, fun _ => rfl⟩
  | policyTemplate cmd =>
      exact ⟨(_, TpmPolicyTemplateResponse), tpmDispatch_mem rfl, cmd, rfl, fun _ => rfl⟩

/-- The commands that a session runs give and flush no handle. -/
theorem dispatch_session : ∀ row ∈ tpmDispatch, (Device.sessionIndex row.1.CC).isSome →
    row.2.HANDLES = 0 ∧ row.1.CC ≠ .flushContext := by
  decide +kernel

namespace TpmDevice

/-- The handle of the new object or session in the answer to a frame, if it can be read. -/
def given (frame answer : Bytes) : Option TpmHandle :=
  (commandCode frame).toOption.bind fun cc =>
    (tpmDispatch.find? fun row => row.1.CC = cc).bind fun row =>
      (answerBody row.1 row.2 answer).toOption.bind fun body => body.handles.items.head?

/-- The handle that a frame flushes. -/
def flushed (frame : Bytes) : Option TpmHandle :=
  if (commandCode frame).toOption = some .flushContext then
    some (.new (readU32 frame tpmHeaderSize))
  else
    none

/-- The handle that the transport gives with its answer to a frame behind other ones. -/
def gives (transport : List Bytes → Exchange) (before : List Bytes) (frame : Bytes) :
    Option TpmHandle :=
  match transport (before ++ [frame]) with
  | .response answer => given frame answer
  | .sendFails _ | .recvFails _ => none

/-- The handles that the device was given in answers that can be read, and that no `FlushContext`
was handed to the transport for since, whatever has become of it. -/
def outstanding (device : TpmDevice) : List TpmHandle :=
  Ledger.outstanding (gives device.transport) flushed device.sent

/-- A handle is outstanding where an answer gave it and no frame that was sent later flushes it. -/
theorem mem_outstanding {device : TpmDevice} {handle : TpmHandle} :
    handle ∈ device.outstanding ↔ ∃ before frame behind, device.sent = before ++ frame :: behind ∧
      gives device.transport before frame = some handle ∧
        ∀ later ∈ behind, flushed later ≠ some handle :=
  Ledger.mem_outstanding

/-- The device when it has sent one more frame. -/
def afterSending (device : TpmDevice) (frame : Bytes) : TpmDevice :=
  { device with sent := device.sent ++ [frame] }

/-- The handles `new` were given, and no handle was flushed. -/
structure Gains (new : List TpmHandle) (device device' : TpmDevice) : Prop where
  transport : device'.transport = device.transport
  sent : device.sent <+: device'.sent
  outstanding : device'.outstanding = new ++ device.outstanding

/-- No handle was given or flushed. -/
abbrev Quiet (device device' : TpmDevice) : Prop := Gains [] device device'

section
variable {a b c : TpmDevice} {new : List TpmHandle}

theorem Gains.behind (first : Quiet a b) (second : Gains new b c) : Gains new a c :=
  ⟨second.transport.trans first.transport, first.sent.trans second.sent,
    second.outstanding.trans (congrArg _ first.outstanding)⟩

namespace Quiet

theorem refl (device : TpmDevice) : Quiet device device := ⟨rfl, List.prefix_refl _, rfl⟩

theorem trans (first : Quiet a b) (second : Quiet b c) : Quiet a c := Gains.behind first second

theorem outstanding (quiet : Quiet a b) : b.outstanding = a.outstanding := Gains.outstanding quiet

/-- Only what is sent matters. -/
theorem of_sent (transport : b.transport = a.transport) (sent : b.sent = a.sent) : Quiet a b where
  transport := transport
  sent := sent ▸ List.prefix_refl _
  outstanding := by
    rw [TpmDevice.outstanding, transport, sent]
    rfl

end Quiet

end

/-- The program gives and flushes no handle, however it ends. -/
abbrev KeepsQuiet {ε α : Type} (x : Fallible ε TpmDevice α) : Prop := Fallible.Moves Quiet x

theorem outstanding_afterSending (device : TpmDevice) (frame : Bytes) :
    (device.afterSending frame).outstanding =
      (gives device.transport device.sent frame).toList ++
        Ledger.settle flushed frame device.outstanding :=
  Ledger.outstanding_concat device.sent frame

/-- A frame that flushes nothing gives what comes with the answer to it. -/
theorem gains_afterSending (device : TpmDevice) {frame : Bytes} (keeps : flushed frame = none) :
    Gains (gives device.transport device.sent frame).toList device (device.afterSending frame) where
  transport := rfl
  sent := List.prefix_append _ _
  outstanding := by rw [outstanding_afterSending, Ledger.settle_of_none keeps]

section
variable {C R : TpmBodyType} {command : TpmBody C} {sessions : List TpmsAuthCommand}
  {frame answer : Bytes}

/-- What is given with an answer is the handle in the body of the response. -/
theorem given_prepared (mem : (C, R) ∈ tpmDispatch)
    (prepared : prepareCommand command sessions = .ok frame) :
    given frame answer =
      (answerBody C R answer).toOption.bind fun body => body.handles.items.head? := by
  have found := find?_of_distinct (fun row : TpmBodyType × TpmBodyType => row.1.CC)
    dispatch_distinct mem
  rw [given, commandCode_of_prepared prepared]
  show (tpmDispatch.find? fun row => row.1.CC = C.CC).bind _ = _
  rw [found]
  rfl

theorem flushed_prepared (other : C.CC ≠ .flushContext)
    (prepared : prepareCommand command sessions = .ok frame) : flushed frame = none := by
  rw [flushed, commandCode_of_prepared prepared]
  exact if_neg fun same => other (Option.some.inj same)

/-- A transmission sends one frame, unless the command cannot be marshalled, and what becomes of it
depends on the answer. -/
theorem transmit_cases (command : TpmBody C) (sessions : List TpmsAuthCommand)
    (device : TpmDevice) :
    (∃ e, prepareCommand command sessions = .error e ∧
      (transmit command sessions).run device = .error e device) ∨
    ∃ frame, prepareCommand command sessions = .ok frame ∧
      ((∃ e, (transmit command sessions).run device = .error e (device.afterSending frame) ∧
          gives device.transport device.sent frame = none) ∨
        ∃ answer, device.transport (device.sent ++ [frame]) = .response answer ∧
          (transmit command sessions).run device =
            (Fallible.ofExcept (received C answer)).run (device.afterSending frame)) := by
  cases prepared : prepareCommand command sessions with
  | error e =>
      refine .inl ⟨e, rfl, ?_⟩
      rw [transmit, prepared]
      rfl
  | ok frame =>
      refine .inr ⟨frame, rfl, ?_⟩
      cases answers : device.transport (device.sent ++ [frame]) with
      | response answer =>
          exact .inr ⟨answer, rfl, run_transmit prepared answers⟩
      | sendFails e | recvFails e =>
          have exchanged : (exchange frame).run device = .error e (device.afterSending frame) := by
            show exchange frame device = _
            simp only [exchange, answers, afterSending]
          refine .inl ⟨e, ?_, by rw [gives, answers]⟩
          rw [transmit, prepared, EStateM.run_bind, Fallible.run_ofExcept_ok]
          dsimp only
          rw [EStateM.run_bind, exchanged]

/-- A transmission that succeeds has sent the frame of its command and read the answer to it. -/
theorem transmit_eq_ok {device device' : TpmDevice} {response : TpmResponse}
    (ok : (transmit command sessions).run device = .ok response device') :
    ∃ frame answer, prepareCommand command sessions = .ok frame ∧
      device.transport (device.sent ++ [frame]) = .response answer ∧
      received C answer = .ok response ∧ device' = device.afterSending frame := by
  rcases transmit_cases command sessions device with
    ⟨e, -, ran⟩ | ⟨frame, prepared, ⟨e, ran, -⟩ | ⟨answer, answers, ran⟩⟩
  · cases ran.symm.trans ok
  · cases ran.symm.trans ok
  · rw [ran] at ok
    obtain ⟨heard, rfl⟩ := Fallible.run_ofExcept_eq_ok.mp ok
    exact ⟨frame, answer, prepared, answers, heard, rfl⟩

/-- A transmission of a command that flushes nothing: the handle of its response is given, and where
it fails no handle is. -/
theorem transmit_outstanding (mem : (C, R) ∈ tpmDispatch) (other : C.CC ≠ .flushContext)
    (command : TpmBody C) (sessions : List TpmsAuthCommand) (device : TpmDevice) :
    (∃ e device', (transmit command sessions).run device = .error e device' ∧
      Quiet device device') ∨
    ∃ response device', (transmit command sessions).run device = .ok response device' ∧
      Gains ((response.unmarshal R).toOption.bind fun body => body.handles.items.head?).toList
        device device' := by
  rcases transmit_cases command sessions device with
    ⟨e, -, ran⟩ | ⟨frame, prepared, ⟨e, ran, none⟩ | ⟨answer, answers, ran⟩⟩
  · exact .inl ⟨e, device, ran, .refl _⟩
  · have gains := gains_afterSending device (flushed_prepared other prepared)
    rw [none] at gains
    exact .inl ⟨e, _, ran, gains⟩
  · have gains := gains_afterSending device (flushed_prepared other prepared)
    rw [gives, answers] at gains
    dsimp only at gains
    rw [given_prepared mem prepared] at gains
    rw [ran]
    cases heard : received C answer with
    | error e =>
        rw [answerBody, heard] at gains
        exact .inl ⟨e, _, rfl, gains⟩
    | ok response =>
        rw [answerBody, heard] at gains
        refine .inr ⟨response, _, rfl, ?_⟩
        change Gains (((response.unmarshal R).mapError TpmDeviceError.unmarshal).toOption.bind
          _).toList _ _ at gains
        cases read : response.unmarshal R <;> rwa [read] at gains

/-- A command whose response has no handle gives none. -/
theorem transmit_quiet (mem : (C, R) ∈ tpmDispatch) (other : C.CC ≠ .flushContext)
    (few : R.HANDLES = 0) (command : TpmBody C) (sessions : List TpmsAuthCommand) :
    KeepsQuiet (transmit command sessions) := by
  intro device
  rcases transmit_outstanding mem other command sessions device with
    ⟨e, device', ran, quiet⟩ | ⟨response, device', ran, gains⟩
  · rw [ran]
    exact quiet
  · rw [ran]
    cases read : response.unmarshal R with
    | error e => rwa [read] at gains
    | ok body =>
        have empty : body.handles.items = [] :=
          List.length_eq_zero_iff.mp (body.handles.length_items.trans few)
        rw [read] at gains
        change Gains body.handles.items.head?.toList _ _ at gains
        rwa [empty] at gains

/-- The handle in the response body is given, and where no body is read no handle is. -/
theorem transmit_gives (mem : (C, R) ∈ tpmDispatch) (other : C.CC ≠ .flushContext)
    (command : TpmBody C) (sessions : List TpmsAuthCommand) (device : TpmDevice) :
    (∃ e device', (transmit command sessions >>= unmarshalResponse R).run device =
      .error e device' ∧ Quiet device device') ∨
    ∃ body device', (transmit command sessions >>= unmarshalResponse R).run device =
      .ok body device' ∧ Gains body.handles.items.head?.toList device device' := by
  rw [EStateM.run_bind]
  rcases transmit_outstanding mem other command sessions device with
    ⟨e, device', ran, quiet⟩ | ⟨response, device', ran, gains⟩
  · rw [ran]
    exact .inl ⟨e, device', rfl, quiet⟩
  · rw [ran]
    dsimp only
    rw [unmarshalResponse]
    cases read : response.unmarshal R with
    | error e =>
        rw [read] at gains
        exact .inl ⟨.unmarshal e, device', rfl, gains⟩
    | ok body =>
        rw [read] at gains
        exact .inr ⟨body, device', rfl, gains⟩

end

/-- The frame that flushes a handle. -/
def flushFrame (handle : TpmHandle) : Bytes := frameHeader 0x8001 14 0x165 ++ handle.bytes

theorem prepareCommand_flushContext (handle : TpmHandle) :
    prepareCommand (C := TpmFlushContextCommand) ⟨⟨[], List.length_nil⟩, (handle, ())⟩ [] =
      .ok (flushFrame handle) := by
  let command : TpmBody TpmFlushContextCommand := ⟨⟨[], List.length_nil⟩, (handle, ())⟩
  have mem : (TpmFlushContextCommand, TpmFlushContextResponse) ∈ tpmDispatch := tpmDispatch_mem rfl
  have wf : command.WellFormed := ⟨trivial, trivial⟩
  obtain ⟨writer, written⟩ : ∃ writer, tpmMarshalCommand command .noSessions []
      (Cursor.zeros tpmMaxCommandSize) = .ok writer :=
    tpmMarshalCommand_ok (by decide) wf (by rw [TpmBody.len_eq]; show 14 ≤ 4096; decide)
  obtain ⟨frame, tag, dispatch, handles, -, parameters, -, fits, pushed⟩ :=
    tpmMarshalCommand_eq_ok mem wf written
  have none : frame.handles = [] := handles.unique .nil
  have handleBytes : frame.parameters = handle.bytes ++ [] :=
    parameters.unique ((TpmWriter.writeBytes_emits handle.bytes).bind .nil)
  have body : frame.body = handle.bytes := by
    simp [CommandParts.body, tag, handleBytes, none]
  refine bind_eq_ok.mpr ⟨_, mapError_eq_ok.mpr written, ?_⟩
  show Except.ok writer.written = _
  rw [pushed, pushed_written rfl fits, CommandParts.bytes, body, tag, dispatch, handle.length_bytes]
  rfl

theorem flushed_flushFrame (handle : TpmHandle) : flushed (flushFrame handle) = some handle := by
  have code := commandCode_of_prepared (prepareCommand_flushContext handle)
  have read : (TpmInt.new (readU32 (flushFrame handle) tpmHeaderSize) : TpmHandle) = handle := by
    rw [readU32, flushFrame, tpmHeaderSize, List.drop_left' length_frameHeader]
    have whole : handle.bytes.take 4 = handle.bytes := List.take_of_length_le handle.length_bytes.le
    rw [whole]
    exact TpmInt.new_value handle
  rw [flushed, code, read]
  rfl

/-- A flush is sent once, whatever comes back. -/
theorem after_flushContext (handle : TpmHandle) (device : TpmDevice) :
    Fallible.after ((flushContext handle).run device) =
      device.afterSending (flushFrame handle) := by
  rw [flushContext, Fallible.after_bind_pure]
  rcases transmit_cases (C := TpmFlushContextCommand) ⟨⟨[], List.length_nil⟩, (handle, ())⟩ []
      device with ⟨e, failed, -⟩ | ⟨frame, same, ran⟩
  · rw [prepareCommand_flushContext] at failed
    cases failed
  · rw [prepareCommand_flushContext] at same
    cases same
    rcases ran with ⟨e, ran, -⟩ | ⟨answer, -, ran⟩
    · rw [ran]
      rfl
    · rw [ran]
      cases received TpmFlushContextCommand answer <;> rfl

theorem gives_flushFrame (transport : List Bytes → Exchange) (before : List Bytes)
    (handle : TpmHandle) : gives transport before (flushFrame handle) = none := by
  have mem : (TpmFlushContextCommand, TpmFlushContextResponse) ∈ tpmDispatch := tpmDispatch_mem rfl
  rw [gives]
  split
  next answer _ =>
    rw [given_prepared mem (prepareCommand_flushContext handle)]
    cases answerBody TpmFlushContextCommand TpmFlushContextResponse answer with
    | error e => rfl
    | ok body =>
        have empty : body.handles.items = [] :=
          List.length_eq_zero_iff.mp body.handles.length_items
        show body.handles.items.head? = none
        rw [empty]
        rfl
  · rfl
  · rfl

/-- A flush takes its handle away, whether the TPM accepts it or not, and gives none. -/
theorem flushContext_outstanding (handle : TpmHandle) (device : TpmDevice) :
    (Fallible.after ((flushContext handle).run device)).outstanding =
      device.outstanding.filter (· ≠ handle) := by
  rw [after_flushContext, outstanding_afterSending, gives_flushFrame, Ledger.settle,
    flushed_flushFrame]
  refine List.filter_congr fun other _ => ?_
  simp [eq_comm]

theorem readPublic_quiet (handle : TpmHandle) : KeepsQuiet (readPublic handle) := by
  refine .bind .trans (transmit_quiet (R := TpmReadPublicResponse) (tpmDispatch_mem rfl)
    (by decide) rfl _ _) fun _ => .bind .trans (.ofExcept .refl _) fun _ => .pure .refl _

theorem saveContext_quiet (saveHandle : TpmHandle) : KeepsQuiet (saveContext saveHandle) := by
  refine .bind .trans (transmit_quiet (R := TpmContextSaveResponse) (tpmDispatch_mem rfl)
    (by decide) rfl _ _) fun _ => .bind .trans (.ofExcept .refl _) fun _ => .pure .refl _

theorem getCapabilityPage_quiet (cap : TpmCap) (property propertyCount : UInt32) :
    KeepsQuiet (getCapabilityPage cap property propertyCount) := by
  refine .bind .trans (transmit_quiet (R := TpmGetCapabilityResponse) (tpmDispatch_mem rfl)
    (by decide) rfl _ _) fun _ => .bind .trans (.ofExcept .refl _) fun _ => .pure .refl _

theorem getCapability_quiet {T : Type} (cap : TpmCap) (propertyStart count : UInt32)
    (extract : TpmuCapabilities → Except TpmDeviceError (List T)) (nextProp : T → UInt32) :
    KeepsQuiet (getCapability cap propertyStart count extract nextProp) := by
  suffices pages : ∀ prop results,
      KeepsQuiet (getCapabilityFrom cap count extract nextProp prop results) from pages _ _
  intro prop results
  fun_induction getCapabilityFrom cap count extract nextProp prop results with
  | case1 prop results ih =>
      refine .bind .trans (getCapabilityPage_quiet cap prop count) fun page =>
        .bind .trans (.ofExcept .refl _) fun items => ?_
      dsimp only
      split
      · exact .pure .refl _
      split
      · exact .pure .refl _
      split
      · exact .pure .refl _
      next later => exact ih _ _ later

theorem fetchHandles_quiet (ht : TpmHt) : KeepsQuiet (fetchHandles ht) :=
  .bind .trans (getCapability_quiet _ _ _ _ _) fun _ => .pure .refl _

theorem fetchPcrBankList_quiet : KeepsQuiet fetchPcrBankList := by
  refine .bind .trans (getCapability_quiet _ _ _ _ _) fun pcrs => ?_
  dsimp only
  split
  · exact .throw .refl _
  refine .bind .trans (.ofExcept .refl _) fun (commonSelect, algs) => ?_
  cases commonSelect with
  | none => exact .throw .refl _
  | some select => exact .pure .refl _

theorem fetchTpmProperty_quiet (property : TpmPt) : KeepsQuiet (fetchTpmProperty property) := by
  refine .bind .trans (getCapabilityPage_quiet _ _ _) fun (_, capData) => ?_
  dsimp only
  split
  · split
    · exact .pure .refl _
    · exact .throw .refl _
  · exact .throw .refl _

/-- A context that is loaded gives its handle. -/
theorem loadContext_outstanding (context : TpmsContext) (device : TpmDevice) :
    (∃ e device', (loadContext context).run device = .error e device' ∧ Quiet device device') ∨
    ∃ handle device', (loadContext context).run device = .ok handle device' ∧
      Gains [handle] device device' := by
  have mem : (TpmContextLoadCommand, TpmContextLoadResponse) ∈ tpmDispatch := tpmDispatch_mem rfl
  rw [loadContext, ← bind_assoc, EStateM.run_bind]
  rcases transmit_gives mem (by decide) ⟨⟨[], List.length_nil⟩, (context, ())⟩ [] device with
    ⟨e, device', ran, quiet⟩ | ⟨body, device', ran, gains⟩
  · rw [ran]
    exact .inl ⟨e, device', rfl, quiet⟩
  · rw [ran]
    rw [body.handles.head?_items 0 rfl] at gains
    exact .inr ⟨_, device', rfl, gains⟩

/-- What is outstanding after a context is loaded and flushed again was outstanding before. -/
theorem flushContext_subset (handle : TpmHandle) (device : TpmDevice) :
    ∀ other ∈ (Fallible.after ((flushContext handle).run device)).outstanding,
      other ∈ device.outstanding ∧ other ≠ handle := by
  intro other outstanding
  rw [flushContext_outstanding handle device] at outstanding
  simpa using List.mem_filter.mp outstanding

/-- An answered command that makes `object` persistent as `persistent`, sent as `frame` behind other
frames. -/
structure Persists (transport : List Bytes → Exchange) (object persistent : TpmHandle)
    (before : List Bytes) (frame : Bytes) : Prop where
  names : ∃ authHandle sessions, prepareCommand (C := TpmEvictControlCommand)
    ⟨.two authHandle object, (persistent, ())⟩ sessions = .ok frame
  accepted : ∃ answer body, transport (before ++ [frame]) = .response answer ∧
    answerBody TpmEvictControlCommand TpmEvictControlResponse answer = .ok body

/-- Behind the frames `start`, the device has made `object` persistent as `persistent`. -/
def Persisted (start : List Bytes) (object persistent : TpmHandle) (device : TpmDevice) : Prop :=
  ∃ before frame, start <+: before ∧ before ++ [frame] <+: device.sent ∧
    Persists device.transport object persistent before frame

theorem Persisted.later {start : List Bytes} {object persistent : TpmHandle}
    {device device' : TpmDevice} (persisted : Persisted start object persistent device)
    (transport : device'.transport = device.transport) (sent : device.sent <+: device'.sent) :
    Persisted start object persistent device' := by
  obtain ⟨before, frame, behind, within, persists⟩ := persisted
  exact ⟨before, frame, behind, within.trans sent, transport ▸ persists⟩

end TpmDevice

namespace Device

open TpmDevice (Gains Quiet KeepsQuiet)

theorem TpmPolicySessionBuilder.nonce_quiet (crypto : Libcrypto)
    (builder : TpmPolicySessionBuilder) : KeepsQuiet (builder.nonce crypto) := by
  unfold nonce
  split
  · exact .pure .refl _
  · refine .bind .trans (.ofExcept .refl _) fun _ => .bind .trans ?_ fun _ => .ofExcept .refl _
    exact .bind .trans (fun _ => .of_sent rfl rfl) fun _ => .pure .refl _

/-- A session that is opened gives its handle. -/
theorem TpmPolicySessionBuilder.openSession_outstanding (crypto : Libcrypto)
    (builder : TpmPolicySessionBuilder) (device : TpmDevice) :
    (∃ e device', (builder.openSession crypto).run device = .error e device' ∧
      Quiet device device') ∨
    ∃ session device', (builder.openSession crypto).run device = .ok session device' ∧
      Gains [session.handle] device device' := by
  have mem : (TpmStartAuthSessionCommand, TpmStartAuthSessionResponse) ∈ tpmDispatch :=
    tpmDispatch_mem rfl
  rw [openSession, EStateM.run_bind]
  have before := builder.nonce_quiet crypto device
  cases nonce : (builder.nonce crypto).run device with
  | error e device' =>
      rw [nonce] at before
      exact .inl ⟨e, device', rfl, before⟩
  | ok nonceCaller device₁ =>
      rw [nonce] at before
      dsimp only
      rw [← bind_assoc, EStateM.run_bind]
      rcases TpmDevice.transmit_gives mem (by decide) ⟨.two builder.tpmKey builder.bind,
          (nonceCaller, builder.encryptedSalt.getD .new, builder.sessionType, builder.symmetric,
            builder.authHash, ())⟩ [] device₁ with
        ⟨e, device', ran, quiet⟩ | ⟨body, device', ran, gains⟩
      · rw [ran]
        exact .inl ⟨e, device', rfl, before.trans quiet⟩
      · rw [ran]
        rw [body.handles.head?_items ⟨0, Nat.one_pos⟩ rfl] at gains
        exact .inr ⟨_, device', rfl, Gains.behind before gains⟩

theorem TpmPolicySession.runCommands_quiet (session : TpmPolicySession)
    (commands : TpmCommandList) : KeepsQuiet (session.runCommands commands) := by
  induction commands with
  | nil => exact .pure .refl _
  | cons entry commands ih =>
      obtain ⟨command, authSessions⟩ := entry
      obtain ⟨row, mem, body, code, elim⟩ := command.exists_row
      unfold runCommands
      rw [code]
      cases index : sessionIndex row.1.CC with
      | none => exact .throw .refl _
      | some i =>
          obtain ⟨few, other⟩ := dispatch_session row mem (by rw [index]; rfl)
          dsimp only
          rw [elim]
          exact .bind .trans (TpmDevice.transmit_quiet mem other few _ _) fun _ => ih

theorem TpmPolicySession.run_quiet (session : TpmPolicySession) (commands : TpmCommandList) :
    KeepsQuiet (session.run commands) :=
  .bind .trans (fun _ => .of_sent rfl rfl) fun _ => session.runCommands_quiet commands

end Device
end Tpm2
