import Tpm2.Algorithm.Directory
import Tpm2.Protocol.Frame.Outcome
import Tpm2.Protocol.Frame.Value

/-! Talking to a TPM device: each command is one exchange of frames with a transport that may answer
anything or fail. -/

namespace Tpm2

open ByteCodec

/-- Errors that can occur when talking to a TPM device. -/
inductive TpmDeviceError
  | alreadyBorrowed
  | capabilityMissing (cap : TpmCap)
  | interrupted
  | invalidCc (cc : TpmCc)
  | invalidResponse
  | io (e : IoError)
  | marshal (e : TpmError)
  | notAvailable
  | pcrBanksNotAvailable
  | pcrBankSelectionMismatch
  | responseMismatch (cc : TpmCc)
  | timeout
  | tpmRc (rc : TpmRc)
  | trailingData
  | unmarshal (e : TpmError)
  | unexpectedEof
  | unsupportedAlgorithm (alg : TpmAlgId)
  deriving DecidableEq

/-- What a transport makes of one command. -/
inductive Exchange
  | sendFails (e : TpmDeviceError)
  | recvFails (e : TpmDeviceError)
  | response (frame : Bytes)
  deriving DecidableEq

abbrev TpmCommandList := List (TpmCommandValue × TpmAuthCommands)

/-- A device, with what its transport and the random generators do. -/
structure TpmDevice where
  /-- What becomes of a command, by the frames sent so far, its own last. -/
  transport : List Bytes → Exchange
  /-- The frames sent so far. -/
  sent : List Bytes
  /-- What the random generators return next. -/
  entropy : List Bytes
  /-- History: the policy commands that sessions were made to run, one list for each session. -/
  policyRuns : List TpmCommandList

namespace TpmDevice

/-- Sends a frame and receives the one that answers it. -/
def exchange (frame : Bytes) : Fallible TpmDeviceError TpmDevice Bytes := fun device =>
  let sent := device.sent ++ [frame]
  match device.transport sent with
  | .sendFails e | .recvFails e => .error e { device with sent }
  | .response answer => .ok answer { device with sent }

/-- The next output of a random generator. -/
def draw {ε : Type} : Fallible ε TpmDevice Bytes := fun device =>
  .ok (device.entropy.headD []) { device with entropy := device.entropy.tail }

/-- `thread_rng().fill_bytes`. -/
def fillBytes {ε : Type} (n : Nat) : Fallible ε TpmDevice Bytes := do
  let bytes ← draw
  return (bytes ++ List.replicate n 0).take n

/-- The frame of a command. -/
def prepareCommand {C : TpmBodyType} (command : TpmBody C) (sessions : List TpmsAuthCommand) :
    Except TpmDeviceError Bytes := do
  let tag : TpmSt := if sessions.isEmpty then .noSessions else .sessions
  let writer ← (tpmMarshalCommand command tag sessions (Cursor.zeros tpmMaxCommandSize)).mapError
    .marshal
  return writer.written

/-- Performs the whole TPM command transmission process. -/
def transmit {C : TpmBodyType} (command : TpmBody C) (sessions : List TpmsAuthCommand) :
    Fallible TpmDeviceError TpmDevice TpmResponse := do
  let frame ← Fallible.ofExcept (prepareCommand command sessions)
  let answer ← exchange frame
  let response ← Fallible.ofExcept ((TpmResponse.cast answer).mapError .unmarshal)
  let outcome ← Fallible.ofExcept ((castResponseView C.CC response).mapError .unmarshal)
  match outcome with
  | .dispatched response => return response
  | .rejected rc => throw (.tpmRc rc)

/-- Reads the body of a response. -/
def unmarshalResponse (R : TpmBodyType) (response : TpmResponse) :
    Fallible TpmDeviceError TpmDevice (TpmBody R) :=
  Fallible.ofExcept ((response.unmarshal R).mapError .unmarshal)

/-- Reads the public area of a TPM object. -/
def readPublic (handle : TpmHandle) :
    Fallible TpmDeviceError TpmDevice (TpmtPublic × Tpm2bName) := do
  let response ← transmit (C := TpmReadPublicCommand) ⟨.one handle, ()⟩ []
  let body ← unmarshalResponse TpmReadPublicResponse response
  let (outPublic, name, _) := body.parameters
  return (outPublic.inner, name)

/-- Loads a TPM context and returns the handle. -/
def loadContext (context : TpmsContext) : Fallible TpmDeviceError TpmDevice TpmHandle := do
  let response ← transmit (C := TpmContextLoadCommand) ⟨⟨[], List.length_nil⟩, (context, ())⟩ []
  let body ← unmarshalResponse TpmContextLoadResponse response
  return body.handles.get 0

/-- Flushes a transient object or session from the TPM. -/
def flushContext (handle : TpmHandle) : Fallible TpmDeviceError TpmDevice Unit := do
  let _ ← transmit (C := TpmFlushContextCommand) ⟨⟨[], List.length_nil⟩, (handle, ())⟩ []
  return

/-- Saves the context of a transient object or session. -/
def saveContext (saveHandle : TpmHandle) : Fallible TpmDeviceError TpmDevice TpmsContext := do
  let response ← transmit (C := TpmContextSaveCommand) ⟨.one saveHandle, ()⟩ []
  let body ← unmarshalResponse TpmContextSaveResponse response
  return body.parameters.1

/-- Loads a session context and then flushes the resulting handle. -/
def flushSession (context : TpmsContext) : Fallible TpmDeviceError TpmDevice Unit := do
  match ← Fallible.outcome (loadContext context) with
  | .ok handle => flushContext handle
  | .error (.tpmRc rc) =>
      if rc.base = .referenceH0 ∨ rc.base = .handle then return else throw (.tpmRc rc)
  | .error e => throw e

/-- No policy commands are run. -/
def KeepsRuns (device device' : TpmDevice) : Prop := device'.policyRuns = device.policyRuns

namespace KeepsRuns

variable {a b c : TpmDevice}

theorem refl (device : TpmDevice) : KeepsRuns device device := rfl

theorem trans (first : KeepsRuns a b) (second : KeepsRuns b c) : KeepsRuns a c :=
  Eq.trans second first

end KeepsRuns

theorem exchange_keepsRuns (frame : Bytes) : Fallible.Moves KeepsRuns (exchange frame) := by
  intro device
  unfold exchange EStateM.run
  dsimp only
  split <;> exact .refl _

theorem fillBytes_keepsRuns {ε : Type} (n : Nat) :
    Fallible.Moves KeepsRuns (fillBytes (ε := ε) n) :=
  .bind .trans (fun _ => rfl) fun _ => .pure .refl _

theorem transmit_keepsRuns {C : TpmBodyType} (command : TpmBody C)
    (sessions : List TpmsAuthCommand) : Fallible.Moves KeepsRuns (transmit command sessions) := by
  refine .bind .trans (.ofExcept .refl _) fun frame =>
    .bind .trans (exchange_keepsRuns frame) fun answer => .bind .trans (.ofExcept .refl _)
      fun response => .bind .trans (.ofExcept .refl _) fun outcome => ?_
  cases outcome with
  | dispatched response => exact .pure .refl _
  | rejected rc => exact .throw .refl _

theorem readPublic_keepsRuns (handle : TpmHandle) :
    Fallible.Moves KeepsRuns (readPublic handle) :=
  .bind .trans (transmit_keepsRuns _ _) fun _ =>
    .bind .trans (.ofExcept .refl _) fun _ => .pure .refl _

theorem loadContext_keepsRuns (context : TpmsContext) :
    Fallible.Moves KeepsRuns (loadContext context) :=
  .bind .trans (transmit_keepsRuns _ _) fun _ =>
    .bind .trans (.ofExcept .refl _) fun _ => .pure .refl _

theorem flushContext_keepsRuns (handle : TpmHandle) :
    Fallible.Moves KeepsRuns (flushContext handle) :=
  .bind .trans (transmit_keepsRuns _ _) fun _ => .pure .refl _

section
variable {C : TpmBodyType} {command : TpmBody C} {sessions : List TpmsAuthCommand}
  {device : TpmDevice} {frame answer : Bytes}

/-- What a transmission makes of an answer. -/
def received (C : TpmBodyType) (answer : Bytes) : Except TpmDeviceError TpmResponse := do
  let response ← (TpmResponse.cast answer).mapError .unmarshal
  match ← (castResponseView C.CC response).mapError .unmarshal with
  | .dispatched response => return response
  | .rejected rc => throw (.tpmRc rc)

/-- The response body in an answer. -/
def answerBody (C R : TpmBodyType) (answer : Bytes) : Except TpmDeviceError (TpmBody R) := do
  let response ← received C answer
  (response.unmarshal R).mapError .unmarshal

variable (prepared : prepareCommand command sessions = .ok frame)
  (answers : device.transport (device.sent ++ [frame]) = .response answer)
include prepared answers

theorem run_transmit : (transmit command sessions).run device =
    (Fallible.ofExcept (received C answer)).run { device with sent := device.sent ++ [frame] } := by
  have exchanged : (exchange frame).run device =
      .ok answer { device with sent := device.sent ++ [frame] } := by
    show exchange frame device = _
    simp only [exchange, answers]
  rw [transmit, prepared, EStateM.run_bind, Fallible.run_ofExcept_ok]
  dsimp only
  rw [EStateM.run_bind, exchanged]
  dsimp only
  rw [received, Fallible.ofExcept_bind]
  refine congrArg (fun next => (Fallible.ofExcept _ >>= next).run _) (funext fun response => ?_)
  rw [Fallible.ofExcept_bind]
  refine congrArg (Fallible.ofExcept _ >>= ·) (funext fun outcome => ?_)
  cases outcome <;> rfl

section
variable {α : Type} {R : TpmBodyType} (next : TpmBody R → Fallible TpmDeviceError TpmDevice α)

theorem run_answerBody :
    (transmit command sessions >>= fun response => unmarshalResponse R response >>= next).run
      device = (Fallible.ofExcept (answerBody C R answer) >>= next).run
        { device with sent := device.sent ++ [frame] } := by
  rw [EStateM.run_bind, run_transmit prepared answers, answerBody]
  cases received C answer with
  | error e => rfl
  | ok response => rfl

theorem run_answered {body : TpmBody R} (answered : answerBody C R answer = .ok body) :
    (transmit command sessions >>= fun response => unmarshalResponse R response >>= next).run
      device = (next body).run { device with sent := device.sent ++ [frame] } := by
  rw [run_answerBody prepared answers, answered]
  rfl

theorem run_rejected (rejected : (answerBody C R answer).isOk = false) : ∃ e device',
    (transmit command sessions >>= fun response => unmarshalResponse R response >>= next).run
      device = .error e device' := by
  rw [run_answerBody prepared answers]
  cases failed : answerBody C R answer with
  | error e => exact ⟨e, _, rfl⟩
  | ok body =>
      rw [failed] at rejected
      cases rejected

end

end

end TpmDevice
end Tpm2
