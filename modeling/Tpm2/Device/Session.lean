import Tpm2.Crypto.Hash
import Tpm2.Device.Device

/-! Policy sessions on a device. -/

namespace Tpm2.Device

open ByteCodec

/-- Where a policy command takes the handle of its session. -/
def sessionIndex : TpmCc → Option Nat
  | .policyPcr | .policyOr | .policyRestart | .policyAuthorize | .policyAuthValue
  | .policyCommandCode | .policyCounterTimer | .policyCpHash | .policyLocality | .policyNameHash
  | .policyTicket | .policyPhysicalPresence | .policyDuplicationSelect | .policyGetDigest
  | .policyPassword | .policyNvWritten | .policyTemplate | .policyCapability | .policyParameters
  | .policyTransportSpdm => some 0
  | .policySecret | .policySigned => some 1
  | .policyNv | .policyAuthorizeNv | .policyAcSendSelect => some 2
  | _ => none

/-- `cmd.handles[i] = handle`. -/
def setHandle {C : TpmBodyType} (i : Nat) (handle : TpmHandle) (command : TpmBody C) : TpmBody C :=
  { command with
    handles := ⟨command.handles.items.set i handle, by
      rw [List.length_set, command.handles.length_items]⟩ }

/-- An active TPM policy session. -/
structure TpmPolicySession where
  handle : TpmHandle
  attributes : TpmaSession
  hashAlg : TpmAlgId
  nonceTpm : Tpm2bNonce
  deriving DecidableEq

/-- `TpmPolicySessionBuilder`. -/
structure TpmPolicySessionBuilder where
  bind : TpmHandle := .new (TpmEnum.value TpmRh.null)
  tpmKey : TpmHandle := .new (TpmEnum.value TpmRh.null)
  nonceCaller : Option Tpm2bNonce := none
  encryptedSalt : Option Tpm2bEncryptedSecret := none
  sessionType : TpmSe := .policy
  symmetric : TpmtSymDefObject := ⟨.null, .null, .null⟩
  authHash : TpmAlgId := .sha256

/-- `TpmaSession::CONTINUE_SESSION`. -/
def continueSession : TpmaSession := ⟨1⟩

namespace TpmPolicySessionBuilder

/-- The nonce that the builder was given, or a random one of the size of a digest. -/
def nonce (crypto : Libcrypto) (builder : TpmPolicySessionBuilder) :
    Fallible TpmDeviceError TpmDevice Tpm2bNonce := do
  match builder.nonceCaller with
  | some nonce => return nonce
  | none =>
      let hash ← Fallible.ofExcept ((TpmHash.tryFrom builder.authHash).mapError fun _ =>
        .unsupportedAlgorithm builder.authHash)
      let nonceBytes ← TpmDevice.fillBytes (crypto.size hash)
      Fallible.ofExcept ((TpmBuffer.tryFrom nonceBytes).mapError .unmarshal)

/-- Opens the policy session on the provided device. -/
def openSession (crypto : Libcrypto) (builder : TpmPolicySessionBuilder) :
    Fallible TpmDeviceError TpmDevice TpmPolicySession := do
  let nonceCaller ← builder.nonce crypto
  let response ← TpmDevice.transmit (C := TpmStartAuthSessionCommand)
    ⟨.two builder.tpmKey builder.bind, (nonceCaller, builder.encryptedSalt.getD .new,
      builder.sessionType, builder.symmetric, builder.authHash, ())⟩ []
  let body ← TpmDevice.unmarshalResponse TpmStartAuthSessionResponse response
  return ⟨body.handles.get ⟨0, Nat.one_pos⟩, continueSession, builder.authHash, body.parameters.1⟩

open TpmDevice (KeepsRuns) in
theorem openSession_keepsRuns (crypto : Libcrypto) (builder : TpmPolicySessionBuilder) :
    Fallible.Moves KeepsRuns (builder.openSession crypto) := by
  refine .bind .trans ?nonce fun _ => .bind .trans (TpmDevice.transmit_keepsRuns _ _) fun _ =>
    .bind .trans (.ofExcept .refl _) fun _ => .pure .refl _
  unfold nonce
  split
  · exact .pure .refl _
  · exact .bind .trans (.ofExcept .refl _) fun _ =>
      .bind .trans (TpmDevice.fillBytes_keepsRuns _) fun _ => .ofExcept .refl _

end TpmPolicySessionBuilder

namespace TpmPolicySession

/-- The loop of `run` over the commands. -/
def runCommands (session : TpmPolicySession) : TpmCommandList →
    Fallible TpmDeviceError TpmDevice Unit
  | [] => return
  | (command, authSessions) :: commands => do
      match sessionIndex command.cc with
      | none => throw (.invalidCc command.cc)
      | some i =>
          let _ ← command.elim fun cmd =>
            TpmDevice.transmit (setHandle i session.handle cmd) authSessions.items
          session.runCommands commands

/-- Applies a list of policy commands to this session. -/
def run (session : TpmPolicySession) (commands : TpmCommandList) :
    Fallible TpmDeviceError TpmDevice Unit := do
  modify fun device => { device with policyRuns := device.policyRuns ++ [commands] }
  session.runCommands commands

theorem runCommands_keepsRuns (session : TpmPolicySession) (commands : TpmCommandList) :
    Fallible.Moves TpmDevice.KeepsRuns (session.runCommands commands) := by
  induction commands with
  | nil => exact .pure .refl _
  | cons entry commands ih =>
      obtain ⟨command, authSessions⟩ := entry
      unfold runCommands
      split
      next => exact .throw .refl _
      next =>
        refine .bind .trans ?_ fun _ => ih
        cases command <;> exact TpmDevice.transmit_keepsRuns _ _

/-- However it ends, `run` has recorded its commands. -/
theorem policyRuns_run (session : TpmPolicySession) (commands : TpmCommandList)
    (device : TpmDevice) : (Fallible.after ((session.run commands).run device)).policyRuns =
      device.policyRuns ++ [commands] := by
  rw [run, EStateM.run_bind, EStateM.run_modify]
  exact session.runCommands_keepsRuns commands _

/-- Flushes the session context from the TPM. -/
def flush (session : TpmPolicySession) : Fallible TpmDeviceError TpmDevice Unit :=
  TpmDevice.flushContext session.handle

end TpmPolicySession
end Tpm2.Device
