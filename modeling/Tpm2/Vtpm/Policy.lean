import Tpm2.Algorithm.Directory
import Tpm2.Protocol.Frame.Value

/-! The policy steps that are stored with a cached key. -/

namespace Tpm2

open ByteCodec

/-- Error type for VTPM cache operations and TPM serialization. -/
inductive VtpmError
  | handleNotFound (handle : TpmHandle)
  | invalidHandleType (ht : UInt8)
  | noHandles
  | invalidCc (cc : TpmCc)
  | invalidPolicy
  | io (e : IoError)
  | marshal (e : TpmError)
  | operationFailed
  | parentNotFound
  | staleHandle
  | unmarshal (e : TpmError)
  | unexpectedEnd
  | recordTooLarge (size : Nat)
  | tooManyPolicies (count : Nat)
  deriving DecidableEq

/-- A generic policy command with an uninterpreted body. -/
structure VtpmPolicyDefaultCommand where
  cc : TpmCc
  body : Bytes
  deriving DecidableEq

/-- The command structure for `TPM2_PolicyAuthorize`. -/
structure VtpmPolicyAuthorizeCommand where
  keySign : Tpm2bPublic
  policyRef : Tpm2bDigest
  policySignature : TpmtSignature
  deriving DecidableEq

/-- The command structure for `TPM2_PolicySecret`. -/
structure VtpmPolicySecretCommand where
  objectHandleHint : TpmHandle
  objectName : Tpm2bName
  policyRef : Tpm2bDigest
  deriving DecidableEq

namespace VtpmPolicyAuthorizeCommand

instance : TpmSized VtpmPolicyAuthorizeCommand where
  SIZE := SIZE Tpm2bPublic + SIZE Tpm2bDigest + SIZE TpmtSignature
  len v := len v.keySign + len v.policyRef + len v.policySignature

instance : TpmMarshal VtpmPolicyAuthorizeCommand where
  marshal v writer := do
    let writer ← marshal v.keySign writer
    let writer ← marshal v.policyRef writer
    marshal v.policySignature writer

instance : TpmUnmarshal VtpmPolicyAuthorizeCommand where
  unmarshal buffer := do
    let (keySign, remainder) ← unmarshal buffer
    let (policyRef, remainder) ← unmarshal remainder
    let (policySignature, remainder) ← unmarshal remainder
    return (⟨keySign, policyRef, policySignature⟩, remainder)

end VtpmPolicyAuthorizeCommand

namespace VtpmPolicySecretCommand

instance : TpmSized VtpmPolicySecretCommand where
  SIZE := SIZE TpmHandle + SIZE Tpm2bName + SIZE Tpm2bDigest
  len v := len v.objectHandleHint + len v.objectName + len v.policyRef

instance : TpmMarshal VtpmPolicySecretCommand where
  marshal v writer := do
    let writer ← marshal v.objectHandleHint writer
    let writer ← marshal v.objectName writer
    marshal v.policyRef writer

instance : TpmUnmarshal VtpmPolicySecretCommand where
  unmarshal buffer := do
    let (objectHandleHint, remainder) ← unmarshal buffer
    let (objectName, remainder) ← unmarshal remainder
    let (policyRef, remainder) ← unmarshal remainder
    return (⟨objectHandleHint, objectName, policyRef⟩, remainder)

end VtpmPolicySecretCommand

/-- A single TPM policy command step. -/
inductive VtpmPolicyCommand
  | default (command : VtpmPolicyDefaultCommand)
  | authorize (command : VtpmPolicyAuthorizeCommand)
  | secret (command : VtpmPolicySecretCommand)
  deriving DecidableEq

/-- `ZERO_HANDLE`, in the handle area of a command. -/
def zeroHandle : TpmHandles 1 := .one (.new 0)

/-- Reads a body that has to be used up. -/
def readBody {α : Type} (read : Bytes → TpmResult (α × Bytes)) (body : Bytes) :
    Except VtpmError α := do
  let (value, rest) ← (read body).mapError .unmarshal
  if !rest.isEmpty then
    throw .invalidPolicy
  return value

/-- What a wire value leaves in a command buffer, or nothing when it cannot be written. -/
def marshaledBody {α : Type} [TpmMarshal α] (v : α) : Bytes :=
  match marshal v (Cursor.zeros tpmMaxCommandSize) with
  | .ok writer => writer.written
  | .error _ => []

def readPcrBody : Bytes → TpmResult ((Tpm2bDigest × TpmlPcrSelection) × Bytes) :=
  seqRead unmarshal fun _ => unmarshal

def readCounterTimerBody : Bytes → TpmResult ((Tpm2bMaxBuffer × TpmUint16 × TpmEo) × Bytes) :=
  seqRead unmarshal fun _ => seqRead unmarshal fun _ => unmarshal

/-- Converts a policy step into a typed TPM command. -/
def VtpmPolicyDefaultCommand.toCommand (command : VtpmPolicyDefaultCommand) :
    Except VtpmError TpmCommandValue :=
  match command.cc with
  | .policyAuthValue => return .policyAuthValue ⟨zeroHandle, ()⟩
  | .policyGetDigest => return .policyGetDigest ⟨zeroHandle, ()⟩
  | .policyPassword => return .policyPassword ⟨zeroHandle, ()⟩
  | .policyRestart => return .policyRestart ⟨zeroHandle, ()⟩
  | .policyPhysicalPresence => return .policyPhysicalPresence ⟨zeroHandle, ()⟩
  | .policyPcr => do
      let (pcrDigest, pcrs) ← readBody readPcrBody command.body
      return .policyPcr ⟨zeroHandle, pcrDigest, pcrs, ()⟩
  | .policyOr => do
      let pHashList ← readBody unmarshal command.body
      return .policyOr ⟨zeroHandle, pHashList, ()⟩
  | .policyCommandCode => do
      let code ← readBody unmarshal command.body
      return .policyCommandCode ⟨zeroHandle, code, ()⟩
  | .policyCpHash => do
      let cpHashA ← readBody unmarshal command.body
      return .policyCpHash ⟨zeroHandle, cpHashA, ()⟩
  | .policyNameHash => do
      let nameHash ← readBody unmarshal command.body
      return .policyNameHash ⟨zeroHandle, nameHash, ()⟩
  | .policyTemplate => do
      let templateHash ← readBody unmarshal command.body
      return .policyTemplate ⟨zeroHandle, templateHash, ()⟩
  | .policyNvWritten => do
      let writtenSet ← readBody unmarshal command.body
      return .policyNvWritten ⟨zeroHandle, writtenSet, ()⟩
  | .policyCounterTimer => do
      let (operandB, offset, operation) ← readBody readCounterTimerBody command.body
      return .policyCounterTimer ⟨zeroHandle, operandB, offset, operation, ()⟩
  | other => throw (.invalidCc other)

namespace VtpmPolicyCommand

/-- Returns the TPM command code. -/
def cc : VtpmPolicyCommand → TpmCc
  | default command => command.cc
  | authorize _ => .policyAuthorize
  | secret _ => .policySecret

/-- Returns the marshaled body. -/
def body : VtpmPolicyCommand → Bytes
  | default command => command.body
  | authorize command => marshaledBody command
  | secret command => marshaledBody command

/-- Returns the length of the marshaled command (CC + size + body) in bytes. -/
def len : VtpmPolicyCommand → Nat
  | default command => SIZE TpmCc + SIZE TpmUint32 + command.body.length
  | authorize command => SIZE TpmCc + SIZE TpmUint32 + TpmSized.len command
  | secret command => SIZE TpmCc + SIZE TpmUint32 + TpmSized.len command

/-- Converts a policy step into a typed TPM command. -/
def toCommand : VtpmPolicyCommand → Except VtpmError TpmCommandValue
  | default command => command.toCommand
  | authorize _ => throw .invalidPolicy
  | secret command =>
      return .policySecret
        ⟨.two command.objectHandleHint (.new 0), .new, .new, command.policyRef, .new 0, ()⟩

end VtpmPolicyCommand

/-- A default command whose body passes `check`. -/
def defaultFromParts {α : Type} (cc : TpmCc) (body : Bytes)
    (check : Bytes → TpmResult (α × Bytes)) : Except VtpmError VtpmPolicyCommand := do
  let _ ← readBody check body
  return .default ⟨cc, body⟩

/-- Creates a `VtpmPolicyCommand` from a command code and raw body. -/
def vtpmPolicyCommandFromParts (cc : TpmCc) (body : Bytes) :
    Except VtpmError VtpmPolicyCommand :=
  match cc with
  | .policyAuthValue | .policyPassword | .policyGetDigest | .policyRestart
  | .policyPhysicalPresence =>
      if !body.isEmpty then throw .invalidPolicy else return .default ⟨cc, body⟩
  | .policyAuthorize => do return .authorize (← readBody unmarshal body)
  | .policySecret => do return .secret (← readBody unmarshal body)
  | .policyPcr => defaultFromParts cc body readPcrBody
  | .policyOr => defaultFromParts cc body (unmarshal (α := TpmlDigest))
  | .policyCommandCode => defaultFromParts cc body (unmarshal (α := TpmCc))
  | .policyCpHash | .policyNameHash | .policyTemplate =>
      defaultFromParts cc body (unmarshal (α := Tpm2bDigest))
  | .policyNvWritten => defaultFromParts cc body (unmarshal (α := TpmiYesNo))
  | .policyCounterTimer => defaultFromParts cc body readCounterTimerBody
  | _ => throw (.invalidCc cc)

/-- The loop of `vtpmMarshalPolicyList` over the commands. -/
def marshalPolicies : List VtpmPolicyCommand → TpmWriter → Except VtpmError TpmWriter
  | [], writer => return writer
  | command :: policies, writer => do
      let writer ← (marshal command.cc writer).mapError .marshal
      let bodyLen ← (TpmUint32.tryFrom command.body.length (.integerTooLarge 0
        (tpmValue command.body.length))).mapError fun _ => .operationFailed
      let writer ← (marshal bodyLen writer).mapError .marshal
      let writer ← (writer.writeBytes command.body).mapError .marshal
      marshalPolicies policies writer

def vtpmMarshalPolicyList (policies : List VtpmPolicyCommand) (writer : TpmWriter) :
    Except VtpmError TpmWriter := do
  let count ← (TpmUint32.tryFrom policies.length (.integerTooLarge 0
    (tpmValue policies.length))).mapError fun _ => .operationFailed
  let writer ← (marshal count writer).mapError .marshal
  marshalPolicies policies writer

/-- Maximum number of policy commands accepted in a cache record policy list. -/
def maxPolicyCount : Nat := 16

/-- The loop of `vtpmUnmarshalPolicyList` over `count` commands. -/
def unmarshalPolicies : Nat → Bytes → Except VtpmError (List VtpmPolicyCommand × Bytes)
  | 0, tail => return ([], tail)
  | count + 1, tail => do
      let (cc, tail) ← (unmarshal (α := TpmCc) tail).mapError .unmarshal
      let (len, tail) ← (unmarshal (α := TpmUint32) tail).mapError .unmarshal
      let len := len.value.toNat
      if tail.length < len then
        throw .unexpectedEnd
      let command ← vtpmPolicyCommandFromParts cc (tail.take len)
      let (policy, tail) ← unmarshalPolicies count (tail.drop len)
      return (command :: policy, tail)

def vtpmUnmarshalPolicyList (buffer : Bytes) :
    Except VtpmError (List VtpmPolicyCommand × Bytes) := do
  let (count, tail) ← (unmarshal (α := TpmUint32) buffer).mapError .unmarshal
  let count := count.value.toNat
  if count > maxPolicyCount then
    throw (.tooManyPolicies count)
  unmarshalPolicies count tail

end Tpm2
