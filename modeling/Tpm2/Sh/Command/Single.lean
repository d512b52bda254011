import Tpm2.Protocol.Data.Text
import Tpm2.Sh.Shell

/-! The commands that send one command at most behind their authorization: `unseal`, `pcr-event`,
`reset-lock` and `return-code`. -/

namespace Tpm2

open ByteCodec Text

/-- Retrieves data from a sealed data object. -/
structure Unseal where
  handle : Handle
  output : Option Path

/-- Extends a PCR with an event. -/
structure PcrEvent where
  pcrIndex : TpmHandle
  input : Option Path

/-- Prints a TPM return code in human-readable format. -/
structure ReturnCode where
  rc : TpmRc

variable (libs : Libraries)

def Unseal.run (self : Unseal) : Fallible (CommandError libs.rasn.Asn1Error) Shell Unit := do
  let handle ← Shell.requireValue self.handle
  let (itemHandle, _, auth) ← Shell.onTask (TaskState.resolveAuth libs.crypto handle)
  let resp ← Shell.perform libs.crypto (C := TpmUnsealCommand) TpmUnsealResponse
    ⟨.one itemHandle, ()⟩ [auth]
  let outData := resp.parameters.1.bytes
  match self.output with
  | some path => Shell.write (.file path outData)
  | none => Shell.writeLine (libs.hex.encode outData)

namespace PcrEvent

def parsePcrIndex (handleStr : List Char) : Option TpmHandle := (parseU32 handleStr).map .new

/-- The name of a hash algorithm, or that of an algorithm that is none. -/
def hashName (hashAlg : TpmAlgId) : List Char :=
  match TpmHash.tryFrom hashAlg with
  | .ok hash => hash.display
  | .error _ => hashAlg.debug

/-- The clause of a policy for a digest. -/
def clause (pcrIndex : TpmHandle) (digest : TpmtHa) : Option (List Char) :=
  match digest.digest with
  | .digest bytes => some (hashName digest.hashAlg ++ ':' ::
      Nat.toDigits 10 pcrIndex.value.toNat ++ ':' :: libs.hex.encode bytes.bytes)
  | .null => none

def run (event : PcrEvent) : Fallible (CommandError libs.rasn.Asn1Error) Shell Unit := do
  let dataBytes ← readFileInput event.input
  let eventData ← Shell.result (fun _ => .capacityExceeded) (TpmBuffer.tryFrom dataBytes)
  let auth := (← get).task.authFor event.pcrIndex
  let pcrResp ← Shell.perform libs.crypto (C := TpmPcrEventCommand) TpmPcrEventResponse
    ⟨.one event.pcrIndex, (eventData, ())⟩ [auth]
  let clauses := pcrResp.parameters.1.items.filterMap (clause libs event.pcrIndex)
  Shell.writeLine (['+'].intercalate clauses)

end PcrEvent

/-- Resets the dictionary attack lockout counter. -/
def ResetLock.run : Fallible (CommandError libs.rasn.Asn1Error) Shell Unit := do
  let lockHandle : TpmHandle := .new (TpmEnum.value TpmRh.lockout)
  let auth := (← get).task.authFor lockHandle
  let _ ← Shell.perform libs.crypto (C := TpmDictionaryAttackLockResetCommand)
    TpmDictionaryAttackLockResetResponse ⟨.one lockHandle, ()⟩ [auth]

namespace ReturnCode

def parseRc (rcStr : List Char) : Option TpmRc := do
  let rc ← parseU32 rcStr
  (TpmRc.tryFrom rc).toOption

def run (code : ReturnCode) : Fallible (CommandError libs.rasn.Asn1Error) Shell Unit :=
  Shell.writeLine code.rc.display

end ReturnCode
end Tpm2
