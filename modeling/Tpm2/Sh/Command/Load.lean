import Tpm2.Sh.Command.Create

/-! The command that loads key files to the cache or to the keyring of the kernel. -/

namespace Tpm2

open ByteCodec Text

/-- Loads a PEM or DER TPMKey file to cache. -/
structure Load where
  input : Option Path
  parent : Handle
  /-- The name of a trusted key of the kernel to load to, if any. -/
  kernel : Option (List Char)

namespace Load

section
variable {E : Type}

/-- Reads an object that is all there is of some bytes. -/
def parseWhole {α : Type} [TpmUnmarshal α] (bytes : Bytes) : Except (CommandError E) α := do
  let (value, rest) ← (unmarshal bytes : TpmResult (α × Bytes)).mapError
    fun e => .task (.protocol e)
  if rest.isEmpty then
    return value
  else
    throw (.task .malformedData)

def parsePublic («public» : Bytes) : Except (CommandError E) Tpm2bPublic := parseWhole «public»

def parsePrivate («private» : Bytes) : Except (CommandError E) Tpm2bPrivate := parseWhole «private»

/-- The public area and the private part of a key file without an authorization policy. -/
def objectParts (tpmKey : TpmKeyFile) : Except (CommandError E) (Tpm2bPublic × Tpm2bPrivate) := do
  if tpmKey.authPolicy.isSome then
    throw .authPolicyNotSupported
  let «public» ← parsePublic tpmKey.public
  let «private» ← parsePrivate tpmKey.private
  return («public», «private»)

/-- The encrypted seed in the secret of a key file. -/
def parseSecret (secret : Bytes) : Except (CommandError E) Tpm2bEncryptedSecret := do
  let (inSymSeed, rest) ← (unmarshal secret : TpmResult (Tpm2bEncryptedSecret × Bytes)).mapError
    fun _ => .invalidSecret
  if rest.isEmpty then
    return inSymSeed
  else
    throw .trailingSecret

/-- The loop over the policy of a key file. -/
def policySteps : List TpmKeyPolicyCommand → Except (CommandError E) (List VtpmPolicyCommand)
  | [] => .ok []
  | cmd :: cmds =>
      if cmd.cc = .policyAuthorize then
        .error .policyAuthorizeNotSupported
      else do
        let step ← (vtpmPolicyCommandFromParts cmd.cc cmd.body).mapError fun e => .task (.vtpm e)
        let steps ← policySteps cmds
        return step :: steps

/-- The policy that is cached for a key file. -/
def policyBlob (policy : List TpmKeyPolicyCommand) :
    Except (CommandError E) (Option (List VtpmPolicyCommand)) :=
  if policy.isEmpty then .ok none else some <$> policySteps policy

/-- The public area of a parent. -/
def parentFromHandle (parent : TpmHandle) :
    Fallible (CommandError E) Shell (TpmtPublic × TpmHandle) := do
  if handleHt parent.value = some .persistent then
    let («public», _) ← Shell.onDevice (TpmDevice.readPublic parent)
    return («public», parent)
  else
    match (← get).task.cache.findByHandle parent with
    | none => throw .parentMissing
    | some key => return (key.public, parent)

/-- The part of `runLoad` behind its command. -/
def keep (resp : TpmBody TpmLoadResponse) : Fallible (CommandError E) Shell TpmHandle := do
  let objectHandle := resp.handles.get ⟨0, Nat.one_pos⟩
  Shell.onTask (TaskState.track objectHandle)
  return objectHandle

/-- The checks of a key that is loaded to the keyring of the kernel. -/
def checkKernelKey (tpmKey : TpmKeyFile) (parentHandle : TpmHandle) :
    Except (CommandError E) Unit := do
  if tpmKey.kind ≠ .sealedData then
    throw .kernelKeyNotSealed
  if handleHt parentHandle.value ≠ some .persistent then
    throw .kernelParentNotPersistent
  if ¬ tpmKey.emptyAuth then
    throw .kernelKeyWithAuth
  let «public» ← parsePublic tpmKey.public
  if ¬ tpmKey.policy.isEmpty ∨ tpmKey.authPolicy.isSome ∨
      ¬ «public».inner.authPolicy.bytes.isEmpty then
    throw .kernelKeyWithPolicy
  if ¬ tpmKey.secret.isEmpty then
    throw .kernelKeyWithSecret

end

variable (libs : Libraries)

/-- What is given to the kernel of a key file. -/
def kernelPayload (tpmKey : TpmKeyFile) (parentHandle : TpmHandle) :
    Except (TpmKeyError libs.rasn.Asn1Error) (List Char) := do
  let trimmedKey := ((TpmKeyFile.new.withKind tpmKey.kind).withEmptyAuth
    tpmKey.emptyAuth).withParent parentHandle
  let trimmedKey ← trimmedKey.withPublicBytes tpmKey.public
  let trimmedKey ← trimmedKey.withPrivateBytes tpmKey.private
  let der ← trimmedKey.toDer libs.rasn
  return "load ".toList ++ libs.hex.encode der

/-- `ENODEV`. -/
def enodev : Int := 19

def loadKernelKey (tpmKey : TpmKeyFile) (name : List Char) (parentHandle : TpmHandle) :
    Fallible (CommandError libs.rasn.Asn1Error) Shell Unit := do
  Fallible.ofExcept (checkKernelKey tpmKey parentHandle)
  let payload ← Shell.result .keyFile (kernelPayload libs tpmKey parentHandle)
  if '\x00' ∈ name ∨ '\x00' ∈ payload then
    throw .nullByte
  else
    match libs.addKey name payload with
    | .error error => throw (if error = enodev then .trustedKeyBackend else .trustedKey error)
    | .ok ret => Shell.writeLine (toString ret).toList

/-- The private part of a key file, which is imported if the file has a secret. -/
def importPrivate {E : Type} (parentHandle : TpmHandle) (auth : Auth) (secret : Bytes)
    («public» : Tpm2bPublic) («private» : Tpm2bPrivate) :
    Fallible (CommandError E) Shell Tpm2bPrivate :=
  if secret.isEmpty then
    return «private»
  else do
    let inSymSeed ← Fallible.ofExcept (parseSecret secret)
    Shell.onTask (TaskState.importKey libs.crypto parentHandle «public» «private» inSymSeed .new
      .null [auth])

/-- What `load` does on the device with the parts of a key file. -/
def loadObject (tpmKey : TpmKeyFile) («public» : Tpm2bPublic) («private» : Tpm2bPrivate)
    (parent : TpmHandle) : Fallible (CommandError libs.rasn.Asn1Error) Shell Unit := do
  let (parentPublic, parentHandleRef) ← parentFromHandle parent
  let (parentHandle, _, auth) ← Shell.onTask (TaskState.resolveAuth libs.crypto parentHandleRef)
  let objectPrivate ← importPrivate libs parentHandle auth tpmKey.secret «public» «private»
  let resp ← Shell.perform libs.crypto (C := TpmLoadCommand) TpmLoadResponse
    ⟨.one parentHandle, (objectPrivate, «public», ())⟩ [auth]
  let objectHandle ← keep resp
  let policyBlob ← Fallible.ofExcept (policyBlob tpmKey.policy)
  saveLoaded libs objectHandle «public».inner parentPublic (pure policyBlob)

/-- Reads a key file in PEM, or else in DER. -/
def parseKey (inputBytes : Bytes) :
    Except (TpmKeyError libs.rasn.Asn1Error) TpmKeyFile :=
  match TpmKeyFile.fromPem libs.rasn libs.pem inputBytes with
  | .ok tpmKey => .ok tpmKey
  | .error _ => TpmKeyFile.fromDer libs.rasn inputBytes

def run (load : Load) : Fallible (CommandError libs.rasn.Asn1Error) Shell Unit := do
  let inputBytes ← readFileInput load.input
  let tpmKey ← Shell.result .keyFile (parseKey libs inputBytes)
  let parent ← Shell.requireValue load.parent
  match load.kernel with
  | some name => loadKernelKey libs tpmKey name parent
  | none => do
      let («public», «private») ← Fallible.ofExcept (objectParts tpmKey)
      loadObject libs tpmKey «public» «private» parent

/-- `Load::is_local`. -/
def isLocal (load : Load) : Bool := load.kernel.isSome

end Load
end Tpm2
