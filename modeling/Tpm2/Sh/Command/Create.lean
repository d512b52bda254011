import Tpm2.PolicyLanguage.Display
import Tpm2.Sh.Common
import Tpm2.Sh.Policy

/-! The commands that create objects: `create`, `create-primary` and `seal`. -/

namespace Tpm2

open ByteCodec Text

/-- Creates secondary keys or sealed data objects. -/
structure Create where
  parent : Handle
  algorithm : TpmPublicTemplate
  description : Option String
  output : Option Path
  password : Option (List Char)
  policyExpression : Option (List Char)
  lock : Bool

/-- A hierarchy of primary keys. -/
inductive Hierarchy
  | owner | platform | endorsement | null
  deriving DecidableEq

/-- `From<Hierarchy> for TpmRh`. -/
def Hierarchy.toRh : Hierarchy → TpmRh
  | owner => .owner
  | platform => .platform
  | endorsement => .endorsement
  | null => .null

/-- Creates a new primary key in a specified hierarchy. -/
structure CreatePrimary where
  hierarchy : Hierarchy
  algorithm : TpmPublicTemplate
  password : Option (List Char)
  policyExpression : Option (List Char)
  lock : Bool

/-- Creates a sealed data object (passive KeyedHash). -/
structure Seal where
  parent : Handle
  hashAlgorithm : TpmHash
  data : Option (List Char)
  input : Option Path
  description : Option String
  output : Option Path
  password : Option (List Char)
  policyExpression : Option (List Char)
  lock : Bool

section
variable (libs : Libraries) (rounds : Nat)

/-- What `create` and `create-primary` send: the sensitive part and the public area of the new
object, and the commands of its policy. -/
def buildObject (algorithm : TpmPublicTemplate) (password policyExpression : Option (List Char))
    (lock : Bool) : Fallible (CommandError libs.rasn.Asn1Error) Shell
      (TpmsSensitiveCreate × TpmtPublic × TpmCommandList) := do
  let userAuth ← Fallible.ofExcept (parsePassword libs.hex password)
  let objectAttributes := parseCreationAttributes password policyExpression lock algorithm
  let (authPolicyDigest, policyCommands) ←
    buildPolicyCommandList libs policyExpression algorithm.nameAlg rounds
  let publicArea ← Shell.result (fun e => .task (.crypto e))
    (resolvePublicTemplate algorithm objectAttributes authPolicyDigest)
  return (⟨userAuth, .new⟩, publicArea, policyCommands)

/-- Creates an object under a parent: the key file of a kind with the object. -/
def createObject (kind : TpmKeyType) (description : Option String)
    (parentPhysHandle : TpmHandle) (auth : Auth)
    (sensitive : TpmsSensitiveCreate) (publicArea : TpmtPublic) (policyCommands : TpmCommandList) :
    Fallible (CommandError libs.rasn.Asn1Error) Shell TpmKeyFile := do
  let resp ← Shell.perform libs.crypto (C := TpmCreateCommand) TpmCreateResponse
    ⟨.one parentPhysHandle, (⟨sensitive⟩, ⟨publicArea⟩, .new, .new, ())⟩ [auth]
  let policy ← Shell.onTask (TaskState.saveKeyPolicy libs.crypto policyCommands)
  let (outPrivate, outPublic, _) := resp.parameters
  return ((((((TpmKeyFile.new.withKind kind).withEmptyAuth
    sensitive.userAuth.bytes.isEmpty).withPublic outPublic).withPrivate outPrivate).withParent
      parentPhysHandle).withDescription (description.getD "")).withPolicy policy

def Create.run (create : Create) : Fallible (CommandError libs.rasn.Asn1Error) Shell Unit := do
  let parent ← Shell.requireValue create.parent
  let (parentPhysHandle, _, auth) ← Shell.onTask (TaskState.resolveAuth libs.crypto parent)
  let (sensitive, publicArea, policyCommands) ← buildObject libs rounds create.algorithm
    create.password create.policyExpression create.lock
  let tpmKey ← createObject libs .loadable create.description parentPhysHandle auth sensitive
    publicArea policyCommands
  writeKeyData libs tpmKey create.output

/-- Saves the context of a loaded object, and puts the object into the cache. -/
def saveLoaded (objectHandle : TpmHandle) («public» parentPublic : TpmtPublic)
    (policy : Fallible (CommandError libs.rasn.Asn1Error) Shell (Option (List VtpmPolicyCommand))) :
    Fallible (CommandError libs.rasn.Asn1Error) Shell Unit := do
  let objectContext ← Shell.onDevice (TpmDevice.saveContext objectHandle)
  let policyBlob ← policy
  let vhandle ← Shell.onTask (TaskState.onCache
    (VtpmCache.saveTransient libs.crypto objectContext «public» parentPublic policyBlob))
  Shell.writeLine (displayHandle vhandle)

/-- The part of `create-primary` behind its command. -/
def CreatePrimary.keep (resp : TpmBody TpmCreatePrimaryResponse) (policyCommands : TpmCommandList) :
    Fallible (CommandError libs.rasn.Asn1Error) Shell Unit := do
  let objectHandle := resp.handles.get ⟨0, Nat.one_pos⟩
  Shell.onTask (TaskState.track objectHandle)
  saveLoaded libs objectHandle resp.parameters.1.inner TpmtPublic.default
    (some <$> Shell.onTask (TaskState.saveVtpmPolicy libs.crypto policyCommands))

def CreatePrimary.run (create : CreatePrimary) :
    Fallible (CommandError libs.rasn.Asn1Error) Shell Unit := do
  let primaryHandle : TpmHandle := .new (TpmEnum.value create.hierarchy.toRh)
  let (sensitive, publicArea, policyCommands) ← buildObject libs rounds create.algorithm
    create.password create.policyExpression create.lock
  let auth := (← get).task.authFor primaryHandle
  let resp ← Shell.perform libs.crypto (C := TpmCreatePrimaryCommand) TpmCreatePrimaryResponse
    ⟨.one primaryHandle, (⟨sensitive⟩, ⟨publicArea⟩, .new, .new, ())⟩ [auth]
  CreatePrimary.keep libs resp policyCommands

/-- `Seal::validate`. -/
def Seal.validate {E : Type} (sealing : Seal) : Except (CommandError E) Unit :=
  if sealing.data.isSome ∧ sealing.input.isSome then .error .exclusiveInputs else .ok ()

/-- The data that is given in hexadecimal, or else in the input. -/
def Seal.dataBytes {E : Type} (sealing : Seal) : Fallible (CommandError E) Shell Bytes :=
  match sealing.data with
  | none => readFileInput sealing.input
  | some hexStr =>
      match libs.hex.decode hexStr with
      | none => throw .sensitiveDataNotHex
      | some bytes => return bytes

/-- Resolves the sensitive data to be sealed. -/
def Seal.resolveData {E : Type} (sealing : Seal) :
    Fallible (CommandError E) Shell Tpm2bSensitiveData := do
  let bytes ← sealing.dataBytes libs
  if bytes.isEmpty then
    throw .sensitiveDataMissing
  else
    Shell.result (fun _ => .capacityExceeded) (TpmBuffer.tryFrom bytes)

/-- The public area of a sealed object. -/
def Seal.publicArea (nameAlg : TpmHash) (objectAttributes : TpmaObject)
    (authPolicyDigest : Tpm2bDigest) : Except TpmCryptoError TpmtPublic := do
  let template ← TpmPublicTemplate.new.withPublic (.keyedHash .new) (.keyedHash ⟨⟨.null, .null⟩⟩)
  TpmtPublic.tryFrom ((((template.withNameAlg nameAlg).withObjectAttributes
    objectAttributes).withAuthPolicy authPolicyDigest).withSymmetric defaultSymmetric)

def Seal.run (sealing : Seal) : Fallible (CommandError libs.rasn.Asn1Error) Shell Unit := do
  Fallible.ofExcept sealing.validate
  let parent ← Shell.requireValue sealing.parent
  let (parentPhysHandle, _, auth) ← Shell.onTask (TaskState.resolveAuth libs.crypto parent)
  let userAuth ← Fallible.ofExcept (parsePassword libs.hex sealing.password)
  let sensitiveData ← sealing.resolveData libs
  let objectAttributes := .fixedTpm ||| .fixedParent |||
    parseAuthAttributes sealing.password sealing.policyExpression sealing.lock
  let (authPolicyDigest, policyCommands) ← buildPolicyCommandList libs sealing.policyExpression
    sealing.hashAlgorithm.toAlgId rounds
  let publicArea ← Shell.result (fun e => .task (.crypto e))
    (Seal.publicArea sealing.hashAlgorithm objectAttributes authPolicyDigest)
  let tpmKey ← createObject libs .sealedData sealing.description parentPhysHandle auth
    ⟨userAuth, sensitiveData⟩ publicArea policyCommands
  writeKeyData libs tpmKey sealing.output

end

end Tpm2
