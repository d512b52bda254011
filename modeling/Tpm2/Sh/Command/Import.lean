import Tpm2.Sh.Command.ImportBlob
import Tpm2.Sh.Command.Load

/-! The command that makes a key file of a key that does not come from a TPM. -/

namespace Tpm2

open ByteCodec Text

/-- Import external keys to TPM keys. -/
structure Import where
  parent : Handle
  /-- Defaults to an unrestricted key with the null scheme. -/
  algorithm : Option TpmPublicTemplate
  /-- Create a loadable key instead of an importable key. -/
  loadable : Bool
  description : Option String
  input : Option Path
  output : Option Path
  password : Option (List Char)
  policyExpression : Option (List Char)
  lock : Bool

inductive ImportKeyShape
  | rsa (keyBits : TpmUint16)
  | ecc (curve : TpmEllipticCurve)

namespace Import

section
variable {E : Type}

def validateImportTemplate (shape : ImportKeyShape) (template : TpmPublicTemplate) :
    Except (CommandError E) TpmPublicTemplate :=
  match shape with
  | .rsa keyBits =>
      match template.publicParms with
      | .rsa parms =>
          if parms.keyBits ≠ keyBits then .error .algorithmSize else .ok template
      | _ => .error .algorithmType
  | .ecc curve =>
      match template.publicParms with
      | .ecc parms =>
          if parms.curveId ≠ curve.toEccCurve then .error .algorithmCurve else .ok template
      | _ => .error .algorithmType

/-- The name of the default algorithm of a key. -/
def defaultName (hash : TpmHash) : ImportKeyShape → List Char
  | .rsa keyBits => "rsa-".toList ++ Nat.toDigits 10 keyBits.value.toNat ++ ':' :: hash.display ++
      ":null".toList
  | .ecc curve => "ecc-".toList ++ curve.display ++ ':' :: hash.display ++ ":null".toList

def defaultUnrestrictedTemplate (shape : ImportKeyShape) (nameAlg : TpmAlgId) :
    Except (CommandError E) TpmPublicTemplate := do
  let hash ← (TpmHash.tryFrom nameAlg).mapError fun e => .task (.crypto e)
  (TpmPublicTemplate.fromStr (defaultName hash shape)).mapError fun e => .task (.crypto e)

def resolveImportTemplate (shape : ImportKeyShape) (nameAlg : TpmAlgId)
    (algorithm : Option TpmPublicTemplate) : Except (CommandError E) TpmPublicTemplate :=
  match algorithm with
  | some template => validateImportTemplate shape template
  | none => defaultUnrestrictedTemplate shape nameAlg

/-- The tags of the documents that hold private keys. -/
def privateKeyTags : List (List Char) :=
  ["PRIVATE KEY".toList, "RSA PRIVATE KEY".toList, "EC PRIVATE KEY".toList]

end

variable (libs : Libraries)

def importKeyShape {E : Type} (derBytes : Bytes) : Except (CommandError E) ImportKeyShape :=
  match TpmRsaExternalKey.fromDer libs.keys derBytes with
  | .ok (key, _) => .ok (.rsa key.keyBits)
  | .error _ => do
      let (key, _) ← (TpmEccExternalKey.fromDer libs.keys derBytes).mapError .externalKey
      return .ecc key.curve

/-- Parses an external PEM private key and resolves its public-area template. -/
def parseExternalKey {E : Type} (inputBytes : Bytes) (nameAlg : TpmAlgId)
    (algorithm : Option TpmPublicTemplate) :
    Except (CommandError E) (Bytes × TpmPublicTemplate) := do
  match libs.pem.parseMany inputBytes with
  | none => throw .invalidPem
  | some documents =>
      match documents.find? fun document => document.tag ∈ privateKeyTags with
      | none => throw .noPrivateKey
      | some document => do
          let shape ← importKeyShape libs document.contents
          let template ← resolveImportTemplate shape nameAlg algorithm
          return (document.contents, template)

/-- The public area and the sensitive bytes of an external key. -/
def externalPublic {E : Type} (derBytes : Bytes) (template : TpmPublicTemplate) :
    Except (CommandError E) (TpmtPublic × Bytes) :=
  match TpmRsaExternalKey.fromDer libs.keys derBytes with
  | .ok (key, sensitive) => .ok (key.toPublic template, sensitive.bytes)
  | .error _ => do
      let (key, sensitive) ← (TpmEccExternalKey.fromDer libs.keys derBytes).mapError .externalKey
      return (key.toPublic template, sensitive.bytes)

/-- The template with the attributes, the policy and the symmetric definition of the new object. -/
def completeTemplate (template : TpmPublicTemplate) (objectAttributes : TpmaObject)
    (authPolicy : Tpm2bDigest) : TpmPublicTemplate :=
  let symmetric := if template.isStorageParent then defaultSymmetric else .null
  ((template.withObjectAttributes objectAttributes).withAuthPolicy authPolicy).withSymmetric
    symmetric

/-- The key file of an object under a parent. -/
def keyFile (kind : TpmKeyType) (parentHandle : TpmHandle) («public» : Tpm2bPublic)
    («private» : Tpm2bPrivate) (userAuth : Tpm2bAuth) : TpmKeyFile :=
  ((((TpmKeyFile.new.withKind kind).withEmptyAuth userAuth.bytes.isEmpty).withPublic
    «public»).withPrivate «private»).withParent parentHandle

def buildKeyFile (self : Import) (parentHandle : TpmHandle) («public» : Tpm2bPublic)
    (duplicate : Tpm2bPrivate) (inSymSeed : Tpm2bEncryptedSecret) (encryptionKey : Tpm2bData)
    (auths : List Auth) (userAuth : Tpm2bAuth) (policyCommands : TpmCommandList) :
    Fallible (CommandError libs.rasn.Asn1Error) Shell TpmKeyFile := do
  let policy ← Shell.onTask (TaskState.saveKeyPolicy libs.crypto policyCommands)
  let file ←
    if self.loadable then do
      let outPrivate ← Shell.onTask (TaskState.importKey libs.crypto parentHandle «public» duplicate
        inSymSeed encryptionKey .null auths)
      pure ((keyFile .loadable parentHandle «public» outPrivate userAuth).withPolicy policy)
    else
      pure (((keyFile .importable parentHandle «public» duplicate userAuth).withSecret
        inSymSeed).withPolicy policy)
  match self.description with
  | some n => return file.withDescription n
  | none => return file

def buildExternalKey (self : Import) (rounds : Nat) (parentHandle : TpmHandle) (derBytes : Bytes)
    (template : TpmPublicTemplate) (auths : List Auth) (userAuth : Tpm2bAuth)
    (authPolicy : Tpm2bDigest) (objectAttributes : TpmaObject) (policyCommands : TpmCommandList) :
    Fallible (CommandError libs.rasn.Asn1Error) Shell TpmKeyFile := do
  let (parentPublic, _) ← Shell.onDevice (TpmDevice.readPublic parentHandle)
  let template := completeTemplate template objectAttributes authPolicy
  let («public», sensitiveBlob) ← Fallible.ofExcept (externalPublic libs derBytes template)
  let objectName ← Shell.result (fun e => .task (.crypto e)) (tpmMakeName libs.crypto «public»)
  let built ← Shell.onTaskWith id <| TaskState.onDevice <| Fallible.ofMutating .panicked id <|
    buildImportBlob libs libcryptoRand rounds parentPublic «public» sensitiveBlob objectName
      userAuth
  let (duplicate, inSymSeed, encryptionKey) ← Shell.finished built
  buildKeyFile libs self parentHandle ⟨«public»⟩ duplicate inSymSeed encryptionKey auths userAuth
    policyCommands

def run (self : Import) (rounds : Nat) :
    Fallible (CommandError libs.rasn.Asn1Error) Shell Unit := do
  let parent ← Shell.requireValue self.parent
  let (parentHandle, nameAlg, auth) ← Shell.onTask (TaskState.resolveAuth libs.crypto parent)
  let inputBytes ← readFileInput self.input
  let userAuth ← Fallible.ofExcept (parsePassword libs.hex self.password)
  let (derBytes, template) ← Fallible.ofExcept
    (parseExternalKey libs inputBytes nameAlg self.algorithm)
  let (authPolicy, policyCommands) ← buildPolicyCommandList libs self.policyExpression
    template.nameAlg rounds
  let objectAttributes := parseImportAttributes self.password self.policyExpression self.lock
    template
  let tpmKey ← buildExternalKey libs self rounds parentHandle derBytes template [auth] userAuth
    authPolicy objectAttributes policyCommands
  writeKeyData libs tpmKey self.output

end Import
end Tpm2
