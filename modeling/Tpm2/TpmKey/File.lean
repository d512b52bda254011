import Tpm2.Protocol.Data.Struct

/-! TPM key files: their ASN.1 form, how they are built, written and read. -/

namespace Tpm2

open ByteCodec

/-- The type of the TPM key as defined by the OID. -/
inductive TpmKeyType
  | loadable
  | importable
  | sealedData
  deriving DecidableEq

abbrev ObjectIdentifier := List Nat

def oidLoadableKey : ObjectIdentifier := [2, 23, 133, 10, 1, 3]
def oidImportableKey : ObjectIdentifier := [2, 23, 133, 10, 1, 4]
def oidSealedData : ObjectIdentifier := [2, 23, 133, 10, 1, 5]

/-- Error type for encoding/decoding and data validation. An `Asn1Error` is what the ASN.1 library
reports. -/
inductive TpmKeyError (Asn1Error : Type)
  | invalidCc (cc : UInt32)
  | invalidOid (oid : ObjectIdentifier)
  | invalidKeyAlgorithm (kind : TpmKeyType) (alg : TpmAlgId)
  | asn1DecodingFailed (e : Asn1Error)
  | asn1EncodingFailed (e : Asn1Error)
  | invalidPolicy
  | missingSecret
  | unexpectedSecret
  | invalidSecret
  | marshal (e : TpmError)
  | unmarshal (e : TpmError)

/-- A single policy command step, directly compatible with ASN.1. -/
structure TpmKeyCommandAsn1 where
  commandCode : UInt32
  commandPolicy : Bytes
  deriving DecidableEq

/-- A policy branch (`authPolicy` case) in ASN.1. -/
structure TpmAuthPolicyAsn1 where
  name : Option String
  policy : List TpmKeyCommandAsn1
  deriving DecidableEq

/-- A TPM key struct directly compatible with ASN.1 DER encoding. -/
structure TpmKeyAsn1 where
  keyType : ObjectIdentifier
  emptyAuth : Option Bool
  policy : Option (List TpmKeyCommandAsn1)
  secret : Option Bytes
  authPolicy : Option (List TpmAuthPolicyAsn1)
  description : Option String
  rsaParent : Option Bool
  parent : UInt32
  pubkey : Bytes
  privkey : Bytes
  deriving DecidableEq

/-- The ASN.1 library: DER encoding and BER decoding of a key. -/
structure Rasn where
  Asn1Error : Type
  encode : TpmKeyAsn1 → Except Asn1Error Bytes
  decode : Bytes → Except Asn1Error TpmKeyAsn1

/-- A TPM policy command blob. -/
structure TpmKeyPolicyCommand where
  cc : TpmCc
  body : Bytes
  deriving DecidableEq

namespace TpmKeyPolicyCommand

/-- The codes of policy commands. -/
def policyCodes : List TpmCc := [.policyNv, .policySecret, .policySigned, .policyAuthorize,
  .policyAuthValue, .policyCommandCode, .policyCounterTimer, .policyCpHash, .policyLocality,
  .policyNameHash, .policyOr, .policyTicket, .policyPcr, .policyRestart, .policyPhysicalPresence,
  .policyDuplicationSelect, .policyGetDigest, .policyPassword, .policyNvWritten, .policyTemplate,
  .policyAuthorizeNv, .policyAcSendSelect, .policyCapability, .policyParameters,
  .policyTransportSpdm]

def toAsn1 (c : TpmKeyPolicyCommand) : TpmKeyCommandAsn1 := ⟨TpmEnum.value c.cc, c.body⟩

def tryFrom {E : Type} (val : TpmKeyCommandAsn1) :
    Except (TpmKeyError E) TpmKeyPolicyCommand := do
  let cc ← (TpmEnum.tryFrom val.commandCode).mapError fun _ => .invalidCc val.commandCode
  if cc ∉ policyCodes then
    throw (.invalidCc val.commandCode)
  return ⟨cc, val.commandPolicy⟩

end TpmKeyPolicyCommand

/-- A TPM key policy. -/
structure TpmKeyAuthPolicy where
  name : Option String
  policy : List TpmKeyPolicyCommand
  deriving DecidableEq

namespace TpmKeyAuthPolicy

def toAsn1 (p : TpmKeyAuthPolicy) : TpmAuthPolicyAsn1 :=
  ⟨p.name, p.policy.map TpmKeyPolicyCommand.toAsn1⟩

def tryFrom {E : Type} (val : TpmAuthPolicyAsn1) : Except (TpmKeyError E) TpmKeyAuthPolicy := do
  let cmds ← val.policy.mapM TpmKeyPolicyCommand.tryFrom
  return ⟨val.name, cmds⟩

end TpmKeyAuthPolicy

def tpmMarshalArray {E : Type} (objs : List (TpmWriter → TpmResult TpmWriter)) :
    Except (TpmKeyError E) Bytes := do
  let marshal : TpmResult TpmWriter :=
    objs.foldlM (fun writer obj => obj writer) (Cursor.zeros tpmMaxCommandSize)
  let writer ← marshal.mapError .marshal
  return writer.written

def tpmPublicAlg (buf : Bytes) : TpmResult TpmAlgId := do
  let view ← Tpm2bWire.cast TpmtPublic buf >>= Tpm2bWire.inner TpmtPublic
  return view.objectType

def tpmPrivate (buf : Bytes) : TpmResult Unit := Tpm2b.validate maxPrivateSize buf

/-- The shape of a `secret` that is there: a size and that many bytes. -/
def tpmValidateSecretShape {E : Type} (secret : Bytes) : Except (TpmKeyError E) Unit :=
  match secret with
  | high :: low :: payload =>
      let payloadLen := high.toNat * 256 + low.toNat
      if payload.length ≠ payloadLen ∨ payloadLen > maxRsaKeyBytes then
        .error .invalidSecret
      else
        .ok ()
  | _ => .error .invalidSecret

/-- Validates the `secret` field against the key type. -/
def tpmValidateSecret {E : Type} (kind : TpmKeyType) (secret : Bytes) :
    Except (TpmKeyError E) Unit :=
  match kind with
  | .loadable => if secret ≠ [] then .error .unexpectedSecret else .ok ()
  | .importable => if secret = [] then .error .missingSecret else tpmValidateSecretShape secret
  | .sealedData => if secret = [] then .ok () else tpmValidateSecretShape secret

/-- `TpmtPublic::default`. -/
def TpmtPublic.default : TpmtPublic := ⟨.null, .null, ⟨0⟩, .new, .null, .null⟩

/-- High-level runtime representation of a TPM key. -/
structure TpmKeyFile where
  kind : TpmKeyType
  emptyAuth : Bool
  policy : List TpmKeyPolicyCommand
  secret : Bytes
  authPolicy : Option (List TpmKeyAuthPolicy)
  description : Option String
  «public» : Bytes
  «private» : Bytes
  publicAlg : TpmAlgId
  parent : TpmHandle
  rsaParent : Bool
  deriving DecidableEq

namespace TpmKeyFile

/-- `tpm_marshal_array` of one object, with `unwrap_or_default`. -/
@[irreducible] def marshaled {α : Type} [TpmMarshal α] (obj : α) : Bytes :=
  (tpmMarshalArray (E := Unit) [TpmMarshal.marshal obj]).toOption.getD []

def new : TpmKeyFile where
  kind := .loadable
  emptyAuth := false
  policy := []
  secret := []
  authPolicy := none
  description := none
  publicAlg := TpmtPublic.default.objectType
  «public» := marshaled (⟨.default⟩ : Tpm2bPublic)
  «private» := marshaled (.new : Tpm2bPrivate)
  parent := .new 0
  rsaParent := false

variable (key : TpmKeyFile)

def withKind (kind : TpmKeyType) : TpmKeyFile := { key with kind }

def withPublic («public» : Tpm2bPublic) : TpmKeyFile :=
  { key with publicAlg := «public».inner.objectType, «public» := marshaled «public» }

def withPrivate («private» : Tpm2bPrivate) : TpmKeyFile :=
  { key with «private» := marshaled «private» }

/-- Set the public key from a `TPM2B_PUBLIC` wire representation. -/
def withPublicBytes {E : Type} («public» : Bytes) : Except (TpmKeyError E) TpmKeyFile := do
  let publicAlg ← (tpmPublicAlg «public»).mapError .unmarshal
  return { key with publicAlg, «public» }

/-- Set the private key from a `TPM2B_PRIVATE` wire representation. -/
def withPrivateBytes {E : Type} («private» : Bytes) : Except (TpmKeyError E) TpmKeyFile := do
  (tpmPrivate «private»).mapError .unmarshal
  return { key with «private» }

def withEmptyAuth (emptyAuth : Bool) : TpmKeyFile := { key with emptyAuth }

def withPolicy (policy : List TpmKeyPolicyCommand) : TpmKeyFile := { key with policy }

/-- Sets the `secret` field, storing it as a fully marshaled `TPM2B_ENCRYPTED_SECRET`. -/
def withSecret (secret : Tpm2bEncryptedSecret) : TpmKeyFile :=
  { key with secret :=
      ((TpmMarshal.marshal secret (Cursor.zeros (len secret))).toOption.map
        Cursor.written).getD [] }

def withAuthPolicy (authPolicy : List TpmKeyAuthPolicy) : TpmKeyFile :=
  { key with authPolicy := if authPolicy.isEmpty then none else some authPolicy }

def withDescription (description : String) : TpmKeyFile :=
  { key with description := if description.isEmpty then none else some description }

def withParent (parent : TpmHandle) : TpmKeyFile := { key with parent }

def withRsaParent (rsaParent : Bool) : TpmKeyFile := { key with rsaParent }

def toAsn1 : TpmKeyAsn1 where
  keyType :=
    match key.kind with
    | .loadable => oidLoadableKey
    | .importable => oidImportableKey
    | .sealedData => oidSealedData
  emptyAuth := if key.emptyAuth then some true else none
  policy := if key.policy.isEmpty then none else some (key.policy.map TpmKeyPolicyCommand.toAsn1)
  secret := if key.secret.isEmpty then none else some key.secret
  authPolicy := key.authPolicy.map fun list => list.map TpmKeyAuthPolicy.toAsn1
  description := key.description
  rsaParent := if key.rsaParent then some true else none
  parent := key.parent.value
  pubkey := key.public
  privkey := key.private

/-- Serialize this key into DER bytes. -/
def toDer (rasn : Rasn) : Except (TpmKeyError rasn.Asn1Error) Bytes := do
  tpmValidateSecret key.kind key.secret
  if key.rsaParent ∧ key.parent.value >>> 24 ≠ 0x40 then
    throw .invalidPolicy
  (rasn.encode key.toAsn1).mapError .asn1EncodingFailed

/-- The key type of an OID, for a public area with the object type `publicAlg`. -/
def kindFrom {E : Type} (keyType : ObjectIdentifier) (publicAlg : TpmAlgId) :
    Except (TpmKeyError E) TpmKeyType :=
  if keyType = oidLoadableKey ∨ keyType = oidImportableKey then
    let kind := if keyType = oidLoadableKey then .loadable else .importable
    if publicAlg ≠ .rsa ∧ publicAlg ≠ .ecc ∧ publicAlg ≠ .keyedHash then
      .error (.invalidKeyAlgorithm kind publicAlg)
    else
      .ok kind
  else if keyType = oidSealedData then
    if publicAlg ≠ .keyedHash then
      .error (.invalidKeyAlgorithm .sealedData publicAlg)
    else
      .ok .sealedData
  else
    .error (.invalidOid keyType)

def fromAsn1 {E : Type} (asn1 : TpmKeyAsn1) : Except (TpmKeyError E) TpmKeyFile := do
  let publicAlg ← (tpmPublicAlg asn1.pubkey).mapError .unmarshal
  (tpmPrivate asn1.privkey).mapError .unmarshal
  let kind ← kindFrom asn1.keyType publicAlg
  if asn1.rsaParent = some true ∧ asn1.parent >>> 24 ≠ 0x40 then
    throw .invalidPolicy
  let secret := asn1.secret.getD []
  tpmValidateSecret kind secret
  let policy ← (asn1.policy.getD []).mapM TpmKeyPolicyCommand.tryFrom
  let authPolicy ← asn1.authPolicy.mapM fun branches => branches.mapM TpmKeyAuthPolicy.tryFrom
  return {
    kind
    «public» := asn1.pubkey
    «private» := asn1.privkey
    publicAlg
    parent := .new asn1.parent
    emptyAuth := asn1.emptyAuth.getD false
    policy
    authPolicy
    secret
    description := asn1.description
    rsaParent := asn1.rsaParent.getD false }

/-- Parse a key from DER bytes. -/
def fromDer (rasn : Rasn) (derBytes : Bytes) : Except (TpmKeyError rasn.Asn1Error) TpmKeyFile := do
  let asn1 ← (rasn.decode derBytes).mapError .asn1DecodingFailed
  fromAsn1 asn1

end TpmKeyFile
end Tpm2
