import Tpm2.Crypto.Ecc
import Tpm2.Crypto.Kdf
import Tpm2.Crypto.Template

/-! Keys that do not come from a TPM: their public areas, and the seeds that protect a key on its
way to a parent which only its private part can recover. -/

namespace Tpm2

open ByteCodec Mutating TpmHash

/-- The part of a public area that does not fit. -/
inductive TpmPublicAreaField
  | objectType | parameters | unique
  deriving DecidableEq

/-- The errors of external keys: those of hashes and key derivation, and their own. -/
inductive ExternalKeyError
  | crypto (e : TpmCryptoError)
  | invalidEccCurve (curve : TpmEccCurve)
  | invalidEccNid
  | invalidEccPoint (curve : TpmEccCurve) (xLen yLen expectedLen : Nat)
  | invalidKeyBits (keyBits : UInt16)
  | invalidPrivateKeySize (len max : Nat)
  | invalidPublicArea (objectType : TpmAlgId) (field : TpmPublicAreaField)
  | invalidRsaExponent (exponent : TpmUint32)
  | invalidRsaKey
  | invalidRsaModulus (modulus : Bytes)
  | missingRsaPrivatePrime
  deriving DecidableEq

/-- The curves of libcrypto. -/
inductive Nid
  | x962Prime192v1 | secp224r1 | x962Prime256v1 | secp384r1 | secp521r1 | brainpoolP256r1
  | brainpoolP384r1 | brainpoolP512r1 | sm2
  | other (number : Nat)
  deriving DecidableEq

namespace TpmEllipticCurve

/-- `TryFrom<TpmEccCurve>`. -/
def tryFrom : TpmEccCurve → Except ExternalKeyError TpmEllipticCurve
  | .nistP192 => .ok nistP192
  | .nistP224 => .ok nistP224
  | .nistP256 => .ok nistP256
  | .nistP384 => .ok nistP384
  | .nistP521 => .ok nistP521
  | .bnP256 => .ok bnP256
  | .bnP638 => .ok bnP638
  | .sm2P256 => .ok sm2P256
  | .bpP256R1 => .ok bpP256R1
  | .bpP384R1 => .ok bpP384R1
  | .bpP512R1 => .ok bpP512R1
  | .curve25519 => .ok curve25519
  | .curve448 => .ok curve448
  | curve => .error (.invalidEccCurve curve)

/-- `TryFrom<TpmEllipticCurve> for Nid`. -/
def toNid : TpmEllipticCurve → Except ExternalKeyError Nid
  | nistP192 => .ok .x962Prime192v1
  | nistP224 => .ok .secp224r1
  | nistP256 => .ok .x962Prime256v1
  | nistP384 => .ok .secp384r1
  | nistP521 => .ok .secp521r1
  | bpP256R1 => .ok .brainpoolP256r1
  | bpP384R1 => .ok .brainpoolP384r1
  | bpP512R1 => .ok .brainpoolP512r1
  | sm2P256 => .ok .sm2
  | curve => .error (.invalidEccCurve curve.toEccCurve)

/-- `TryFrom<Nid>`. -/
def ofNid : Nid → Except ExternalKeyError TpmEllipticCurve
  | .x962Prime192v1 => .ok nistP192
  | .secp224r1 => .ok nistP224
  | .x962Prime256v1 => .ok nistP256
  | .secp384r1 => .ok nistP384
  | .secp521r1 => .ok nistP521
  | .brainpoolP256r1 => .ok bpP256R1
  | .brainpoolP384r1 => .ok bpP384R1
  | .brainpoolP512r1 => .ok bpP512R1
  | .sm2 => .ok sm2P256
  | .other _ => .error .invalidEccNid

end TpmEllipticCurve

/-- An RSA key of libcrypto: its modulus, its exponent, and a prime of its private part. -/
structure RsaKey where
  n : Nat
  e : Nat
  p : Option Nat

/-- A key on an elliptic curve of libcrypto: the curve, if it has a name, the uncompressed encoding
of the public point, and the private number. -/
structure EcKey where
  curveName : Option Nid
  publicKey : Except TpmCryptoError Bytes
  privateKey : Nat

/-- A private key of libcrypto. -/
inductive PKey
  | rsa (key : RsaKey)
  | ec (key : EcKey)
  | other

/-- The asymmetric keys of libcrypto. -/
structure Libcrypto.Keys where
  /-- Reads a private key in DER. -/
  privateKeyFromDer : Bytes → Except TpmCryptoError PKey
  /-- RSA-OAEP for the public key of a modulus and an exponent: the hash is that of the label and of
  the mask, and the padding takes random bytes. -/
  oaep : (n e : Nat) → TpmHash → (label message random : Bytes) → Except TpmCryptoError Bytes
  /-- The degree of a group. -/
  degree : Nid → Except TpmCryptoError Nat
  /-- The order of the generator of a group. -/
  order : Nid → Except TpmCryptoError Nat
  /-- Whether affine coordinates are those of a public key. -/
  checkPoint : Nid → (x y : Nat) → Except TpmCryptoError Unit
  /-- The uncompressed encoding of the multiple of the generator. -/
  mulGenerator : Nid → Nat → Except TpmCryptoError Bytes
  /-- The shared secret of a private number and a public key. -/
  derive : Nid → Nat → (x y : Nat) → Except TpmCryptoError Bytes

/-- The bytes of a number, without leading zeros. -/
def toVec (n : Nat) : Bytes := toBytes ((n.size + 7) / 8) n

/-- `KDF_LABEL_DUPLICATE`. -/
def kdfLabelDuplicate : Bytes := [68, 85, 80, 76, 73, 67, 65, 84, 69]

/-- `KDF_LABEL_INTEGRITY`. -/
def kdfLabelIntegrity : Bytes := [73, 78, 84, 69, 71, 82, 73, 84, 89]

/-- `KDF_LABEL_STORAGE`. -/
def kdfLabelStorage : Bytes := [83, 84, 79, 82, 65, 71, 69]

/-- The scheme with the hash algorithm of the name, where it has none of its own. -/
def fillSchemeHash (details : TpmuAsymScheme) (nameAlg : TpmAlgId) : TpmuAsymScheme :=
  match details with
  | .hash hash => if hash.hashAlg = .null then .hash ⟨nameAlg⟩ else details
  | .null => details

namespace TpmPublicTemplate

/-- Returns the RSA scheme for this template. -/
def rsaScheme (self : TpmPublicTemplate) : TpmtRsaScheme :=
  match self.publicParms with
  | .rsa parms => ⟨parms.scheme.scheme, fillSchemeHash parms.scheme.details self.nameAlg⟩
  | _ => ⟨.oaep, .hash ⟨self.nameAlg⟩⟩

/-- Returns the ECC scheme for this template. -/
def eccScheme (self : TpmPublicTemplate) : TpmtEccScheme :=
  match self.publicParms with
  | .ecc parms => ⟨parms.scheme.scheme, fillSchemeHash parms.scheme.details self.nameAlg⟩
  | _ => ⟨.ecdh, .hash ⟨self.nameAlg⟩⟩

end TpmPublicTemplate

/-- RSA public key parameters. -/
structure TpmRsaExternalKey where
  publicKey : Tpm2bPublicKeyRsa
  exponent : TpmUint32
  keyBits : TpmUint16
  deriving DecidableEq

namespace TpmRsaExternalKey

/-- Creates RSA public key parameters after validating the modulus shape. -/
def tryNew (publicKey : Tpm2bPublicKeyRsa) (exponent : TpmUint32) (keyBits : TpmUint16) :
    Except ExternalKeyError TpmRsaExternalKey :=
  let keyBitsValue := keyBits.value.toNat
  if keyBitsValue = 0 ∨ keyBitsValue % 8 ≠ 0 then
    .error (.invalidKeyBits keyBits.value)
  else if publicKey.bytes.length ≠ keyBitsValue / 8 then
    .error (.invalidRsaModulus publicKey.bytes)
  else if exponent.value ≠ 0 ∧ (exponent.value < 3 ∨ exponent.value.toNat % 2 = 0) then
    .error (.invalidRsaExponent exponent)
  else
    .ok ⟨publicKey, exponent, keyBits⟩

/-- `TryFrom<&TpmtPublic>`. -/
def tryFrom («public» : TpmtPublic) : Except ExternalKeyError TpmRsaExternalKey :=
  if «public».objectType ≠ .rsa then
    .error (.invalidPublicArea «public».objectType .objectType)
  else
    match «public».parameters, «public».unique with
    | .rsa params, .rsa n =>
        let e := if params.exponent.value = 65537 then .new 0 else params.exponent
        tryNew n e params.keyBits
    | .rsa _, _ => .error (.invalidPublicArea «public».objectType .unique)
    | _, _ => .error (.invalidPublicArea «public».objectType .parameters)

/-- `TryFrom<&PKey<Private>>`. -/
def ofKey (rsa : RsaKey) : Except ExternalKeyError TpmRsaExternalKey := do
  let n ← (TpmBuffer.tryFrom (toVec rsa.n)).mapError fun _ => .invalidRsaModulus (toVec rsa.n)
  if rsa.e.size > 32 then
    throw .invalidRsaKey
  let e : TpmUint32 := .new (if rsa.e = 65537 then 0 else .ofNat rsa.e)
  if (toVec rsa.n).length * 8 > u16Max then
    throw .invalidRsaKey
  tryNew n e (.new (.ofNat ((toVec rsa.n).length * 8)))

/-- Parses a DER-encoded private key: the public key and the sensitive prime. -/
def fromDer (keys : Libcrypto.Keys) (bytes : Bytes) :
    Except ExternalKeyError (TpmRsaExternalKey × Tpm2bPrivateKeyRsa) := do
  match ← (keys.privateKeyFromDer bytes).mapError .crypto with
  | .rsa rsa => do
      let publicKey ← ofKey rsa
      match rsa.p with
      | none => throw .missingRsaPrivatePrime
      | some p => do
          let sensitive ← (TpmBuffer.tryFrom (toVec p)).mapError fun _ =>
            .invalidPrivateKeySize (toVec p).length (maxRsaKeyBytes / 2)
          return (publicKey, sensitive)
  | _ => throw (.crypto .crypto)

/-- The public area of the key with the attributes, the policy and the schemes of a template. -/
def toPublic (self : TpmRsaExternalKey) (template : TpmPublicTemplate) : TpmtPublic where
  objectType := .rsa
  nameAlg := template.nameAlg
  objectAttributes := template.objectAttributes
  authPolicy := template.authPolicy
  parameters := .rsa ⟨template.symmetric, template.rsaScheme, self.keyBits, self.exponent⟩
  unique := .rsa self.publicKey

/-- The exponent that a zero stands for. -/
def exponentValue (self : TpmRsaExternalKey) : Nat :=
  if self.exponent.value = 0 then 65537 else self.exponent.value.toNat

/-- Creates a seed and an encrypted seed for `TPM2_Import`. -/
def toSeed {σ : Type} (self : TpmRsaExternalKey) (crypto : Libcrypto) (keys : Libcrypto.Keys)
    (rand : RandBytes σ) (nameAlg : TpmHash) :
    Mutating ExternalKeyError σ (Tpm2bDigest × Tpm2bEncryptedSecret) := do
  let seedSize := crypto.size nameAlg
  -- `seed_buf[..seed_size]`
  let _ ← orPanic (if seedSize ≤ maxDigestSize then some () else none)
  let seedBytes ← ExceptT.adapt .crypto (randBytes rand seedSize)
  let seed ← result ((TpmBuffer.tryFrom seedBytes).mapError fun e => .crypto (.unmarshal e))
  let random ← ExceptT.adapt .crypto (randBytes rand seedSize)
  let encryptedSeedBytes ← result <| (keys.oaep (ofBytes self.publicKey.bytes) self.exponentValue
    nameAlg (kdfLabelDuplicate ++ [0]) seed.bytes random).mapError .crypto
  let encryptedSeed ← result
    ((TpmBuffer.tryFrom encryptedSeedBytes).mapError fun e => .crypto (.unmarshal e))
  return (seed, encryptedSeed)

end TpmRsaExternalKey

/-- `ecc_coord_len`. -/
def eccCoordLen (degree : Nat) : Nat := (degree + 7) / 8

/-- `tpm_make_point`, for an uncompressed encoding of a point on a curve of some degree. -/
def tpmMakePoint (pubBytes : Bytes) (degree : Nat) (curve : TpmEllipticCurve) :
    Except ExternalKeyError TpmsEccPoint := do
  let expectedLen := eccCoordLen degree
  let pointLen := pubBytes.length - 1
  let xLen := pointLen / 2
  let yLen := pointLen - xLen
  if pubBytes.head? ≠ some 0x04 ∨ xLen ≠ expectedLen ∨ yLen ≠ expectedLen then
    throw (.invalidEccPoint curve.toEccCurve xLen yLen expectedLen)
  let x ← (TpmBuffer.tryFrom ((pubBytes.drop 1).take expectedLen)).mapError fun e =>
    .crypto (.unmarshal e)
  let y ← (TpmBuffer.tryFrom ((pubBytes.drop (1 + expectedLen)).take expectedLen)).mapError fun e =>
    .crypto (.unmarshal e)
  return ⟨x, y⟩

/-- ECC public key parameters. -/
structure TpmEccExternalKey where
  curve : TpmEllipticCurve
  unique : TpmsEccPoint
  deriving DecidableEq

namespace TpmEccExternalKey

variable (keys : Libcrypto.Keys)

/-- Creates ECC public key parameters after validating the curve and point shape. -/
def tryNew (curve : TpmEllipticCurve) (unique : TpmsEccPoint) :
    Except ExternalKeyError TpmEccExternalKey := do
  let nid ← curve.toNid
  let degree ← (keys.degree nid).mapError .crypto
  let coordLen := eccCoordLen degree
  if unique.x.bytes.length ≠ coordLen ∨ unique.y.bytes.length ≠ coordLen then
    throw (.invalidEccPoint curve.toEccCurve unique.x.bytes.length unique.y.bytes.length coordLen)
  return ⟨curve, unique⟩

/-- `TryFrom<&TpmtPublic>`. -/
def tryFrom («public» : TpmtPublic) : Except ExternalKeyError TpmEccExternalKey :=
  if «public».objectType ≠ .ecc then
    .error (.invalidPublicArea «public».objectType .objectType)
  else
    match «public».parameters, «public».unique with
    | .ecc params, .ecc point => do
        let curve ← TpmEllipticCurve.tryFrom params.curveId
        tryNew keys curve point
    | .ecc _, _ => .error (.invalidPublicArea «public».objectType .unique)
    | _, _ => .error (.invalidPublicArea «public».objectType .parameters)

/-- `TryFrom<&PKey<Private>>`. -/
def ofKey (ecKey : EcKey) : Except ExternalKeyError TpmEccExternalKey :=
  match ecKey.curveName with
  | none => .error .invalidEccNid
  | some nid => do
      let curve ← TpmEllipticCurve.ofNid nid
      let pubBytes ← ecKey.publicKey.mapError .crypto
      let degree ← (keys.degree nid).mapError .crypto
      let unique ← tpmMakePoint pubBytes degree curve
      tryNew keys curve unique

/-- Parses a DER-encoded private key: the public key and the sensitive number. -/
def fromDer (bytes : Bytes) : Except ExternalKeyError (TpmEccExternalKey × Tpm2bEccParameter) := do
  match ← (keys.privateKeyFromDer bytes).mapError .crypto with
  | .ec ecKey => do
      let publicKey ← ofKey keys ecKey
      let sensitive ← (TpmBuffer.tryFrom (toVec ecKey.privateKey)).mapError fun _ =>
        .invalidPrivateKeySize (toVec ecKey.privateKey).length maxEccKeyBytes
      return (publicKey, sensitive)
  | _ => throw (.crypto .crypto)

/-- The public area of the key with the attributes, the policy and the schemes of a template. -/
def toPublic (self : TpmEccExternalKey) (template : TpmPublicTemplate) : TpmtPublic where
  objectType := .ecc
  nameAlg := template.nameAlg
  objectAttributes := template.objectAttributes
  authPolicy := template.authPolicy
  parameters := .ecc ⟨template.symmetric, template.eccScheme, self.curve.toEccCurve, ⟨.null, .null⟩⟩
  unique := .ecc self.unique

/-- Performs ECDH and derives a seed from the shared secret; the loop that draws the private number
has `rounds` rounds at most, and the result is `none` when it would go on then. -/
def ecdh {σ : Type} (self : TpmEccExternalKey) (crypto : Libcrypto) (rand : RandBytes σ)
    (nameAlg : TpmHash) (rounds : Nat) :
    Mutating ExternalKeyError σ (Option (Tpm2bDigest × TpmsEccPoint)) := do
  let nid ← result self.curve.toNid
  let degree ← result ((keys.degree nid).mapError .crypto)
  let parentX := ofBytes self.unique.x.bytes
  let parentY := ofBytes self.unique.y.bytes
  result ((keys.checkPoint nid parentX parentY).mapError .crypto)
  let order ← result ((keys.order nid).mapError .crypto)
  match ← ExceptT.adapt .crypto (genBiguintRange rand 1 order rounds) with
  | none => return none
  | some priv => do
      let pubBytes ← result ((keys.mulGenerator nid priv).mapError .crypto)
      let z ← result ((keys.derive nid priv parentX parentY).mapError .crypto)
      let ephemeral ← result (tpmMakePoint pubBytes degree self.curve)
      let seedBits := crypto.size nameAlg * 8
      let seedBytes ← ExceptT.adapt .crypto <| inBuffer maxDigestSize <|
        nameAlg.kdfeInto crypto z kdfLabelDuplicate ephemeral.x.bytes self.unique.x.bytes seedBits
          ((seedBits + 7) / 8)
      let seed ← result ((TpmBuffer.tryFrom seedBytes).mapError fun e => .crypto (.unmarshal e))
      return some (seed, ephemeral)

/-- Creates a seed and the ephemeral point for `TPM2_Import`. -/
def toSeed {σ : Type} (self : TpmEccExternalKey) (crypto : Libcrypto) (rand : RandBytes σ)
    (nameAlg : TpmHash) (rounds : Nat) :
    Mutating ExternalKeyError σ (Option (Tpm2bDigest × Tpm2bEncryptedSecret)) := do
  match ← ecdh keys self crypto rand nameAlg rounds with
  | none => return none
  | some (derivedSeed, ephemeralPoint) => do
      let pointBytes ← result ((TpmMarshal.marshal ephemeralPoint
        (Cursor.zeros tpmMaxCommandSize)).mapError fun e => .crypto (.marshal e))
      let secret ← result
        ((TpmBuffer.tryFrom pointBytes.written).mapError fun e => .crypto (.unmarshal e))
      return some (derivedSeed, secret)

end TpmEccExternalKey
end Tpm2
