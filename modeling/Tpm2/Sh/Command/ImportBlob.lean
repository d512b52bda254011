import Tpm2.Crypto.External
import Tpm2.Crypto.Name
import Tpm2.Sh.Shell

/-! The blob that carries an external key to a parent: its sensitive part, encrypted and protected
with keys that are derived from a seed. -/

namespace Tpm2

open ByteCodec Mutating

/-- The random generator of libcrypto, among the generators of a device. -/
def libcryptoRand : RandBytes TpmDevice where
  draw n device :=
    let bytes := device.entropy.headD []
    (if bytes.length = n then .ok bytes else .error .crypto,
      { device with entropy := device.entropy.tail })
  length_draw := by
    intro n device bytes device' drawn
    dsimp only at drawn
    split at drawn
    next same =>
      cases drawn
      exact same
    next => cases drawn

namespace Import

section
variable {E : Type}

def publicToSymKeyBits (parentPublic : TpmtPublic) : Except (CommandError E) UInt16 := do
  let symDef ←
    match parentPublic.parameters with
    | .rsa parms => pure parms.symmetric
    | .ecc parms => pure parms.symmetric
    | _ => throw .invalidParentKeyType
  match symDef.keyBits with
  | .aes bits | .camellia bits | .sm4 bits => return bits.value
  | _ => throw .invalidParentKeyType

/-- The sensitive part of an object of some type. -/
def sensitiveComposite (objectKeyType : TpmAlgId) (privateBytes : Bytes) :
    Except (CommandError E) TpmuSensitiveComposite :=
  match objectKeyType with
  | .rsa => ((TpmBuffer.tryFrom privateBytes).map .rsa).mapError fun e => .task (.protocol e)
  | .ecc => ((TpmBuffer.tryFrom privateBytes).map .ecc).mapError fun e => .task (.protocol e)
  | .keyedHash => ((TpmBuffer.tryFrom privateBytes).map .bits).mapError fun e =>
      .task (.protocol e)
  | .symCipher => ((TpmBuffer.tryFrom privateBytes).map .sym).mapError fun e => .task (.protocol e)
  | _ => .error .unsupportedKeyAlgorithm

/-- The initialization vector: zeros. -/
def importIv : Bytes := List.replicate 16 0

variable (libs : Libraries)

/-- The keys that encrypt and protect an object. -/
def createImportKeys {σ : Type} (parentNameAlg : TpmAlgId) (seed : Bytes) (objectName : Tpm2bName)
    (keyBits : UInt16) : Mutating (CommandError E) σ (Bytes × Bytes) := do
  let parentHash ← result ((TpmHash.tryFrom parentNameAlg).mapError fun e => .task (.crypto e))
  let symKey ← ExceptT.adapt (fun e => .task (.crypto e)) <|
    parentHash.kdfa libs.crypto libs.mac seed kdfLabelStorage objectName.bytes [] keyBits.toNat
  let keyBits := libs.crypto.size parentHash * 8
  let hmacKey ← ExceptT.adapt (fun e => .task (.crypto e)) <|
    parentHash.kdfa libs.crypto libs.mac seed kdfLabelIntegrity [] [] keyBits
  return (symKey, hmacKey)

def encryptSensitiveData (objectPublic : TpmtPublic) (privateBytes symKey : Bytes)
    (authValue : Tpm2bAuth) (keyBits : UInt16) : Except (CommandError E) Bytes := do
  let sensitive ← sensitiveComposite objectPublic.objectType privateBytes
  let sensitiveTpm2b : Tpm2bSensitive := ⟨⟨objectPublic.objectType, authValue, .new, sensitive⟩⟩
  let encDataIn ← (writeObject sensitiveTpm2b).mapError fun e => .task (.protocol e)
  if keyBits ≠ 128 ∧ keyBits ≠ 256 then
    throw .invalidParentKeyType
  (libs.aesCfb keyBits.toNat symKey importIv encDataIn).mapError fun _ => .encryptionFailed

def createPrivateBlob (parentNameAlg : TpmAlgId) (hmacKey sensitive : Bytes)
    (objectName : Tpm2bName) : Except (CommandError E) Tpm2bPrivate := do
  let hash ← (TpmHash.tryFrom parentNameAlg).mapError fun e => .task (.crypto e)
  let finalMac ← (hash.hmac libs.crypto libs.mac hmacKey [sensitive, objectName.bytes]).mapError
    fun e => .task (.crypto e)
  let digest : Tpm2bDigest ← (TpmBuffer.tryFrom finalMac).mapError fun e => .task (.protocol e)
  let writer ← (do
    let writer ← TpmMarshal.marshal digest (Cursor.zeros tpmMaxCommandSize)
    TpmWriter.writeBytes sensitive writer : TpmResult TpmWriter).mapError
      fun e => .task (.protocol e)
  (TpmBuffer.tryFrom writer.written).mapError fun e => .task (.protocol e)

variable {σ : Type} (rand : RandBytes σ) (rounds : Nat)

/-- A seed, and what its parent gets of it; the loop that draws a private number has `rounds` rounds
at most, and the result is `none` when it would go on then. -/
def parentSeed (parentPublic : TpmtPublic) :
    Mutating (CommandError E) σ (Option (Tpm2bDigest × Tpm2bEncryptedSecret)) := do
  let nameAlg := parentPublic.nameAlg
  match parentPublic.objectType with
  | .rsa => do
      let key ← result ((TpmRsaExternalKey.tryFrom parentPublic).mapError .externalKey)
      let hash ← result ((TpmHash.tryFrom nameAlg).mapError fun e => .task (.crypto e))
      let seeded ← ExceptT.adapt .externalKey (key.toSeed libs.crypto libs.keys rand hash)
      return some seeded
  | .ecc => do
      let key ← result ((TpmEccExternalKey.tryFrom libs.keys parentPublic).mapError .externalKey)
      let hash ← result ((TpmHash.tryFrom nameAlg).mapError fun e => .task (.crypto e))
      ExceptT.adapt .externalKey (key.toSeed libs.keys libs.crypto rand hash rounds)
  | _ => throw .invalidParentKeyType

/-- What `buildImportBlob` does with a seed. -/
def protectObject (parentPublic objectPublic : TpmtPublic) (privateBytes : Bytes)
    (objectName : Tpm2bName) (userAuth : Tpm2bAuth) (seed : Tpm2bDigest) :
    Mutating (CommandError E) σ Tpm2bPrivate := do
  let keyBits ← result (publicToSymKeyBits parentPublic)
  let (symKey, hmacKey) ← createImportKeys libs parentPublic.nameAlg seed.bytes objectName keyBits
  let sensitive ← result (encryptSensitiveData libs objectPublic privateBytes symKey userAuth
    keyBits)
  result (createPrivateBlob libs parentPublic.nameAlg hmacKey sensitive objectName)

def buildImportBlob (parentPublic objectPublic : TpmtPublic) (privateBytes : Bytes)
    (objectName : Tpm2bName) (userAuth : Tpm2bAuth) :
    Mutating (CommandError E) σ (Option (Tpm2bPrivate × Tpm2bEncryptedSecret × Tpm2bData)) := do
  match ← parentSeed libs rand rounds parentPublic with
  | none => return none
  | some (seed, inSymSeed) => do
      let duplicate ← protectObject libs parentPublic objectPublic privateBytes objectName userAuth
        seed
      return some (duplicate, inSymSeed, .new)

end

end Import
end Tpm2
