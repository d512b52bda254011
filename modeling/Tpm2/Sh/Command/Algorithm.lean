import Tpm2.Device.Capability
import Tpm2.Sh.Command.Single

/-! The command that lists the algorithms of the TPM, under the names that the other commands
accept. -/

namespace Tpm2

open ByteCodec

namespace Algorithm

/-- `RSA_KEY_SIZES`. -/
def rsaKeySizes : List UInt16 := [2048, 3072, 4096]

/-- Asks the TPM whether it supports parameters. -/
def testParms (parameters : TpmtPublicParms) : Fallible TpmDeviceError TpmDevice Unit := do
  let _ ← TpmDevice.transmit (C := TpmTestParmsCommand)
    ⟨⟨[], List.length_nil⟩, (parameters, ())⟩ []

/-- Checks if the TPM supports a given set of RSA parameters. -/
def testRsaParms (keyBits : UInt16) : Fallible TpmDeviceError TpmDevice Unit :=
  testParms ⟨.rsa, .rsa ⟨.null, ⟨.null, .null⟩, .new keyBits, .new 0⟩⟩

section
variable {E : Type}

/-- The details of a scheme for `testKeyedhashParms`. -/
def keyedhashScheme (scheme hashAlg : TpmAlgId) : Except (CommandError E) TpmuKeyedhashScheme :=
  match scheme with
  | .null => .ok .null
  | .hmac => .ok (.hmac ⟨hashAlg⟩)
  | .xor => .ok (.xor ⟨hashAlg, ⟨.kdf1Sp800_108, .null⟩⟩)
  | _ => .error (.invalidAlgorithm scheme)

/-- Checks if the TPM supports a given set of KeyedHash parameters. -/
def testKeyedhashParms (scheme hashAlg : TpmAlgId) : Fallible (CommandError E) Shell Unit := do
  let details ← Fallible.ofExcept (keyedhashScheme scheme hashAlg)
  Shell.onDevice (testParms ⟨.keyedHash, .keyedHash ⟨⟨scheme, details⟩⟩⟩)

/-- The loop of `fetchSupportedRsaSizes`. -/
def supportedSizes : List UInt16 → Fallible (CommandError E) Shell (List UInt16)
  | [] => return []
  | bits :: sizes => do
      match ← Shell.tryDevice (testRsaParms bits) with
      | .ok () => do
          let supported ← supportedSizes sizes
          return bits :: supported
      | .error (.tpmRc rc) =>
          if rc.base = .value then
            supportedSizes sizes
          else
            throw (.task (deviceErr (.tpmRc rc)))
      | .error e => throw (.task (deviceErr e))

/-- Identifies which RSA key sizes from the standard set are supported. -/
def fetchSupportedRsaSizes : Fallible (CommandError E) Shell (List UInt16) :=
  supportedSizes rsaKeySizes

end

def formatHash (hash : TpmAlgId) : List Char := PcrEvent.hashName hash

def formatRsaPrefix (bits : UInt16) (hash : TpmAlgId) : List Char :=
  "rsa-".toList ++ Nat.toDigits 10 bits.toNat ++ ':' :: formatHash hash

def formatEccPrefix (curve : TpmEllipticCurve) (hash : TpmAlgId) : List Char :=
  "ecc-".toList ++ curve.display ++ ':' :: formatHash hash

/-- The forms of an asymmetric algorithm: without a scheme, with the null scheme, and with each
scheme that the TPM has. -/
def asymForms (start : List Char) (schemes : List (List Char × TpmAlgId))
    (allAlgs : List TpmAlgId) : List (List Char) :=
  start :: (start ++ ":null".toList) ::
    (schemes.filter fun scheme => scheme.2 ∈ allAlgs).map fun scheme => start ++ ':' :: scheme.1

/-- `RSA_SCHEMES`. -/
def rsaSchemes : List (List Char × TpmAlgId) :=
  [("rsassa".toList, .rsassa), ("rsapss".toList, .rsapss), ("rsaes".toList, .rsaes),
    ("oaep".toList, .oaep)]

/-- `ECC_SCHEMES`. -/
def eccSchemes : List (List Char × TpmAlgId) :=
  [("ecdsa".toList, .ecdsa), ("ecdh".toList, .ecdh), ("ecdaa".toList, .ecdaa),
    ("ecschnorr".toList, .ecschnorr), ("sm2".toList, .sm2), ("ecmqv".toList, .ecmqv)]

section
variable {E : Type} (nameAlgs allAlgs : List TpmAlgId)

def fetchRsaAlgs : Fallible (CommandError E) Shell (List (List Char)) := do
  let sizes ← fetchSupportedRsaSizes
  return sizes.flatMap fun bits => nameAlgs.flatMap fun hash =>
    asymForms (formatRsaPrefix bits hash) rsaSchemes allAlgs

def fetchEccAlgs : Fallible (CommandError E) Shell (List (List Char)) := do
  let supportedCurves ← Shell.onDevice TpmDevice.fetchEccCurves
  let curves := supportedCurves.filterMap fun curveId => (TpmEllipticCurve.tryFrom curveId).toOption
  return curves.flatMap fun curve => nameAlgs.flatMap fun hash =>
    asymForms (formatEccPrefix curve hash) eccSchemes allAlgs

/-- A name, if the TPM supports the parameters. -/
def keyedhashAlg (start : List Char) (scheme hash : TpmAlgId) :
    Fallible (CommandError E) Shell (List (List Char)) := do
  match ← Fallible.outcome (φ := CommandError E) (testKeyedhashParms (E := E) scheme hash) with
  | .ok () => return [start ++ formatHash hash]
  | .error _ => return []

/-- The second loop of `fetchKeyedhashAlgs`. -/
def keyedhashForms : List TpmAlgId → Fallible (CommandError E) Shell (List (List Char))
  | [] => return []
  | hash :: nameAlgs => do
      let hmac ← keyedhashAlg "keyedhash-hmac:".toList .hmac hash
      let xor ← keyedhashAlg "keyedhash-xor:".toList .xor hash
      let results ← keyedhashForms nameAlgs
      return hmac ++ xor ++ results

def fetchKeyedhashAlgs : Fallible (CommandError E) Shell (List (List Char)) := do
  let tested ← Fallible.outcome (φ := CommandError E) (testKeyedhashParms (E := E) .null .null)
  let results :=
    match tested with
    | .ok () => nameAlgs.map fun hash => "keyedhash-null:".toList ++ formatHash hash
    | .error _ => []
  let forms ← keyedhashForms nameAlgs
  return results ++ forms

/-- The part of `fetchKeyAlgorithms` for a type of keys. -/
def whenHas (alg : TpmAlgId) (x : Fallible (CommandError E) Shell (List (List Char))) :
    Fallible (CommandError E) Shell (List (List Char)) :=
  if alg ∈ allAlgs then x else return []

end

section
variable {E : Type}

def fetchKeyAlgorithms : Fallible (CommandError E) Shell (List (List Char)) := do
  let allAlgProps ← Shell.onDevice TpmDevice.fetchAlgorithmProperties
  let allAlgs := allAlgProps.map TpmsAlgProperty.alg
  let nameAlgs := [TpmAlgId.sha256, .sha384, .sha512].filter (· ∈ allAlgs)
  let rsa ← whenHas allAlgs .rsa (fetchRsaAlgs nameAlgs allAlgs)
  let ecc ← whenHas allAlgs .ecc (fetchEccAlgs nameAlgs allAlgs)
  let keyedhash ← whenHas allAlgs .keyedHash (fetchKeyedhashAlgs nameAlgs)
  return rsa ++ ecc ++ keyedhash

/-- Prints texts, one a line. -/
def printLines : List (List Char) → Fallible (CommandError E) Shell Unit
  | [] => return
  | alg :: results => do
      Shell.writeLine alg
      printLines results

def run : Fallible (CommandError E) Shell Unit := do
  let results ← fetchKeyAlgorithms
  printLines (results.mergeSort textLe)

end

end Algorithm
end Tpm2
