import Tpm2.Crypto.Hash
import Tpm2.Text.Number
import Tpm2.Text.Split

/-! Key templates: an algorithm name is parsed to the public area that it stands for. -/

namespace Tpm2

open ByteCodec Text

inductive TpmEllipticCurve
  | nistP192 | nistP224 | nistP256 | nistP384 | nistP521 | bnP256 | bnP638 | sm2P256 | bpP256R1
  | bpP384R1 | bpP512R1 | curve25519 | curve448
  deriving DecidableEq

namespace TpmEllipticCurve

/-- `From<TpmEllipticCurve> for TpmEccCurve`. -/
def toEccCurve : TpmEllipticCurve → TpmEccCurve
  | nistP192 => .nistP192
  | nistP224 => .nistP224
  | nistP256 => .nistP256
  | nistP384 => .nistP384
  | nistP521 => .nistP521
  | bnP256 => .bnP256
  | bnP638 => .bnP638
  | sm2P256 => .sm2P256
  | bpP256R1 => .bpP256R1
  | bpP384R1 => .bpP384R1
  | bpP512R1 => .bpP512R1
  | curve25519 => .curve25519
  | curve448 => .curve448

/-- `Display`: the name of the variant in kebab case, but for the Brainpool curves. -/
def display : TpmEllipticCurve → List Char
  | nistP192 => "nist-p192".toList
  | nistP224 => "nist-p224".toList
  | nistP256 => "nist-p256".toList
  | nistP384 => "nist-p384".toList
  | nistP521 => "nist-p521".toList
  | bnP256 => "bn-p256".toList
  | bnP638 => "bn-p638".toList
  | sm2P256 => "sm2-p256".toList
  | bpP256R1 => "bp-p256-r1".toList
  | bpP384R1 => "bp-p384-r1".toList
  | bpP512R1 => "bp-p512-r1".toList
  | curve25519 => "curve25519".toList
  | curve448 => "curve448".toList

/-- `FromStr`: the variant of that name. -/
def fromStr (s : List Char) : Option TpmEllipticCurve :=
  [nistP192, nistP224, nistP256, nistP384, nistP521, bnP256, bnP638, sm2P256, bpP256R1, bpP384R1,
    bpP512R1, curve25519, curve448].find? fun curve => curve.display = s

end TpmEllipticCurve

theorem TpmsSchemeHash.wellFormed (v : TpmsSchemeHash) : WellFormed v := ⟨trivial, trivial⟩

namespace TpmaObject

def empty : TpmaObject := ⟨0⟩
def restricted : TpmaObject := ⟨0x00010000⟩
def decrypt : TpmaObject := ⟨0x00020000⟩
def signEncrypt : TpmaObject := ⟨0x00040000⟩

instance : OrOp TpmaObject := ⟨fun a b => ⟨a.bits ||| b.bits⟩⟩

def contains (a other : TpmaObject) : Bool := a.bits &&& other.bits = other.bits

end TpmaObject

/-- `TpmtSymDefObject::default()`. -/
def TpmtSymDef.null : TpmtSymDefObject := ⟨.null, .null, .null⟩

/-- The object type that a public ID and parameters belong to. -/
def publicObjectType : TpmuPublicId → TpmuPublicParms → Except TpmCryptoError TpmAlgId
  | .rsa _, .rsa _ => .ok .rsa
  | .ecc _, .ecc _ => .ok .ecc
  | .keyedHash _, .keyedHash _ => .ok .keyedHash
  | .symCipher _, .symCipher _ => .ok .symCipher
  | _, _ => .error .invalidObjectType

/-- A template describing a TPM public area. Its object type is the one that its public ID and
parameters belong to. -/
structure TpmPublicTemplate where
  objectType : TpmAlgId
  nameAlg : TpmAlgId
  authPolicy : Tpm2bDigest
  objectAttributes : TpmaObject
  symmetric : TpmtSymDefObject
  publicId : TpmuPublicId
  publicParms : TpmuPublicParms
  matched : publicObjectType publicId publicParms = .ok objectType
  deriving DecidableEq

/-- The parameters with the symmetric definition of a template in place of theirs. -/
def TpmuPublicParms.withSymmetric (symmetric : TpmtSymDefObject) :
    TpmuPublicParms → TpmuPublicParms
  | .rsa p => .rsa { p with symmetric }
  | .ecc p => .ecc { p with symmetric }
  | .symCipher p => .symCipher { p with sym := symmetric }
  | parms => parms

namespace TpmPublicTemplate

def new : TpmPublicTemplate where
  objectType := .keyedHash
  nameAlg := .null
  authPolicy := .new
  objectAttributes := .empty
  symmetric := .null
  publicId := .keyedHash .new
  publicParms := .keyedHash ⟨⟨.null, .null⟩⟩
  matched := rfl

/-- Sets the public ID and parameters, and the object type with them. -/
def withPublic (self : TpmPublicTemplate) (publicId : TpmuPublicId)
    (publicParms : TpmuPublicParms) : Except TpmCryptoError TpmPublicTemplate :=
  match matched : publicObjectType publicId publicParms with
  | .ok objectType => .ok { self with objectType, publicId, publicParms, matched }
  | .error e => .error e

def withNameAlg (self : TpmPublicTemplate) (nameAlg : TpmHash) : TpmPublicTemplate :=
  { self with nameAlg := nameAlg.toAlgId }

def withAuthPolicy (self : TpmPublicTemplate) (authPolicy : Tpm2bDigest) : TpmPublicTemplate :=
  { self with authPolicy }

def withObjectAttributes (self : TpmPublicTemplate) (objectAttributes : TpmaObject) :
    TpmPublicTemplate :=
  { self with objectAttributes }

def withSymmetric (self : TpmPublicTemplate) (symmetric : TpmtSymDefObject) : TpmPublicTemplate :=
  { self with symmetric }

/-- The scheme of RSA and ECC parameters. -/
def scheme (self : TpmPublicTemplate) : Option TpmAlgId :=
  match self.publicParms with
  | .rsa parms => some parms.scheme.scheme
  | .ecc parms => some parms.scheme.scheme
  | _ => none

/-- A restricted decryption key with the null scheme. -/
def isStorageParent (self : TpmPublicTemplate) : Bool :=
  (self.objectType = .rsa ∨ self.objectType = .ecc) && self.scheme = some .null &&
    self.objectAttributes.contains .restricted && self.objectAttributes.contains .decrypt

end TpmPublicTemplate

/-- `TryFrom<&TpmPublicTemplate> for TpmtPublic`. -/
def TpmtPublic.tryFrom (template : TpmPublicTemplate) : Except TpmCryptoError TpmtPublic :=
  .ok {
    objectType := template.objectType
    nameAlg := template.nameAlg
    objectAttributes := template.objectAttributes
    authPolicy := template.authPolicy
    parameters := template.publicParms.withSymmetric template.symmetric
    unique := template.publicId }

namespace TpmPublicTemplate

/-- What is missing or does not parse is an invalid object type. -/
def orInvalid {α : Type} : Option α → Except TpmCryptoError α
  | some a => .ok a
  | none => .error .invalidObjectType

@[simp] theorem orInvalid_eq_ok {α : Type} {value : Option α} {a : α} :
    orInvalid value = .ok a ↔ value = some a := by
  cases value <;> simp [orInvalid]

/-- The hash algorithm and the scheme after the key size or the curve. -/
def splitNameAndScheme (rest : List Char) :
    Except TpmCryptoError (List Char × Option (List Char)) :=
  match splitOnce ':' rest with
  | none => .ok (rest, none)
  | some (nameAlgStr, schemeStr) =>
      if nameAlgStr.isEmpty || schemeStr.isEmpty || schemeStr.elem ':' then
        .error .invalidObjectType
      else
        .ok (nameAlgStr, some schemeStr)

/-- The names of the schemes. -/
def schemeNames : List (List Char × TpmAlgId) :=
  [("null".toList, .null), ("rsassa".toList, .rsassa), ("rsapss".toList, .rsapss),
    ("rsaes".toList, .rsaes), ("oaep".toList, .oaep), ("ecdsa".toList, .ecdsa),
    ("ecdh".toList, .ecdh), ("ecdaa".toList, .ecdaa), ("ecschnorr".toList, .ecschnorr),
    ("sm2".toList, .sm2), ("ecmqv".toList, .ecmqv)]

def parseScheme (s : List Char) : Except TpmCryptoError TpmAlgId :=
  orInvalid ((schemeNames.find? fun entry => entry.1 = s).map Prod.snd)

def isSignScheme (scheme : TpmAlgId) : Bool :=
  [.rsassa, .rsapss, .ecdsa, .ecdaa, .ecschnorr, .sm2].any (scheme = ·)

def isDecryptScheme (scheme : TpmAlgId) : Bool :=
  [.oaep, .rsaes, .ecdh, .ecmqv].any (scheme = ·)

def isRsaScheme (scheme : TpmAlgId) : Bool :=
  [.null, .rsassa, .rsapss, .rsaes, .oaep].any (scheme = ·)

def isEccScheme (scheme : TpmAlgId) : Bool :=
  [.null, .ecdsa, .ecdh, .ecdaa, .ecschnorr, .sm2, .ecmqv].any (scheme = ·)

/-- The scheme and the usage that it implies. -/
def parseAsymForm : Option (List Char) → Except TpmCryptoError (TpmAlgId × TpmaObject)
  | none => .ok (.null, .decrypt ||| .restricted)
  | some s => do
      let scheme ← parseScheme s
      if scheme = .null then
        return (scheme, .signEncrypt ||| .decrypt)
      else if isSignScheme scheme then
        return (scheme, .signEncrypt)
      else if isDecryptScheme scheme then
        return (scheme, .decrypt)
      else
        throw .invalidObjectType

/-- A scheme with its parameters: the name algorithm, where it has a hash. -/
def asymScheme (scheme nameAlg : TpmAlgId) : Except TpmCryptoError (TpmAlgId × TpmuAsymScheme) :=
  match scheme with
  | .null | .rsaes => .ok (scheme, .null)
  | .rsassa | .rsapss | .oaep | .ecdsa | .ecdh | .ecdaa | .ecschnorr | .sm2 | .ecmqv =>
      .ok (scheme, .hash ⟨nameAlg⟩)
  | _ => .error .invalidObjectType

/-- A key with a scheme: its size or curve, its hash algorithm and its scheme. -/
def parseAsym {σ : Type} (select : List Char → Option σ) (allowed : TpmAlgId → Bool)
    (unique : TpmuPublicId) (parms : σ → TpmAlgId → TpmuAsymScheme → TpmuPublicParms)
    (suffix : List Char) : Except TpmCryptoError TpmPublicTemplate := do
  let (selectorStr, rest) ← orInvalid (splitOnce ':' suffix)
  let (nameAlgStr, schemeStr) ← splitNameAndScheme rest
  let selector ← orInvalid (select selectorStr)
  let nameAlg ← orInvalid (TpmHash.fromStr nameAlgStr)
  let (scheme, usage) ← parseAsymForm schemeStr
  if allowed scheme then
    let (scheme, details) ← asymScheme scheme nameAlg.toAlgId
    let template ← new.withPublic unique (parms selector scheme details)
    return (template.withNameAlg nameAlg).withObjectAttributes usage
  else
    throw .invalidObjectType

def parseRsa : List Char → Except TpmCryptoError TpmPublicTemplate :=
  parseAsym (fromStrRadix (2 ^ 16) 10) isRsaScheme (.rsa .new) fun keyBits scheme details =>
    .rsa ⟨.null, ⟨scheme, details⟩, .new (.ofNat keyBits), .new 0⟩

def parseEcc : List Char → Except TpmCryptoError TpmPublicTemplate :=
  parseAsym TpmEllipticCurve.fromStr isEccScheme (.ecc ⟨.new, .new⟩) fun curve scheme details =>
    .ecc ⟨.null, ⟨scheme, details⟩, curve.toEccCurve, ⟨.null, .null⟩⟩

/-- The parameters of a keyed hash scheme. -/
def keyedhashDetails (scheme nameAlg : TpmAlgId) : Except TpmCryptoError TpmuKeyedhashScheme :=
  match scheme with
  | .null => .ok .null
  | .xor => .ok (.xor ⟨nameAlg, ⟨.kdf1Sp800_108, .null⟩⟩)
  | .hmac => .ok (.hmac ⟨nameAlg⟩)
  | _ => .error .invalidObjectType

def parseKeyedhash (hashAlg : List Char) (scheme : TpmAlgId) :
    Except TpmCryptoError TpmPublicTemplate := do
  let nameAlg ← orInvalid (TpmHash.fromStr hashAlg)
  let details ← keyedhashDetails scheme nameAlg.toAlgId
  let template ← new.withPublic (.keyedHash .new) (.keyedHash ⟨⟨scheme, details⟩⟩)
  return (template.withNameAlg nameAlg).withObjectAttributes .signEncrypt

/-- `FromStr`. -/
def fromStr (s : List Char) : Except TpmCryptoError TpmPublicTemplate :=
  if let some rest := "rsa-".toList.isPrefixOf? s then
    parseRsa rest
  else if let some rest := "ecc-".toList.isPrefixOf? s then
    parseEcc rest
  else if let some nameAlgStr := "keyedhash-null:".toList.isPrefixOf? s then
    parseKeyedhash nameAlgStr .null
  else if let some nameAlgStr := "keyedhash-xor:".toList.isPrefixOf? s then
    parseKeyedhash nameAlgStr .xor
  else if let some nameAlgStr := "keyedhash-hmac:".toList.isPrefixOf? s then
    parseKeyedhash nameAlgStr .hmac
  else
    .error .invalidObjectType

theorem publicParms_of_withPublic {self t : TpmPublicTemplate} {publicId : TpmuPublicId}
    {publicParms : TpmuPublicParms} (ok : self.withPublic publicId publicParms = .ok t) :
    t.publicParms = publicParms ∧ t.symmetric = self.symmetric := by
  rw [withPublic] at ok
  split at ok
  · cases ok
    exact ⟨rfl, rfl⟩
  · cases ok

theorem asymScheme_wellFormed {scheme scheme' nameAlg : TpmAlgId} {details : TpmuAsymScheme}
    (ok : asymScheme scheme nameAlg = .ok (scheme', details)) :
    matchesTag details scheme' ∧ WellFormed details := by
  have wellFormed : WellFormed details := by
    cases details with
    | hash v => exact v.wellFormed
    | null => trivial
  refine ⟨?_, wellFormed⟩
  cases scheme <;> cases ok <;> rfl

/-- The key derivation of an exclusive-or scheme lacks the hash that its algorithm asks for. -/
theorem keyedhashDetails_wellFormed_iff {scheme nameAlg : TpmAlgId} {details : TpmuKeyedhashScheme}
    (ok : keyedhashDetails scheme nameAlg = .ok details) :
    WellFormed (⟨⟨scheme, details⟩⟩ : TpmsKeyedhashParms) ↔ scheme ≠ .xor := by
  have parts : WellFormed (⟨⟨scheme, details⟩⟩ : TpmsKeyedhashParms) ↔
      (matchesTag details scheme ∧ WellFormed details) ∧ True := Iff.rfl
  rw [parts, and_true]
  cases scheme <;> cases ok
  case xor =>
    refine iff_of_false ?_ fun other => other rfl
    rintro ⟨-, -, ⟨matched, -⟩, -⟩
    cases matched
  case hmac => exact iff_of_true ⟨rfl, TpmsSchemeHash.wellFormed _⟩ (by decide)
  case null => exact iff_of_true ⟨rfl, trivial⟩ (by decide)

theorem publicParms_of_parseAsym {σ : Type} {select : List Char → Option σ}
    {allowed : TpmAlgId → Bool} {unique : TpmuPublicId}
    {parms : σ → TpmAlgId → TpmuAsymScheme → TpmuPublicParms} {suffix : List Char}
    {t : TpmPublicTemplate} (ok : parseAsym select allowed unique parms suffix = .ok t) :
    t.symmetric = .null ∧ ∃ selector scheme details,
      (matchesTag details scheme ∧ WellFormed details) ∧
        t.publicParms = parms selector scheme details := by
  obtain ⟨⟨selectorStr, rest⟩, -, ok⟩ := bind_eq_ok.mp ok
  obtain ⟨⟨nameAlgStr, schemeStr⟩, -, ok⟩ := bind_eq_ok.mp ok
  obtain ⟨selector, -, ok⟩ := bind_eq_ok.mp ok
  obtain ⟨nameAlg, -, ok⟩ := bind_eq_ok.mp ok
  obtain ⟨⟨scheme, usage⟩, -, ok⟩ := bind_eq_ok.mp ok
  dsimp only at ok
  split at ok
  · obtain ⟨⟨scheme', details⟩, filled, ok⟩ := bind_eq_ok.mp ok
    obtain ⟨template, sets, ok⟩ := bind_eq_ok.mp ok
    obtain ⟨publicParms, symmetric⟩ := publicParms_of_withPublic sets
    cases ok
    exact ⟨symmetric, selector, scheme', details, asymScheme_wellFormed filled, publicParms⟩
  · cases ok

theorem publicParms_of_parseKeyedhash {hashAlg : List Char} {scheme : TpmAlgId}
    {t : TpmPublicTemplate} (ok : parseKeyedhash hashAlg scheme = .ok t) :
    t.symmetric = .null ∧ ∃ parms : TpmsKeyedhashParms,
      (WellFormed parms ↔ scheme ≠ .xor) ∧ t.publicParms = .keyedHash parms := by
  obtain ⟨nameAlg, -, ok⟩ := bind_eq_ok.mp ok
  obtain ⟨details, filled, ok⟩ := bind_eq_ok.mp ok
  obtain ⟨template, sets, ok⟩ := bind_eq_ok.mp ok
  obtain ⟨publicParms, symmetric⟩ := publicParms_of_withPublic sets
  cases ok
  exact ⟨symmetric, _, keyedhashDetails_wellFormed_iff filled, publicParms⟩

/-- The parser that an accepted name is left to. -/
theorem fromStr_cases {s : List Char} {t : TpmPublicTemplate} (accepted : fromStr s = .ok t) :
    (∃ rest, s = "rsa-".toList ++ rest ∧ parseRsa rest = .ok t) ∨
    (∃ rest, s = "ecc-".toList ++ rest ∧ parseEcc rest = .ok t) ∨
    (∃ rest, s = "keyedhash-null:".toList ++ rest ∧ parseKeyedhash rest .null = .ok t) ∨
    (∃ rest, s = "keyedhash-xor:".toList ++ rest ∧ parseKeyedhash rest .xor = .ok t) ∨
    ∃ rest, s = "keyedhash-hmac:".toList ++ rest ∧ parseKeyedhash rest .hmac = .ok t := by
  have stripped {p rest : List Char} (found : p.isPrefixOf? s = some rest) : s = p ++ rest :=
    (List.append_eq_of_isPrefixOf?_eq_some found).symm
  rw [fromStr] at accepted
  split at accepted
  · exact .inl ⟨_, stripped ‹_›, accepted⟩
  split at accepted
  · exact .inr (.inl ⟨_, stripped ‹_›, accepted⟩)
  split at accepted
  · exact .inr (.inr (.inl ⟨_, stripped ‹_›, accepted⟩))
  split at accepted
  · exact .inr (.inr (.inr (.inl ⟨_, stripped ‹_›, accepted⟩)))
  split at accepted
  · exact .inr (.inr (.inr (.inr ⟨_, stripped ‹_›, accepted⟩)))
  · cases accepted

theorem not_prefix_of_apart {p q rest : List Char} (apart : ¬ (p <+: q ∨ q <+: p)) :
    ¬ q <+: p ++ rest :=
  fun other => apart (List.prefix_or_prefix_of_prefix (List.prefix_append p rest) other)

theorem symmetric_of_fromStr {s : List Char} {t : TpmPublicTemplate}
    (accepted : fromStr s = .ok t) : t.symmetric = .null := by
  rcases fromStr_cases accepted with
    ⟨rest, -, ok⟩ | ⟨rest, -, ok⟩ | ⟨rest, -, ok⟩ | ⟨rest, -, ok⟩ | ⟨rest, -, ok⟩
  · exact (publicParms_of_parseAsym ok).1
  · exact (publicParms_of_parseAsym ok).1
  · exact (publicParms_of_parseKeyedhash ok).1
  · exact (publicParms_of_parseKeyedhash ok).1
  · exact (publicParms_of_parseKeyedhash ok).1

/-- The parameters of an accepted template are well formed, whatever symmetric definition is set,
but for the exclusive-or scheme. -/
theorem wellFormed_withSymmetric_iff {s : List Char} {t : TpmPublicTemplate}
    (accepted : fromStr s = .ok t) {symmetric : TpmtSymDefObject} (wf : WellFormed symmetric) :
    WellFormed (t.publicParms.withSymmetric symmetric) ↔ ¬ "keyedhash-xor:".toList <+: s := by
  rcases fromStr_cases accepted with
    ⟨rest, rfl, ok⟩ | ⟨rest, rfl, ok⟩ | ⟨rest, rfl, ok⟩ | ⟨rest, rfl, ok⟩ | ⟨rest, rfl, ok⟩
  · obtain ⟨-, keyBits, scheme, details, matched, parms⟩ := publicParms_of_parseAsym ok
    rw [parms]
    exact iff_of_true ⟨wf, matched, trivial, trivial, trivial⟩ (not_prefix_of_apart (by decide))
  · obtain ⟨-, curve, scheme, details, matched, parms⟩ := publicParms_of_parseAsym ok
    rw [parms]
    exact iff_of_true ⟨wf, matched, trivial, ⟨rfl, trivial⟩, trivial⟩
      (not_prefix_of_apart (by decide))
  · obtain ⟨-, parms, wellFormed, shape⟩ := publicParms_of_parseKeyedhash ok
    rw [shape]
    exact iff_of_true (wellFormed.mpr (by decide)) (not_prefix_of_apart (by decide))
  · obtain ⟨-, parms, wellFormed, shape⟩ := publicParms_of_parseKeyedhash ok
    rw [shape]
    exact iff_of_false (fun wf => wellFormed.mp wf rfl) (not_not_intro (List.prefix_append ..))
  · obtain ⟨-, parms, wellFormed, shape⟩ := publicParms_of_parseKeyedhash ok
    rw [shape]
    exact iff_of_true (wellFormed.mpr (by decide)) (not_prefix_of_apart (by decide))

end TpmPublicTemplate

/-- AES-128-CFB, which wraps the sensitive area of storage objects. -/
def defaultSymmetric : TpmtSymDefObject := ⟨.aes, .aes (.new 128), .aes .cfb⟩

/-- The public area of a template with attributes and a policy. Restricted storage parents get a
symmetric definition; other objects keep a null one. -/
def resolvePublicTemplate (template : TpmPublicTemplate) (attributes : TpmaObject)
    (authPolicy : Tpm2bDigest) : Except TpmCryptoError TpmtPublic :=
  let symmetric := if template.isStorageParent then defaultSymmetric else .null
  let templateWithAttrs := ((template.withObjectAttributes attributes).withAuthPolicy
    authPolicy).withSymmetric symmetric
  TpmtPublic.tryFrom templateWithAttrs

namespace TpmtPublic

/-- A public area that is converted is written wherever it fits, a buffer of the largest command
included, and what is written reads back. -/
def Usable (converted : Except TpmCryptoError TpmtPublic) : Prop :=
  ∃ pub, converted = .ok pub ∧ len pub ≤ tpmMaxCommandSize ∧
    RoundTrips (ε := TpmError) marshal unmarshal len pub

/-- The payloads of a template are those of its object type, whatever symmetric definition is
set. -/
theorem matchesTag_of_publicObjectType {publicId : TpmuPublicId} {publicParms : TpmuPublicParms}
    {objectType : TpmAlgId} (ok : publicObjectType publicId publicParms = .ok objectType)
    (symmetric : TpmtSymDefObject) :
    matchesTag (publicParms.withSymmetric symmetric) objectType ∧
      matchesTag publicId objectType := by
  cases publicId <;> cases publicParms <;> cases ok <;> exact ⟨rfl, rfl⟩

theorem usable_tryFrom_iff {t : TpmPublicTemplate} :
    Usable (tryFrom t) ↔ WellFormed (t.publicParms.withSymmetric t.symmetric) := by
  constructor
  · rintro ⟨pub, converted, -, trips⟩
    obtain rfl := Except.ok.inj converted
    obtain ⟨-, parameters, -⟩ := (codec (α := TpmtPublic)).roundTrips_iff.mp trips
    exact parameters
  · intro parameters
    have matched := matchesTag_of_publicObjectType t.matched t.symmetric
    exact ⟨_, rfl, len_le_size _, (codec (α := TpmtPublic)).roundTrips
      ⟨Bool.and_eq_true_iff.mpr matched, parameters, (TpmuPublicId.plain _).2⟩⟩

/-- Every accepted template but those with the exclusive-or scheme is usable, directly and with any
attributes and policy. -/
theorem usable_iff {s : List Char} {t : TpmPublicTemplate}
    (accepted : TpmPublicTemplate.fromStr s = .ok t) :
    (Usable (tryFrom t) ∧
      ∀ attributes authPolicy, Usable (resolvePublicTemplate t attributes authPolicy)) ↔
      ¬ "keyedhash-xor:".toList <+: s := by
  have null : WellFormed TpmtSymDef.null := rfl
  have default : WellFormed defaultSymmetric := ⟨rfl, rfl⟩
  constructor
  · rintro ⟨direct, -⟩
    rw [usable_tryFrom_iff, TpmPublicTemplate.symmetric_of_fromStr accepted] at direct
    exact (TpmPublicTemplate.wellFormed_withSymmetric_iff accepted null).mp direct
  · intro other
    constructor
    · rw [usable_tryFrom_iff, TpmPublicTemplate.symmetric_of_fromStr accepted]
      exact (TpmPublicTemplate.wellFormed_withSymmetric_iff accepted null).mpr other
    · intro attributes authPolicy
      refine usable_tryFrom_iff.mpr
        ((TpmPublicTemplate.wellFormed_withSymmetric_iff accepted ?_).mpr other)
      change WellFormed (ite _ _ _)
      split
      · exact default
      · exact null

theorem usable_iff_ecdsa :
    ∃ t, TpmPublicTemplate.fromStr "ecc-nist-p256:sha256:ecdsa".toList = .ok t ∧
      Usable (tryFrom t) ∧
      ∀ attributes authPolicy, Usable (resolvePublicTemplate t attributes authPolicy) :=
  ⟨_, rfl, (usable_iff (s := "ecc-nist-p256:sha256:ecdsa".toList) rfl).mpr (by decide)⟩

/-- The public area of `keyedhash-xor:sha256` cannot be written. -/
theorem not_usable :
    ¬ ∀ (s : List Char) (t : TpmPublicTemplate), TpmPublicTemplate.fromStr s = .ok t →
      Usable (tryFrom t) ∧
      ∀ attributes authPolicy, Usable (resolvePublicTemplate t attributes authPolicy) := by
  intro claim
  obtain ⟨t, accepted⟩ :
      ∃ t, TpmPublicTemplate.fromStr "keyedhash-xor:sha256".toList = .ok t := ⟨_, rfl⟩
  have usable := usable_tryFrom_iff.mp (claim _ _ accepted).1
  rw [TpmPublicTemplate.symmetric_of_fromStr accepted] at usable
  exact (TpmPublicTemplate.wellFormed_withSymmetric_iff accepted rfl).mp usable (by decide)

end TpmtPublic
end Tpm2
