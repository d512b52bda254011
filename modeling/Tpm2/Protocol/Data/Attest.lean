import Tpm2.Protocol.Data.Public

/-! Signatures, NV public areas and attestations. -/

namespace Tpm2

open ByteCodec

structure TpmsSignatureRsa where
  hash : TpmAlgId
  sig : Tpm2bPublicKeyRsa
  deriving DecidableEq

instance : TpmStruct TpmsSignatureRsa (TpmAlgId × Tpm2bPublicKeyRsa × Unit) where
  toFields v := (v.hash, v.sig, ())
  ofFields f := ⟨f.1, f.2.1⟩

instance : TpmWire TpmsSignatureRsa := TpmStruct.wire
instance : TpmViewed TpmsSignatureRsa := TpmStruct.viewed

structure TpmsSignatureEcc where
  hash : TpmAlgId
  signatureR : Tpm2bEccParameter
  signatureS : Tpm2bEccParameter
  deriving DecidableEq

instance : TpmStruct TpmsSignatureEcc (TpmAlgId × Tpm2bEccParameter × Tpm2bEccParameter ×
    Unit) where
  toFields v := (v.hash, v.signatureR, v.signatureS, ())
  ofFields f := ⟨f.1, f.2.1, f.2.2.1⟩

instance : TpmWire TpmsSignatureEcc := TpmStruct.wire
instance : TpmViewed TpmsSignatureEcc := TpmStruct.viewed

inductive TpmuSignature
  | rsassa (v : TpmsSignatureRsa)
  | rsapss (v : TpmsSignatureRsa)
  | ecdsa (v : TpmsSignatureEcc)
  | ecdaa (v : TpmsSignatureEcc)
  | sm2 (v : TpmsSignatureEcc)
  | ecschnorr (v : TpmsSignatureEcc)
  | hmac (v : TpmtHa)
  | null
  deriving DecidableEq

namespace TpmuSignature

instance : TpmSized TpmuSignature where
  SIZE := tpmMaxCommandSize
  len
    | .rsassa v => len v
    | .rsapss v => len v
    | .ecdsa v => len v
    | .ecdaa v => len v
    | .sm2 v => len v
    | .ecschnorr v => len v
    | .hmac v => len v
    | .null => 0

instance : TpmMarshal TpmuSignature where
  marshal
    | .rsassa v => marshal v
    | .rsapss v => marshal v
    | .ecdsa v => marshal v
    | .ecdaa v => marshal v
    | .sm2 v => marshal v
    | .ecschnorr v => marshal v
    | .hmac v => marshal v
    | .null => fun writer => .ok writer

instance : TpmuView TpmuSignature TpmAlgId (TpmsSignatureRsa ⊕ TpmsSignatureRsa ⊕
    TpmsSignatureEcc ⊕ TpmsSignatureEcc ⊕ TpmsSignatureEcc ⊕ TpmsSignatureEcc ⊕ TpmtHa ⊕ Unit ⊕
    Empty) where
  tags := [[.rsassa], [.rsapss], [.ecdsa], [.ecdaa], [.sm2], [.ecschnorr], [.hmac], [.null]]
  toArms
    | .rsassa v => .inl v
    | .rsapss v => .inr (.inl v)
    | .ecdsa v => .inr (.inr (.inl v))
    | .ecdaa v => .inr (.inr (.inr (.inl v)))
    | .sm2 v => .inr (.inr (.inr (.inr (.inl v))))
    | .ecschnorr v => .inr (.inr (.inr (.inr (.inr (.inl v)))))
    | .hmac v => .inr (.inr (.inr (.inr (.inr (.inr (.inl v))))))
    | .null => .inr (.inr (.inr (.inr (.inr (.inr (.inr (.inl ())))))))
  ofArms
    | .inl v => .rsassa v
    | .inr (.inl v) => .rsapss v
    | .inr (.inr (.inl v)) => .ecdsa v
    | .inr (.inr (.inr (.inl v))) => .ecdaa v
    | .inr (.inr (.inr (.inr (.inl v)))) => .sm2 v
    | .inr (.inr (.inr (.inr (.inr (.inl v))))) => .ecschnorr v
    | .inr (.inr (.inr (.inr (.inr (.inr (.inl v)))))) => .hmac v
    | .inr (.inr (.inr (.inr (.inr (.inr (.inr (.inl _))))))) => .null
  ofArms_toArms u := by cases u <;> rfl
  toArms_ofArms a := by
    rcases a with _ | _ | _ | _ | _ | _ | _ | _ | _ <;> first | rfl | contradiction
  nodup := by decide

instance : TpmuView.LawfulUnion TpmuSignature where
  len_eq u := by cases u <;> rfl
  marshal_eq u := by cases u <;> rfl
  maxLen_le := by decide

instance : TpmUnion TpmuSignature TpmAlgId := .infer
instance : TpmUnionView TpmuSignature TpmAlgId := .infer

end TpmuSignature

structure TpmtSignature where
  sigAlg : TpmAlgId
  signature : TpmuSignature
  deriving DecidableEq

instance : TpmStructTagged TpmtSignature TpmAlgId TpmuSignature where
  toPair v := (v.sigAlg, v.signature)
  ofPair p := ⟨p.1, p.2⟩

instance : TpmWire TpmtSignature := TpmStructTagged.wire
instance : TpmViewed TpmtSignature := TpmStructTagged.viewed

structure TpmsNvPublic where
  nvIndex : TpmHandle
  nameAlg : TpmAlgId
  attributes : TpmaNv
  authPolicy : Tpm2bDigest
  dataSize : TpmUint16
  deriving DecidableEq

instance : TpmStruct TpmsNvPublic (TpmHandle × TpmAlgId × TpmaNv × Tpm2bDigest × TpmUint16 ×
    Unit) where
  toFields v := (v.nvIndex, v.nameAlg, v.attributes, v.authPolicy, v.dataSize, ())
  ofFields f := ⟨f.1, f.2.1, f.2.2.1, f.2.2.2.1, f.2.2.2.2.1⟩

instance : TpmWire TpmsNvPublic := TpmStruct.wire
instance : TpmViewed TpmsNvPublic := TpmStruct.viewed

structure TpmsNvPublicExpAttr where
  nvIndex : TpmiRhNvExpIndex
  nameAlg : TpmAlgId
  attributes : TpmaNvExp
  authPolicy : Tpm2bDigest
  dataSize : TpmUint16
  deriving DecidableEq

instance : TpmStruct TpmsNvPublicExpAttr (TpmiRhNvExpIndex × TpmAlgId × TpmaNvExp × Tpm2bDigest ×
    TpmUint16 × Unit) where
  toFields v := (v.nvIndex, v.nameAlg, v.attributes, v.authPolicy, v.dataSize, ())
  ofFields f := ⟨f.1, f.2.1, f.2.2.1, f.2.2.2.1, f.2.2.2.2.1⟩

instance : TpmWire TpmsNvPublicExpAttr := TpmStruct.wire
instance : TpmViewed TpmsNvPublicExpAttr := TpmStruct.viewed

inductive TpmuNvPublic2
  | nvIndex (v : TpmsNvPublic)
  | externalNv (v : TpmsNvPublicExpAttr)
  | permanentNv (v : TpmsNvPublic)
  deriving DecidableEq

namespace TpmuNvPublic2

instance : TpmSized TpmuNvPublic2 where
  SIZE := tpmMaxCommandSize
  len
    | .nvIndex v => len v
    | .externalNv v => len v
    | .permanentNv v => len v

instance : TpmMarshal TpmuNvPublic2 where
  marshal
    | .nvIndex v => marshal v
    | .externalNv v => marshal v
    | .permanentNv v => marshal v

instance : TpmuView TpmuNvPublic2 TpmHt (TpmsNvPublic ⊕ TpmsNvPublicExpAttr ⊕ TpmsNvPublic ⊕
    Empty) where
  tags := [[.nvIndex], [.externalNv], [.permanentNv]]
  toArms
    | .nvIndex v => .inl v
    | .externalNv v => .inr (.inl v)
    | .permanentNv v => .inr (.inr (.inl v))
  ofArms
    | .inl v => .nvIndex v
    | .inr (.inl v) => .externalNv v
    | .inr (.inr (.inl v)) => .permanentNv v
  ofArms_toArms u := by cases u <;> rfl
  toArms_ofArms a := by rcases a with _ | _ | _ | _ <;> first | rfl | contradiction
  nodup := by decide

instance : TpmuView.LawfulUnion TpmuNvPublic2 where
  len_eq u := by cases u <;> rfl
  marshal_eq u := by cases u <;> rfl
  maxLen_le := by decide

instance : TpmUnion TpmuNvPublic2 TpmHt := .infer
instance : TpmUnionView TpmuNvPublic2 TpmHt := .infer

end TpmuNvPublic2

structure TpmtNvPublic2 where
  handleType : TpmHt
  publicArea : TpmuNvPublic2
  deriving DecidableEq

instance : TpmStructTagged TpmtNvPublic2 TpmHt TpmuNvPublic2 where
  toPair v := (v.handleType, v.publicArea)
  ofPair p := ⟨p.1, p.2⟩

instance : TpmWire TpmtNvPublic2 := TpmStructTagged.wire
instance : TpmViewed TpmtNvPublic2 := TpmStructTagged.viewed

structure TpmsClockInfo where
  clock : TpmUint64
  resetCount : TpmUint32
  restartCount : TpmUint32
  safe : TpmiYesNo
  deriving DecidableEq

instance : TpmStruct TpmsClockInfo (TpmUint64 × TpmUint32 × TpmUint32 × TpmiYesNo × Unit) where
  toFields v := (v.clock, v.resetCount, v.restartCount, v.safe, ())
  ofFields f := ⟨f.1, f.2.1, f.2.2.1, f.2.2.2.1⟩

instance : TpmWire TpmsClockInfo := TpmStruct.wire
instance : TpmViewed TpmsClockInfo := TpmStruct.viewed

structure TpmsTimeInfo where
  time : TpmUint64
  clockInfo : TpmsClockInfo
  deriving DecidableEq

instance : TpmStruct TpmsTimeInfo (TpmUint64 × TpmsClockInfo × Unit) where
  toFields v := (v.time, v.clockInfo, ())
  ofFields f := ⟨f.1, f.2.1⟩

instance : TpmWire TpmsTimeInfo := TpmStruct.wire
instance : TpmViewed TpmsTimeInfo := TpmStruct.viewed

structure TpmsTimeAttestInfo where
  time : TpmsTimeInfo
  firmwareVersion : TpmUint64
  deriving DecidableEq

instance : TpmStruct TpmsTimeAttestInfo (TpmsTimeInfo × TpmUint64 × Unit) where
  toFields v := (v.time, v.firmwareVersion, ())
  ofFields f := ⟨f.1, f.2.1⟩

instance : TpmWire TpmsTimeAttestInfo := TpmStruct.wire
instance : TpmViewed TpmsTimeAttestInfo := TpmStruct.viewed

structure TpmsCertifyInfo where
  name : Tpm2bName
  qualifiedName : Tpm2bName
  deriving DecidableEq

instance : TpmStruct TpmsCertifyInfo (Tpm2bName × Tpm2bName × Unit) where
  toFields v := (v.name, v.qualifiedName, ())
  ofFields f := ⟨f.1, f.2.1⟩

instance : TpmWire TpmsCertifyInfo := TpmStruct.wire
instance : TpmViewed TpmsCertifyInfo := TpmStruct.viewed

structure TpmsQuoteInfo where
  pcrSelect : TpmlPcrSelection
  pcrDigest : Tpm2bDigest
  deriving DecidableEq

instance : TpmStruct TpmsQuoteInfo (TpmlPcrSelection × Tpm2bDigest × Unit) where
  toFields v := (v.pcrSelect, v.pcrDigest, ())
  ofFields f := ⟨f.1, f.2.1⟩

instance : TpmWire TpmsQuoteInfo := TpmStruct.wire
instance : TpmViewed TpmsQuoteInfo := TpmStruct.viewed

structure TpmsCommandAuditInfo where
  auditCounter : TpmUint64
  digestAlg : TpmAlgId
  auditDigest : Tpm2bDigest
  commandDigest : Tpm2bDigest
  deriving DecidableEq

instance : TpmStruct TpmsCommandAuditInfo (TpmUint64 × TpmAlgId × Tpm2bDigest × Tpm2bDigest ×
    Unit) where
  toFields v := (v.auditCounter, v.digestAlg, v.auditDigest, v.commandDigest, ())
  ofFields f := ⟨f.1, f.2.1, f.2.2.1, f.2.2.2.1⟩

instance : TpmWire TpmsCommandAuditInfo := TpmStruct.wire
instance : TpmViewed TpmsCommandAuditInfo := TpmStruct.viewed

structure TpmsSessionAuditInfo where
  exclusiveSession : TpmiYesNo
  sessionDigest : Tpm2bDigest
  deriving DecidableEq

instance : TpmStruct TpmsSessionAuditInfo (TpmiYesNo × Tpm2bDigest × Unit) where
  toFields v := (v.exclusiveSession, v.sessionDigest, ())
  ofFields f := ⟨f.1, f.2.1⟩

instance : TpmWire TpmsSessionAuditInfo := TpmStruct.wire
instance : TpmViewed TpmsSessionAuditInfo := TpmStruct.viewed

structure TpmsCreationInfo where
  objectName : Tpm2bName
  creationHash : Tpm2bDigest
  deriving DecidableEq

instance : TpmStruct TpmsCreationInfo (Tpm2bName × Tpm2bDigest × Unit) where
  toFields v := (v.objectName, v.creationHash, ())
  ofFields f := ⟨f.1, f.2.1⟩

instance : TpmWire TpmsCreationInfo := TpmStruct.wire
instance : TpmViewed TpmsCreationInfo := TpmStruct.viewed

structure TpmsNvCertifyInfo where
  indexName : Tpm2bName
  offset : TpmUint16
  nvContents : Tpm2bMaxNvBuffer
  deriving DecidableEq

instance : TpmStruct TpmsNvCertifyInfo (Tpm2bName × TpmUint16 × Tpm2bMaxNvBuffer × Unit) where
  toFields v := (v.indexName, v.offset, v.nvContents, ())
  ofFields f := ⟨f.1, f.2.1, f.2.2.1⟩

instance : TpmWire TpmsNvCertifyInfo := TpmStruct.wire
instance : TpmViewed TpmsNvCertifyInfo := TpmStruct.viewed

structure TpmsNvDigestCertifyInfo where
  indexName : Tpm2bName
  nvDigest : Tpm2bDigest
  deriving DecidableEq

instance : TpmStruct TpmsNvDigestCertifyInfo (Tpm2bName × Tpm2bDigest × Unit) where
  toFields v := (v.indexName, v.nvDigest, ())
  ofFields f := ⟨f.1, f.2.1⟩

instance : TpmWire TpmsNvDigestCertifyInfo := TpmStruct.wire
instance : TpmViewed TpmsNvDigestCertifyInfo := TpmStruct.viewed

inductive TpmuAttest
  | certify (v : TpmsCertifyInfo)
  | creation (v : TpmsCreationInfo)
  | quote (v : TpmsQuoteInfo)
  | commandAudit (v : TpmsCommandAuditInfo)
  | sessionAudit (v : TpmsSessionAuditInfo)
  | time (v : TpmsTimeAttestInfo)
  | nv (v : TpmsNvCertifyInfo)
  | nvDigest (v : TpmsNvDigestCertifyInfo)
  deriving DecidableEq

namespace TpmuAttest

instance : TpmSized TpmuAttest where
  SIZE := tpmMaxCommandSize
  len
    | .certify v => len v
    | .creation v => len v
    | .quote v => len v
    | .commandAudit v => len v
    | .sessionAudit v => len v
    | .time v => len v
    | .nv v => len v
    | .nvDigest v => len v

instance : TpmMarshal TpmuAttest where
  marshal
    | .certify v => marshal v
    | .creation v => marshal v
    | .quote v => marshal v
    | .commandAudit v => marshal v
    | .sessionAudit v => marshal v
    | .time v => marshal v
    | .nv v => marshal v
    | .nvDigest v => marshal v

instance : TpmuView TpmuAttest TpmSt (TpmsCertifyInfo ⊕ TpmsCreationInfo ⊕ TpmsQuoteInfo ⊕
    TpmsCommandAuditInfo ⊕ TpmsSessionAuditInfo ⊕ TpmsTimeAttestInfo ⊕ TpmsNvCertifyInfo ⊕
    TpmsNvDigestCertifyInfo ⊕ Empty) where
  tags := [[.attestCertify], [.attestCreation], [.attestQuote], [.attestCommandAudit],
    [.attestSessionAudit], [.attestTime], [.attestNv], [.attestNvDigest]]
  toArms
    | .certify v => .inl v
    | .creation v => .inr (.inl v)
    | .quote v => .inr (.inr (.inl v))
    | .commandAudit v => .inr (.inr (.inr (.inl v)))
    | .sessionAudit v => .inr (.inr (.inr (.inr (.inl v))))
    | .time v => .inr (.inr (.inr (.inr (.inr (.inl v)))))
    | .nv v => .inr (.inr (.inr (.inr (.inr (.inr (.inl v))))))
    | .nvDigest v => .inr (.inr (.inr (.inr (.inr (.inr (.inr (.inl v)))))))
  ofArms
    | .inl v => .certify v
    | .inr (.inl v) => .creation v
    | .inr (.inr (.inl v)) => .quote v
    | .inr (.inr (.inr (.inl v))) => .commandAudit v
    | .inr (.inr (.inr (.inr (.inl v)))) => .sessionAudit v
    | .inr (.inr (.inr (.inr (.inr (.inl v))))) => .time v
    | .inr (.inr (.inr (.inr (.inr (.inr (.inl v)))))) => .nv v
    | .inr (.inr (.inr (.inr (.inr (.inr (.inr (.inl v))))))) => .nvDigest v
  ofArms_toArms u := by cases u <;> rfl
  toArms_ofArms a := by
    rcases a with _ | _ | _ | _ | _ | _ | _ | _ | _ <;> first | rfl | contradiction
  nodup := by decide

instance : TpmuView.LawfulUnion TpmuAttest where
  len_eq u := by cases u <;> rfl
  marshal_eq u := by cases u <;> rfl
  maxLen_le := by decide

instance : TpmUnion TpmuAttest TpmSt := .infer
instance : TpmUnionView TpmuAttest TpmSt := .infer

end TpmuAttest

/-- An attestation: the magic word, a tag and what it attests to. Marshalling does not compare
them. -/
structure TpmsAttest where
  attestType : TpmSt
  qualifiedSigner : Tpm2bName
  extraData : Tpm2bData
  clockInfo : TpmsClockInfo
  firmwareVersion : TpmUint64
  attested : TpmuAttest
  deriving DecidableEq

namespace TpmsAttest

instance : TpmSized TpmsAttest where
  SIZE := 4 + SIZE TpmSt + SIZE Tpm2bName + SIZE Tpm2bData + SIZE TpmsClockInfo + 8 +
    SIZE TpmuAttest
  len v := 4 + len v.attestType + len v.qualifiedSigner + len v.extraData + len v.clockInfo + 8 +
    len v.attested

instance : TpmMarshal TpmsAttest where
  marshal v writer := do
    let writer ← marshal (TpmInt.new tpmGeneratedValue : TpmUint32) writer
    let writer ← marshal v.attestType writer
    let writer ← marshal v.qualifiedSigner writer
    let writer ← marshal v.extraData writer
    let writer ← marshal v.clockInfo writer
    let writer ← marshal v.firmwareVersion writer
    marshal v.attested writer

instance : TpmUnmarshal TpmsAttest where
  unmarshal buffer := do
    let (magic, buffer) ← (unmarshal buffer : TpmResult (TpmUint32 × Bytes))
    if magic.value ≠ tpmGeneratedValue then
      throw (.invalidMagicNumber 0 (TpmIntBytes.asU64 magic.value))
    let (attestType, buffer) ← unmarshal buffer
    let (qualifiedSigner, buffer) ← unmarshal buffer
    let (extraData, buffer) ← unmarshal buffer
    let (clockInfo, buffer) ← unmarshal buffer
    let (firmwareVersion, buffer) ← unmarshal buffer
    let (attested, buffer) ← unmarshalTagged attestType buffer
    return (⟨attestType, qualifiedSigner, extraData, clockInfo, firmwareVersion, attested⟩, buffer)

structure View where
  attestType : TpmSt
  qualifiedSigner : TpmField.View Tpm2bName
  extraData : TpmField.View Tpm2bData
  clockInfo : TpmField.View TpmsClockInfo
  firmwareVersion : UInt64
  attested : TpmTaggedField.View TpmuAttest

instance : TpmField TpmsAttest where
  View := View
  castPrefixField buf := do
    let (magic, buf) ← (castPrefixField (α := TpmUint32) buf : TpmResult (TpmUint32 × Bytes))
    if magic.value ≠ tpmGeneratedValue then
      throw (.invalidMagicNumber 0 (TpmIntBytes.asU64 magic.value))
    let (attestType, buf) ← castPrefixField (α := TpmSt) buf
    let (qualifiedSigner, buf) ← castPrefixField (α := Tpm2bName) buf
    let (extraData, buf) ← castPrefixField (α := Tpm2bData) buf
    let (clockInfo, buf) ← castPrefixField (α := TpmsClockInfo) buf
    let (firmwareVersion, buf) ← (castPrefixField (α := TpmUint64) buf :
      TpmResult (TpmUint64 × Bytes))
    let (attested, buf) ← castTaggedPrefixField (U := TpmuAttest) attestType buf
    return (⟨attestType, qualifiedSigner, extraData, clockInfo, firmwareVersion.value, attested⟩,
      buf)

instance : TpmSpec TpmsAttest where
  Writable v := Writable v.attested
  WellFormed v := matchesTag v.attested v.attestType ∧ WellFormed v.attested
  maxLen := 4 + maxLen TpmSt + maxLen Tpm2bName + maxLen Tpm2bData + maxLen TpmsClockInfo + 8 +
    maxLen TpmuAttest

/-- Reads the magic word. -/
def readMagic (buffer : Bytes) : TpmResult (Unit × Bytes) := do
  let (magic, buffer) ← (unmarshal buffer : TpmResult (TpmUint32 × Bytes))
  if magic.value ≠ tpmGeneratedValue then
    throw (.invalidMagicNumber 0 (TpmIntBytes.asU64 magic.value))
  return ((), buffer)

theorem readMagic_eq_ok {b r : Bytes} : readMagic b = .ok ((), r) ↔
    b = (TpmInt.new tpmGeneratedValue : TpmUint32).bytes ++ r := by
  simp only [readMagic, bind_eq_ok, Prod.exists, TpmInt.unmarshal_eq_castPrefix,
    TpmInt.castPrefix_eq_ok]
  constructor
  · rintro ⟨magic, m, rfl, ok⟩
    split at ok
    · cases ok
    next same =>
      cases ok
      rw [← Decidable.not_not.mp same, TpmInt.new_value]
  · rintro rfl
    exact ⟨_, r, rfl, by rw [if_neg (by simp)]; rfl⟩

theorem magic_lawful :
    LawfulCodec (fun _ => marshal (TpmInt.new tpmGeneratedValue : TpmUint32)) readMagic
      (fun _ => 4) (fun _ => True) fun _ => True :=
  .of_wire _ (fun _ => TpmWriter.writeBytes_emits _) readMagic_eq_ok fun _ => TpmInt.length_bytes _

/-- The fields in wire order, after the magic word. -/
def fields (v : TpmsAttest) : Unit × TpmSt × Tpm2bName × Tpm2bData × TpmsClockInfo × TpmUint64 ×
    TpmuAttest :=
  ((), v.attestType, v.qualifiedSigner, v.extraData, v.clockInfo, v.firmwareVersion, v.attested)

theorem unmarshal_eq_ok {b r : Bytes} {v : TpmsAttest} :
    unmarshal b = .ok (v, r) ↔
      seqRead readMagic (fun _ => seqRead unmarshal fun attestType => seqRead unmarshal fun _ =>
        seqRead unmarshal fun _ => seqRead unmarshal fun _ => seqRead unmarshal fun _ =>
          unmarshalTagged attestType) b = .ok (v.fields, r) := by
  simp only [seqRead_eq_ok]
  constructor
  · intro ok
    obtain ⟨⟨magic, m⟩, head, ok⟩ := bind_eq_ok.mp ok
    dsimp only at ok
    split at ok
    · cases ok
    next same =>
      simp only [bind_eq_ok, Prod.exists] at ok
      obtain ⟨_, m₁, h₁, _, m₂, h₂, _, m₃, h₃, _, m₄, h₄, _, m₅, h₅, _, m₆, h₆, ok⟩ := ok
      cases ok
      have marked : readMagic b = .ok ((), m) := by
        refine bind_eq_ok.mpr ⟨(magic, m), head, ?_⟩
        dsimp only
        rw [if_neg same]
        rfl
      exact ⟨m, marked, m₁, h₁, m₂, h₂, m₃, h₃, m₄, h₄, m₅, h₅, h₆⟩
  · rintro ⟨m, marked, m₁, h₁, m₂, h₂, m₃, h₃, m₄, h₄, m₅, h₅, h₆⟩
    obtain ⟨⟨magic, m'⟩, head, checked⟩ := bind_eq_ok.mp marked
    dsimp only at checked
    split at checked
    · cases checked
    next same =>
      cases checked
      refine bind_eq_ok.mpr ⟨(magic, m), head, ?_⟩
      simp only [same, if_false, bind_eq_ok, Prod.exists]
      exact ⟨v.attestType, m₁, h₁, v.qualifiedSigner, m₂, h₂, v.extraData, m₃, h₃, v.clockInfo, m₄,
        h₄, v.firmwareVersion, m₅, h₅, v.attested, r, h₆, rfl⟩

theorem clockInfo_plain (v : TpmsClockInfo) : Writable v ∧ WellFormed v :=
  ⟨⟨trivial, trivial, trivial, trivial, trivial⟩, trivial, trivial, trivial, trivial, trivial⟩

instance : LawfulWire TpmsAttest where
  codec := by
    have law := (magic_lawful.seq fun _ => (codec (α := TpmSt)).seq fun attestType =>
      (codec (α := Tpm2bName)).seq fun _ => (codec (α := Tpm2bData)).seq fun _ =>
        (codec (α := TpmsClockInfo)).seq fun _ => (codec (α := TpmUint64)).seq fun _ =>
          codec_tagged (U := TpmuAttest) attestType).iso (f := fields)
            fun _ _ _ => unmarshal_eq_ok
    refine (law.congr_prop (fun v => ?_) fun v => ?_).congr_write (fun _ => rfl) fun v => ?_
    · exact ⟨fun w => ⟨trivial, trivial, trivial, trivial, (clockInfo_plain _).1, trivial, w⟩,
        fun w => w.2.2.2.2.2.2⟩
    · exact ⟨fun wf => ⟨trivial, trivial, trivial, trivial, (clockInfo_plain _).2, trivial, wf⟩,
        fun wf => wf.2.2.2.2.2.2⟩
    · simp only [len, fields, Nat.add_assoc]
  len_le v := by
    have := len_le v.attestType
    have := len_le v.qualifiedSigner
    have := len_le v.extraData
    have := len_le v.clockInfo
    have := len_tagged_le v.attested
    simp only [len, maxLen] at *
    omega
  maxLen_le := by decide

instance : LawfulView TpmsAttest where
  sameExtent b := by
    change SameRest (TpmInt.castPrefix b >>= _)
      ((unmarshal b : TpmResult (TpmUint32 × Bytes)) >>= _)
    rw [TpmInt.unmarshal_eq_castPrefix]
    refine .bind_same fun magic m => ?_
    dsimp only
    split
    · exact .error _ _
    · refine SameRest.bind_same (y := (unmarshal m : TpmResult (TpmSt × Bytes)))
        fun attestType m => ?_
      refine (sameExtent (α := Tpm2bName) m).bind fun _ _ m => ?_
      refine (sameExtent (α := Tpm2bData) m).bind fun _ _ m => ?_
      refine (sameExtent (α := TpmsClockInfo) m).bind fun _ _ m => ?_
      refine (sameExtent (α := TpmUint64) m).bind fun _ _ m => ?_
      refine (sameExtent_tagged attestType m).bind fun _ _ r => ?_
      exact .pure _ _ r

instance : TpmWire TpmsAttest := .infer
instance : TpmViewed TpmsAttest := .infer

end TpmsAttest

end Tpm2
