import Tpm2.Protocol.Data.SymDef

/-! Public and sensitive areas of objects. -/

namespace Tpm2

open ByteCodec

structure TpmsKeyedhashParms where
  scheme : TpmtKeyedhashScheme
  deriving DecidableEq

instance : TpmStruct TpmsKeyedhashParms (TpmtKeyedhashScheme × Unit) where
  toFields v := (v.scheme, ())
  ofFields f := ⟨f.1⟩

instance : TpmWire TpmsKeyedhashParms := TpmStruct.wire
instance : TpmViewed TpmsKeyedhashParms := TpmStruct.viewed

structure TpmsSymcipherParms where
  sym : TpmtSymDefObject
  deriving DecidableEq

instance : TpmStruct TpmsSymcipherParms (TpmtSymDefObject × Unit) where
  toFields v := (v.sym, ())
  ofFields f := ⟨f.1⟩

instance : TpmWire TpmsSymcipherParms := TpmStruct.wire
instance : TpmViewed TpmsSymcipherParms := TpmStruct.viewed

structure TpmsRsaParms where
  symmetric : TpmtSymDefObject
  scheme : TpmtRsaScheme
  keyBits : TpmUint16
  exponent : TpmUint32
  deriving DecidableEq

instance : TpmStruct TpmsRsaParms (TpmtSymDefObject × TpmtRsaScheme × TpmUint16 × TpmUint32 ×
    Unit) where
  toFields v := (v.symmetric, v.scheme, v.keyBits, v.exponent, ())
  ofFields f := ⟨f.1, f.2.1, f.2.2.1, f.2.2.2.1⟩

instance : TpmWire TpmsRsaParms := TpmStruct.wire
instance : TpmViewed TpmsRsaParms := TpmStruct.viewed

structure TpmsEccParms where
  symmetric : TpmtSymDefObject
  scheme : TpmtEccScheme
  curveId : TpmEccCurve
  kdf : TpmtKdfScheme
  deriving DecidableEq

instance : TpmStruct TpmsEccParms (TpmtSymDefObject × TpmtEccScheme × TpmEccCurve × TpmtKdfScheme ×
    Unit) where
  toFields v := (v.symmetric, v.scheme, v.curveId, v.kdf, ())
  ofFields f := ⟨f.1, f.2.1, f.2.2.1, f.2.2.2.1⟩

instance : TpmWire TpmsEccParms := TpmStruct.wire
instance : TpmViewed TpmsEccParms := TpmStruct.viewed

structure TpmsEccPoint where
  x : Tpm2bEccParameter
  y : Tpm2bEccParameter
  deriving DecidableEq

instance : TpmStruct TpmsEccPoint (Tpm2bEccParameter × Tpm2bEccParameter × Unit) where
  toFields v := (v.x, v.y, ())
  ofFields f := ⟨f.1, f.2.1⟩

instance : TpmWire TpmsEccPoint := TpmStruct.wire
instance : TpmViewed TpmsEccPoint := TpmStruct.viewed

inductive TpmuPublicParms
  | keyedHash (v : TpmsKeyedhashParms)
  | symCipher (v : TpmsSymcipherParms)
  | rsa (v : TpmsRsaParms)
  | ecc (v : TpmsEccParms)
  | null
  deriving DecidableEq

namespace TpmuPublicParms

instance : TpmSized TpmuPublicParms where
  SIZE := tpmMaxCommandSize
  len
    | .keyedHash v => len v
    | .symCipher v => len v
    | .rsa v => len v
    | .ecc v => len v
    | .null => 0

instance : TpmMarshal TpmuPublicParms where
  marshal
    | .keyedHash v => marshal v
    | .symCipher v => marshal v
    | .rsa v => marshal v
    | .ecc v => marshal v
    | .null => fun writer => .ok writer

instance : TpmuView TpmuPublicParms TpmAlgId (TpmsKeyedhashParms ⊕ TpmsSymcipherParms ⊕
    TpmsRsaParms ⊕ TpmsEccParms ⊕ Unit ⊕ Empty) where
  tags := [[.keyedHash], [.symCipher], [.rsa], [.ecc], [.null]]
  toArms
    | .keyedHash v => .inl v
    | .symCipher v => .inr (.inl v)
    | .rsa v => .inr (.inr (.inl v))
    | .ecc v => .inr (.inr (.inr (.inl v)))
    | .null => .inr (.inr (.inr (.inr (.inl ()))))
  ofArms
    | .inl v => .keyedHash v
    | .inr (.inl v) => .symCipher v
    | .inr (.inr (.inl v)) => .rsa v
    | .inr (.inr (.inr (.inl v))) => .ecc v
    | .inr (.inr (.inr (.inr (.inl _)))) => .null
  ofArms_toArms u := by cases u <;> rfl
  toArms_ofArms a := by rcases a with _ | _ | _ | _ | _ | _ <;> first | rfl | contradiction
  nodup := by decide

instance : TpmuView.LawfulUnion TpmuPublicParms where
  len_eq u := by cases u <;> rfl
  marshal_eq u := by cases u <;> rfl
  maxLen_le := by decide

instance : TpmUnion TpmuPublicParms TpmAlgId := .infer
instance : TpmUnionView TpmuPublicParms TpmAlgId := .infer

end TpmuPublicParms

inductive TpmuPublicId
  | keyedHash (v : Tpm2bDigest)
  | symCipher (v : Tpm2bSymKey)
  | rsa (v : Tpm2bPublicKeyRsa)
  | ecc (v : TpmsEccPoint)
  | null
  deriving DecidableEq

namespace TpmuPublicId

instance : TpmSized TpmuPublicId where
  SIZE := tpmMaxCommandSize
  len
    | .keyedHash v => len v
    | .symCipher v => len v
    | .rsa v => len v
    | .ecc v => len v
    | .null => 0

instance : TpmMarshal TpmuPublicId where
  marshal
    | .keyedHash v => marshal v
    | .symCipher v => marshal v
    | .rsa v => marshal v
    | .ecc v => marshal v
    | .null => fun writer => .ok writer

instance : TpmuView TpmuPublicId TpmAlgId (Tpm2bDigest ⊕ Tpm2bSymKey ⊕ Tpm2bPublicKeyRsa ⊕
    TpmsEccPoint ⊕ Unit ⊕ Empty) where
  tags := [[.keyedHash], [.symCipher], [.rsa], [.ecc], [.null]]
  toArms
    | .keyedHash v => .inl v
    | .symCipher v => .inr (.inl v)
    | .rsa v => .inr (.inr (.inl v))
    | .ecc v => .inr (.inr (.inr (.inl v)))
    | .null => .inr (.inr (.inr (.inr (.inl ()))))
  ofArms
    | .inl v => .keyedHash v
    | .inr (.inl v) => .symCipher v
    | .inr (.inr (.inl v)) => .rsa v
    | .inr (.inr (.inr (.inl v))) => .ecc v
    | .inr (.inr (.inr (.inr (.inl _)))) => .null
  ofArms_toArms u := by cases u <;> rfl
  toArms_ofArms a := by rcases a with _ | _ | _ | _ | _ | _ <;> first | rfl | contradiction
  nodup := by decide

instance : TpmuView.LawfulUnion TpmuPublicId where
  len_eq u := by cases u <;> rfl
  marshal_eq u := by cases u <;> rfl
  maxLen_le := by decide

instance : TpmUnion TpmuPublicId TpmAlgId := .infer
instance : TpmUnionView TpmuPublicId TpmAlgId := .infer

/-- A unique field holds no tag. -/
theorem plain (v : TpmuPublicId) : Writable v ∧ WellFormed v := by
  cases v <;> trivial

end TpmuPublicId

structure TpmtPublic where
  objectType : TpmAlgId
  nameAlg : TpmAlgId
  objectAttributes : TpmaObject
  authPolicy : Tpm2bDigest
  parameters : TpmuPublicParms
  unique : TpmuPublicId
  deriving DecidableEq

namespace TpmtPublic

instance : TpmSized TpmtPublic where
  SIZE := tpmMaxCommandSize
  len v := len v.objectType + len v.nameAlg + len v.objectAttributes + len v.authPolicy +
    len v.parameters + len v.unique

instance : TpmMarshal TpmtPublic where
  marshal v writer := do
    if !matchesTag v.parameters v.objectType || !matchesTag v.unique v.objectType then
      throw (.variantNotAvailable writer.pos (tagValue v.objectType))
    let writer ← marshal v.objectType writer
    let writer ← marshal v.nameAlg writer
    let writer ← marshal v.objectAttributes writer
    let writer ← marshal v.authPolicy writer
    let writer ← marshal v.parameters writer
    marshal v.unique writer

instance : TpmUnmarshal TpmtPublic where
  unmarshal buffer := do
    let (objectType, buffer) ← unmarshal buffer
    let (nameAlg, buffer) ← unmarshal buffer
    let (objectAttributes, buffer) ← unmarshal buffer
    let (authPolicy, buffer) ← unmarshal buffer
    let (parameters, buffer) ← unmarshalTagged objectType buffer
    let (unique, buffer) ← unmarshalTagged objectType buffer
    return (⟨objectType, nameAlg, objectAttributes, authPolicy, parameters, unique⟩, buffer)

structure View where
  objectType : TpmAlgId
  nameAlg : TpmAlgId
  objectAttributes : TpmaObject
  authPolicy : TpmField.View Tpm2bDigest
  parameters : TpmTaggedField.View TpmuPublicParms
  unique : TpmTaggedField.View TpmuPublicId

instance : TpmField TpmtPublic where
  View := View
  castPrefixField buf := do
    let (objectType, buf) ← castPrefixField (α := TpmAlgId) buf
    let (nameAlg, buf) ← castPrefixField (α := TpmAlgId) buf
    let (objectAttributes, buf) ← castPrefixField (α := TpmaObject) buf
    let (authPolicy, buf) ← castPrefixField (α := Tpm2bDigest) buf
    let (parameters, buf) ← castTaggedPrefixField (U := TpmuPublicParms) objectType buf
    let (unique, buf) ← castTaggedPrefixField (U := TpmuPublicId) objectType buf
    return (⟨objectType, nameAlg, objectAttributes, authPolicy, parameters, unique⟩, buf)

/-- Both payloads are the variants that the object type selects. -/
def matchesType (v : TpmtPublic) : Bool :=
  matchesTag v.parameters v.objectType && matchesTag v.unique v.objectType

instance : TpmSpec TpmtPublic where
  Writable v := v.matchesType ∧ Writable v.parameters ∧ Writable v.unique
  WellFormed v := v.matchesType ∧ WellFormed v.parameters ∧ WellFormed v.unique
  maxLen := maxLen TpmAlgId + maxLen TpmAlgId + maxLen TpmaObject + maxLen Tpm2bDigest +
    maxLen TpmuPublicParms + maxLen TpmuPublicId

/-- The fields in wire order. -/
def fields (v : TpmtPublic) :
    TpmAlgId × TpmAlgId × TpmaObject × Tpm2bDigest × TpmuPublicParms × TpmuPublicId :=
  (v.objectType, v.nameAlg, v.objectAttributes, v.authPolicy, v.parameters, v.unique)

theorem unmarshal_eq_ok {b r : Bytes} {v : TpmtPublic} :
    unmarshal b = .ok (v, r) ↔
      seqRead unmarshal (fun objectType => seqRead unmarshal fun _ => seqRead unmarshal fun _ =>
        seqRead unmarshal fun _ => seqRead (unmarshalTagged objectType) fun _ =>
          unmarshalTagged objectType) b = .ok (v.fields, r) := by
  simp only [seqRead_eq_ok, unmarshal, bind_eq_ok, Prod.exists]
  constructor
  · rintro ⟨_, m₁, h₁, _, m₂, h₂, _, m₃, h₃, _, m₄, h₄, _, m₅, h₅, _, m₆, h₆, ok⟩
    cases ok
    exact ⟨m₁, h₁, m₂, h₂, m₃, h₃, m₄, h₄, m₅, h₅, h₆⟩
  · rintro ⟨m₁, h₁, m₂, h₂, m₃, h₃, m₄, h₄, m₅, h₅, h₆⟩
    exact ⟨_, m₁, h₁, _, m₂, h₂, _, m₃, h₃, _, m₄, h₄, _, m₅, h₅, _, r, h₆, rfl⟩

theorem not_matchesType (v : TpmtPublic) :
    (!v.matchesType) =
      (!matchesTag v.parameters v.objectType || !matchesTag v.unique v.objectType) :=
  Bool.not_and ..

instance : LawfulWire TpmtPublic where
  codec := by
    have law := ((codec (α := TpmAlgId)).seq fun objectType => (codec (α := TpmAlgId)).seq fun _ =>
      (codec (α := TpmaObject)).seq fun _ => (codec (α := Tpm2bDigest)).seq fun _ =>
        (codec_tagged (U := TpmuPublicParms) objectType).seq fun _ =>
          codec_tagged (U := TpmuPublicId) objectType).iso (f := fields)
            fun _ _ _ => unmarshal_eq_ok
    refine ((law.guard (fun v => v.matchesType) (fun {v} wf => ?_)
      (fun v => marshal v) (fun {v} passes => ?_) fun {v} fails writer => ?_).congr_prop
        (fun v => ?_) fun v => ?_).congr_write (fun _ => rfl) fun v => ?_
    · obtain ⟨-, -, -, -, ⟨parameters, -⟩, unique, -⟩ := wf
      exact Bool.and_eq_true_iff.mpr ⟨parameters, unique⟩
    · funext writer
      change ite _ _ _ = _
      rw [← not_matchesType, passes]
      rfl
    · refine ⟨.variantNotAvailable writer.pos (tagValue v.objectType), ?_⟩
      change ite _ _ _ = _
      rw [← not_matchesType, Bool.eq_false_iff.mpr fails]
      rfl
    · constructor
      · rintro ⟨matched, parameters, unique⟩
        exact ⟨matched, trivial, trivial, trivial, trivial, parameters, unique⟩
      · rintro ⟨matched, -, -, -, -, parameters, unique⟩
        exact ⟨matched, parameters, unique⟩
    · constructor
      · rintro ⟨matched, parameters, unique⟩
        obtain ⟨selected, selected'⟩ := Bool.and_eq_true_iff.mp matched
        exact ⟨trivial, trivial, trivial, trivial, ⟨selected, parameters⟩, selected', unique⟩
      · rintro ⟨-, -, -, -, ⟨selected, parameters⟩, selected', unique⟩
        exact ⟨Bool.and_eq_true_iff.mpr ⟨selected, selected'⟩, parameters, unique⟩
    · simp only [len, fields, Nat.add_assoc]
  len_le v := by
    have := len_le v.objectType
    have := len_le v.nameAlg
    have := len_le v.objectAttributes
    have := len_le v.authPolicy
    have := len_tagged_le v.parameters
    have := len_tagged_le v.unique
    simp only [len, maxLen] at *
    omega
  maxLen_le := by decide

instance : LawfulView TpmtPublic where
  sameExtent b := by
    refine SameRest.bind_same (y := (unmarshal b : TpmResult (TpmAlgId × Bytes)))
      fun objectType m => ?_
    refine (sameExtent (α := TpmAlgId) m).bind fun _ _ m => ?_
    refine (sameExtent (α := TpmaObject) m).bind fun _ _ m => ?_
    refine (sameExtent (α := Tpm2bDigest) m).bind fun _ _ m => ?_
    refine (sameExtent_tagged objectType m).bind fun _ _ m => ?_
    refine (sameExtent_tagged objectType m).bind fun _ _ r => ?_
    exact .pure _ _ r

instance : TpmWire TpmtPublic := .infer
instance : TpmViewed TpmtPublic := .infer

end TpmtPublic

structure TpmtPublicParms where
  objectType : TpmAlgId
  parameters : TpmuPublicParms
  deriving DecidableEq

instance : TpmStructTagged TpmtPublicParms TpmAlgId TpmuPublicParms where
  toPair v := (v.objectType, v.parameters)
  ofPair p := ⟨p.1, p.2⟩

instance : TpmWire TpmtPublicParms := TpmStructTagged.wire
instance : TpmViewed TpmtPublicParms := TpmStructTagged.viewed

inductive TpmuSensitiveComposite
  | rsa (v : Tpm2bPrivateKeyRsa)
  | ecc (v : Tpm2bEccParameter)
  | bits (v : Tpm2bSensitiveData)
  | sym (v : Tpm2bSymKey)
  deriving DecidableEq

namespace TpmuSensitiveComposite

instance : TpmSized TpmuSensitiveComposite where
  SIZE := tpmMaxCommandSize
  len
    | .rsa v => len v
    | .ecc v => len v
    | .bits v => len v
    | .sym v => len v

instance : TpmMarshal TpmuSensitiveComposite where
  marshal
    | .rsa v => marshal v
    | .ecc v => marshal v
    | .bits v => marshal v
    | .sym v => marshal v

instance : TpmuView TpmuSensitiveComposite TpmAlgId (Tpm2bPrivateKeyRsa ⊕ Tpm2bEccParameter ⊕
    Tpm2bSensitiveData ⊕ Tpm2bSymKey ⊕ Empty) where
  tags := [[.rsa], [.ecc], [.keyedHash], [.symCipher]]
  toArms
    | .rsa v => .inl v
    | .ecc v => .inr (.inl v)
    | .bits v => .inr (.inr (.inl v))
    | .sym v => .inr (.inr (.inr (.inl v)))
  ofArms
    | .inl v => .rsa v
    | .inr (.inl v) => .ecc v
    | .inr (.inr (.inl v)) => .bits v
    | .inr (.inr (.inr (.inl v))) => .sym v
  ofArms_toArms u := by cases u <;> rfl
  toArms_ofArms a := by rcases a with _ | _ | _ | _ | _ <;> first | rfl | contradiction
  nodup := by decide

instance : TpmuView.LawfulUnion TpmuSensitiveComposite where
  len_eq u := by cases u <;> rfl
  marshal_eq u := by cases u <;> rfl
  maxLen_le := by decide

instance : TpmUnion TpmuSensitiveComposite TpmAlgId := .infer
instance : TpmUnionView TpmuSensitiveComposite TpmAlgId := .infer

end TpmuSensitiveComposite

structure TpmtSensitive where
  sensitiveType : TpmAlgId
  authValue : Tpm2bAuth
  seedValue : Tpm2bDigest
  sensitive : TpmuSensitiveComposite
  deriving DecidableEq

namespace TpmtSensitive

instance : TpmSized TpmtSensitive where
  SIZE := SIZE TpmAlgId + SIZE Tpm2bAuth + SIZE Tpm2bDigest + SIZE TpmuSensitiveComposite
  len v := len v.sensitiveType + len v.authValue + len v.seedValue + len v.sensitive

instance : TpmMarshal TpmtSensitive where
  marshal v writer := do
    if !matchesTag v.sensitive v.sensitiveType then
      throw (.variantNotAvailable writer.pos (tagValue v.sensitiveType))
    let writer ← marshal v.sensitiveType writer
    let writer ← marshal v.authValue writer
    let writer ← marshal v.seedValue writer
    marshal v.sensitive writer

instance : TpmUnmarshal TpmtSensitive where
  unmarshal buffer := do
    let (sensitiveType, buffer) ← unmarshal buffer
    let (authValue, buffer) ← unmarshal buffer
    let (seedValue, buffer) ← unmarshal buffer
    let (sensitive, buffer) ← unmarshalTagged sensitiveType buffer
    return (⟨sensitiveType, authValue, seedValue, sensitive⟩, buffer)

instance : TpmSpec TpmtSensitive where
  Writable v := matchesTag v.sensitive v.sensitiveType ∧ Writable v.sensitive
  WellFormed v := matchesTag v.sensitive v.sensitiveType ∧ WellFormed v.sensitive
  maxLen := maxLen TpmAlgId + maxLen Tpm2bAuth + maxLen Tpm2bDigest +
    maxLen TpmuSensitiveComposite

/-- The fields in wire order. -/
def fields (v : TpmtSensitive) : TpmAlgId × Tpm2bAuth × Tpm2bDigest × TpmuSensitiveComposite :=
  (v.sensitiveType, v.authValue, v.seedValue, v.sensitive)

theorem unmarshal_eq_ok {b r : Bytes} {v : TpmtSensitive} :
    unmarshal b = .ok (v, r) ↔
      seqRead unmarshal (fun sensitiveType => seqRead unmarshal fun _ => seqRead unmarshal fun _ =>
        unmarshalTagged sensitiveType) b = .ok (v.fields, r) := by
  simp only [seqRead_eq_ok, unmarshal, bind_eq_ok, Prod.exists]
  constructor
  · rintro ⟨_, m₁, h₁, _, m₂, h₂, _, m₃, h₃, _, m₄, h₄, ok⟩
    cases ok
    exact ⟨m₁, h₁, m₂, h₂, m₃, h₃, h₄⟩
  · rintro ⟨m₁, h₁, m₂, h₂, m₃, h₃, h₄⟩
    exact ⟨_, m₁, h₁, _, m₂, h₂, _, m₃, h₃, _, r, h₄, rfl⟩

instance : LawfulWire TpmtSensitive where
  codec := by
    have law := ((codec (α := TpmAlgId)).seq fun sensitiveType => (codec (α := Tpm2bAuth)).seq
      fun _ => (codec (α := Tpm2bDigest)).seq fun _ =>
        codec_tagged (U := TpmuSensitiveComposite) sensitiveType).iso (f := fields)
          fun _ _ _ => unmarshal_eq_ok
    refine ((law.guard (fun v => matchesTag v.sensitive v.sensitiveType)
      (fun wf => wf.2.2.2.1) (fun v => marshal v) (fun {v} passes => ?_)
        fun {v} fails writer => ?_).congr_prop (fun v => ?_) fun v => ?_).congr_write
          (fun _ => rfl) fun v => ?_
    · funext writer
      change ite _ _ _ = _
      rw [passes]
      rfl
    · refine ⟨.variantNotAvailable writer.pos (tagValue v.sensitiveType), ?_⟩
      change ite _ _ _ = _
      rw [Bool.eq_false_iff.mpr fails]
      rfl
    · exact ⟨fun w => ⟨w.1, trivial, trivial, trivial, w.2⟩, fun w => ⟨w.1, w.2.2.2.2⟩⟩
    · exact ⟨fun wf => ⟨trivial, trivial, trivial, wf⟩, fun wf => wf.2.2.2⟩
    · simp only [len, fields, Nat.add_assoc]
  len_le v := by
    have := len_le v.sensitiveType
    have := len_le v.authValue
    have := len_le v.seedValue
    have := len_tagged_le v.sensitive
    simp only [len, maxLen] at *
    omega
  maxLen_le := by decide

instance : TpmWire TpmtSensitive := .infer

end TpmtSensitive

structure TpmsSensitiveCreate where
  userAuth : Tpm2bAuth
  data : Tpm2bSensitiveData
  deriving DecidableEq

instance : TpmStruct TpmsSensitiveCreate (Tpm2bAuth × Tpm2bSensitiveData × Unit) where
  toFields v := (v.userAuth, v.data, ())
  ofFields f := ⟨f.1, f.2.1⟩

instance : TpmWire TpmsSensitiveCreate := TpmStruct.wire
instance : TpmViewed TpmsSensitiveCreate := TpmStruct.viewed

end Tpm2
