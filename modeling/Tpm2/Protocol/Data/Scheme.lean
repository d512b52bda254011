import Tpm2.Protocol.Data.Basic

/-! Algorithm schemes: an algorithm and the parameters it selects. -/

namespace Tpm2

open ByteCodec

structure TpmsSchemeHash where
  hashAlg : TpmiAlgHash
  deriving DecidableEq

instance : TpmStruct TpmsSchemeHash (TpmiAlgHash × Unit) where
  toFields v := (v.hashAlg, ())
  ofFields f := ⟨f.1⟩

instance : TpmWire TpmsSchemeHash := TpmStruct.wire
instance : TpmViewed TpmsSchemeHash := TpmStruct.viewed

abbrev TpmsSchemeHmac := TpmsSchemeHash

inductive TpmuKdfScheme
  | mgf1 (v : TpmsSchemeHash)
  | kdf1Sp800_56a (v : TpmsSchemeHash)
  | kdf2 (v : TpmsSchemeHash)
  | kdf1Sp800_108 (v : TpmsSchemeHash)
  | null
  deriving DecidableEq

namespace TpmuKdfScheme

instance : TpmSized TpmuKdfScheme where
  SIZE := tpmMaxCommandSize
  len
    | .mgf1 v => len v
    | .kdf1Sp800_56a v => len v
    | .kdf2 v => len v
    | .kdf1Sp800_108 v => len v
    | .null => 0

instance : TpmMarshal TpmuKdfScheme where
  marshal
    | .mgf1 v => marshal v
    | .kdf1Sp800_56a v => marshal v
    | .kdf2 v => marshal v
    | .kdf1Sp800_108 v => marshal v
    | .null => fun writer => .ok writer

instance : TpmuView TpmuKdfScheme TpmAlgId (TpmsSchemeHash ⊕ TpmsSchemeHash ⊕ TpmsSchemeHash ⊕
    TpmsSchemeHash ⊕ Unit ⊕ Empty) where
  tags := [[.mgf1], [.kdf1Sp800_56A], [.kdf2], [.kdf1Sp800_108], [.null]]
  toArms
    | .mgf1 v => .inl v
    | .kdf1Sp800_56a v => .inr (.inl v)
    | .kdf2 v => .inr (.inr (.inl v))
    | .kdf1Sp800_108 v => .inr (.inr (.inr (.inl v)))
    | .null => .inr (.inr (.inr (.inr (.inl ()))))
  ofArms
    | .inl v => .mgf1 v
    | .inr (.inl v) => .kdf1Sp800_56a v
    | .inr (.inr (.inl v)) => .kdf2 v
    | .inr (.inr (.inr (.inl v))) => .kdf1Sp800_108 v
    | .inr (.inr (.inr (.inr (.inl _)))) => .null
  ofArms_toArms u := by cases u <;> rfl
  toArms_ofArms a := by rcases a with _ | _ | _ | _ | _ | _ <;> first | rfl | contradiction
  nodup := by decide

instance : TpmuView.LawfulUnion TpmuKdfScheme where
  len_eq u := by cases u <;> rfl
  marshal_eq u := by cases u <;> rfl
  maxLen_le := by decide

instance : TpmUnion TpmuKdfScheme TpmAlgId := .infer
instance : TpmUnionView TpmuKdfScheme TpmAlgId := .infer

end TpmuKdfScheme

structure TpmtKdfScheme where
  scheme : TpmAlgId
  details : TpmuKdfScheme
  deriving DecidableEq

instance : TpmStructTagged TpmtKdfScheme TpmAlgId TpmuKdfScheme where
  toPair v := (v.scheme, v.details)
  ofPair p := ⟨p.1, p.2⟩

instance : TpmWire TpmtKdfScheme := TpmStructTagged.wire
instance : TpmViewed TpmtKdfScheme := TpmStructTagged.viewed

structure TpmsSchemeXor where
  hashAlg : TpmiAlgHash
  kdf : TpmtKdfScheme
  deriving DecidableEq

instance : TpmStruct TpmsSchemeXor (TpmiAlgHash × TpmtKdfScheme × Unit) where
  toFields v := (v.hashAlg, v.kdf, ())
  ofFields f := ⟨f.1, f.2.1⟩

instance : TpmWire TpmsSchemeXor := TpmStruct.wire
instance : TpmViewed TpmsSchemeXor := TpmStruct.viewed

inductive TpmuKeyedhashScheme
  | hmac (v : TpmsSchemeHash)
  | xor (v : TpmsSchemeXor)
  | null
  deriving DecidableEq

namespace TpmuKeyedhashScheme

instance : TpmSized TpmuKeyedhashScheme where
  SIZE := tpmMaxCommandSize
  len
    | .hmac v => len v
    | .xor v => len v
    | .null => 0

instance : TpmMarshal TpmuKeyedhashScheme where
  marshal
    | .hmac v => marshal v
    | .xor v => marshal v
    | .null => fun writer => .ok writer

instance : TpmuView TpmuKeyedhashScheme TpmAlgId (TpmsSchemeHash ⊕ TpmsSchemeXor ⊕ Unit ⊕
    Empty) where
  tags := [[.hmac], [.xor], [.null]]
  toArms
    | .hmac v => .inl v
    | .xor v => .inr (.inl v)
    | .null => .inr (.inr (.inl ()))
  ofArms
    | .inl v => .hmac v
    | .inr (.inl v) => .xor v
    | .inr (.inr (.inl _)) => .null
  ofArms_toArms u := by cases u <;> rfl
  toArms_ofArms a := by rcases a with _ | _ | _ | _ <;> first | rfl | contradiction
  nodup := by decide

instance : TpmuView.LawfulUnion TpmuKeyedhashScheme where
  len_eq u := by cases u <;> rfl
  marshal_eq u := by cases u <;> rfl
  maxLen_le := by decide

instance : TpmUnion TpmuKeyedhashScheme TpmAlgId := .infer
instance : TpmUnionView TpmuKeyedhashScheme TpmAlgId := .infer

end TpmuKeyedhashScheme

structure TpmtKeyedhashScheme where
  scheme : TpmAlgId
  details : TpmuKeyedhashScheme
  deriving DecidableEq

instance : TpmStructTagged TpmtKeyedhashScheme TpmAlgId TpmuKeyedhashScheme where
  toPair v := (v.scheme, v.details)
  ofPair p := ⟨p.1, p.2⟩

instance : TpmWire TpmtKeyedhashScheme := TpmStructTagged.wire
instance : TpmViewed TpmtKeyedhashScheme := TpmStructTagged.viewed

inductive TpmuAsymScheme
  | hash (v : TpmsSchemeHash)
  | null
  deriving DecidableEq

namespace TpmuAsymScheme

instance : TpmSized TpmuAsymScheme where
  SIZE := tpmMaxCommandSize
  len
    | .hash v => len v
    | .null => 0

instance : TpmMarshal TpmuAsymScheme where
  marshal
    | .hash v => marshal v
    | .null => fun writer => .ok writer

instance : TpmuView TpmuAsymScheme TpmAlgId (TpmsSchemeHash ⊕ Unit ⊕ Empty) where
  tags := [[.rsassa, .rsapss, .ecdsa, .ecdaa, .sm2, .ecschnorr, .oaep, .ecdh, .ecmqv],
    [.rsaes, .null]]
  toArms
    | .hash v => .inl v
    | .null => .inr (.inl ())
  ofArms
    | .inl v => .hash v
    | .inr (.inl _) => .null
  ofArms_toArms u := by cases u <;> rfl
  toArms_ofArms a := by rcases a with _ | _ | _ <;> first | rfl | contradiction
  nodup := by decide

instance : TpmuView.LawfulUnion TpmuAsymScheme where
  len_eq u := by cases u <;> rfl
  marshal_eq u := by cases u <;> rfl
  maxLen_le := by decide

instance : TpmUnion TpmuAsymScheme TpmAlgId := .infer
instance : TpmUnionView TpmuAsymScheme TpmAlgId := .infer

end TpmuAsymScheme

structure TpmtRsaDecrypt where
  scheme : TpmAlgId
  details : TpmuAsymScheme
  deriving DecidableEq

instance : TpmStructTagged TpmtRsaDecrypt TpmAlgId TpmuAsymScheme where
  toPair v := (v.scheme, v.details)
  ofPair p := ⟨p.1, p.2⟩

instance : TpmWire TpmtRsaDecrypt := TpmStructTagged.wire
instance : TpmViewed TpmtRsaDecrypt := TpmStructTagged.viewed

structure TpmtRsaScheme where
  scheme : TpmAlgId
  details : TpmuAsymScheme
  deriving DecidableEq

instance : TpmStructTagged TpmtRsaScheme TpmAlgId TpmuAsymScheme where
  toPair v := (v.scheme, v.details)
  ofPair p := ⟨p.1, p.2⟩

instance : TpmWire TpmtRsaScheme := TpmStructTagged.wire
instance : TpmViewed TpmtRsaScheme := TpmStructTagged.viewed

structure TpmtEccScheme where
  scheme : TpmAlgId
  details : TpmuAsymScheme
  deriving DecidableEq

instance : TpmStructTagged TpmtEccScheme TpmAlgId TpmuAsymScheme where
  toPair v := (v.scheme, v.details)
  ofPair p := ⟨p.1, p.2⟩

instance : TpmWire TpmtEccScheme := TpmStructTagged.wire
instance : TpmViewed TpmtEccScheme := TpmStructTagged.viewed

inductive TpmuSigScheme
  | hash (v : TpmsSchemeHash)
  | hmac (v : TpmsSchemeHmac)
  | null
  deriving DecidableEq

namespace TpmuSigScheme

instance : TpmSized TpmuSigScheme where
  SIZE := tpmMaxCommandSize
  len
    | .hash v => len v
    | .hmac v => len v
    | .null => 0

instance : TpmMarshal TpmuSigScheme where
  marshal
    | .hash v => marshal v
    | .hmac v => marshal v
    | .null => fun writer => .ok writer

instance : TpmuView TpmuSigScheme TpmAlgId (TpmsSchemeHmac ⊕ TpmsSchemeHash ⊕ Unit ⊕ Empty) where
  tags := [[.hmac], [.rsassa, .rsapss, .ecdsa, .ecdaa, .sm2, .ecschnorr], [.null]]
  toArms
    | .hmac v => .inl v
    | .hash v => .inr (.inl v)
    | .null => .inr (.inr (.inl ()))
  ofArms
    | .inl v => .hmac v
    | .inr (.inl v) => .hash v
    | .inr (.inr (.inl _)) => .null
  ofArms_toArms u := by cases u <;> rfl
  toArms_ofArms a := by rcases a with _ | _ | _ | _ <;> first | rfl | contradiction
  nodup := by decide

instance : TpmuView.LawfulUnion TpmuSigScheme where
  len_eq u := by cases u <;> rfl
  marshal_eq u := by cases u <;> rfl
  maxLen_le := by decide

instance : TpmUnion TpmuSigScheme TpmAlgId := .infer
instance : TpmUnionView TpmuSigScheme TpmAlgId := .infer

end TpmuSigScheme

structure TpmtSigScheme where
  scheme : TpmAlgId
  details : TpmuSigScheme
  deriving DecidableEq

instance : TpmStructTagged TpmtSigScheme TpmAlgId TpmuSigScheme where
  toPair v := (v.scheme, v.details)
  ofPair p := ⟨p.1, p.2⟩

instance : TpmWire TpmtSigScheme := TpmStructTagged.wire
instance : TpmViewed TpmtSigScheme := TpmStructTagged.viewed

end Tpm2
