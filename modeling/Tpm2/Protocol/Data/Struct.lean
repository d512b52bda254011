import Tpm2.Protocol.Data.Capability

/-! Session records, tickets, contexts, and structures in a TPM2B wrapper. -/

namespace Tpm2

open ByteCodec

structure TpmsAuthCommand where
  sessionHandle : TpmHandle
  nonce : Tpm2bNonce
  sessionAttributes : TpmaSession
  hmac : Tpm2bAuth
  deriving DecidableEq

instance : TpmStruct TpmsAuthCommand (TpmHandle × Tpm2bNonce × TpmaSession × Tpm2bAuth ×
    Unit) where
  toFields v := (v.sessionHandle, v.nonce, v.sessionAttributes, v.hmac, ())
  ofFields f := ⟨f.1, f.2.1, f.2.2.1, f.2.2.2.1⟩

instance : TpmWire TpmsAuthCommand := TpmStruct.wire
instance : TpmViewed TpmsAuthCommand := TpmStruct.viewed

structure TpmsAuthResponse where
  nonce : Tpm2bNonce
  sessionAttributes : TpmaSession
  hmac : Tpm2bAuth
  deriving DecidableEq

instance : TpmStruct TpmsAuthResponse (Tpm2bNonce × TpmaSession × Tpm2bAuth × Unit) where
  toFields v := (v.nonce, v.sessionAttributes, v.hmac, ())
  ofFields f := ⟨f.1, f.2.1, f.2.2.1⟩

instance : TpmWire TpmsAuthResponse := TpmStruct.wire
instance : TpmViewed TpmsAuthResponse := TpmStruct.viewed

structure TpmtTkCreation where
  tag : TpmSt
  hierarchy : TpmRh
  digest : Tpm2bDigest
  deriving DecidableEq

instance : TpmStruct TpmtTkCreation (TpmSt × TpmRh × Tpm2bDigest × Unit) where
  toFields v := (v.tag, v.hierarchy, v.digest, ())
  ofFields f := ⟨f.1, f.2.1, f.2.2.1⟩

instance : TpmWire TpmtTkCreation := TpmStruct.wire
instance : TpmViewed TpmtTkCreation := TpmStruct.viewed

structure TpmtTkVerified where
  tag : TpmSt
  hierarchy : TpmRh
  digest : Tpm2bDigest
  deriving DecidableEq

instance : TpmStruct TpmtTkVerified (TpmSt × TpmRh × Tpm2bDigest × Unit) where
  toFields v := (v.tag, v.hierarchy, v.digest, ())
  ofFields f := ⟨f.1, f.2.1, f.2.2.1⟩

instance : TpmWire TpmtTkVerified := TpmStruct.wire
instance : TpmViewed TpmtTkVerified := TpmStruct.viewed

structure TpmtTkAuth where
  tag : TpmSt
  hierarchy : TpmRh
  digest : Tpm2bDigest
  deriving DecidableEq

instance : TpmStruct TpmtTkAuth (TpmSt × TpmRh × Tpm2bDigest × Unit) where
  toFields v := (v.tag, v.hierarchy, v.digest, ())
  ofFields f := ⟨f.1, f.2.1, f.2.2.1⟩

instance : TpmWire TpmtTkAuth := TpmStruct.wire
instance : TpmViewed TpmtTkAuth := TpmStruct.viewed

structure TpmtTkHashcheck where
  tag : TpmSt
  hierarchy : TpmRh
  digest : Tpm2bDigest
  deriving DecidableEq

instance : TpmStruct TpmtTkHashcheck (TpmSt × TpmRh × Tpm2bDigest × Unit) where
  toFields v := (v.tag, v.hierarchy, v.digest, ())
  ofFields f := ⟨f.1, f.2.1, f.2.2.1⟩

instance : TpmWire TpmtTkHashcheck := TpmStruct.wire
instance : TpmViewed TpmtTkHashcheck := TpmStruct.viewed

structure TpmsContext where
  sequence : TpmUint64
  savedHandle : TpmHandle
  hierarchy : TpmRh
  contextBlob : Tpm2b
  deriving DecidableEq

instance : TpmStruct TpmsContext (TpmUint64 × TpmHandle × TpmRh × Tpm2b × Unit) where
  toFields v := (v.sequence, v.savedHandle, v.hierarchy, v.contextBlob, ())
  ofFields f := ⟨f.1, f.2.1, f.2.2.1, f.2.2.2.1⟩

instance : TpmWire TpmsContext := TpmStruct.wire
instance : TpmViewed TpmsContext := TpmStruct.viewed

structure TpmsCreationData where
  pcrSelect : TpmlPcrSelection
  pcrDigest : Tpm2bDigest
  locality : TpmaLocality
  parentNameAlg : TpmAlgId
  parentName : Tpm2bName
  parentQualifiedName : Tpm2bName
  outsideInfo : Tpm2bData
  deriving DecidableEq

instance : TpmStruct TpmsCreationData (TpmlPcrSelection × Tpm2bDigest × TpmaLocality × TpmAlgId ×
    Tpm2bName × Tpm2bName × Tpm2bData × Unit) where
  toFields v := (v.pcrSelect, v.pcrDigest, v.locality, v.parentNameAlg, v.parentName,
    v.parentQualifiedName, v.outsideInfo, ())
  ofFields f := ⟨f.1, f.2.1, f.2.2.1, f.2.2.2.1, f.2.2.2.2.1, f.2.2.2.2.2.1, f.2.2.2.2.2.2.1⟩

instance : TpmWire TpmsCreationData := TpmStruct.wire
instance : TpmViewed TpmsCreationData := TpmStruct.viewed

structure TpmsEmpty where
  deriving DecidableEq

instance : TpmStruct TpmsEmpty (Unit) where
  toFields _ := ()
  ofFields _ := ⟨⟩

instance : TpmWire TpmsEmpty := TpmStruct.wire
instance : TpmViewed TpmsEmpty := TpmStruct.viewed

structure TpmsIdObject where
  integrityHmac : Tpm2bDigest
  encIdentity : Tpm2bDigest
  deriving DecidableEq

instance : TpmStruct TpmsIdObject (Tpm2bDigest × Tpm2bDigest × Unit) where
  toFields v := (v.integrityHmac, v.encIdentity, ())
  ofFields f := ⟨f.1, f.2.1⟩

instance : TpmWire TpmsIdObject := TpmStruct.wire
instance : TpmViewed TpmsIdObject := TpmStruct.viewed

structure TpmsAlgorithmDetailEcc where
  curveId : TpmEccCurve
  keySize : TpmUint16
  kdf : TpmtKdfScheme
  sign : TpmtEccScheme
  p : Tpm2bEccParameter
  a : Tpm2bEccParameter
  b : Tpm2bEccParameter
  gx : Tpm2bEccParameter
  gy : Tpm2bEccParameter
  n : Tpm2bEccParameter
  h : Tpm2bEccParameter
  deriving DecidableEq

instance : TpmStruct TpmsAlgorithmDetailEcc (TpmEccCurve × TpmUint16 × TpmtKdfScheme ×
    TpmtEccScheme × Tpm2bEccParameter × Tpm2bEccParameter × Tpm2bEccParameter × Tpm2bEccParameter ×
    Tpm2bEccParameter × Tpm2bEccParameter × Tpm2bEccParameter × Unit) where
  toFields v := (v.curveId, v.keySize, v.kdf, v.sign, v.p, v.a, v.b, v.gx, v.gy, v.n, v.h, ())
  ofFields f := ⟨f.1, f.2.1, f.2.2.1, f.2.2.2.1, f.2.2.2.2.1, f.2.2.2.2.2.1, f.2.2.2.2.2.2.1,
    f.2.2.2.2.2.2.2.1, f.2.2.2.2.2.2.2.2.1, f.2.2.2.2.2.2.2.2.2.1, f.2.2.2.2.2.2.2.2.2.2.1⟩

instance : TpmWire TpmsAlgorithmDetailEcc := TpmStruct.wire
instance : TpmViewed TpmsAlgorithmDetailEcc := TpmStruct.viewed

instance : SizeFits TpmtPublic := ⟨by decide⟩
instance : SizeFits TpmsSensitiveCreate := ⟨by decide⟩
instance : SizeFits TpmtSensitive := ⟨by decide⟩
instance : SizeFits TpmsCreationData := ⟨by decide⟩
instance : SizeFits TpmsAttest := ⟨by decide⟩
instance : SizeFits TpmsNvPublic := ⟨by decide⟩
instance : SizeFits TpmsIdObject := ⟨by decide⟩
instance : SizeFits TpmsEccPoint := ⟨by decide⟩
instance : SizeFits TpmtNvPublic2 := ⟨by decide⟩

abbrev Tpm2bPublic := Tpm2bStruct TpmtPublic
abbrev Tpm2bTemplate := Tpm2bPublic
abbrev Tpm2bSensitiveCreate := Tpm2bStruct TpmsSensitiveCreate
abbrev Tpm2bSensitive := Tpm2bStruct TpmtSensitive
abbrev Tpm2bCreationData := Tpm2bStruct TpmsCreationData
abbrev Tpm2bAttest := Tpm2bStruct TpmsAttest
abbrev Tpm2bNvPublic := Tpm2bStruct TpmsNvPublic
abbrev Tpm2bIdObject := Tpm2bStruct TpmsIdObject
abbrev Tpm2bEccPoint := Tpm2bStruct TpmsEccPoint
abbrev Tpm2bNvPublic2 := Tpm2bStruct TpmtNvPublic2

end Tpm2
