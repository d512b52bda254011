import Tpm2.Protocol.Data.Struct

/-! All data types of the protocol, and what their wire traits promise: one theorem for every type,
value and byte string. -/

namespace Tpm2

open ByteCodec

/-- A data type with an owned and a borrowed reader, other than buffers and lists. -/
inductive ViewedType
  | tpmUint8 | tpmUint16 | tpmUint32 | tpmUint64 | tpmInt8 | tpmInt32 | tpmiYesNo | tpmAlgId | tpmAt
  | tpmCap | tpmCc | tpmClockAdjust | tpmEo | tpmEccCurve | tpmHt | tpmPt | tpmRh | tpmSe | tpmSt
  | tpmSu | tpmiEccKeyExchange | tpmRcBase | tpmRc | tpmaAct | tpmaAlgorithm | tpmaCc | tpmaLocality
  | tpmaNv | tpmaNvExp | tpmaObject | tpmaSession | tpmsPcrSelect | tpmsPcrSelection | tpmsAcOutput
  | tpmsActData | tpmsAlgProperty | tpmsAuthCommand | tpmsAuthResponse | tpmsClockInfo | tpmsContext
  | tpmsCreationData | tpmsEccPoint | tpmsEmpty | tpmsKeyedhashParms | tpmsNvPublic
  | tpmsNvPublicExpAttr | tpmsSensitiveCreate | tpmsIdObject | tpmsSymcipherParms
  | tpmsTaggedProperty | tpmsTaggedPolicy | tpmsTimeInfo | tpmsSignatureRsa | tpmsSignatureEcc
  | tpmsTimeAttestInfo | tpmsCertifyInfo | tpmsQuoteInfo | tpmsCommandAuditInfo
  | tpmsSessionAuditInfo | tpmsCreationInfo | tpmsNvCertifyInfo | tpmsNvDigestCertifyInfo
  | tpmsAlgorithmDetailEcc | tpmsSchemeHash | tpmsSchemeXor | tpmsRsaParms | tpmsEccParms
  | tpmtTkCreation | tpmtTkVerified | tpmtTkAuth | tpmtTkHashcheck | tpmtPublicParms | tpmtKdfScheme
  | tpmtRsaDecrypt | tpmtNvPublic2 | tpmtHa | tpmtSignature | tpmtKeyedhashScheme | tpmtSigScheme
  | tpmtRsaScheme | tpmtEccScheme | tpmtSymDef | tpmtPublic | tpmsAttest | tpm2bPublic
  | tpm2bSensitiveCreate | tpm2bCreationData | tpm2bAttest | tpm2bNvPublic | tpm2bIdObject
  | tpm2bEccPoint | tpm2bNvPublic2

/-- A data type with an owned reader only. -/
inductive OwnedType
  | tpmtSensitive | tpmsCapabilityData | tpm2bSensitive

/-- A data type of the protocol; `viewed` tells whether it has a borrowed reader. -/
inductive DataType : (viewed : Bool) → Type
  | viewed (t : ViewedType) : DataType true
  | owned (t : OwnedType) : DataType false
  | buffer (capacity : Nat) : DataType true
  | list {viewed : Bool} (item : DataType viewed) (capacity : Nat) : DataType viewed

/-- A union whose variant a tag selects. -/
inductive UnionType
  | tpmuAsymScheme | tpmuCapabilities | tpmuHa | tpmuPublicId | tpmuPublicParms
  | tpmuSensitiveComposite | tpmuSymKeyBits | tpmuSymMode | tpmuSignature | tpmuAttest
  | tpmuKeyedhashScheme | tpmuSigScheme | tpmuNvPublic2 | tpmuKdfScheme

def ViewedType.Carrier : ViewedType → Type
  | .tpmUint8 => TpmUint8
  | .tpmUint16 => TpmUint16
  | .tpmUint32 => TpmUint32
  | .tpmUint64 => TpmUint64
  | .tpmInt8 => TpmInt8
  | .tpmInt32 => TpmInt32
  | .tpmiYesNo => TpmiYesNo
  | .tpmAlgId => TpmAlgId
  | .tpmAt => TpmAt
  | .tpmCap => TpmCap
  | .tpmCc => TpmCc
  | .tpmClockAdjust => TpmClockAdjust
  | .tpmEo => TpmEo
  | .tpmEccCurve => TpmEccCurve
  | .tpmHt => TpmHt
  | .tpmPt => TpmPt
  | .tpmRh => TpmRh
  | .tpmSe => TpmSe
  | .tpmSt => TpmSt
  | .tpmSu => TpmSu
  | .tpmiEccKeyExchange => TpmiEccKeyExchange
  | .tpmRcBase => TpmRcBase
  | .tpmRc => TpmRc
  | .tpmaAct => TpmaAct
  | .tpmaAlgorithm => TpmaAlgorithm
  | .tpmaCc => TpmaCc
  | .tpmaLocality => TpmaLocality
  | .tpmaNv => TpmaNv
  | .tpmaNvExp => TpmaNvExp
  | .tpmaObject => TpmaObject
  | .tpmaSession => TpmaSession
  | .tpmsPcrSelect => TpmsPcrSelect
  | .tpmsPcrSelection => TpmsPcrSelection
  | .tpmsAcOutput => TpmsAcOutput
  | .tpmsActData => TpmsActData
  | .tpmsAlgProperty => TpmsAlgProperty
  | .tpmsAuthCommand => TpmsAuthCommand
  | .tpmsAuthResponse => TpmsAuthResponse
  | .tpmsClockInfo => TpmsClockInfo
  | .tpmsContext => TpmsContext
  | .tpmsCreationData => TpmsCreationData
  | .tpmsEccPoint => TpmsEccPoint
  | .tpmsEmpty => TpmsEmpty
  | .tpmsKeyedhashParms => TpmsKeyedhashParms
  | .tpmsNvPublic => TpmsNvPublic
  | .tpmsNvPublicExpAttr => TpmsNvPublicExpAttr
  | .tpmsSensitiveCreate => TpmsSensitiveCreate
  | .tpmsIdObject => TpmsIdObject
  | .tpmsSymcipherParms => TpmsSymcipherParms
  | .tpmsTaggedProperty => TpmsTaggedProperty
  | .tpmsTaggedPolicy => TpmsTaggedPolicy
  | .tpmsTimeInfo => TpmsTimeInfo
  | .tpmsSignatureRsa => TpmsSignatureRsa
  | .tpmsSignatureEcc => TpmsSignatureEcc
  | .tpmsTimeAttestInfo => TpmsTimeAttestInfo
  | .tpmsCertifyInfo => TpmsCertifyInfo
  | .tpmsQuoteInfo => TpmsQuoteInfo
  | .tpmsCommandAuditInfo => TpmsCommandAuditInfo
  | .tpmsSessionAuditInfo => TpmsSessionAuditInfo
  | .tpmsCreationInfo => TpmsCreationInfo
  | .tpmsNvCertifyInfo => TpmsNvCertifyInfo
  | .tpmsNvDigestCertifyInfo => TpmsNvDigestCertifyInfo
  | .tpmsAlgorithmDetailEcc => TpmsAlgorithmDetailEcc
  | .tpmsSchemeHash => TpmsSchemeHash
  | .tpmsSchemeXor => TpmsSchemeXor
  | .tpmsRsaParms => TpmsRsaParms
  | .tpmsEccParms => TpmsEccParms
  | .tpmtTkCreation => TpmtTkCreation
  | .tpmtTkVerified => TpmtTkVerified
  | .tpmtTkAuth => TpmtTkAuth
  | .tpmtTkHashcheck => TpmtTkHashcheck
  | .tpmtPublicParms => TpmtPublicParms
  | .tpmtKdfScheme => TpmtKdfScheme
  | .tpmtRsaDecrypt => TpmtRsaDecrypt
  | .tpmtNvPublic2 => TpmtNvPublic2
  | .tpmtHa => TpmtHa
  | .tpmtSignature => TpmtSignature
  | .tpmtKeyedhashScheme => TpmtKeyedhashScheme
  | .tpmtSigScheme => TpmtSigScheme
  | .tpmtRsaScheme => TpmtRsaScheme
  | .tpmtEccScheme => TpmtEccScheme
  | .tpmtSymDef => TpmtSymDef
  | .tpmtPublic => TpmtPublic
  | .tpmsAttest => TpmsAttest
  | .tpm2bPublic => Tpm2bPublic
  | .tpm2bSensitiveCreate => Tpm2bSensitiveCreate
  | .tpm2bCreationData => Tpm2bCreationData
  | .tpm2bAttest => Tpm2bAttest
  | .tpm2bNvPublic => Tpm2bNvPublic
  | .tpm2bIdObject => Tpm2bIdObject
  | .tpm2bEccPoint => Tpm2bEccPoint
  | .tpm2bNvPublic2 => Tpm2bNvPublic2

def OwnedType.Carrier : OwnedType → Type
  | .tpmtSensitive => TpmtSensitive
  | .tpmsCapabilityData => TpmsCapabilityData
  | .tpm2bSensitive => Tpm2bSensitive

def DataType.Carrier {viewed : Bool} : DataType viewed → Type
  | .viewed t => t.Carrier
  | .owned t => t.Carrier
  | .buffer capacity => TpmBuffer capacity
  | .list item capacity => TpmList item.Carrier capacity

def UnionType.Carrier : UnionType → Type
  | .tpmuAsymScheme => TpmuAsymScheme
  | .tpmuCapabilities => TpmuCapabilities
  | .tpmuHa => TpmuHa
  | .tpmuPublicId => TpmuPublicId
  | .tpmuPublicParms => TpmuPublicParms
  | .tpmuSensitiveComposite => TpmuSensitiveComposite
  | .tpmuSymKeyBits => TpmuSymKeyBits
  | .tpmuSymMode => TpmuSymMode
  | .tpmuSignature => TpmuSignature
  | .tpmuAttest => TpmuAttest
  | .tpmuKeyedhashScheme => TpmuKeyedhashScheme
  | .tpmuSigScheme => TpmuSigScheme
  | .tpmuNvPublic2 => TpmuNvPublic2
  | .tpmuKdfScheme => TpmuKdfScheme

def UnionType.Tag : UnionType → Type
  | .tpmuCapabilities => TpmCap
  | .tpmuAttest => TpmSt
  | .tpmuNvPublic2 => TpmHt
  | _ => TpmAlgId

instance ViewedType.wire : (t : ViewedType) → TpmWire t.Carrier
  | .tpmUint8 => inferInstanceAs (TpmWire TpmUint8)
  | .tpmUint16 => inferInstanceAs (TpmWire TpmUint16)
  | .tpmUint32 => inferInstanceAs (TpmWire TpmUint32)
  | .tpmUint64 => inferInstanceAs (TpmWire TpmUint64)
  | .tpmInt8 => inferInstanceAs (TpmWire TpmInt8)
  | .tpmInt32 => inferInstanceAs (TpmWire TpmInt32)
  | .tpmiYesNo => inferInstanceAs (TpmWire TpmiYesNo)
  | .tpmAlgId => inferInstanceAs (TpmWire TpmAlgId)
  | .tpmAt => inferInstanceAs (TpmWire TpmAt)
  | .tpmCap => inferInstanceAs (TpmWire TpmCap)
  | .tpmCc => inferInstanceAs (TpmWire TpmCc)
  | .tpmClockAdjust => inferInstanceAs (TpmWire TpmClockAdjust)
  | .tpmEo => inferInstanceAs (TpmWire TpmEo)
  | .tpmEccCurve => inferInstanceAs (TpmWire TpmEccCurve)
  | .tpmHt => inferInstanceAs (TpmWire TpmHt)
  | .tpmPt => inferInstanceAs (TpmWire TpmPt)
  | .tpmRh => inferInstanceAs (TpmWire TpmRh)
  | .tpmSe => inferInstanceAs (TpmWire TpmSe)
  | .tpmSt => inferInstanceAs (TpmWire TpmSt)
  | .tpmSu => inferInstanceAs (TpmWire TpmSu)
  | .tpmiEccKeyExchange => inferInstanceAs (TpmWire TpmiEccKeyExchange)
  | .tpmRcBase => inferInstanceAs (TpmWire TpmRcBase)
  | .tpmRc => inferInstanceAs (TpmWire TpmRc)
  | .tpmaAct => inferInstanceAs (TpmWire TpmaAct)
  | .tpmaAlgorithm => inferInstanceAs (TpmWire TpmaAlgorithm)
  | .tpmaCc => inferInstanceAs (TpmWire TpmaCc)
  | .tpmaLocality => inferInstanceAs (TpmWire TpmaLocality)
  | .tpmaNv => inferInstanceAs (TpmWire TpmaNv)
  | .tpmaNvExp => inferInstanceAs (TpmWire TpmaNvExp)
  | .tpmaObject => inferInstanceAs (TpmWire TpmaObject)
  | .tpmaSession => inferInstanceAs (TpmWire TpmaSession)
  | .tpmsPcrSelect => inferInstanceAs (TpmWire TpmsPcrSelect)
  | .tpmsPcrSelection => inferInstanceAs (TpmWire TpmsPcrSelection)
  | .tpmsAcOutput => inferInstanceAs (TpmWire TpmsAcOutput)
  | .tpmsActData => inferInstanceAs (TpmWire TpmsActData)
  | .tpmsAlgProperty => inferInstanceAs (TpmWire TpmsAlgProperty)
  | .tpmsAuthCommand => inferInstanceAs (TpmWire TpmsAuthCommand)
  | .tpmsAuthResponse => inferInstanceAs (TpmWire TpmsAuthResponse)
  | .tpmsClockInfo => inferInstanceAs (TpmWire TpmsClockInfo)
  | .tpmsContext => inferInstanceAs (TpmWire TpmsContext)
  | .tpmsCreationData => inferInstanceAs (TpmWire TpmsCreationData)
  | .tpmsEccPoint => inferInstanceAs (TpmWire TpmsEccPoint)
  | .tpmsEmpty => inferInstanceAs (TpmWire TpmsEmpty)
  | .tpmsKeyedhashParms => inferInstanceAs (TpmWire TpmsKeyedhashParms)
  | .tpmsNvPublic => inferInstanceAs (TpmWire TpmsNvPublic)
  | .tpmsNvPublicExpAttr => inferInstanceAs (TpmWire TpmsNvPublicExpAttr)
  | .tpmsSensitiveCreate => inferInstanceAs (TpmWire TpmsSensitiveCreate)
  | .tpmsIdObject => inferInstanceAs (TpmWire TpmsIdObject)
  | .tpmsSymcipherParms => inferInstanceAs (TpmWire TpmsSymcipherParms)
  | .tpmsTaggedProperty => inferInstanceAs (TpmWire TpmsTaggedProperty)
  | .tpmsTaggedPolicy => inferInstanceAs (TpmWire TpmsTaggedPolicy)
  | .tpmsTimeInfo => inferInstanceAs (TpmWire TpmsTimeInfo)
  | .tpmsSignatureRsa => inferInstanceAs (TpmWire TpmsSignatureRsa)
  | .tpmsSignatureEcc => inferInstanceAs (TpmWire TpmsSignatureEcc)
  | .tpmsTimeAttestInfo => inferInstanceAs (TpmWire TpmsTimeAttestInfo)
  | .tpmsCertifyInfo => inferInstanceAs (TpmWire TpmsCertifyInfo)
  | .tpmsQuoteInfo => inferInstanceAs (TpmWire TpmsQuoteInfo)
  | .tpmsCommandAuditInfo => inferInstanceAs (TpmWire TpmsCommandAuditInfo)
  | .tpmsSessionAuditInfo => inferInstanceAs (TpmWire TpmsSessionAuditInfo)
  | .tpmsCreationInfo => inferInstanceAs (TpmWire TpmsCreationInfo)
  | .tpmsNvCertifyInfo => inferInstanceAs (TpmWire TpmsNvCertifyInfo)
  | .tpmsNvDigestCertifyInfo => inferInstanceAs (TpmWire TpmsNvDigestCertifyInfo)
  | .tpmsAlgorithmDetailEcc => inferInstanceAs (TpmWire TpmsAlgorithmDetailEcc)
  | .tpmsSchemeHash => inferInstanceAs (TpmWire TpmsSchemeHash)
  | .tpmsSchemeXor => inferInstanceAs (TpmWire TpmsSchemeXor)
  | .tpmsRsaParms => inferInstanceAs (TpmWire TpmsRsaParms)
  | .tpmsEccParms => inferInstanceAs (TpmWire TpmsEccParms)
  | .tpmtTkCreation => inferInstanceAs (TpmWire TpmtTkCreation)
  | .tpmtTkVerified => inferInstanceAs (TpmWire TpmtTkVerified)
  | .tpmtTkAuth => inferInstanceAs (TpmWire TpmtTkAuth)
  | .tpmtTkHashcheck => inferInstanceAs (TpmWire TpmtTkHashcheck)
  | .tpmtPublicParms => inferInstanceAs (TpmWire TpmtPublicParms)
  | .tpmtKdfScheme => inferInstanceAs (TpmWire TpmtKdfScheme)
  | .tpmtRsaDecrypt => inferInstanceAs (TpmWire TpmtRsaDecrypt)
  | .tpmtNvPublic2 => inferInstanceAs (TpmWire TpmtNvPublic2)
  | .tpmtHa => inferInstanceAs (TpmWire TpmtHa)
  | .tpmtSignature => inferInstanceAs (TpmWire TpmtSignature)
  | .tpmtKeyedhashScheme => inferInstanceAs (TpmWire TpmtKeyedhashScheme)
  | .tpmtSigScheme => inferInstanceAs (TpmWire TpmtSigScheme)
  | .tpmtRsaScheme => inferInstanceAs (TpmWire TpmtRsaScheme)
  | .tpmtEccScheme => inferInstanceAs (TpmWire TpmtEccScheme)
  | .tpmtSymDef => inferInstanceAs (TpmWire TpmtSymDef)
  | .tpmtPublic => inferInstanceAs (TpmWire TpmtPublic)
  | .tpmsAttest => inferInstanceAs (TpmWire TpmsAttest)
  | .tpm2bPublic => inferInstanceAs (TpmWire Tpm2bPublic)
  | .tpm2bSensitiveCreate => inferInstanceAs (TpmWire Tpm2bSensitiveCreate)
  | .tpm2bCreationData => inferInstanceAs (TpmWire Tpm2bCreationData)
  | .tpm2bAttest => inferInstanceAs (TpmWire Tpm2bAttest)
  | .tpm2bNvPublic => inferInstanceAs (TpmWire Tpm2bNvPublic)
  | .tpm2bIdObject => inferInstanceAs (TpmWire Tpm2bIdObject)
  | .tpm2bEccPoint => inferInstanceAs (TpmWire Tpm2bEccPoint)
  | .tpm2bNvPublic2 => inferInstanceAs (TpmWire Tpm2bNvPublic2)

instance ViewedType.view : (t : ViewedType) → TpmViewed t.Carrier
  | .tpmUint8 => inferInstanceAs (TpmViewed TpmUint8)
  | .tpmUint16 => inferInstanceAs (TpmViewed TpmUint16)
  | .tpmUint32 => inferInstanceAs (TpmViewed TpmUint32)
  | .tpmUint64 => inferInstanceAs (TpmViewed TpmUint64)
  | .tpmInt8 => inferInstanceAs (TpmViewed TpmInt8)
  | .tpmInt32 => inferInstanceAs (TpmViewed TpmInt32)
  | .tpmiYesNo => inferInstanceAs (TpmViewed TpmiYesNo)
  | .tpmAlgId => inferInstanceAs (TpmViewed TpmAlgId)
  | .tpmAt => inferInstanceAs (TpmViewed TpmAt)
  | .tpmCap => inferInstanceAs (TpmViewed TpmCap)
  | .tpmCc => inferInstanceAs (TpmViewed TpmCc)
  | .tpmClockAdjust => inferInstanceAs (TpmViewed TpmClockAdjust)
  | .tpmEo => inferInstanceAs (TpmViewed TpmEo)
  | .tpmEccCurve => inferInstanceAs (TpmViewed TpmEccCurve)
  | .tpmHt => inferInstanceAs (TpmViewed TpmHt)
  | .tpmPt => inferInstanceAs (TpmViewed TpmPt)
  | .tpmRh => inferInstanceAs (TpmViewed TpmRh)
  | .tpmSe => inferInstanceAs (TpmViewed TpmSe)
  | .tpmSt => inferInstanceAs (TpmViewed TpmSt)
  | .tpmSu => inferInstanceAs (TpmViewed TpmSu)
  | .tpmiEccKeyExchange => inferInstanceAs (TpmViewed TpmiEccKeyExchange)
  | .tpmRcBase => inferInstanceAs (TpmViewed TpmRcBase)
  | .tpmRc => inferInstanceAs (TpmViewed TpmRc)
  | .tpmaAct => inferInstanceAs (TpmViewed TpmaAct)
  | .tpmaAlgorithm => inferInstanceAs (TpmViewed TpmaAlgorithm)
  | .tpmaCc => inferInstanceAs (TpmViewed TpmaCc)
  | .tpmaLocality => inferInstanceAs (TpmViewed TpmaLocality)
  | .tpmaNv => inferInstanceAs (TpmViewed TpmaNv)
  | .tpmaNvExp => inferInstanceAs (TpmViewed TpmaNvExp)
  | .tpmaObject => inferInstanceAs (TpmViewed TpmaObject)
  | .tpmaSession => inferInstanceAs (TpmViewed TpmaSession)
  | .tpmsPcrSelect => inferInstanceAs (TpmViewed TpmsPcrSelect)
  | .tpmsPcrSelection => inferInstanceAs (TpmViewed TpmsPcrSelection)
  | .tpmsAcOutput => inferInstanceAs (TpmViewed TpmsAcOutput)
  | .tpmsActData => inferInstanceAs (TpmViewed TpmsActData)
  | .tpmsAlgProperty => inferInstanceAs (TpmViewed TpmsAlgProperty)
  | .tpmsAuthCommand => inferInstanceAs (TpmViewed TpmsAuthCommand)
  | .tpmsAuthResponse => inferInstanceAs (TpmViewed TpmsAuthResponse)
  | .tpmsClockInfo => inferInstanceAs (TpmViewed TpmsClockInfo)
  | .tpmsContext => inferInstanceAs (TpmViewed TpmsContext)
  | .tpmsCreationData => inferInstanceAs (TpmViewed TpmsCreationData)
  | .tpmsEccPoint => inferInstanceAs (TpmViewed TpmsEccPoint)
  | .tpmsEmpty => inferInstanceAs (TpmViewed TpmsEmpty)
  | .tpmsKeyedhashParms => inferInstanceAs (TpmViewed TpmsKeyedhashParms)
  | .tpmsNvPublic => inferInstanceAs (TpmViewed TpmsNvPublic)
  | .tpmsNvPublicExpAttr => inferInstanceAs (TpmViewed TpmsNvPublicExpAttr)
  | .tpmsSensitiveCreate => inferInstanceAs (TpmViewed TpmsSensitiveCreate)
  | .tpmsIdObject => inferInstanceAs (TpmViewed TpmsIdObject)
  | .tpmsSymcipherParms => inferInstanceAs (TpmViewed TpmsSymcipherParms)
  | .tpmsTaggedProperty => inferInstanceAs (TpmViewed TpmsTaggedProperty)
  | .tpmsTaggedPolicy => inferInstanceAs (TpmViewed TpmsTaggedPolicy)
  | .tpmsTimeInfo => inferInstanceAs (TpmViewed TpmsTimeInfo)
  | .tpmsSignatureRsa => inferInstanceAs (TpmViewed TpmsSignatureRsa)
  | .tpmsSignatureEcc => inferInstanceAs (TpmViewed TpmsSignatureEcc)
  | .tpmsTimeAttestInfo => inferInstanceAs (TpmViewed TpmsTimeAttestInfo)
  | .tpmsCertifyInfo => inferInstanceAs (TpmViewed TpmsCertifyInfo)
  | .tpmsQuoteInfo => inferInstanceAs (TpmViewed TpmsQuoteInfo)
  | .tpmsCommandAuditInfo => inferInstanceAs (TpmViewed TpmsCommandAuditInfo)
  | .tpmsSessionAuditInfo => inferInstanceAs (TpmViewed TpmsSessionAuditInfo)
  | .tpmsCreationInfo => inferInstanceAs (TpmViewed TpmsCreationInfo)
  | .tpmsNvCertifyInfo => inferInstanceAs (TpmViewed TpmsNvCertifyInfo)
  | .tpmsNvDigestCertifyInfo => inferInstanceAs (TpmViewed TpmsNvDigestCertifyInfo)
  | .tpmsAlgorithmDetailEcc => inferInstanceAs (TpmViewed TpmsAlgorithmDetailEcc)
  | .tpmsSchemeHash => inferInstanceAs (TpmViewed TpmsSchemeHash)
  | .tpmsSchemeXor => inferInstanceAs (TpmViewed TpmsSchemeXor)
  | .tpmsRsaParms => inferInstanceAs (TpmViewed TpmsRsaParms)
  | .tpmsEccParms => inferInstanceAs (TpmViewed TpmsEccParms)
  | .tpmtTkCreation => inferInstanceAs (TpmViewed TpmtTkCreation)
  | .tpmtTkVerified => inferInstanceAs (TpmViewed TpmtTkVerified)
  | .tpmtTkAuth => inferInstanceAs (TpmViewed TpmtTkAuth)
  | .tpmtTkHashcheck => inferInstanceAs (TpmViewed TpmtTkHashcheck)
  | .tpmtPublicParms => inferInstanceAs (TpmViewed TpmtPublicParms)
  | .tpmtKdfScheme => inferInstanceAs (TpmViewed TpmtKdfScheme)
  | .tpmtRsaDecrypt => inferInstanceAs (TpmViewed TpmtRsaDecrypt)
  | .tpmtNvPublic2 => inferInstanceAs (TpmViewed TpmtNvPublic2)
  | .tpmtHa => inferInstanceAs (TpmViewed TpmtHa)
  | .tpmtSignature => inferInstanceAs (TpmViewed TpmtSignature)
  | .tpmtKeyedhashScheme => inferInstanceAs (TpmViewed TpmtKeyedhashScheme)
  | .tpmtSigScheme => inferInstanceAs (TpmViewed TpmtSigScheme)
  | .tpmtRsaScheme => inferInstanceAs (TpmViewed TpmtRsaScheme)
  | .tpmtEccScheme => inferInstanceAs (TpmViewed TpmtEccScheme)
  | .tpmtSymDef => inferInstanceAs (TpmViewed TpmtSymDef)
  | .tpmtPublic => inferInstanceAs (TpmViewed TpmtPublic)
  | .tpmsAttest => inferInstanceAs (TpmViewed TpmsAttest)
  | .tpm2bPublic => inferInstanceAs (TpmViewed Tpm2bPublic)
  | .tpm2bSensitiveCreate => inferInstanceAs (TpmViewed Tpm2bSensitiveCreate)
  | .tpm2bCreationData => inferInstanceAs (TpmViewed Tpm2bCreationData)
  | .tpm2bAttest => inferInstanceAs (TpmViewed Tpm2bAttest)
  | .tpm2bNvPublic => inferInstanceAs (TpmViewed Tpm2bNvPublic)
  | .tpm2bIdObject => inferInstanceAs (TpmViewed Tpm2bIdObject)
  | .tpm2bEccPoint => inferInstanceAs (TpmViewed Tpm2bEccPoint)
  | .tpm2bNvPublic2 => inferInstanceAs (TpmViewed Tpm2bNvPublic2)

instance OwnedType.wire : (t : OwnedType) → TpmWire t.Carrier
  | .tpmtSensitive => inferInstanceAs (TpmWire TpmtSensitive)
  | .tpmsCapabilityData => inferInstanceAs (TpmWire TpmsCapabilityData)
  | .tpm2bSensitive => inferInstanceAs (TpmWire Tpm2bSensitive)

instance DataType.wire {viewed : Bool} : (t : DataType viewed) → TpmWire t.Carrier
  | .viewed t => t.wire
  | .owned t => t.wire
  | .buffer capacity => inferInstanceAs (TpmWire (TpmBuffer capacity))
  | .list item capacity =>
      letI := item.wire
      inferInstanceAs (TpmWire (TpmList item.Carrier capacity))

instance DataType.view : (t : DataType true) → TpmViewed t.Carrier
  | .viewed t => t.view
  | .buffer capacity => inferInstanceAs (TpmViewed (TpmBuffer capacity))
  | .list item capacity =>
      letI := item.view
      inferInstanceAs (TpmViewed (TpmList item.Carrier capacity))

instance UnionType.union : (u : UnionType) → TpmUnion u.Carrier u.Tag
  | .tpmuAsymScheme => inferInstanceAs (TpmUnion TpmuAsymScheme TpmAlgId)
  | .tpmuCapabilities => inferInstanceAs (TpmUnion TpmuCapabilities TpmCap)
  | .tpmuHa => inferInstanceAs (TpmUnion TpmuHa TpmAlgId)
  | .tpmuPublicId => inferInstanceAs (TpmUnion TpmuPublicId TpmAlgId)
  | .tpmuPublicParms => inferInstanceAs (TpmUnion TpmuPublicParms TpmAlgId)
  | .tpmuSensitiveComposite => inferInstanceAs (TpmUnion TpmuSensitiveComposite TpmAlgId)
  | .tpmuSymKeyBits => inferInstanceAs (TpmUnion TpmuSymKeyBits TpmAlgId)
  | .tpmuSymMode => inferInstanceAs (TpmUnion TpmuSymMode TpmAlgId)
  | .tpmuSignature => inferInstanceAs (TpmUnion TpmuSignature TpmAlgId)
  | .tpmuAttest => inferInstanceAs (TpmUnion TpmuAttest TpmSt)
  | .tpmuKeyedhashScheme => inferInstanceAs (TpmUnion TpmuKeyedhashScheme TpmAlgId)
  | .tpmuSigScheme => inferInstanceAs (TpmUnion TpmuSigScheme TpmAlgId)
  | .tpmuNvPublic2 => inferInstanceAs (TpmUnion TpmuNvPublic2 TpmHt)
  | .tpmuKdfScheme => inferInstanceAs (TpmUnion TpmuKdfScheme TpmAlgId)

instance UnionType.view : (u : UnionType) → TpmUnionView u.Carrier u.Tag
  | .tpmuAsymScheme => inferInstanceAs (TpmUnionView TpmuAsymScheme TpmAlgId)
  | .tpmuCapabilities => inferInstanceAs (TpmUnionView TpmuCapabilities TpmCap)
  | .tpmuHa => inferInstanceAs (TpmUnionView TpmuHa TpmAlgId)
  | .tpmuPublicId => inferInstanceAs (TpmUnionView TpmuPublicId TpmAlgId)
  | .tpmuPublicParms => inferInstanceAs (TpmUnionView TpmuPublicParms TpmAlgId)
  | .tpmuSensitiveComposite => inferInstanceAs (TpmUnionView TpmuSensitiveComposite TpmAlgId)
  | .tpmuSymKeyBits => inferInstanceAs (TpmUnionView TpmuSymKeyBits TpmAlgId)
  | .tpmuSymMode => inferInstanceAs (TpmUnionView TpmuSymMode TpmAlgId)
  | .tpmuSignature => inferInstanceAs (TpmUnionView TpmuSignature TpmAlgId)
  | .tpmuAttest => inferInstanceAs (TpmUnionView TpmuAttest TpmSt)
  | .tpmuKeyedhashScheme => inferInstanceAs (TpmUnionView TpmuKeyedhashScheme TpmAlgId)
  | .tpmuSigScheme => inferInstanceAs (TpmUnionView TpmuSigScheme TpmAlgId)
  | .tpmuNvPublic2 => inferInstanceAs (TpmUnionView TpmuNvPublic2 TpmHt)
  | .tpmuKdfScheme => inferInstanceAs (TpmUnionView TpmuKdfScheme TpmAlgId)

/-- A structure that holds a tag next to the payload it selects. -/
inductive TaggedType
  | tpmtPublic | tpmtSensitive | tpmtPublicParms | tpmtKdfScheme | tpmtRsaDecrypt | tpmtNvPublic2
  | tpmtHa | tpmtSignature | tpmtKeyedhashScheme | tpmtSigScheme | tpmtRsaScheme | tpmtEccScheme
  | tpmtSymDef | tpmsCapabilityData | tpmsAttest

def TaggedType.Carrier : TaggedType → Type
  | .tpmtPublic => TpmtPublic
  | .tpmtSensitive => TpmtSensitive
  | .tpmtPublicParms => TpmtPublicParms
  | .tpmtKdfScheme => TpmtKdfScheme
  | .tpmtRsaDecrypt => TpmtRsaDecrypt
  | .tpmtNvPublic2 => TpmtNvPublic2
  | .tpmtHa => TpmtHa
  | .tpmtSignature => TpmtSignature
  | .tpmtKeyedhashScheme => TpmtKeyedhashScheme
  | .tpmtSigScheme => TpmtSigScheme
  | .tpmtRsaScheme => TpmtRsaScheme
  | .tpmtEccScheme => TpmtEccScheme
  | .tpmtSymDef => TpmtSymDef
  | .tpmsCapabilityData => TpmsCapabilityData
  | .tpmsAttest => TpmsAttest

instance TaggedType.wire : (t : TaggedType) → TpmWire t.Carrier
  | .tpmtPublic => inferInstanceAs (TpmWire TpmtPublic)
  | .tpmtSensitive => inferInstanceAs (TpmWire TpmtSensitive)
  | .tpmtPublicParms => inferInstanceAs (TpmWire TpmtPublicParms)
  | .tpmtKdfScheme => inferInstanceAs (TpmWire TpmtKdfScheme)
  | .tpmtRsaDecrypt => inferInstanceAs (TpmWire TpmtRsaDecrypt)
  | .tpmtNvPublic2 => inferInstanceAs (TpmWire TpmtNvPublic2)
  | .tpmtHa => inferInstanceAs (TpmWire TpmtHa)
  | .tpmtSignature => inferInstanceAs (TpmWire TpmtSignature)
  | .tpmtKeyedhashScheme => inferInstanceAs (TpmWire TpmtKeyedhashScheme)
  | .tpmtSigScheme => inferInstanceAs (TpmWire TpmtSigScheme)
  | .tpmtRsaScheme => inferInstanceAs (TpmWire TpmtRsaScheme)
  | .tpmtEccScheme => inferInstanceAs (TpmWire TpmtEccScheme)
  | .tpmtSymDef => inferInstanceAs (TpmWire TpmtSymDef)
  | .tpmsCapabilityData => inferInstanceAs (TpmWire TpmsCapabilityData)
  | .tpmsAttest => inferInstanceAs (TpmWire TpmsAttest)

end Tpm2
