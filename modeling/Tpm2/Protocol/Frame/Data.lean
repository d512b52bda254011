import Tpm2.Protocol.Frame.Body

/-! The command and response types: for each its code, the number of its handles and the types of
its parameters, in wire order. -/

namespace Tpm2

abbrev TpmAcGetCapabilityCommand : TpmBodyType := ⟨.acGetCapability, 1, TpmAt × TpmUint32 × Unit⟩
abbrev TpmAcGetCapabilityResponse : TpmBodyType :=
  ⟨.acGetCapability, 0, TpmiYesNo × TpmlAcCapabilities × Unit⟩

abbrev TpmAcSendCommand : TpmBodyType := ⟨.acSend, 3, Tpm2bMaxBuffer × Unit⟩
abbrev TpmAcSendResponse : TpmBodyType := ⟨.acSend, 0, TpmsAcOutput × Unit⟩

abbrev TpmActivateCredentialCommand : TpmBodyType :=
  ⟨.activateCredential, 2, Tpm2bIdObject × Tpm2bEncryptedSecret × Unit⟩
abbrev TpmActivateCredentialResponse : TpmBodyType := ⟨.activateCredential, 0, Tpm2bDigest × Unit⟩

abbrev TpmActSetTimeoutCommand : TpmBodyType := ⟨.actSetTimeout, 1, TpmUint32 × Unit⟩
abbrev TpmActSetTimeoutResponse : TpmBodyType := ⟨.actSetTimeout, 0, Unit⟩

abbrev TpmChangeEpsCommand : TpmBodyType := ⟨.changeEps, 1, Unit⟩
abbrev TpmChangeEpsResponse : TpmBodyType := ⟨.changeEps, 0, Unit⟩

abbrev TpmChangePpsCommand : TpmBodyType := ⟨.changePps, 1, Unit⟩
abbrev TpmChangePpsResponse : TpmBodyType := ⟨.changePps, 0, Unit⟩

abbrev TpmCertifyCommand : TpmBodyType := ⟨.certify, 2, Tpm2bData × TpmtSigScheme × Unit⟩
abbrev TpmCertifyResponse : TpmBodyType := ⟨.certify, 0, Tpm2bAttest × TpmtSignature × Unit⟩

abbrev TpmCertifyCreationCommand : TpmBodyType :=
  ⟨.certifyCreation, 2, Tpm2bData × Tpm2bDigest × TpmtSigScheme × TpmtTkCreation × Unit⟩
abbrev TpmCertifyCreationResponse : TpmBodyType :=
  ⟨.certifyCreation, 0, Tpm2bAttest × TpmtSignature × Unit⟩

abbrev TpmClearCommand : TpmBodyType := ⟨.clear, 1, Unit⟩
abbrev TpmClearResponse : TpmBodyType := ⟨.clear, 0, Unit⟩

abbrev TpmClearControlCommand : TpmBodyType := ⟨.clearControl, 1, TpmiYesNo × Unit⟩
abbrev TpmClearControlResponse : TpmBodyType := ⟨.clearControl, 0, Unit⟩

abbrev TpmClockRateAdjustCommand : TpmBodyType := ⟨.clockRateAdjust, 1, TpmClockAdjust × Unit⟩
abbrev TpmClockRateAdjustResponse : TpmBodyType := ⟨.clockRateAdjust, 0, Unit⟩

abbrev TpmClockSetCommand : TpmBodyType := ⟨.clockSet, 1, TpmUint64 × Unit⟩
abbrev TpmClockSetResponse : TpmBodyType := ⟨.clockSet, 0, Unit⟩

abbrev TpmCommitCommand : TpmBodyType :=
  ⟨.commit, 1, Tpm2bEccPoint × Tpm2bSensitiveData × Tpm2bEccParameter × Unit⟩
abbrev TpmCommitResponse : TpmBodyType :=
  ⟨.commit, 0, Tpm2bEccPoint × Tpm2bEccPoint × Tpm2bEccPoint × TpmUint16 × Unit⟩

abbrev TpmContextLoadCommand : TpmBodyType := ⟨.contextLoad, 0, TpmsContext × Unit⟩
abbrev TpmContextLoadResponse : TpmBodyType := ⟨.contextLoad, 1, Unit⟩

abbrev TpmContextSaveCommand : TpmBodyType := ⟨.contextSave, 1, Unit⟩
abbrev TpmContextSaveResponse : TpmBodyType := ⟨.contextSave, 0, TpmsContext × Unit⟩

abbrev TpmCreateCommand : TpmBodyType :=
  ⟨.create, 1, Tpm2bSensitiveCreate × Tpm2bPublic × Tpm2bData × TpmlPcrSelection × Unit⟩
abbrev TpmCreateResponse : TpmBodyType :=
  ⟨.create, 0, Tpm2bPrivate × Tpm2bPublic × Tpm2bCreationData × Tpm2bDigest × TpmtTkCreation × Unit⟩

abbrev TpmCreateLoadedCommand : TpmBodyType :=
  ⟨.createLoaded, 1, Tpm2bSensitiveCreate × Tpm2bTemplate × Unit⟩
abbrev TpmCreateLoadedResponse : TpmBodyType :=
  ⟨.createLoaded, 1, Tpm2bPrivate × Tpm2bPublic × Tpm2bName × Unit⟩

abbrev TpmCreatePrimaryCommand : TpmBodyType :=
  ⟨.createPrimary, 1, Tpm2bSensitiveCreate × Tpm2bPublic × Tpm2bData × TpmlPcrSelection × Unit⟩
abbrev TpmCreatePrimaryResponse : TpmBodyType :=
  ⟨.createPrimary, 1, Tpm2bPublic × Tpm2bCreationData × Tpm2bDigest × TpmtTkCreation × Tpm2bName ×
    Unit⟩

abbrev TpmDictionaryAttackLockResetCommand : TpmBodyType := ⟨.dictionaryAttackLockReset, 1, Unit⟩
abbrev TpmDictionaryAttackLockResetResponse : TpmBodyType := ⟨.dictionaryAttackLockReset, 0, Unit⟩

abbrev TpmDictionaryAttackParametersCommand : TpmBodyType :=
  ⟨.dictionaryAttackParameters, 1, TpmUint32 × TpmUint32 × TpmUint32 × Unit⟩
abbrev TpmDictionaryAttackParametersResponse : TpmBodyType := ⟨.dictionaryAttackParameters, 0, Unit⟩

abbrev TpmDuplicateCommand : TpmBodyType := ⟨.duplicate, 2, Tpm2bData × TpmtSymDefObject × Unit⟩
abbrev TpmDuplicateResponse : TpmBodyType :=
  ⟨.duplicate, 0, Tpm2bData × Tpm2bPrivate × Tpm2bEncryptedSecret × Unit⟩

abbrev TpmEccDecryptCommand : TpmBodyType :=
  ⟨.eccDecrypt, 1, Tpm2bEccPoint × Tpm2bMaxBuffer × Tpm2bDigest × TpmtKdfScheme × Unit⟩
abbrev TpmEccDecryptResponse : TpmBodyType := ⟨.eccDecrypt, 0, Tpm2bMaxBuffer × Unit⟩

abbrev TpmEcEphemeralCommand : TpmBodyType := ⟨.ecEphemeral, 0, TpmEccCurve × Unit⟩
abbrev TpmEcEphemeralResponse : TpmBodyType := ⟨.ecEphemeral, 0, Tpm2bEccPoint × TpmUint16 × Unit⟩

abbrev TpmEccEncryptCommand : TpmBodyType := ⟨.eccEncrypt, 1, Tpm2bMaxBuffer × TpmtKdfScheme × Unit⟩
abbrev TpmEccEncryptResponse : TpmBodyType :=
  ⟨.eccEncrypt, 0, Tpm2bEccPoint × Tpm2bMaxBuffer × Tpm2bDigest × Unit⟩

abbrev TpmEccParametersCommand : TpmBodyType := ⟨.eccParameters, 0, TpmEccCurve × Unit⟩
abbrev TpmEccParametersResponse : TpmBodyType := ⟨.eccParameters, 0, TpmsAlgorithmDetailEcc × Unit⟩

abbrev TpmEcdhKeyGenCommand : TpmBodyType := ⟨.ecdhKeyGen, 1, Unit⟩
abbrev TpmEcdhKeyGenResponse : TpmBodyType := ⟨.ecdhKeyGen, 0, Tpm2bEccPoint × Tpm2bEccPoint × Unit⟩

abbrev TpmEcdhZGenCommand : TpmBodyType := ⟨.ecdhZGen, 1, Tpm2bEccPoint × Unit⟩
abbrev TpmEcdhZGenResponse : TpmBodyType := ⟨.ecdhZGen, 0, Tpm2bEccPoint × Unit⟩

abbrev TpmEncryptDecryptCommand : TpmBodyType :=
  ⟨.encryptDecrypt, 1, TpmiYesNo × TpmiAlgCipherMode × Tpm2bIv × Tpm2bMaxBuffer × Unit⟩
abbrev TpmEncryptDecryptResponse : TpmBodyType :=
  ⟨.encryptDecrypt, 0, Tpm2bMaxBuffer × Tpm2bIv × Unit⟩

abbrev TpmEncryptDecrypt2Command : TpmBodyType :=
  ⟨.encryptDecrypt2, 1, Tpm2bMaxBuffer × TpmiYesNo × TpmAlgId × Tpm2bIv × Unit⟩
abbrev TpmEncryptDecrypt2Response : TpmBodyType :=
  ⟨.encryptDecrypt2, 0, Tpm2bMaxBuffer × Tpm2bIv × Unit⟩

abbrev TpmEventSequenceCompleteCommand : TpmBodyType :=
  ⟨.eventSequenceComplete, 2, Tpm2bMaxBuffer × Unit⟩
abbrev TpmEventSequenceCompleteResponse : TpmBodyType :=
  ⟨.eventSequenceComplete, 0, TpmlDigestValues × Unit⟩

abbrev TpmEvictControlCommand : TpmBodyType := ⟨.evictControl, 2, TpmHandle × Unit⟩
abbrev TpmEvictControlResponse : TpmBodyType := ⟨.evictControl, 0, Unit⟩

abbrev TpmFieldUpgradeDataCommand : TpmBodyType := ⟨.fieldUpgradeData, 0, Tpm2bMaxBuffer × Unit⟩
abbrev TpmFieldUpgradeDataResponse : TpmBodyType := ⟨.fieldUpgradeData, 0, TpmtHa × TpmtHa × Unit⟩

abbrev TpmFieldUpgradeStartCommand : TpmBodyType :=
  ⟨.fieldUpgradeStart, 2, Tpm2bDigest × TpmtSignature × Unit⟩
abbrev TpmFieldUpgradeStartResponse : TpmBodyType := ⟨.fieldUpgradeStart, 0, Unit⟩

abbrev TpmFirmwareReadCommand : TpmBodyType := ⟨.firmwareRead, 0, TpmUint32 × Unit⟩
abbrev TpmFirmwareReadResponse : TpmBodyType := ⟨.firmwareRead, 0, Tpm2bMaxBuffer × Unit⟩

abbrev TpmFlushContextCommand : TpmBodyType := ⟨.flushContext, 0, TpmHandle × Unit⟩
abbrev TpmFlushContextResponse : TpmBodyType := ⟨.flushContext, 0, Unit⟩

abbrev TpmGetCapabilityCommand : TpmBodyType :=
  ⟨.getCapability, 0, TpmCap × TpmUint32 × TpmUint32 × Unit⟩
abbrev TpmGetCapabilityResponse : TpmBodyType :=
  ⟨.getCapability, 0, TpmiYesNo × TpmsCapabilityData × Unit⟩

abbrev TpmGetCommandAuditDigestCommand : TpmBodyType :=
  ⟨.getCommandAuditDigest, 2, Tpm2bData × TpmtSigScheme × Unit⟩
abbrev TpmGetCommandAuditDigestResponse : TpmBodyType :=
  ⟨.getCommandAuditDigest, 0, Tpm2bAttest × TpmtSignature × Unit⟩

abbrev TpmGetRandomCommand : TpmBodyType := ⟨.getRandom, 0, TpmUint16 × Unit⟩
abbrev TpmGetRandomResponse : TpmBodyType := ⟨.getRandom, 0, Tpm2bDigest × Unit⟩

abbrev TpmGetSessionAuditDigestCommand : TpmBodyType :=
  ⟨.getSessionAuditDigest, 3, Tpm2bData × TpmtSigScheme × Unit⟩
abbrev TpmGetSessionAuditDigestResponse : TpmBodyType :=
  ⟨.getSessionAuditDigest, 0, Tpm2bAttest × TpmtSignature × Unit⟩

abbrev TpmGetTestResultCommand : TpmBodyType := ⟨.getTestResult, 0, Unit⟩
abbrev TpmGetTestResultResponse : TpmBodyType := ⟨.getTestResult, 0, Tpm2bMaxBuffer × TpmRc × Unit⟩

abbrev TpmGetTimeCommand : TpmBodyType := ⟨.getTime, 2, Tpm2bData × TpmtSigScheme × Unit⟩
abbrev TpmGetTimeResponse : TpmBodyType := ⟨.getTime, 0, Tpm2bAttest × TpmtSignature × Unit⟩

abbrev TpmHashCommand : TpmBodyType := ⟨.hash, 0, Tpm2bMaxBuffer × TpmAlgId × TpmRh × Unit⟩
abbrev TpmHashResponse : TpmBodyType := ⟨.hash, 0, Tpm2bDigest × TpmtTkHashcheck × Unit⟩

abbrev TpmHashSequenceStartCommand : TpmBodyType :=
  ⟨.hashSequenceStart, 0, Tpm2bAuth × TpmAlgId × Unit⟩
abbrev TpmHashSequenceStartResponse : TpmBodyType := ⟨.hashSequenceStart, 1, Unit⟩

abbrev TpmHierarchyChangeAuthCommand : TpmBodyType := ⟨.hierarchyChangeAuth, 1, Tpm2bAuth × Unit⟩
abbrev TpmHierarchyChangeAuthResponse : TpmBodyType := ⟨.hierarchyChangeAuth, 0, Unit⟩

abbrev TpmHierarchyControlCommand : TpmBodyType := ⟨.hierarchyControl, 1, TpmRh × TpmiYesNo × Unit⟩
abbrev TpmHierarchyControlResponse : TpmBodyType := ⟨.hierarchyControl, 0, Unit⟩

abbrev TpmHmacCommand : TpmBodyType := ⟨.hmac, 1, Tpm2bMaxBuffer × TpmiAlgHash × Unit⟩
abbrev TpmHmacResponse : TpmBodyType := ⟨.hmac, 0, Tpm2bDigest × Unit⟩

abbrev TpmHmacStartCommand : TpmBodyType := ⟨.hmacStart, 1, Tpm2bAuth × TpmAlgId × Unit⟩
abbrev TpmHmacStartResponse : TpmBodyType := ⟨.hmacStart, 1, Unit⟩

abbrev TpmImportCommand : TpmBodyType :=
  ⟨.«import», 1, Tpm2bData × Tpm2bPublic × Tpm2bPrivate × Tpm2bEncryptedSecret × TpmtSymDef × Unit⟩
abbrev TpmImportResponse : TpmBodyType := ⟨.«import», 0, Tpm2bPrivate × Unit⟩

abbrev TpmIncrementalSelfTestCommand : TpmBodyType := ⟨.incrementalSelfTest, 0, TpmlAlg × Unit⟩
abbrev TpmIncrementalSelfTestResponse : TpmBodyType := ⟨.incrementalSelfTest, 0, TpmlAlg × Unit⟩

abbrev TpmLoadCommand : TpmBodyType := ⟨.load, 1, Tpm2bPrivate × Tpm2bPublic × Unit⟩
abbrev TpmLoadResponse : TpmBodyType := ⟨.load, 1, Tpm2bName × Unit⟩

abbrev TpmLoadExternalCommand : TpmBodyType :=
  ⟨.loadExternal, 0, Tpm2bSensitive × Tpm2bPublic × TpmRh × Unit⟩
abbrev TpmLoadExternalResponse : TpmBodyType := ⟨.loadExternal, 1, Tpm2bName × Unit⟩

abbrev TpmMakeCredentialCommand : TpmBodyType :=
  ⟨.makeCredential, 1, Tpm2bDigest × Tpm2bName × Unit⟩
abbrev TpmMakeCredentialResponse : TpmBodyType :=
  ⟨.makeCredential, 0, Tpm2bIdObject × Tpm2bEncryptedSecret × Unit⟩

abbrev TpmNvCertifyCommand : TpmBodyType :=
  ⟨.nvCertify, 3, Tpm2bData × TpmtSigScheme × TpmUint16 × TpmUint16 × Unit⟩
abbrev TpmNvCertifyResponse : TpmBodyType := ⟨.nvCertify, 0, Tpm2bAttest × TpmtSignature × Unit⟩

abbrev TpmNvChangeAuthCommand : TpmBodyType := ⟨.nvChangeAuth, 1, Tpm2bAuth × Unit⟩
abbrev TpmNvChangeAuthResponse : TpmBodyType := ⟨.nvChangeAuth, 0, Unit⟩

abbrev TpmNvDefineSpaceCommand : TpmBodyType :=
  ⟨.nvDefineSpace, 1, Tpm2bAuth × Tpm2bNvPublic × Unit⟩
abbrev TpmNvDefineSpaceResponse : TpmBodyType := ⟨.nvDefineSpace, 0, Unit⟩

abbrev TpmNvDefineSpace2Command : TpmBodyType :=
  ⟨.nvDefineSpace2, 1, Tpm2bAuth × Tpm2bNvPublic2 × Unit⟩
abbrev TpmNvDefineSpace2Response : TpmBodyType := ⟨.nvDefineSpace2, 0, Unit⟩

abbrev TpmNvExtendCommand : TpmBodyType := ⟨.nvExtend, 2, Tpm2bMaxNvBuffer × Unit⟩
abbrev TpmNvExtendResponse : TpmBodyType := ⟨.nvExtend, 0, Unit⟩

abbrev TpmNvGlobalWriteLockCommand : TpmBodyType := ⟨.nvGlobalWriteLock, 1, Unit⟩
abbrev TpmNvGlobalWriteLockResponse : TpmBodyType := ⟨.nvGlobalWriteLock, 0, Unit⟩

abbrev TpmNvIncrementCommand : TpmBodyType := ⟨.nvIncrement, 2, Unit⟩
abbrev TpmNvIncrementResponse : TpmBodyType := ⟨.nvIncrement, 0, Unit⟩

abbrev TpmNvReadCommand : TpmBodyType := ⟨.nvRead, 2, TpmUint16 × TpmUint16 × Unit⟩
abbrev TpmNvReadResponse : TpmBodyType := ⟨.nvRead, 0, Tpm2bMaxNvBuffer × Unit⟩

abbrev TpmNvReadLockCommand : TpmBodyType := ⟨.nvReadLock, 2, Unit⟩
abbrev TpmNvReadLockResponse : TpmBodyType := ⟨.nvReadLock, 0, Unit⟩

abbrev TpmNvReadPublicCommand : TpmBodyType := ⟨.nvReadPublic, 1, Unit⟩
abbrev TpmNvReadPublicResponse : TpmBodyType := ⟨.nvReadPublic, 0, Tpm2bNvPublic × Tpm2bName × Unit⟩

abbrev TpmNvReadPublic2Command : TpmBodyType := ⟨.nvReadPublic2, 1, Unit⟩
abbrev TpmNvReadPublic2Response : TpmBodyType :=
  ⟨.nvReadPublic2, 0, Tpm2bNvPublic2 × Tpm2bName × Unit⟩

abbrev TpmNvSetBitsCommand : TpmBodyType := ⟨.nvSetBits, 2, TpmUint64 × Unit⟩
abbrev TpmNvSetBitsResponse : TpmBodyType := ⟨.nvSetBits, 0, Unit⟩

abbrev TpmNvUndefineSpaceCommand : TpmBodyType := ⟨.nvUndefineSpace, 2, Unit⟩
abbrev TpmNvUndefineSpaceResponse : TpmBodyType := ⟨.nvUndefineSpace, 0, Unit⟩

abbrev TpmNvUndefineSpaceSpecialCommand : TpmBodyType := ⟨.nvUndefineSpaceSpecial, 2, Unit⟩
abbrev TpmNvUndefineSpaceSpecialResponse : TpmBodyType := ⟨.nvUndefineSpaceSpecial, 0, Unit⟩

abbrev TpmNvWriteCommand : TpmBodyType := ⟨.nvWrite, 2, Tpm2bMaxNvBuffer × TpmUint16 × Unit⟩
abbrev TpmNvWriteResponse : TpmBodyType := ⟨.nvWrite, 0, Unit⟩

abbrev TpmNvWriteLockCommand : TpmBodyType := ⟨.nvWriteLock, 2, Unit⟩
abbrev TpmNvWriteLockResponse : TpmBodyType := ⟨.nvWriteLock, 0, Unit⟩

abbrev TpmObjectChangeAuthCommand : TpmBodyType := ⟨.objectChangeAuth, 2, Tpm2bAuth × Unit⟩
abbrev TpmObjectChangeAuthResponse : TpmBodyType := ⟨.objectChangeAuth, 0, Tpm2bPrivate × Unit⟩

abbrev TpmPcrAllocateCommand : TpmBodyType := ⟨.pcrAllocate, 1, TpmlPcrSelection × Unit⟩
abbrev TpmPcrAllocateResponse : TpmBodyType :=
  ⟨.pcrAllocate, 0, TpmiYesNo × TpmUint32 × TpmUint32 × TpmUint32 × Unit⟩

abbrev TpmPcrEventCommand : TpmBodyType := ⟨.pcrEvent, 1, Tpm2bEvent × Unit⟩
abbrev TpmPcrEventResponse : TpmBodyType := ⟨.pcrEvent, 0, TpmlDigestValues × Unit⟩

abbrev TpmPcrExtendCommand : TpmBodyType := ⟨.pcrExtend, 1, TpmlDigestValues × Unit⟩
abbrev TpmPcrExtendResponse : TpmBodyType := ⟨.pcrExtend, 0, Unit⟩

abbrev TpmPcrResetCommand : TpmBodyType := ⟨.pcrReset, 1, Unit⟩
abbrev TpmPcrResetResponse : TpmBodyType := ⟨.pcrReset, 0, Unit⟩

abbrev TpmPcrReadCommand : TpmBodyType := ⟨.pcrRead, 0, TpmlPcrSelection × Unit⟩
abbrev TpmPcrReadResponse : TpmBodyType :=
  ⟨.pcrRead, 0, TpmUint32 × TpmlPcrSelection × TpmlDigest × Unit⟩

abbrev TpmPcrSetAuthPolicyCommand : TpmBodyType :=
  ⟨.pcrSetAuthPolicy, 1, Tpm2bDigest × TpmAlgId × TpmiDhPcr × Unit⟩
abbrev TpmPcrSetAuthPolicyResponse : TpmBodyType := ⟨.pcrSetAuthPolicy, 0, Unit⟩

abbrev TpmPcrSetAuthValueCommand : TpmBodyType := ⟨.pcrSetAuthValue, 1, Tpm2bDigest × Unit⟩
abbrev TpmPcrSetAuthValueResponse : TpmBodyType := ⟨.pcrSetAuthValue, 0, Unit⟩

abbrev TpmPolicyAcSendSelectCommand : TpmBodyType :=
  ⟨.policyAcSendSelect, 3, Tpm2bName × Tpm2bName × Tpm2bName × TpmiYesNo × Unit⟩
abbrev TpmPolicyAcSendSelectResponse : TpmBodyType := ⟨.policyAcSendSelect, 0, Unit⟩

abbrev TpmPolicyAuthorizeCommand : TpmBodyType :=
  ⟨.policyAuthorize, 1, Tpm2bDigest × Tpm2bNonce × Tpm2bName × TpmtTkVerified × Unit⟩
abbrev TpmPolicyAuthorizeResponse : TpmBodyType := ⟨.policyAuthorize, 0, Unit⟩

abbrev TpmPolicyAuthorizeNvCommand : TpmBodyType := ⟨.policyAuthorizeNv, 3, Unit⟩
abbrev TpmPolicyAuthorizeNvResponse : TpmBodyType := ⟨.policyAuthorizeNv, 0, Unit⟩

abbrev TpmPolicyAuthValueCommand : TpmBodyType := ⟨.policyAuthValue, 1, Unit⟩
abbrev TpmPolicyAuthValueResponse : TpmBodyType := ⟨.policyAuthValue, 0, Unit⟩

abbrev TpmPolicyCapabilityCommand : TpmBodyType :=
  ⟨.policyCapability, 1, TpmCap × TpmUint32 × TpmEo × Tpm2bMaxBuffer × Unit⟩
abbrev TpmPolicyCapabilityResponse : TpmBodyType := ⟨.policyCapability, 0, Unit⟩

abbrev TpmPolicyCommandCodeCommand : TpmBodyType := ⟨.policyCommandCode, 1, TpmCc × Unit⟩
abbrev TpmPolicyCommandCodeResponse : TpmBodyType := ⟨.policyCommandCode, 0, Unit⟩

abbrev TpmPolicyCounterTimerCommand : TpmBodyType :=
  ⟨.policyCounterTimer, 1, Tpm2bMaxBuffer × TpmUint16 × TpmEo × Unit⟩
abbrev TpmPolicyCounterTimerResponse : TpmBodyType := ⟨.policyCounterTimer, 0, Unit⟩

abbrev TpmPolicyCpHashCommand : TpmBodyType := ⟨.policyCpHash, 1, Tpm2bDigest × Unit⟩
abbrev TpmPolicyCpHashResponse : TpmBodyType := ⟨.policyCpHash, 0, Unit⟩

abbrev TpmPolicyDuplicationSelectCommand : TpmBodyType :=
  ⟨.policyDuplicationSelect, 1, Tpm2bName × Tpm2bName × TpmiYesNo × Unit⟩
abbrev TpmPolicyDuplicationSelectResponse : TpmBodyType := ⟨.policyDuplicationSelect, 0, Unit⟩

abbrev TpmPolicyGetDigestCommand : TpmBodyType := ⟨.policyGetDigest, 1, Unit⟩
abbrev TpmPolicyGetDigestResponse : TpmBodyType := ⟨.policyGetDigest, 0, Tpm2bDigest × Unit⟩

abbrev TpmPolicyLocalityCommand : TpmBodyType := ⟨.policyLocality, 1, TpmaLocality × Unit⟩
abbrev TpmPolicyLocalityResponse : TpmBodyType := ⟨.policyLocality, 0, Unit⟩

abbrev TpmPolicyNameHashCommand : TpmBodyType := ⟨.policyNameHash, 1, Tpm2bDigest × Unit⟩
abbrev TpmPolicyNameHashResponse : TpmBodyType := ⟨.policyNameHash, 0, Unit⟩

abbrev TpmPolicyNvCommand : TpmBodyType := ⟨.policyNv, 3, Tpm2bMaxBuffer × TpmUint16 × TpmEo × Unit⟩
abbrev TpmPolicyNvResponse : TpmBodyType := ⟨.policyNv, 0, Unit⟩

abbrev TpmPolicyNvWrittenCommand : TpmBodyType := ⟨.policyNvWritten, 1, TpmiYesNo × Unit⟩
abbrev TpmPolicyNvWrittenResponse : TpmBodyType := ⟨.policyNvWritten, 0, Unit⟩

abbrev TpmPolicyOrCommand : TpmBodyType := ⟨.policyOr, 1, TpmlDigest × Unit⟩
abbrev TpmPolicyOrResponse : TpmBodyType := ⟨.policyOr, 0, Unit⟩

abbrev TpmPolicyParametersCommand : TpmBodyType := ⟨.policyParameters, 1, Tpm2bDigest × Unit⟩
abbrev TpmPolicyParametersResponse : TpmBodyType := ⟨.policyParameters, 0, Unit⟩

abbrev TpmPolicyPasswordCommand : TpmBodyType := ⟨.policyPassword, 1, Unit⟩
abbrev TpmPolicyPasswordResponse : TpmBodyType := ⟨.policyPassword, 0, Unit⟩

abbrev TpmPolicyPhysicalPresenceCommand : TpmBodyType := ⟨.policyPhysicalPresence, 1, Unit⟩
abbrev TpmPolicyPhysicalPresenceResponse : TpmBodyType := ⟨.policyPhysicalPresence, 0, Unit⟩

abbrev TpmPolicyPcrCommand : TpmBodyType := ⟨.policyPcr, 1, Tpm2bDigest × TpmlPcrSelection × Unit⟩
abbrev TpmPolicyPcrResponse : TpmBodyType := ⟨.policyPcr, 0, Unit⟩

abbrev TpmPolicyRestartCommand : TpmBodyType := ⟨.policyRestart, 1, Unit⟩
abbrev TpmPolicyRestartResponse : TpmBodyType := ⟨.policyRestart, 0, Unit⟩

abbrev TpmPolicySecretCommand : TpmBodyType :=
  ⟨.policySecret, 2, Tpm2bNonce × Tpm2bDigest × Tpm2bNonce × TpmInt32 × Unit⟩
abbrev TpmPolicySecretResponse : TpmBodyType := ⟨.policySecret, 0, Tpm2bTimeout × TpmtTkAuth × Unit⟩

abbrev TpmPolicySignedCommand : TpmBodyType :=
  ⟨.policySigned, 2, Tpm2bNonce × Tpm2bDigest × Tpm2bNonce × TpmInt32 × TpmtSignature × Unit⟩
abbrev TpmPolicySignedResponse : TpmBodyType := ⟨.policySigned, 0, Tpm2bTimeout × TpmtTkAuth × Unit⟩

abbrev TpmPolicyTemplateCommand : TpmBodyType := ⟨.policyTemplate, 1, Tpm2bDigest × Unit⟩
abbrev TpmPolicyTemplateResponse : TpmBodyType := ⟨.policyTemplate, 0, Unit⟩

abbrev TpmPolicyTicketCommand : TpmBodyType :=
  ⟨.policyTicket, 1, Tpm2bTimeout × Tpm2bDigest × Tpm2bNonce × Tpm2bName × TpmtTkAuth × Unit⟩
abbrev TpmPolicyTicketResponse : TpmBodyType := ⟨.policyTicket, 0, Unit⟩

abbrev TpmPolicyTransportSpdmCommand : TpmBodyType :=
  ⟨.policyTransportSpdm, 1, Tpm2bName × Tpm2bName × Unit⟩
abbrev TpmPolicyTransportSpdmResponse : TpmBodyType := ⟨.policyTransportSpdm, 0, Unit⟩

abbrev TpmPpCommandsCommand : TpmBodyType := ⟨.ppCommands, 1, TpmlCc × TpmlCc × Unit⟩
abbrev TpmPpCommandsResponse : TpmBodyType := ⟨.ppCommands, 0, Unit⟩

abbrev TpmQuoteCommand : TpmBodyType :=
  ⟨.quote, 1, Tpm2bData × TpmtSigScheme × TpmlPcrSelection × Unit⟩
abbrev TpmQuoteResponse : TpmBodyType := ⟨.quote, 0, Tpm2bAttest × TpmtSignature × Unit⟩

abbrev TpmReadClockCommand : TpmBodyType := ⟨.readClock, 0, Unit⟩
abbrev TpmReadClockResponse : TpmBodyType := ⟨.readClock, 0, TpmsTimeInfo × Unit⟩

abbrev TpmReadOnlyControlCommand : TpmBodyType := ⟨.readOnlyControl, 1, TpmiYesNo × Unit⟩
abbrev TpmReadOnlyControlResponse : TpmBodyType := ⟨.readOnlyControl, 0, Unit⟩

abbrev TpmReadPublicCommand : TpmBodyType := ⟨.readPublic, 1, Unit⟩
abbrev TpmReadPublicResponse : TpmBodyType :=
  ⟨.readPublic, 0, Tpm2bPublic × Tpm2bName × Tpm2bName × Unit⟩

abbrev TpmRewrapCommand : TpmBodyType :=
  ⟨.rewrap, 2, Tpm2bPrivate × Tpm2bName × Tpm2bEncryptedSecret × Unit⟩
abbrev TpmRewrapResponse : TpmBodyType := ⟨.rewrap, 0, Tpm2bPrivate × Tpm2bEncryptedSecret × Unit⟩

abbrev TpmRsaDecryptCommand : TpmBodyType :=
  ⟨.rsaDecrypt, 1, Tpm2bPublicKeyRsa × TpmtRsaDecrypt × Tpm2bData × Unit⟩
abbrev TpmRsaDecryptResponse : TpmBodyType := ⟨.rsaDecrypt, 0, Tpm2bPublicKeyRsa × Unit⟩

abbrev TpmRsaEncryptCommand : TpmBodyType :=
  ⟨.rsaEncrypt, 1, Tpm2bPublicKeyRsa × TpmtRsaDecrypt × Tpm2bData × Unit⟩
abbrev TpmRsaEncryptResponse : TpmBodyType := ⟨.rsaEncrypt, 0, Tpm2bPublicKeyRsa × Unit⟩

abbrev TpmSelfTestCommand : TpmBodyType := ⟨.selfTest, 0, TpmiYesNo × Unit⟩
abbrev TpmSelfTestResponse : TpmBodyType := ⟨.selfTest, 0, Unit⟩

abbrev TpmSequenceCompleteCommand : TpmBodyType :=
  ⟨.sequenceComplete, 1, Tpm2bMaxBuffer × TpmRh × Unit⟩
abbrev TpmSequenceCompleteResponse : TpmBodyType :=
  ⟨.sequenceComplete, 0, Tpm2bDigest × TpmtTkHashcheck × Unit⟩

abbrev TpmSequenceUpdateCommand : TpmBodyType := ⟨.sequenceUpdate, 1, Tpm2bMaxBuffer × Unit⟩
abbrev TpmSequenceUpdateResponse : TpmBodyType := ⟨.sequenceUpdate, 0, Unit⟩

abbrev TpmSetAlgorithmSetCommand : TpmBodyType := ⟨.setAlgorithmSet, 1, TpmUint32 × Unit⟩
abbrev TpmSetAlgorithmSetResponse : TpmBodyType := ⟨.setAlgorithmSet, 0, Unit⟩

abbrev TpmSetCapabilityCommand : TpmBodyType := ⟨.setCapability, 1, TpmsCapabilityData × Unit⟩
abbrev TpmSetCapabilityResponse : TpmBodyType := ⟨.setCapability, 0, Unit⟩

abbrev TpmSetCommandCodeAuditStatusCommand : TpmBodyType :=
  ⟨.setCommandCodeAuditStatus, 1, TpmiAlgHash × TpmlCc × TpmlCc × Unit⟩
abbrev TpmSetCommandCodeAuditStatusResponse : TpmBodyType := ⟨.setCommandCodeAuditStatus, 0, Unit⟩

abbrev TpmSetPrimaryPolicyCommand : TpmBodyType :=
  ⟨.setPrimaryPolicy, 1, Tpm2bDigest × TpmAlgId × Unit⟩
abbrev TpmSetPrimaryPolicyResponse : TpmBodyType := ⟨.setPrimaryPolicy, 0, Unit⟩

abbrev TpmShutdownCommand : TpmBodyType := ⟨.shutdown, 0, TpmSu × Unit⟩
abbrev TpmShutdownResponse : TpmBodyType := ⟨.shutdown, 0, Unit⟩

abbrev TpmSignCommand : TpmBodyType :=
  ⟨.sign, 1, Tpm2bDigest × TpmtSigScheme × TpmtTkHashcheck × Unit⟩
abbrev TpmSignResponse : TpmBodyType := ⟨.sign, 0, TpmtSignature × Unit⟩

abbrev TpmStartAuthSessionCommand : TpmBodyType :=
  ⟨.startAuthSession, 2, Tpm2bNonce × Tpm2bEncryptedSecret × TpmSe × TpmtSymDefObject × TpmAlgId ×
    Unit⟩
abbrev TpmStartAuthSessionResponse : TpmBodyType := ⟨.startAuthSession, 1, Tpm2bNonce × Unit⟩

abbrev TpmStartupCommand : TpmBodyType := ⟨.startup, 0, TpmSu × Unit⟩
abbrev TpmStartupResponse : TpmBodyType := ⟨.startup, 0, Unit⟩

abbrev TpmStirRandomCommand : TpmBodyType := ⟨.stirRandom, 0, Tpm2bSensitiveData × Unit⟩
abbrev TpmStirRandomResponse : TpmBodyType := ⟨.stirRandom, 0, Unit⟩

abbrev TpmTestParmsCommand : TpmBodyType := ⟨.testParms, 0, TpmtPublicParms × Unit⟩
abbrev TpmTestParmsResponse : TpmBodyType := ⟨.testParms, 0, Unit⟩

abbrev TpmUnsealCommand : TpmBodyType := ⟨.unseal, 1, Unit⟩
abbrev TpmUnsealResponse : TpmBodyType := ⟨.unseal, 0, Tpm2bSensitiveData × Unit⟩

abbrev TpmVendorTcgTestCommand : TpmBodyType := ⟨.vendorTcgTest, 0, Tpm2bData × Unit⟩
abbrev TpmVendorTcgTestResponse : TpmBodyType := ⟨.vendorTcgTest, 0, Tpm2bData × Unit⟩

abbrev TpmVerifySignatureCommand : TpmBodyType :=
  ⟨.verifySignature, 1, Tpm2bDigest × TpmtSignature × Unit⟩
abbrev TpmVerifySignatureResponse : TpmBodyType := ⟨.verifySignature, 0, TpmtTkVerified × Unit⟩

abbrev TpmZGen2PhaseCommand : TpmBodyType :=
  ⟨.zGen2Phase, 1, Tpm2bEccPoint × Tpm2bEccPoint × TpmiEccKeyExchange × TpmUint16 × Unit⟩
abbrev TpmZGen2PhaseResponse : TpmBodyType := ⟨.zGen2Phase, 0, Tpm2bEccPoint × Tpm2bEccPoint × Unit⟩

end Tpm2
