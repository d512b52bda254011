import Mathlib.Data.Nat.Basic
import Tpm2.Algorithm.BinarySearch
import Tpm2.Protocol.Frame.Data

/-! The dispatch table: which commands exist, and how many handles each and its response have. -/

namespace Tpm2

/-- The rows of `tpm_dispatch!`: each command type with its response type. -/
def tpmDispatch : List (TpmBodyType × TpmBodyType) :=
  [(TpmNvUndefineSpaceSpecialCommand, TpmNvUndefineSpaceSpecialResponse),
   (TpmEvictControlCommand, TpmEvictControlResponse),
   (TpmHierarchyControlCommand, TpmHierarchyControlResponse),
   (TpmNvUndefineSpaceCommand, TpmNvUndefineSpaceResponse),
   (TpmChangeEpsCommand, TpmChangeEpsResponse), (TpmChangePpsCommand, TpmChangePpsResponse),
   (TpmClearCommand, TpmClearResponse), (TpmClearControlCommand, TpmClearControlResponse),
   (TpmClockSetCommand, TpmClockSetResponse),
   (TpmHierarchyChangeAuthCommand, TpmHierarchyChangeAuthResponse),
   (TpmNvDefineSpaceCommand, TpmNvDefineSpaceResponse),
   (TpmPcrAllocateCommand, TpmPcrAllocateResponse),
   (TpmPcrSetAuthPolicyCommand, TpmPcrSetAuthPolicyResponse),
   (TpmPpCommandsCommand, TpmPpCommandsResponse),
   (TpmSetPrimaryPolicyCommand, TpmSetPrimaryPolicyResponse),
   (TpmFieldUpgradeStartCommand, TpmFieldUpgradeStartResponse),
   (TpmClockRateAdjustCommand, TpmClockRateAdjustResponse),
   (TpmCreatePrimaryCommand, TpmCreatePrimaryResponse),
   (TpmNvGlobalWriteLockCommand, TpmNvGlobalWriteLockResponse),
   (TpmGetCommandAuditDigestCommand, TpmGetCommandAuditDigestResponse),
   (TpmNvIncrementCommand, TpmNvIncrementResponse), (TpmNvSetBitsCommand, TpmNvSetBitsResponse),
   (TpmNvExtendCommand, TpmNvExtendResponse), (TpmNvWriteCommand, TpmNvWriteResponse),
   (TpmNvWriteLockCommand, TpmNvWriteLockResponse),
   (TpmDictionaryAttackLockResetCommand, TpmDictionaryAttackLockResetResponse),
   (TpmDictionaryAttackParametersCommand, TpmDictionaryAttackParametersResponse),
   (TpmNvChangeAuthCommand, TpmNvChangeAuthResponse), (TpmPcrEventCommand, TpmPcrEventResponse),
   (TpmPcrResetCommand, TpmPcrResetResponse),
   (TpmSequenceCompleteCommand, TpmSequenceCompleteResponse),
   (TpmSetAlgorithmSetCommand, TpmSetAlgorithmSetResponse),
   (TpmSetCommandCodeAuditStatusCommand, TpmSetCommandCodeAuditStatusResponse),
   (TpmFieldUpgradeDataCommand, TpmFieldUpgradeDataResponse),
   (TpmIncrementalSelfTestCommand, TpmIncrementalSelfTestResponse),
   (TpmSelfTestCommand, TpmSelfTestResponse), (TpmStartupCommand, TpmStartupResponse),
   (TpmShutdownCommand, TpmShutdownResponse), (TpmStirRandomCommand, TpmStirRandomResponse),
   (TpmActivateCredentialCommand, TpmActivateCredentialResponse),
   (TpmCertifyCommand, TpmCertifyResponse), (TpmPolicyNvCommand, TpmPolicyNvResponse),
   (TpmCertifyCreationCommand, TpmCertifyCreationResponse),
   (TpmDuplicateCommand, TpmDuplicateResponse), (TpmGetTimeCommand, TpmGetTimeResponse),
   (TpmGetSessionAuditDigestCommand, TpmGetSessionAuditDigestResponse),
   (TpmNvReadCommand, TpmNvReadResponse), (TpmNvReadLockCommand, TpmNvReadLockResponse),
   (TpmObjectChangeAuthCommand, TpmObjectChangeAuthResponse),
   (TpmPolicySecretCommand, TpmPolicySecretResponse), (TpmRewrapCommand, TpmRewrapResponse),
   (TpmCreateCommand, TpmCreateResponse), (TpmEcdhZGenCommand, TpmEcdhZGenResponse),
   (TpmHmacCommand, TpmHmacResponse), (TpmImportCommand, TpmImportResponse),
   (TpmLoadCommand, TpmLoadResponse), (TpmQuoteCommand, TpmQuoteResponse),
   (TpmRsaDecryptCommand, TpmRsaDecryptResponse), (TpmHmacStartCommand, TpmHmacStartResponse),
   (TpmSequenceUpdateCommand, TpmSequenceUpdateResponse), (TpmSignCommand, TpmSignResponse),
   (TpmUnsealCommand, TpmUnsealResponse), (TpmPolicySignedCommand, TpmPolicySignedResponse),
   (TpmContextLoadCommand, TpmContextLoadResponse), (TpmContextSaveCommand, TpmContextSaveResponse),
   (TpmEcdhKeyGenCommand, TpmEcdhKeyGenResponse),
   (TpmEncryptDecryptCommand, TpmEncryptDecryptResponse),
   (TpmFlushContextCommand, TpmFlushContextResponse),
   (TpmLoadExternalCommand, TpmLoadExternalResponse),
   (TpmMakeCredentialCommand, TpmMakeCredentialResponse),
   (TpmNvReadPublicCommand, TpmNvReadPublicResponse),
   (TpmPolicyAuthorizeCommand, TpmPolicyAuthorizeResponse),
   (TpmPolicyAuthValueCommand, TpmPolicyAuthValueResponse),
   (TpmPolicyCommandCodeCommand, TpmPolicyCommandCodeResponse),
   (TpmPolicyCounterTimerCommand, TpmPolicyCounterTimerResponse),
   (TpmPolicyCpHashCommand, TpmPolicyCpHashResponse),
   (TpmPolicyLocalityCommand, TpmPolicyLocalityResponse),
   (TpmPolicyNameHashCommand, TpmPolicyNameHashResponse), (TpmPolicyOrCommand, TpmPolicyOrResponse),
   (TpmPolicyTicketCommand, TpmPolicyTicketResponse), (TpmReadPublicCommand, TpmReadPublicResponse),
   (TpmRsaEncryptCommand, TpmRsaEncryptResponse),
   (TpmStartAuthSessionCommand, TpmStartAuthSessionResponse),
   (TpmVerifySignatureCommand, TpmVerifySignatureResponse),
   (TpmEccParametersCommand, TpmEccParametersResponse),
   (TpmFirmwareReadCommand, TpmFirmwareReadResponse),
   (TpmGetCapabilityCommand, TpmGetCapabilityResponse), (TpmGetRandomCommand, TpmGetRandomResponse),
   (TpmGetTestResultCommand, TpmGetTestResultResponse), (TpmHashCommand, TpmHashResponse),
   (TpmPcrReadCommand, TpmPcrReadResponse), (TpmPolicyPcrCommand, TpmPolicyPcrResponse),
   (TpmPolicyRestartCommand, TpmPolicyRestartResponse), (TpmReadClockCommand, TpmReadClockResponse),
   (TpmPcrExtendCommand, TpmPcrExtendResponse),
   (TpmPcrSetAuthValueCommand, TpmPcrSetAuthValueResponse),
   (TpmNvCertifyCommand, TpmNvCertifyResponse),
   (TpmEventSequenceCompleteCommand, TpmEventSequenceCompleteResponse),
   (TpmHashSequenceStartCommand, TpmHashSequenceStartResponse),
   (TpmPolicyPhysicalPresenceCommand, TpmPolicyPhysicalPresenceResponse),
   (TpmPolicyDuplicationSelectCommand, TpmPolicyDuplicationSelectResponse),
   (TpmPolicyGetDigestCommand, TpmPolicyGetDigestResponse),
   (TpmTestParmsCommand, TpmTestParmsResponse), (TpmCommitCommand, TpmCommitResponse),
   (TpmPolicyPasswordCommand, TpmPolicyPasswordResponse),
   (TpmZGen2PhaseCommand, TpmZGen2PhaseResponse), (TpmEcEphemeralCommand, TpmEcEphemeralResponse),
   (TpmPolicyNvWrittenCommand, TpmPolicyNvWrittenResponse),
   (TpmPolicyTemplateCommand, TpmPolicyTemplateResponse),
   (TpmCreateLoadedCommand, TpmCreateLoadedResponse),
   (TpmPolicyAuthorizeNvCommand, TpmPolicyAuthorizeNvResponse),
   (TpmEncryptDecrypt2Command, TpmEncryptDecrypt2Response),
   (TpmAcGetCapabilityCommand, TpmAcGetCapabilityResponse), (TpmAcSendCommand, TpmAcSendResponse),
   (TpmPolicyAcSendSelectCommand, TpmPolicyAcSendSelectResponse),
   (TpmActSetTimeoutCommand, TpmActSetTimeoutResponse),
   (TpmEccEncryptCommand, TpmEccEncryptResponse), (TpmEccDecryptCommand, TpmEccDecryptResponse),
   (TpmPolicyCapabilityCommand, TpmPolicyCapabilityResponse),
   (TpmPolicyParametersCommand, TpmPolicyParametersResponse),
   (TpmNvDefineSpace2Command, TpmNvDefineSpace2Response),
   (TpmNvReadPublic2Command, TpmNvReadPublic2Response),
   (TpmSetCapabilityCommand, TpmSetCapabilityResponse),
   (TpmReadOnlyControlCommand, TpmReadOnlyControlResponse),
   (TpmPolicyTransportSpdmCommand, TpmPolicyTransportSpdmResponse),
   (TpmVendorTcgTestCommand, TpmVendorTcgTestResponse)]

/-- A row of the dispatch table is the one that is found by the code of its command. -/
theorem tpmDispatch_mem {C R : TpmBodyType}
    (found : tpmDispatch.find? (fun row => row.1.CC = C.CC) = some (C, R)) :
    (C, R) ∈ tpmDispatch :=
  List.mem_of_find?_eq_some found

/-- The dispatch info for a command code. -/
structure TpmDispatch where
  cc : TpmCc
  handles : Nat
  responseHandles : Nat
  deriving DecidableEq

def TpmDispatch.of (row : TpmBodyType × TpmBodyType) : TpmDispatch :=
  ⟨row.1.CC, row.1.HANDLES, row.2.HANDLES⟩

def tpmDispatchTable : List TpmDispatch := tpmDispatch.map .of

/-- The key of the table: `TpmCc` is ordered by its value. -/
def TpmDispatch.key (dispatch : TpmDispatch) : Nat := (TpmEnum.value dispatch.cc).toNat

def dispatchFor (cc : TpmCc) : TpmResult TpmDispatch :=
  match BinarySearch.searchByKey tpmDispatchTable (TpmEnum.value cc).toNat TpmDispatch.key with
  | some dispatch => .ok dispatch
  | none => .error (.invalidCc 0 (TpmIntBytes.asU64 (TpmEnum.value cc)))

/-- "TPM_DISPATCH_TABLE must be sorted by TpmCc." -/
theorem dispatchTable_sorted : tpmDispatchTable.Pairwise fun a b => a.key < b.key := by
  decide +kernel

/-- No command or response has more than three handles. -/
theorem dispatch_handles_le : ∀ dispatch ∈ tpmDispatchTable,
    dispatch.handles ≤ 3 ∧ dispatch.responseHandles ≤ 3 := by
  decide +kernel

/-- A command and its response share their code. -/
theorem dispatch_cc : ∀ row ∈ tpmDispatch, row.2.CC = row.1.CC := by
  decide +kernel

theorem dispatchFor_eq_ok {cc : TpmCc} {dispatch : TpmDispatch} :
    dispatchFor cc = .ok dispatch ↔ dispatch ∈ tpmDispatchTable ∧ dispatch.cc = cc := by
  have key : dispatch.key = (TpmEnum.value cc).toNat ↔ dispatch.cc = cc := by
    constructor
    · intro same
      exact TpmEnum.value_injective (UInt32.toNat_inj.mp same)
    · rintro rfl
      rfl
  rw [← key, ← BinarySearch.searchByKey_eq_some dispatchTable_sorted]
  unfold dispatchFor
  split
  next found => simp [found]
  next missing => simp [missing]

theorem dispatchFor_command {row : TpmBodyType × TpmBodyType} (mem : row ∈ tpmDispatch) :
    dispatchFor row.1.CC = .ok (.of row) :=
  dispatchFor_eq_ok.mpr ⟨List.mem_map.mpr ⟨row, mem, rfl⟩, rfl⟩

theorem dispatchFor_response {row : TpmBodyType × TpmBodyType} (mem : row ∈ tpmDispatch) :
    dispatchFor row.2.CC = .ok (.of row) := by
  rw [dispatch_cc row mem, dispatchFor_command mem]

end Tpm2
