import Tpm2.Protocol.Macro.Tagged

/-! The enumerations of the protocol. -/

namespace Tpm2

inductive TpmAlgId
  | error | rsa | tdes | sha1 | hmac | aes | mgf1 | keyedHash | xor | sha256 | sha384 | sha512
  | null | sm3_256 | sm4 | rsassa | rsaes | rsapss | oaep | ecdsa | ecdh | ecdaa | sm2
  | ecschnorr | ecmqv | kdf1Sp800_56A | kdf2 | kdf1Sp800_108 | ecc | symCipher | camellia
  | sha3_256 | sha3_384 | sha3_512 | shake128 | shake256 | shake256_192 | shake256_256
  | shake256_512 | cmac | ctr | ofb | cbc | cfb | ecb | ccm | gcm | kw | kwp | eax | eddsa
  | eddsaPh | lms | xmss | keyedxof | kmacxof128 | kmacxof256 | kmac128 | kmac256
  deriving DecidableEq

instance : TpmEnum TpmAlgId UInt16 where
  variants := [.error, .rsa, .tdes, .sha1, .hmac, .aes, .mgf1, .keyedHash, .xor, .sha256, .sha384,
    .sha512, .null, .sm3_256, .sm4, .rsassa, .rsaes, .rsapss, .oaep, .ecdsa, .ecdh, .ecdaa, .sm2,
    .ecschnorr, .ecmqv, .kdf1Sp800_56A, .kdf2, .kdf1Sp800_108, .ecc, .symCipher, .camellia,
    .sha3_256, .sha3_384, .sha3_512, .shake128, .shake256, .shake256_192, .shake256_256,
    .shake256_512, .cmac, .ctr, .ofb, .cbc, .cfb, .ecb, .ccm, .gcm, .kw, .kwp, .eax, .eddsa,
    .eddsaPh, .lms, .xmss, .keyedxof, .kmacxof128, .kmacxof256, .kmac128, .kmac256]
  value
    | .error => 0x0000
    | .rsa => 0x0001
    | .tdes => 0x0003
    | .sha1 => 0x0004
    | .hmac => 0x0005
    | .aes => 0x0006
    | .mgf1 => 0x0007
    | .keyedHash => 0x0008
    | .xor => 0x000A
    | .sha256 => 0x000B
    | .sha384 => 0x000C
    | .sha512 => 0x000D
    | .null => 0x0010
    | .sm3_256 => 0x0012
    | .sm4 => 0x0013
    | .rsassa => 0x0014
    | .rsaes => 0x0015
    | .rsapss => 0x0016
    | .oaep => 0x0017
    | .ecdsa => 0x0018
    | .ecdh => 0x0019
    | .ecdaa => 0x001A
    | .sm2 => 0x001B
    | .ecschnorr => 0x001C
    | .ecmqv => 0x001D
    | .kdf1Sp800_56A => 0x0020
    | .kdf2 => 0x0021
    | .kdf1Sp800_108 => 0x0022
    | .ecc => 0x0023
    | .symCipher => 0x0025
    | .camellia => 0x0026
    | .sha3_256 => 0x0027
    | .sha3_384 => 0x0028
    | .sha3_512 => 0x0029
    | .shake128 => 0x002A
    | .shake256 => 0x002B
    | .shake256_192 => 0x002C
    | .shake256_256 => 0x002D
    | .shake256_512 => 0x002E
    | .cmac => 0x003F
    | .ctr => 0x0040
    | .ofb => 0x0041
    | .cbc => 0x0042
    | .cfb => 0x0043
    | .ecb => 0x0044
    | .ccm => 0x0050
    | .gcm => 0x0051
    | .kw => 0x0052
    | .kwp => 0x0053
    | .eax => 0x0054
    | .eddsa => 0x0060
    | .eddsaPh => 0x0061
    | .lms => 0x0070
    | .xmss => 0x0071
    | .keyedxof => 0x0080
    | .kmacxof128 => 0x0081
    | .kmacxof256 => 0x0082
    | .kmac128 => 0x0090
    | .kmac256 => 0x0091
  complete e := by cases e <;> decide +kernel
  nodup := by decide +kernel

inductive TpmAt
  | any | error | pv1 | vend
  deriving DecidableEq

instance : TpmEnum TpmAt UInt32 where
  variants := [.any, .error, .pv1, .vend]
  value
    | .any => 0x00000000
    | .error => 0x00000001
    | .pv1 => 0x00000002
    | .vend => 0x80000000
  complete e := by cases e <;> decide +kernel
  nodup := by decide +kernel

inductive TpmCap
  | algs | handles | commands | ppCommands | auditCommands | pcrs | tpmProperties | pcrProperties
  | eccCurves | authPolicies | act | vendorProperty
  deriving DecidableEq

instance : TpmEnum TpmCap UInt32 where
  variants := [.algs, .handles, .commands, .ppCommands, .auditCommands, .pcrs, .tpmProperties,
    .pcrProperties, .eccCurves, .authPolicies, .act, .vendorProperty]
  value
    | .algs => 0x00000000
    | .handles => 0x00000001
    | .commands => 0x00000002
    | .ppCommands => 0x00000003
    | .auditCommands => 0x00000004
    | .pcrs => 0x00000005
    | .tpmProperties => 0x00000006
    | .pcrProperties => 0x00000007
    | .eccCurves => 0x00000008
    | .authPolicies => 0x00000009
    | .act => 0x0000000A
    | .vendorProperty => 0x00000100
  complete e := by cases e <;> decide +kernel
  nodup := by decide +kernel

inductive TpmCc
  | nvUndefineSpaceSpecial | evictControl | hierarchyControl | nvUndefineSpace | changeEps
  | changePps | clear | clearControl | clockSet | hierarchyChangeAuth | nvDefineSpace
  | pcrAllocate | pcrSetAuthPolicy | ppCommands | setPrimaryPolicy | fieldUpgradeStart
  | clockRateAdjust | createPrimary | nvGlobalWriteLock | getCommandAuditDigest | nvIncrement
  | nvSetBits | nvExtend | nvWrite | nvWriteLock | dictionaryAttackLockReset
  | dictionaryAttackParameters | nvChangeAuth | pcrEvent | pcrReset | sequenceComplete
  | setAlgorithmSet | setCommandCodeAuditStatus | fieldUpgradeData | incrementalSelfTest
  | selfTest | startup | shutdown | stirRandom | activateCredential | certify | policyNv
  | certifyCreation | duplicate | getTime | getSessionAuditDigest | nvRead | nvReadLock
  | objectChangeAuth | policySecret | rewrap | create | ecdhZGen | hmac | «import» | load | quote
  | rsaDecrypt | hmacStart | sequenceUpdate | sign | unseal | policySigned | contextLoad
  | contextSave | ecdhKeyGen | encryptDecrypt | flushContext | loadExternal | makeCredential
  | nvReadPublic | policyAuthorize | policyAuthValue | policyCommandCode | policyCounterTimer
  | policyCpHash | policyLocality | policyNameHash | policyOr | policyTicket | readPublic
  | rsaEncrypt | startAuthSession | verifySignature | eccParameters | firmwareRead
  | getCapability | getRandom | getTestResult | hash | pcrRead | policyPcr | policyRestart
  | readClock | pcrExtend | pcrSetAuthValue | nvCertify | eventSequenceComplete
  | hashSequenceStart | policyPhysicalPresence | policyDuplicationSelect | policyGetDigest
  | testParms | commit | policyPassword | zGen2Phase | ecEphemeral | policyNvWritten
  | policyTemplate | createLoaded | policyAuthorizeNv | encryptDecrypt2 | acGetCapability
  | acSend | policyAcSendSelect | actSetTimeout | eccEncrypt | eccDecrypt | policyCapability
  | policyParameters | nvDefineSpace2 | nvReadPublic2 | setCapability | readOnlyControl
  | policyTransportSpdm | vendorTcgTest
  deriving DecidableEq

instance : TpmEnum TpmCc UInt32 where
  variants := [.nvUndefineSpaceSpecial, .evictControl, .hierarchyControl, .nvUndefineSpace,
    .changeEps, .changePps, .clear, .clearControl, .clockSet, .hierarchyChangeAuth,
    .nvDefineSpace, .pcrAllocate, .pcrSetAuthPolicy, .ppCommands, .setPrimaryPolicy,
    .fieldUpgradeStart, .clockRateAdjust, .createPrimary, .nvGlobalWriteLock,
    .getCommandAuditDigest, .nvIncrement, .nvSetBits, .nvExtend, .nvWrite, .nvWriteLock,
    .dictionaryAttackLockReset, .dictionaryAttackParameters, .nvChangeAuth, .pcrEvent, .pcrReset,
    .sequenceComplete, .setAlgorithmSet, .setCommandCodeAuditStatus, .fieldUpgradeData,
    .incrementalSelfTest, .selfTest, .startup, .shutdown, .stirRandom, .activateCredential,
    .certify, .policyNv, .certifyCreation, .duplicate, .getTime, .getSessionAuditDigest, .nvRead,
    .nvReadLock, .objectChangeAuth, .policySecret, .rewrap, .create, .ecdhZGen, .hmac, .«import»,
    .load, .quote, .rsaDecrypt, .hmacStart, .sequenceUpdate, .sign, .unseal, .policySigned,
    .contextLoad, .contextSave, .ecdhKeyGen, .encryptDecrypt, .flushContext, .loadExternal,
    .makeCredential, .nvReadPublic, .policyAuthorize, .policyAuthValue, .policyCommandCode,
    .policyCounterTimer, .policyCpHash, .policyLocality, .policyNameHash, .policyOr,
    .policyTicket, .readPublic, .rsaEncrypt, .startAuthSession, .verifySignature, .eccParameters,
    .firmwareRead, .getCapability, .getRandom, .getTestResult, .hash, .pcrRead, .policyPcr,
    .policyRestart, .readClock, .pcrExtend, .pcrSetAuthValue, .nvCertify, .eventSequenceComplete,
    .hashSequenceStart, .policyPhysicalPresence, .policyDuplicationSelect, .policyGetDigest,
    .testParms, .commit, .policyPassword, .zGen2Phase, .ecEphemeral, .policyNvWritten,
    .policyTemplate, .createLoaded, .policyAuthorizeNv, .encryptDecrypt2, .acGetCapability,
    .acSend, .policyAcSendSelect, .actSetTimeout, .eccEncrypt, .eccDecrypt, .policyCapability,
    .policyParameters, .nvDefineSpace2, .nvReadPublic2, .setCapability, .readOnlyControl,
    .policyTransportSpdm, .vendorTcgTest]
  value
    | .nvUndefineSpaceSpecial => 0x0000011F
    | .evictControl => 0x00000120
    | .hierarchyControl => 0x00000121
    | .nvUndefineSpace => 0x00000122
    | .changeEps => 0x00000124
    | .changePps => 0x00000125
    | .clear => 0x00000126
    | .clearControl => 0x00000127
    | .clockSet => 0x00000128
    | .hierarchyChangeAuth => 0x00000129
    | .nvDefineSpace => 0x0000012A
    | .pcrAllocate => 0x0000012B
    | .pcrSetAuthPolicy => 0x0000012C
    | .ppCommands => 0x0000012D
    | .setPrimaryPolicy => 0x0000012E
    | .fieldUpgradeStart => 0x0000012F
    | .clockRateAdjust => 0x00000130
    | .createPrimary => 0x00000131
    | .nvGlobalWriteLock => 0x00000132
    | .getCommandAuditDigest => 0x00000133
    | .nvIncrement => 0x00000134
    | .nvSetBits => 0x00000135
    | .nvExtend => 0x00000136
    | .nvWrite => 0x00000137
    | .nvWriteLock => 0x00000138
    | .dictionaryAttackLockReset => 0x00000139
    | .dictionaryAttackParameters => 0x0000013A
    | .nvChangeAuth => 0x0000013B
    | .pcrEvent => 0x0000013C
    | .pcrReset => 0x0000013D
    | .sequenceComplete => 0x0000013E
    | .setAlgorithmSet => 0x0000013F
    | .setCommandCodeAuditStatus => 0x00000140
    | .fieldUpgradeData => 0x00000141
    | .incrementalSelfTest => 0x00000142
    | .selfTest => 0x00000143
    | .startup => 0x00000144
    | .shutdown => 0x00000145
    | .stirRandom => 0x00000146
    | .activateCredential => 0x00000147
    | .certify => 0x00000148
    | .policyNv => 0x00000149
    | .certifyCreation => 0x0000014A
    | .duplicate => 0x0000014B
    | .getTime => 0x0000014C
    | .getSessionAuditDigest => 0x0000014D
    | .nvRead => 0x0000014E
    | .nvReadLock => 0x0000014F
    | .objectChangeAuth => 0x00000150
    | .policySecret => 0x00000151
    | .rewrap => 0x00000152
    | .create => 0x00000153
    | .ecdhZGen => 0x00000154
    | .hmac => 0x00000155
    | .«import» => 0x00000156
    | .load => 0x00000157
    | .quote => 0x00000158
    | .rsaDecrypt => 0x00000159
    | .hmacStart => 0x0000015B
    | .sequenceUpdate => 0x0000015C
    | .sign => 0x0000015D
    | .unseal => 0x0000015E
    | .policySigned => 0x00000160
    | .contextLoad => 0x00000161
    | .contextSave => 0x00000162
    | .ecdhKeyGen => 0x00000163
    | .encryptDecrypt => 0x00000164
    | .flushContext => 0x00000165
    | .loadExternal => 0x00000167
    | .makeCredential => 0x00000168
    | .nvReadPublic => 0x00000169
    | .policyAuthorize => 0x0000016A
    | .policyAuthValue => 0x0000016B
    | .policyCommandCode => 0x0000016C
    | .policyCounterTimer => 0x0000016D
    | .policyCpHash => 0x0000016E
    | .policyLocality => 0x0000016F
    | .policyNameHash => 0x00000170
    | .policyOr => 0x00000171
    | .policyTicket => 0x00000172
    | .readPublic => 0x00000173
    | .rsaEncrypt => 0x00000174
    | .startAuthSession => 0x00000176
    | .verifySignature => 0x00000177
    | .eccParameters => 0x00000178
    | .firmwareRead => 0x00000179
    | .getCapability => 0x0000017A
    | .getRandom => 0x0000017B
    | .getTestResult => 0x0000017C
    | .hash => 0x0000017D
    | .pcrRead => 0x0000017E
    | .policyPcr => 0x0000017F
    | .policyRestart => 0x00000180
    | .readClock => 0x00000181
    | .pcrExtend => 0x00000182
    | .pcrSetAuthValue => 0x00000183
    | .nvCertify => 0x00000184
    | .eventSequenceComplete => 0x00000185
    | .hashSequenceStart => 0x00000186
    | .policyPhysicalPresence => 0x00000187
    | .policyDuplicationSelect => 0x00000188
    | .policyGetDigest => 0x00000189
    | .testParms => 0x0000018A
    | .commit => 0x0000018B
    | .policyPassword => 0x0000018C
    | .zGen2Phase => 0x0000018D
    | .ecEphemeral => 0x0000018E
    | .policyNvWritten => 0x0000018F
    | .policyTemplate => 0x00000190
    | .createLoaded => 0x00000191
    | .policyAuthorizeNv => 0x00000192
    | .encryptDecrypt2 => 0x00000193
    | .acGetCapability => 0x00000194
    | .acSend => 0x00000195
    | .policyAcSendSelect => 0x00000196
    | .actSetTimeout => 0x00000198
    | .eccEncrypt => 0x00000199
    | .eccDecrypt => 0x0000019A
    | .policyCapability => 0x0000019B
    | .policyParameters => 0x0000019C
    | .nvDefineSpace2 => 0x0000019D
    | .nvReadPublic2 => 0x0000019E
    | .setCapability => 0x0000019F
    | .readOnlyControl => 0x000001A0
    | .policyTransportSpdm => 0x000001A1
    | .vendorTcgTest => 0x20000000
  complete e := by cases e <;> decide +kernel
  nodup := by decide +kernel

inductive TpmClockAdjust
  | coarseSlower | mediumSlower | fineSlower | noChange | fineFaster | mediumFaster
  | coarseFaster
  deriving DecidableEq

instance : TpmEnum TpmClockAdjust Int8 where
  variants := [.coarseSlower, .mediumSlower, .fineSlower, .noChange, .fineFaster, .mediumFaster,
    .coarseFaster]
  value
    | .coarseSlower => -3
    | .mediumSlower => -2
    | .fineSlower => -1
    | .noChange => 0
    | .fineFaster => 1
    | .mediumFaster => 2
    | .coarseFaster => 3
  complete e := by cases e <;> decide +kernel
  nodup := by decide +kernel

inductive TpmEo
  | eq | neq | signedGt | unsignedGt | signedLt | unsignedLt | signedGe | unsignedGe | signedLe
  | unsignedLe | bitset | bitclear
  deriving DecidableEq

instance : TpmEnum TpmEo UInt16 where
  variants := [.eq, .neq, .signedGt, .unsignedGt, .signedLt, .unsignedLt, .signedGe, .unsignedGe,
    .signedLe, .unsignedLe, .bitset, .bitclear]
  value
    | .eq => 0x0000
    | .neq => 0x0001
    | .signedGt => 0x0002
    | .unsignedGt => 0x0003
    | .signedLt => 0x0004
    | .unsignedLt => 0x0005
    | .signedGe => 0x0006
    | .unsignedGe => 0x0007
    | .signedLe => 0x0008
    | .unsignedLe => 0x0009
    | .bitset => 0x000A
    | .bitclear => 0x000B
  complete e := by cases e <;> decide +kernel
  nodup := by decide +kernel

inductive TpmEccCurve
  | none | nistP192 | nistP224 | nistP256 | nistP384 | nistP521 | bnP256 | bnP638 | sm2P256
  | bpP256R1 | bpP384R1 | bpP512R1 | curve25519 | curve448
  deriving DecidableEq

instance : TpmEnum TpmEccCurve UInt16 where
  variants := [.none, .nistP192, .nistP224, .nistP256, .nistP384, .nistP521, .bnP256, .bnP638,
    .sm2P256, .bpP256R1, .bpP384R1, .bpP512R1, .curve25519, .curve448]
  value
    | .none => 0x0000
    | .nistP192 => 0x0001
    | .nistP224 => 0x0002
    | .nistP256 => 0x0003
    | .nistP384 => 0x0004
    | .nistP521 => 0x0005
    | .bnP256 => 0x0010
    | .bnP638 => 0x0011
    | .sm2P256 => 0x0020
    | .bpP256R1 => 0x0030
    | .bpP384R1 => 0x0031
    | .bpP512R1 => 0x0032
    | .curve25519 => 0x0040
    | .curve448 => 0x0041
  complete e := by cases e <;> decide +kernel
  nodup := by decide +kernel

inductive TpmHt
  | pcr | nvIndex | hmacSession | policySession | externalNv | permanentNv | permanent
  | transient | persistent | ac
  deriving DecidableEq

instance : TpmEnum TpmHt UInt8 where
  variants := [.pcr, .nvIndex, .hmacSession, .policySession, .externalNv, .permanentNv,
    .permanent, .transient, .persistent, .ac]
  value
    | .pcr => 0x00
    | .nvIndex => 0x01
    | .hmacSession => 0x02
    | .policySession => 0x03
    | .externalNv => 0x11
    | .permanentNv => 0x12
    | .permanent => 0x40
    | .transient => 0x80
    | .persistent => 0x81
    | .ac => 0x90
  complete e := by cases e <;> decide +kernel
  nodup := by decide +kernel

inductive TpmPt
  | familyIndicator | level | revision | dayOfYear | year | manufacturer | vendorString1
  | vendorString2 | vendorString3 | vendorString4 | vendorTpmType | firmwareVersion1
  | firmwareVersion2 | inputBuffer | hrTransientMin | hrPersistentMin | hrLoadedMin
  | activeSessionsMax | pcrCount | pcrSelectMin | contextGapMax | nvCountersMax | nvIndexMax
  | memory | clockUpdate | contextHash | contextSym | contextSymSize | orderlyCount
  | maxCommandSize | maxResponseSize | maxDigest | maxObjectContext | maxSessionContext
  | psFamilyIndicator | psLevel | psRevision | psDayOfYear | psYear | splitMax | totalCommands
  | libraryCommands | vendorCommands | nvBufferMax | modes | maxCapBuffer | permanent
  | startupClear | hrNvIndex | hrLoaded | hrLoadedAvail | hrActive | hrActiveAvail
  | hrTransientAvail | hrPersistent | hrPersistentAvail | nvCounters | nvCountersAvail
  | algorithmSet | loadedCurves | lockoutCounter | maxAuthFail | lockoutInterval
  | lockoutRecovery | nvWriteRecovery | auditCounter0 | auditCounter1
  deriving DecidableEq

instance : TpmEnum TpmPt UInt32 where
  variants := [.familyIndicator, .level, .revision, .dayOfYear, .year, .manufacturer,
    .vendorString1, .vendorString2, .vendorString3, .vendorString4, .vendorTpmType,
    .firmwareVersion1, .firmwareVersion2, .inputBuffer, .hrTransientMin, .hrPersistentMin,
    .hrLoadedMin, .activeSessionsMax, .pcrCount, .pcrSelectMin, .contextGapMax, .nvCountersMax,
    .nvIndexMax, .memory, .clockUpdate, .contextHash, .contextSym, .contextSymSize, .orderlyCount,
    .maxCommandSize, .maxResponseSize, .maxDigest, .maxObjectContext, .maxSessionContext,
    .psFamilyIndicator, .psLevel, .psRevision, .psDayOfYear, .psYear, .splitMax, .totalCommands,
    .libraryCommands, .vendorCommands, .nvBufferMax, .modes, .maxCapBuffer, .permanent,
    .startupClear, .hrNvIndex, .hrLoaded, .hrLoadedAvail, .hrActive, .hrActiveAvail,
    .hrTransientAvail, .hrPersistent, .hrPersistentAvail, .nvCounters, .nvCountersAvail,
    .algorithmSet, .loadedCurves, .lockoutCounter, .maxAuthFail, .lockoutInterval,
    .lockoutRecovery, .nvWriteRecovery, .auditCounter0, .auditCounter1]
  value
    | .familyIndicator => 0x100
    | .level => 0x101
    | .revision => 0x102
    | .dayOfYear => 0x103
    | .year => 0x104
    | .manufacturer => 0x105
    | .vendorString1 => 0x106
    | .vendorString2 => 0x107
    | .vendorString3 => 0x108
    | .vendorString4 => 0x109
    | .vendorTpmType => 0x10A
    | .firmwareVersion1 => 0x10B
    | .firmwareVersion2 => 0x10C
    | .inputBuffer => 0x10D
    | .hrTransientMin => 0x10E
    | .hrPersistentMin => 0x10F
    | .hrLoadedMin => 0x110
    | .activeSessionsMax => 0x111
    | .pcrCount => 0x112
    | .pcrSelectMin => 0x113
    | .contextGapMax => 0x114
    | .nvCountersMax => 0x116
    | .nvIndexMax => 0x117
    | .memory => 0x118
    | .clockUpdate => 0x119
    | .contextHash => 0x11A
    | .contextSym => 0x11B
    | .contextSymSize => 0x11C
    | .orderlyCount => 0x11D
    | .maxCommandSize => 0x11E
    | .maxResponseSize => 0x11F
    | .maxDigest => 0x120
    | .maxObjectContext => 0x121
    | .maxSessionContext => 0x122
    | .psFamilyIndicator => 0x123
    | .psLevel => 0x124
    | .psRevision => 0x125
    | .psDayOfYear => 0x126
    | .psYear => 0x127
    | .splitMax => 0x128
    | .totalCommands => 0x129
    | .libraryCommands => 0x12A
    | .vendorCommands => 0x12B
    | .nvBufferMax => 0x12C
    | .modes => 0x12D
    | .maxCapBuffer => 0x12E
    | .permanent => 0x200
    | .startupClear => 0x201
    | .hrNvIndex => 0x202
    | .hrLoaded => 0x203
    | .hrLoadedAvail => 0x204
    | .hrActive => 0x205
    | .hrActiveAvail => 0x206
    | .hrTransientAvail => 0x207
    | .hrPersistent => 0x208
    | .hrPersistentAvail => 0x209
    | .nvCounters => 0x20A
    | .nvCountersAvail => 0x20B
    | .algorithmSet => 0x20C
    | .loadedCurves => 0x20D
    | .lockoutCounter => 0x20E
    | .maxAuthFail => 0x20F
    | .lockoutInterval => 0x210
    | .lockoutRecovery => 0x211
    | .nvWriteRecovery => 0x212
    | .auditCounter0 => 0x213
    | .auditCounter1 => 0x214
  complete e := by cases e <;> decide +kernel
  nodup := by decide +kernel

inductive TpmRh
  | srk | owner | revoke | transport | operator | admin | ek | null | unassigned | pw | lockout
  | endorsement | platform | platformNv | fwOwner | fwEndorsement | fwPlatform | fwNull
  | svnOwnerBase | svnEndorsementBase | svnPlatformBase | svnNullBase
  deriving DecidableEq

instance : TpmEnum TpmRh UInt32 where
  variants := [.srk, .owner, .revoke, .transport, .operator, .admin, .ek, .null, .unassigned, .pw,
    .lockout, .endorsement, .platform, .platformNv, .fwOwner, .fwEndorsement, .fwPlatform,
    .fwNull, .svnOwnerBase, .svnEndorsementBase, .svnPlatformBase, .svnNullBase]
  value
    | .srk => 0x40000000
    | .owner => 0x40000001
    | .revoke => 0x40000002
    | .transport => 0x40000003
    | .operator => 0x40000004
    | .admin => 0x40000005
    | .ek => 0x40000006
    | .null => 0x40000007
    | .unassigned => 0x40000008
    | .pw => 0x40000009
    | .lockout => 0x4000000A
    | .endorsement => 0x4000000B
    | .platform => 0x4000000C
    | .platformNv => 0x4000000D
    | .fwOwner => 0x40000140
    | .fwEndorsement => 0x40000141
    | .fwPlatform => 0x40000142
    | .fwNull => 0x40000143
    | .svnOwnerBase => 0x40010000
    | .svnEndorsementBase => 0x40020000
    | .svnPlatformBase => 0x40030000
    | .svnNullBase => 0x40040000
  complete e := by cases e <;> decide +kernel
  nodup := by decide +kernel

inductive TpmSe
  | hmac | policy | trial
  deriving DecidableEq

instance : TpmEnum TpmSe UInt8 where
  variants := [.hmac, .policy, .trial]
  value
    | .hmac => 0x00
    | .policy => 0x01
    | .trial => 0x03
  complete e := by cases e <;> decide +kernel
  nodup := by decide +kernel

inductive TpmSt
  | rspCommand | null | noSessions | sessions | attestNv | attestCommandAudit
  | attestSessionAudit | attestCertify | attestQuote | attestTime | attestCreation
  | attestNvDigest | creation | verified | authSecret | hashCheck | authSigned
  deriving DecidableEq

instance : TpmEnum TpmSt UInt16 where
  variants := [.rspCommand, .null, .noSessions, .sessions, .attestNv, .attestCommandAudit,
    .attestSessionAudit, .attestCertify, .attestQuote, .attestTime, .attestCreation,
    .attestNvDigest, .creation, .verified, .authSecret, .hashCheck, .authSigned]
  value
    | .rspCommand => 0x00C4
    | .null => 0x8000
    | .noSessions => 0x8001
    | .sessions => 0x8002
    | .attestNv => 0x8014
    | .attestCommandAudit => 0x8015
    | .attestSessionAudit => 0x8016
    | .attestCertify => 0x8017
    | .attestQuote => 0x8018
    | .attestTime => 0x8019
    | .attestCreation => 0x801A
    | .attestNvDigest => 0x801C
    | .creation => 0x8021
    | .verified => 0x8022
    | .authSecret => 0x8023
    | .hashCheck => 0x8024
    | .authSigned => 0x8025
  complete e := by cases e <;> decide +kernel
  nodup := by decide +kernel

inductive TpmSu
  | clear | state
  deriving DecidableEq

instance : TpmEnum TpmSu UInt16 where
  variants := [.clear, .state]
  value
    | .clear => 0x0000
    | .state => 0x0001
  complete e := by cases e <;> decide +kernel
  nodup := by decide +kernel

inductive TpmiEccKeyExchange
  | none | ecdh | ecmqv | sm2
  deriving DecidableEq

instance : TpmEnum TpmiEccKeyExchange UInt16 where
  variants := [.none, .ecdh, .ecmqv, .sm2]
  value
    | .none => 0x0000
    | .ecdh => 0x0019
    | .ecmqv => 0x001D
    | .sm2 => 0x001B
  complete e := by cases e <;> decide +kernel
  nodup := by decide +kernel

/-! Each is a wire type with a borrowed reader. -/

instance : TpmWire TpmAlgId := .infer
instance : TpmViewed TpmAlgId := .infer
instance : TpmWire TpmAt := .infer
instance : TpmViewed TpmAt := .infer
instance : TpmWire TpmCap := .infer
instance : TpmViewed TpmCap := .infer
instance : TpmWire TpmCc := .infer
instance : TpmViewed TpmCc := .infer
instance : TpmWire TpmClockAdjust := .infer
instance : TpmViewed TpmClockAdjust := .infer
instance : TpmWire TpmEo := .infer
instance : TpmViewed TpmEo := .infer
instance : TpmWire TpmEccCurve := .infer
instance : TpmViewed TpmEccCurve := .infer
instance : TpmWire TpmHt := .infer
instance : TpmViewed TpmHt := .infer
instance : TpmWire TpmPt := .infer
instance : TpmViewed TpmPt := .infer
instance : TpmWire TpmRh := .infer
instance : TpmViewed TpmRh := .infer
instance : TpmWire TpmSe := .infer
instance : TpmViewed TpmSe := .infer
instance : TpmWire TpmSt := .infer
instance : TpmViewed TpmSt := .infer
instance : TpmWire TpmSu := .infer
instance : TpmViewed TpmSu := .infer
instance : TpmWire TpmiEccKeyExchange := .infer
instance : TpmViewed TpmiEccKeyExchange := .infer

end Tpm2
