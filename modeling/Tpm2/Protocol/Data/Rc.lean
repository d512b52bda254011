import Tpm2.Protocol.Data.Enum

/-! Response codes. -/

namespace Tpm2

open ByteCodec

def tpmRcVer1 : UInt32 := 0x0100
def tpmRcFmt1 : UInt32 := 0x0080
def tpmRcWarn : UInt32 := 0x0900
def tpmRcPBit : UInt32 := (1 : UInt32) <<< 6
def tpmRcNShift : UInt32 := 8
def tpmRcFmt1ErrorMask : UInt32 := 0x003F
def tpmRcNMask : UInt32 := 0x000F

/-- The bits defined for a format-one response code; every other bit is reserved. -/
def tpmRcFmt1ValidMask : UInt32 :=
  tpmRcFmt1 ||| tpmRcPBit ||| tpmRcFmt1ErrorMask ||| (tpmRcNMask <<< tpmRcNShift)

def maxHandleIndex : UInt8 := 7
def sessionIndexOffset : UInt8 := 8

inductive TpmRcIndex
  | parameter (n : UInt8)
  | handle (n : UInt8)
  | session (n : UInt8)
  deriving DecidableEq

inductive TpmRcBase
  | success | badTag | initializeRc | failure | sequence | «private» | hmac | disabled
  | exclusive | authType | authMissing | policy | pcr | pcrChanged | upgrade | tooManyContexts
  | authUnavailable | reboot | unbalanced | commandSize | commandCode | authSize | authContext
  | nvRange | nvSize | nvLocked | nvAuthorization | nvUninitialized | nvSpace | nvDefined
  | badContext | cpHash | parent | needsTest | noResult | sensitive | readOnly | asymmetric
  | attributes | hash | value | hierarchy | keySize | mgf | mode | type | handle | kdf | range
  | authFail | nonce | pp | scheme | size | symmetric | tag | selector | insufficient | signature
  | key | policyFail | integrity | ticket | reservedBits | badAuth | expired | policyCc | binding
  | curve | eccPoint | fwLimited | svnLimited | channel | channelKey | contextGap | objectMemory
  | sessionMemory | memory | sessionHandles | objectHandles | locality | yielded | canceled
  | testing | referenceH0 | referenceH1 | referenceH2 | referenceH3 | referenceH4 | referenceH5
  | referenceH6 | referenceS0 | referenceS1 | referenceS2 | referenceS3 | referenceS4
  | referenceS5 | referenceS6 | nvRate | lockout | retry | nvUnavailable | notUsed
  deriving DecidableEq

instance : TpmEnum TpmRcBase UInt32 where
  variants := [.success, .badTag, .initializeRc, .failure, .sequence, .«private», .hmac,
    .disabled, .exclusive, .authType, .authMissing, .policy, .pcr, .pcrChanged, .upgrade,
    .tooManyContexts, .authUnavailable, .reboot, .unbalanced, .commandSize, .commandCode,
    .authSize, .authContext, .nvRange, .nvSize, .nvLocked, .nvAuthorization, .nvUninitialized,
    .nvSpace, .nvDefined, .badContext, .cpHash, .parent, .needsTest, .noResult, .sensitive,
    .readOnly, .asymmetric, .attributes, .hash, .value, .hierarchy, .keySize, .mgf, .mode, .type,
    .handle, .kdf, .range, .authFail, .nonce, .pp, .scheme, .size, .symmetric, .tag, .selector,
    .insufficient, .signature, .key, .policyFail, .integrity, .ticket, .reservedBits, .badAuth,
    .expired, .policyCc, .binding, .curve, .eccPoint, .fwLimited, .svnLimited, .channel,
    .channelKey, .contextGap, .objectMemory, .sessionMemory, .memory, .sessionHandles,
    .objectHandles, .locality, .yielded, .canceled, .testing, .referenceH0, .referenceH1,
    .referenceH2, .referenceH3, .referenceH4, .referenceH5, .referenceH6, .referenceS0,
    .referenceS1, .referenceS2, .referenceS3, .referenceS4, .referenceS5, .referenceS6, .nvRate,
    .lockout, .retry, .nvUnavailable, .notUsed]
  value
    | .success => 0x0000
    | .badTag => 0x001E
    | .initializeRc => tpmRcVer1
    | .failure => tpmRcVer1 ||| 0x001
    | .sequence => tpmRcVer1 ||| 0x003
    | .«private» => tpmRcVer1 ||| 0x00B
    | .hmac => tpmRcVer1 ||| 0x019
    | .disabled => tpmRcVer1 ||| 0x020
    | .exclusive => tpmRcVer1 ||| 0x021
    | .authType => tpmRcVer1 ||| 0x024
    | .authMissing => tpmRcVer1 ||| 0x025
    | .policy => tpmRcVer1 ||| 0x026
    | .pcr => tpmRcVer1 ||| 0x027
    | .pcrChanged => tpmRcVer1 ||| 0x028
    | .upgrade => tpmRcVer1 ||| 0x02D
    | .tooManyContexts => tpmRcVer1 ||| 0x02E
    | .authUnavailable => tpmRcVer1 ||| 0x02F
    | .reboot => tpmRcVer1 ||| 0x030
    | .unbalanced => tpmRcVer1 ||| 0x031
    | .commandSize => tpmRcVer1 ||| 0x042
    | .commandCode => tpmRcVer1 ||| 0x043
    | .authSize => tpmRcVer1 ||| 0x044
    | .authContext => tpmRcVer1 ||| 0x045
    | .nvRange => tpmRcVer1 ||| 0x046
    | .nvSize => tpmRcVer1 ||| 0x047
    | .nvLocked => tpmRcVer1 ||| 0x048
    | .nvAuthorization => tpmRcVer1 ||| 0x049
    | .nvUninitialized => tpmRcVer1 ||| 0x04A
    | .nvSpace => tpmRcVer1 ||| 0x04B
    | .nvDefined => tpmRcVer1 ||| 0x04C
    | .badContext => tpmRcVer1 ||| 0x050
    | .cpHash => tpmRcVer1 ||| 0x051
    | .parent => tpmRcVer1 ||| 0x052
    | .needsTest => tpmRcVer1 ||| 0x053
    | .noResult => tpmRcVer1 ||| 0x054
    | .sensitive => tpmRcVer1 ||| 0x055
    | .readOnly => tpmRcVer1 ||| 0x056
    | .asymmetric => tpmRcFmt1 ||| 0x001
    | .attributes => tpmRcFmt1 ||| 0x002
    | .hash => tpmRcFmt1 ||| 0x003
    | .value => tpmRcFmt1 ||| 0x004
    | .hierarchy => tpmRcFmt1 ||| 0x005
    | .keySize => tpmRcFmt1 ||| 0x007
    | .mgf => tpmRcFmt1 ||| 0x008
    | .mode => tpmRcFmt1 ||| 0x009
    | .type => tpmRcFmt1 ||| 0x00A
    | .handle => tpmRcFmt1 ||| 0x00B
    | .kdf => tpmRcFmt1 ||| 0x00C
    | .range => tpmRcFmt1 ||| 0x00D
    | .authFail => tpmRcFmt1 ||| 0x00E
    | .nonce => tpmRcFmt1 ||| 0x00F
    | .pp => tpmRcFmt1 ||| 0x010
    | .scheme => tpmRcFmt1 ||| 0x012
    | .size => tpmRcFmt1 ||| 0x015
    | .symmetric => tpmRcFmt1 ||| 0x016
    | .tag => tpmRcFmt1 ||| 0x017
    | .selector => tpmRcFmt1 ||| 0x018
    | .insufficient => tpmRcFmt1 ||| 0x01A
    | .signature => tpmRcFmt1 ||| 0x01B
    | .key => tpmRcFmt1 ||| 0x01C
    | .policyFail => tpmRcFmt1 ||| 0x01D
    | .integrity => tpmRcFmt1 ||| 0x01F
    | .ticket => tpmRcFmt1 ||| 0x020
    | .reservedBits => tpmRcFmt1 ||| 0x021
    | .badAuth => tpmRcFmt1 ||| 0x022
    | .expired => tpmRcFmt1 ||| 0x023
    | .policyCc => tpmRcFmt1 ||| 0x024
    | .binding => tpmRcFmt1 ||| 0x025
    | .curve => tpmRcFmt1 ||| 0x026
    | .eccPoint => tpmRcFmt1 ||| 0x027
    | .fwLimited => tpmRcFmt1 ||| 0x028
    | .svnLimited => tpmRcFmt1 ||| 0x029
    | .channel => tpmRcFmt1 ||| 0x030
    | .channelKey => tpmRcFmt1 ||| 0x031
    | .contextGap => tpmRcWarn ||| 0x001
    | .objectMemory => tpmRcWarn ||| 0x002
    | .sessionMemory => tpmRcWarn ||| 0x003
    | .memory => tpmRcWarn ||| 0x004
    | .sessionHandles => tpmRcWarn ||| 0x005
    | .objectHandles => tpmRcWarn ||| 0x006
    | .locality => tpmRcWarn ||| 0x007
    | .yielded => tpmRcWarn ||| 0x008
    | .canceled => tpmRcWarn ||| 0x009
    | .testing => tpmRcWarn ||| 0x00A
    | .referenceH0 => tpmRcWarn ||| 0x010
    | .referenceH1 => tpmRcWarn ||| 0x011
    | .referenceH2 => tpmRcWarn ||| 0x012
    | .referenceH3 => tpmRcWarn ||| 0x013
    | .referenceH4 => tpmRcWarn ||| 0x014
    | .referenceH5 => tpmRcWarn ||| 0x015
    | .referenceH6 => tpmRcWarn ||| 0x016
    | .referenceS0 => tpmRcWarn ||| 0x018
    | .referenceS1 => tpmRcWarn ||| 0x019
    | .referenceS2 => tpmRcWarn ||| 0x01A
    | .referenceS3 => tpmRcWarn ||| 0x01B
    | .referenceS4 => tpmRcWarn ||| 0x01C
    | .referenceS5 => tpmRcWarn ||| 0x01D
    | .referenceS6 => tpmRcWarn ||| 0x01E
    | .nvRate => tpmRcWarn ||| 0x020
    | .lockout => tpmRcWarn ||| 0x021
    | .retry => tpmRcWarn ||| 0x022
    | .nvUnavailable => tpmRcWarn ||| 0x023
    | .notUsed => 0xFFFFFFFF
  complete e := by cases e <;> decide +kernel
  nodup := by decide +kernel

instance : TpmWire TpmRcBase := .infer
instance : TpmViewed TpmRcBase := .infer

/-- A response code with a format-one structure. -/
structure TpmRcFmt1 where
  base : TpmRcBase
  index : Option TpmRcIndex
  deriving DecidableEq

inductive TpmRc
  | fmt0 (base : TpmRcBase)
  | fmt1 (rc : TpmRcFmt1)
  | warn (base : TpmRcBase)
  deriving DecidableEq

namespace TpmRc

/-- The bits of a format-one base code with those of its index. -/
def withIndex (value : UInt32) : Option TpmRcIndex → UInt32
  | none => value
  | some index =>
      let (isParameter, num) : Bool × UInt32 := match index with
        | .parameter n => (true, n.toUInt32)
        | .handle n => (false, n.toUInt32)
        | .session n => (false, n.toUInt32 + sessionIndexOffset.toUInt32)
      let value := if isParameter then value ||| tpmRcPBit else value
      value ||| ((num &&& tpmRcNMask) <<< tpmRcNShift)

/-- The raw value of a response code. -/
def value : TpmRc → UInt32
  | fmt0 base | warn base => TpmEnum.value base
  | fmt1 rc => withIndex (TpmEnum.value rc.base) rc.index

/-- The base code of any variant. -/
def base : TpmRc → TpmRcBase
  | fmt0 base | warn base => base
  | fmt1 rc => rc.base

/-- The index that the `P` bit and the `N` field of a format-one code select. -/
def fmt1Index (isParameter : Bool) (n : UInt8) : Option (Option TpmRcIndex) :=
  match isParameter, n with
  -- a set `P` bit selects a parameter number, which is one-based
  | true, 0 => none
  | false, 0 => some none
  | true, num => some (some (.parameter num))
  | false, num =>
      if num ≤ maxHandleIndex then some (some (.handle num))
      else some (some (.session (num - sessionIndexOffset)))

/-- `TpmRc::try_from(u32)`. Bit 7 selects the format; only a format-zero code can carry the warning
bits. -/
def tryFrom (value : UInt32) : TpmResult TpmRc :=
  let invalidRc : TpmError := .invalidRc 0 (TpmIntBytes.asU64 value)
  if value &&& tpmRcFmt1 ≠ 0 then
    if value &&& ~~~tpmRcFmt1ValidMask ≠ 0 then
      .error invalidRc
    else do
      let base ← (TpmEnum.tryFrom (tpmRcFmt1 ||| (value &&& tpmRcFmt1ErrorMask)) :
        TpmResult TpmRcBase).mapError fun _ => invalidRc
      let isParameter := decide (value &&& tpmRcPBit ≠ 0)
      let n := ((value >>> tpmRcNShift) &&& tpmRcNMask).toUInt8
      match fmt1Index isParameter n with
      | none => .error invalidRc
      | some index => .ok (.fmt1 ⟨base, index⟩)
  else do
    let base ← (TpmEnum.tryFrom value : TpmResult TpmRcBase).mapError fun _ => invalidRc
    if value &&& tpmRcWarn = tpmRcWarn then .ok (.warn base) else .ok (.fmt0 base)

theorem lt_of_masked {value : UInt32} (valid : value &&& ~~~tpmRcFmt1ValidMask = 0) :
    value.toNat < 16 * 256 := by
  have mask : ~~~tpmRcFmt1ValidMask = (0xFFFFF000 : UInt32) := by decide
  have nat : value.toNat &&& 0xFFFFF000 = 0 := by
    have := congrArg UInt32.toNat valid
    rwa [mask, UInt32.toNat_and] at this
  have high : (value.toNat >>> 12) &&& (2 ^ 20 - 1) = 0 := by
    have := congrArg (· >>> 12) nat
    simpa [Nat.shiftRight_and_distrib] using this
  rw [Nat.and_two_pow_sub_one_eq_mod, Nat.shiftRight_eq_div_pow] at high
  have := value.toNat_lt
  omega

/-- Every value of the twelve format-one bits is put back together from the parts it decodes to. -/
theorem withIndex_fmt1Index : ∀ high : Fin 16, ∀ low : Fin 256,
    let value := UInt32.ofNat (high * 256 + low)
    ∀ index ∈ fmt1Index (decide (value &&& tpmRcPBit ≠ 0))
        ((value >>> tpmRcNShift) &&& tpmRcNMask).toUInt8,
      value &&& tpmRcFmt1 ≠ 0 →
        withIndex (tpmRcFmt1 ||| (value &&& tpmRcFmt1ErrorMask)) index = value := by
  decide +kernel

/-- A decoded response code has the raw value it was decoded from. -/
theorem value_of_tryFrom {raw : UInt32} {rc : TpmRc} (ok : tryFrom raw = .ok rc) :
    rc.value = raw := by
  unfold tryFrom at ok
  dsimp only at ok
  split at ok
  next format =>
    split at ok
    · cases ok
    next valid =>
      obtain ⟨base, found, ok⟩ := bind_eq_ok.mp ok
      split at ok
      · cases ok
      next index selected =>
        cases ok
        have below := lt_of_masked (Decidable.not_not.mp valid)
        have parts := withIndex_fmt1Index ⟨raw.toNat / 256, by omega⟩ ⟨raw.toNat % 256, by omega⟩
        have whole : raw.toNat / 256 * 256 + raw.toNat % 256 = raw.toNat := by omega
        simp only [whole, UInt32.ofNat_toNat] at parts
        rw [value, ← TpmEnum.tryFrom_eq_ok.mp (mapError_eq_ok.mp found)]
        exact parts index selected format
  next =>
    obtain ⟨base, found, ok⟩ := bind_eq_ok.mp ok
    have raw_eq := TpmEnum.tryFrom_eq_ok.mp (mapError_eq_ok.mp found)
    split at ok <;>
      · cases ok
        exact raw_eq.symm

instance : TpmSized TpmRc := ⟨4, fun _ => 4⟩

instance : TpmMarshal TpmRc := ⟨fun rc => marshal (TpmInt.new rc.value : TpmUint32)⟩

instance : TpmUnmarshal TpmRc where
  unmarshal buffer := do
    let (value, remainder) ← (unmarshal buffer : TpmResult (TpmUint32 × Bytes))
    let rc ← tryFrom value.value
    return (rc, remainder)

instance : TpmField TpmRc := ⟨TpmRc, unmarshal⟩

/-- A response code is well formed when decoding can produce it. -/
instance : TpmSpec TpmRc := ⟨fun _ => True, fun rc => ∃ raw, tryFrom raw = .ok rc, 4⟩

theorem tryFrom_value {rc : TpmRc} (wf : WellFormed rc) : tryFrom rc.value = .ok rc := by
  obtain ⟨raw, ok⟩ := wf
  rwa [value_of_tryFrom ok]

instance : LawfulWire TpmRc where
  codec :=
    { emits := fun {rc} _ => ⟨_, TpmInt.length_bytes _,
        TpmWriter.writeBytes_emits (TpmInt.new rc.value : TpmUint32).bytes⟩
      refuses := fun w => (w trivial).elim
      writable := fun _ => trivial
      read_emitted := fun {rc p} wf e r => by
        have read := codec.read_emitted (α := TpmUint32) trivial e r
        refine bind_eq_ok.mpr ⟨_, read, bind_eq_ok.mpr ⟨rc, ?_, rfl⟩⟩
        rw [TpmInt.value_new, tryFrom_value wf]
      read_ok := fun {b rc r} ok => by
        obtain ⟨⟨value, m⟩, read, ok⟩ := bind_eq_ok.mp ok
        obtain ⟨rc, found, ok⟩ := bind_eq_ok.mp ok
        cases ok
        obtain ⟨-, p, split, emits⟩ := codec.read_ok read
        refine ⟨⟨_, found⟩, p, split, ?_⟩
        obtain rfl : value = .new rc.value := by rw [value_of_tryFrom found, TpmInt.new_value]
        exact emits }
  len_le _ := Nat.le_refl _
  maxLen_le := Nat.le_refl _

instance : LawfulView TpmRc := ⟨fun _ _ => Iff.rfl⟩

instance : TpmWire TpmRc := .infer
instance : TpmViewed TpmRc := .infer

end TpmRc
end Tpm2
