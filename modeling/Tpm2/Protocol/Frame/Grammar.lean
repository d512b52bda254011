import Tpm2.Protocol.Frame.Wire

/-! The pieces of the frame grammar: headers, length words and session records, and what the checks
of each piece accept. -/

namespace Tpm2

open ByteCodec

/-- A response session record: a size-prefixed nonce, an attribute byte, a size-prefixed hmac. -/
structure ResponseRecord where
  nonce : Bytes
  attributes : UInt8
  hmac : Bytes
  nonce_lt : nonce.length < 256 ^ 2
  hmac_lt : hmac.length < 256 ^ 2

/-- A command session record: a handle and what a response record has. -/
structure CommandRecord extends ResponseRecord where
  handle : Bytes
  length_handle : handle.length = 4

def ResponseRecord.bytes (record : ResponseRecord) : Bytes :=
  prefixed 2 record.nonce ++ record.attributes :: prefixed 2 record.hmac

def CommandRecord.bytes (record : CommandRecord) : Bytes :=
  record.handle ++ record.toResponseRecord.bytes

/-- At most eight records fill an area without remainder. -/
def RecordsFill {R : Type} (bytes : R → Bytes) (area : Bytes) : Prop :=
  ∃ records : List R, records.length ≤ maxSessions ∧ area = records.flatMap bytes

theorem skipTpm2b_eq_ok {areaEnd : Nat} {b r : Bytes} :
    skipTpm2b areaEnd b = .ok r ↔
      ∃ payload, payload.length < 256 ^ 2 ∧ b = prefixed 2 payload ++ r := by
  have small : numberAt b 0 2 < 65536 := numberAt_lt
  have noOverflow : 2 + numberAt b 0 2 ≤ usizeMax := by
    rw [usizeMax]
    omega
  rw [exists_prefixed_iff]
  simp only [skipTpm2b, readU16_toNat]
  by_cases short : b.length < 2
  · have few : ¬ 2 ≤ b.length := by omega
    simp [short, few, bind, Except.bind]
  by_cases truncated : b.length < 2 + numberAt b 0 2
  · have few : ¬ 2 + numberAt b 0 2 ≤ b.length := by omega
    simp [short, truncated, few, checkedAdd?, noOverflow, okOr, bind, Except.bind]
  · have word : 2 ≤ b.length := by omega
    have within : 2 + numberAt b 0 2 ≤ b.length := by omega
    simp [short, truncated, word, within, checkedAdd?, noOverflow, okOr, bind, Except.bind, pure,
      Except.pure, eq_comm]

theorem skipAuthResponse_eq_ok {areaEnd : Nat} {b r : Bytes} :
    skipAuthResponse areaEnd b = .ok r ↔ ∃ record : ResponseRecord, b = record.bytes ++ r := by
  simp only [skipAuthResponse, bind_eq_ok, skipTpm2b_eq_ok]
  constructor
  · rintro ⟨m, ⟨nonce, nonce_lt, rfl⟩, ok⟩
    cases m with
    | nil => cases ok
    | cons attributes m =>
        obtain ⟨hmac, hmac_lt, rfl⟩ := skipTpm2b_eq_ok.mp ok
        exact ⟨⟨nonce, attributes, hmac, nonce_lt, hmac_lt⟩, by simp [ResponseRecord.bytes]⟩
  · rintro ⟨record, rfl⟩
    refine ⟨record.attributes :: (prefixed 2 record.hmac ++ r), ⟨record.nonce, record.nonce_lt, ?_⟩,
      ?_⟩
    · simp [ResponseRecord.bytes]
    · exact skipTpm2b_eq_ok.mpr ⟨record.hmac, record.hmac_lt, rfl⟩

theorem skipAuthCommand_eq_ok {areaEnd : Nat} {b r : Bytes} :
    skipAuthCommand areaEnd b = .ok r ↔ ∃ record : CommandRecord, b = record.bytes ++ r := by
  unfold skipAuthCommand
  constructor
  · intro ok
    dsimp only at ok
    split at ok
    · cases ok
    next enough =>
      obtain ⟨record, split⟩ := skipAuthResponse_eq_ok.mp ok
      refine ⟨⟨record, b.take 4, by rw [List.length_take]; omega⟩, ?_⟩
      rw [CommandRecord.bytes, List.append_assoc, ← split, List.take_append_drop]
  · rintro ⟨record, rfl⟩
    have enough : ¬ (record.bytes ++ r).length < 4 := by
      simp [CommandRecord.bytes, record.length_handle]
    have rest : (record.bytes ++ r).drop 4 = record.toResponseRecord.bytes ++ r := by
      rw [CommandRecord.bytes, List.append_assoc, List.drop_left' record.length_handle]
    simp only [enough, if_false, rest]
    exact skipAuthResponse_eq_ok.mpr ⟨_, rfl⟩

/-- The loop accepts the areas that at most `room` records fill. -/
theorem validateRecords_eq_ok {R : Type} {bytes : R → Bytes} {skip : Nat → Bytes → TpmResult Bytes}
    (skip_eq_ok : ∀ {areaEnd b r}, skip areaEnd b = .ok r ↔ ∃ record, b = bytes record ++ r)
    {areaEnd room : Nat} {b : Bytes} :
    validateRecords skip areaEnd room b = .ok () ↔
      ∃ records : List R, records.length ≤ room ∧ b = records.flatMap bytes := by
  induction room generalizing b with
  | zero =>
      cases b with
      | nil => exact iff_of_true rfl ⟨[], Nat.le_refl _, rfl⟩
      | cons head tail =>
          refine iff_of_false nofun ?_
          rintro ⟨records, short, fill⟩
          obtain rfl := List.length_eq_zero_iff.mp (Nat.le_zero.mp short)
          cases fill
  | succ room ih =>
      cases b with
      | nil => exact iff_of_true rfl ⟨[], Nat.zero_le _, rfl⟩
      | cons head tail =>
          rw [validateRecords]
          simp only [List.isEmpty_cons, Bool.false_eq_true, if_false, bind_eq_ok, skip_eq_ok, ih]
          constructor
          · rintro ⟨m, ⟨record, split⟩, records, short, rfl⟩
            exact ⟨record :: records, Nat.succ_le_succ short, split⟩
          · rintro ⟨records, short, fill⟩
            cases records with
            | nil => cases fill
            | cons record records =>
                exact ⟨_, ⟨record, fill⟩, records, Nat.le_of_succ_le_succ short, rfl⟩

theorem validateAuthResponses_eq_ok {areaEnd : Nat} {b : Bytes} :
    validateAuthResponses areaEnd b = .ok () ↔ RecordsFill ResponseRecord.bytes b :=
  validateRecords_eq_ok skipAuthResponse_eq_ok

theorem validateAuthCommands_eq_ok {areaEnd : Nat} {b : Bytes} :
    validateAuthCommands areaEnd b = .ok () ↔ RecordsFill CommandRecord.bytes b :=
  validateRecords_eq_ok skipAuthCommand_eq_ok

theorem wordAreaEnd_eq_ok {offset stop : Nat} {b : Bytes} :
    wordAreaEnd offset b = .ok stop ↔
      4 ≤ b.length ∧ 4 + numberAt b 0 4 ≤ b.length ∧ stop = 4 + numberAt b 0 4 := by
  have small : numberAt b 0 4 < 4294967296 := numberAt_lt
  have noOverflow : 4 + numberAt b 0 4 ≤ usizeMax := by
    rw [usizeMax]
    omega
  simp only [wordAreaEnd, readU32_toNat]
  by_cases short : b.length < 4
  · have few : ¬ 4 ≤ b.length := by omega
    simp [short, few, bind, Except.bind]
  by_cases truncated : b.length < 4 + numberAt b 0 4
  · have few : ¬ 4 + numberAt b 0 4 ≤ b.length := by omega
    simp [short, truncated, few, checkedAdd?, noOverflow, okOr, bind, Except.bind]
  · have word : 4 ≤ b.length := by omega
    have within : 4 + numberAt b 0 4 ≤ b.length := by omega
    simp [short, truncated, word, within, checkedAdd?, noOverflow, okOr, bind, Except.bind, pure,
      Except.pure, eq_comm]

/-- A header: a tag, a size and a code. -/
def frameHeader (tag size code : Nat) : Bytes := toBytes 2 tag ++ toBytes 4 size ++ toBytes 4 code

@[simp] theorem length_frameHeader {tag size code : Nat} :
    (frameHeader tag size code).length = 10 := by
  simp [frameHeader]

theorem numberAt_frameHeader {tag size code : Nat} {body : Bytes} (tag_lt : tag < 256 ^ 2)
    (size_lt : size < 256 ^ 4) (code_lt : code < 256 ^ 4) :
    numberAt (frameHeader tag size code ++ body) 0 2 = tag ∧
      numberAt (frameHeader tag size code ++ body) 2 4 = size ∧
      numberAt (frameHeader tag size code ++ body) 6 4 = code := by
  simp only [frameHeader, List.append_assoc]
  refine ⟨numberAt_append (p := []) rfl tag_lt, numberAt_append (length_toBytes 2 tag) size_lt, ?_⟩
  rw [← List.append_assoc]
  exact numberAt_append (by simp) code_lt

theorem frameHeader_split {b : Bytes} (enough : 10 ≤ b.length) :
    frameHeader (numberAt b 0 2) (numberAt b 2 4) (numberAt b 6 4) ++ b.drop 10 = b := by
  rw [frameHeader, toBytes_numberAt (by omega), toBytes_numberAt (by omega),
    toBytes_numberAt (by omega)]
  have tail : (b.drop 6).take 4 ++ b.drop 10 = b.drop 6 := by
    rw [← List.drop_drop (i := 4) (j := 6), List.take_append_drop]
  have middle : (b.drop 2).take 4 ++ b.drop 6 = b.drop 2 := by
    rw [← List.drop_drop (i := 4) (j := 2), List.take_append_drop]
  rw [List.append_assoc, List.append_assoc, tail, middle, List.drop_zero, List.take_append_drop]

/-- Nothing but a tag of these two heads a frame. -/
theorem frameTag_eq_ok {b : Bytes} {tag : TpmSt} :
    frameTag b = .ok tag ↔
      numberAt b 0 2 = (TpmEnum.value tag).toNat ∧ (tag = .noSessions ∨ tag = .sessions) := by
  simp only [frameTag, bind_eq_ok, mapError_eq_ok, TpmEnum.tryFrom_eq_ok, ← readU16_toNat,
    UInt16.toNat_inj]
  constructor
  · rintro ⟨tag', raw, ok⟩
    split at ok
    · cases ok
    next known =>
      cases ok
      exact ⟨raw, by by_contra other; exact known (not_or.mp other)⟩
  · rintro ⟨raw, known⟩
    refine ⟨tag, raw, ?_⟩
    rw [if_neg (fun other => known.elim other.1 other.2)]
    rfl

theorem commandCode_eq_ok {b : Bytes} {cc : TpmCc} :
    commandCode b = .ok cc ↔ numberAt b 6 4 = (TpmEnum.value cc).toNat := by
  simp only [commandCode, mapError_eq_ok, TpmEnum.tryFrom_eq_ok, ← readU32_toNat, codeOffset,
    UInt32.toNat_inj]

theorem responseCode_eq_ok {b : Bytes} {rc : TpmRc} :
    TpmResponse.responseCode b = .ok rc ↔ numberAt b 6 4 = rc.value.toNat ∧ WellFormed rc := by
  simp only [TpmResponse.responseCode, mapError_eq_ok, ← readU32_toNat, codeOffset,
    UInt32.toNat_inj]
  constructor
  · intro ok
    exact ⟨(TpmRc.value_of_tryFrom ok).symm, _, ok⟩
  · rintro ⟨raw, wf⟩
    rw [raw, TpmRc.tryFrom_value wf]

theorem handleAreaSize_eq_ok {handles offset size : Nat} (few : handles ≤ 3) :
    handleAreaSize handles offset = .ok size ↔ size = handles * 4 := by
  have noOverflow : handles * 4 ≤ usizeMax := by
    rw [usizeMax]
    omega
  rw [handleAreaSize, okOr_eq_ok, checkedMul?_eq_some, and_iff_right noOverflow, eq_comm]

end Tpm2
