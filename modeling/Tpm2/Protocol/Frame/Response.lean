import Tpm2.Protocol.Frame.Grammar

/-! Response frames as byte strings put together from their parts, and what a wire view of one
returns. -/

namespace Tpm2

open ByteCodec

/-- A response frame: its size fits the size field. -/
structure ResponseFrame where
  tag : TpmSt
  rc : TpmRc
  body : Bytes
  tag_mem : tag = .noSessions ∨ tag = .sessions
  rc_wellFormed : WellFormed rc
  size_lt : 10 + body.length < 256 ^ 4

namespace ResponseFrame

/-- The header's size field is the length of the frame. -/
def bytes (frame : ResponseFrame) : Bytes :=
  frameHeader (TpmEnum.value frame.tag).toNat (10 + frame.body.length) frame.rc.value.toNat ++
    frame.body

/-- The body of a successful response: `handles` handles, and then either anything or, with
sessions, the parameters behind their length and session records. -/
def SuccessBody (handles : Nat) (tag : TpmSt) (body : Bytes) : Prop :=
  ∃ handleArea rest, handleArea.length = handles * 4 ∧ body = handleArea ++ rest ∧
    (tag = .sessions → ∃ parameters auth, parameters.length < 256 ^ 4 ∧
      rest = prefixed 4 parameters ++ auth ∧ RecordsFill ResponseRecord.bytes auth)

/-- A bare error header, or the body of a successful response. -/
def Answers (frame : ResponseFrame) (dispatch : TpmDispatch) : Prop :=
  frame.rc ≠ .fmt0 .success ∧ frame.tag = .noSessions ∧ frame.body = [] ∨
    frame.rc = .fmt0 .success ∧ SuccessBody dispatch.responseHandles frame.tag frame.body

variable (frame : ResponseFrame)

@[simp] theorem length_bytes : frame.bytes.length = 10 + frame.body.length := by
  simp [bytes]

theorem numberAt_bytes :
    numberAt frame.bytes 0 2 = (TpmEnum.value frame.tag).toNat ∧
      numberAt frame.bytes 2 4 = frame.bytes.length ∧
      numberAt frame.bytes 6 4 = frame.rc.value.toNat := by
  rw [length_bytes]
  exact numberAt_frameHeader (UInt16.toNat_lt _) frame.size_lt (UInt32.toNat_lt _)

theorem drop_header : frame.bytes.drop tpmHeaderSize = frame.body :=
  List.drop_left' length_frameHeader

theorem validateEnvelope_bytes : TpmResponse.validateEnvelope frame.bytes = .ok () := by
  obtain ⟨tag, size, code⟩ := frame.numberAt_bytes
  have sized : validateFrameSize frame.bytes = .ok () :=
    validateFrameSize_eq_ok.mpr ⟨by simp, size⟩
  have tagged : frameTag frame.bytes = .ok frame.tag :=
    frameTag_eq_ok.mpr ⟨tag, frame.tag_mem⟩
  have coded : TpmResponse.responseCode frame.bytes = .ok frame.rc :=
    responseCode_eq_ok.mpr ⟨code, frame.rc_wellFormed⟩
  simp only [TpmResponse.validateEnvelope, sized, tagged, coded, bind, Except.bind]
  rfl

end ResponseFrame

/-- A frame that passes the envelope checks is put together from parts. -/
theorem exists_responseFrame {b : Bytes} (valid : TpmResponse.validateEnvelope b = .ok ()) :
    ∃ frame : ResponseFrame, b = frame.bytes := by
  obtain ⟨_, sized, valid⟩ := bind_eq_ok.mp valid
  obtain ⟨tag, tagged, valid⟩ := bind_eq_ok.mp valid
  obtain ⟨rc, coded, valid⟩ := bind_eq_ok.mp valid
  obtain ⟨enough, size⟩ := validateFrameSize_eq_ok.mp sized
  obtain ⟨rawTag, tag_mem⟩ := frameTag_eq_ok.mp tagged
  obtain ⟨code, wf⟩ := responseCode_eq_ok.mp coded
  have length : 10 + (b.drop 10).length = b.length := by
    rw [List.length_drop]
    omega
  have split := frameHeader_split enough
  refine ⟨⟨tag, rc, b.drop 10, tag_mem, wf, by rw [length, ← size]; exact numberAt_lt⟩, ?_⟩
  rw [rawTag, size, code, ← length] at split
  exact split.symm

namespace TpmResponse

theorem cast_eq_ok {b : Bytes} {response : TpmResponse} :
    cast b = .ok response ↔ validateEnvelope b = .ok () ∧ response.bytes = b := by
  unfold cast
  split
  next valid =>
    cases response
    simp [valid, eq_comm]
  next e invalid => simp [invalid]

section
variable {response : TpmResponse} {frame : ResponseFrame} (same : response.bytes = frame.bytes)
include same

theorem tag_frame : response.tag = .ok frame.tag := by
  rw [tag, same, mapError_eq_ok, TpmEnum.tryFrom_eq_ok, ← UInt16.toNat_inj, readU16_toNat]
  exact frame.numberAt_bytes.1

theorem rc_frame : response.rc = .ok frame.rc := by
  rw [rc, same]
  exact responseCode_eq_ok.mpr ⟨frame.numberAt_bytes.2.2, frame.rc_wellFormed⟩

theorem body_frame : response.body = frame.body := by
  rw [body, same, frame.drop_header]

theorem length_frame : response.bytes.length = 10 + frame.body.length := by
  rw [same, frame.length_bytes]

/-- The checks of a successful body, written over the bytes behind the handles. -/
theorem validate_success {cc : TpmCc} {dispatch : TpmDispatch}
    (dispatched : dispatchFor cc = .ok dispatch) (success : frame.rc = .fmt0 .success) :
    response.validate cc = .ok () ↔
      ResponseFrame.SuccessBody dispatch.responseHandles frame.tag frame.body := by
  have few := (dispatch_handles_le _ (dispatchFor_eq_ok.mp dispatched).1).2
  have area : handleAreaSize dispatch.responseHandles tpmHeaderSize =
      .ok (dispatch.responseHandles * 4) := (handleAreaSize_eq_ok few).mpr rfl
  have valid : validateEnvelope response.bytes = .ok () := same ▸ frame.validateEnvelope_bytes
  rw [validate, valid]
  simp only [dispatched, tag_frame same, rc_frame same, body_frame same, area, success, bind,
    Except.bind, ne_eq, not_true_eq_false, if_false]
  by_cases short : frame.body.length < dispatch.responseHandles * 4
  · simp only [short, if_true]
    refine iff_of_false nofun ?_
    rintro ⟨handleArea, rest, length, split, -⟩
    rw [split, List.length_append] at short
    omega
  simp only [short, if_false]
  have parts : (frame.body.take (dispatch.responseHandles * 4)).length =
      dispatch.responseHandles * 4 := by
    rw [List.length_take]
    omega
  have unique {handleArea rest : Bytes} (length : handleArea.length = dispatch.responseHandles * 4)
      (split : frame.body = handleArea ++ rest) :
      frame.body.drop (dispatch.responseHandles * 4) = rest := by
    rw [split, List.drop_left' length]
  by_cases sessions : frame.tag = .sessions
  · simp only [sessions, not_true_eq_false, if_false]
    constructor
    · intro ok
      obtain ⟨stop, word, records⟩ := bind_eq_ok.mp ok
      obtain ⟨wordWithin, areaWithin, rfl⟩ := wordAreaEnd_eq_ok.mp word
      obtain ⟨parameters, fits, split⟩ := exists_prefixed_iff.mpr ⟨wordWithin, areaWithin, rfl⟩
      exact ⟨_, _, parts, (List.take_append_drop ..).symm, fun _ =>
        ⟨parameters, _, fits, split, validateAuthResponses_eq_ok.mp records⟩⟩
    · rintro ⟨handleArea, rest, length, split, areas⟩
      obtain ⟨parameters, auth, fits, rfl, records⟩ := areas rfl
      obtain ⟨wordWithin, areaWithin, tail⟩ :=
        exists_prefixed_iff.mp ⟨parameters, fits, (rfl : _ = prefixed 4 parameters ++ auth)⟩
      rw [unique length split]
      refine bind_eq_ok.mpr ⟨_, wordAreaEnd_eq_ok.mpr ⟨wordWithin, areaWithin, rfl⟩, ?_⟩
      rw [← tail]
      exact validateAuthResponses_eq_ok.mpr records
  · simp only [sessions, not_false_eq_true, if_true]
    exact iff_of_true rfl ⟨_, _, parts, (List.take_append_drop ..).symm, fun other =>
      absurd other sessions⟩

theorem validate_frame {cc : TpmCc} {dispatch : TpmDispatch}
    (dispatched : dispatchFor cc = .ok dispatch) :
    response.validate cc = .ok () ↔ frame.Answers dispatch := by
  by_cases success : frame.rc = .fmt0 .success
  · rw [validate_success same dispatched success, ResponseFrame.Answers]
    simp [success]
  have valid : validateEnvelope response.bytes = .ok () := same ▸ frame.validateEnvelope_bytes
  have empty : frame.body = [] ↔ response.bytes.length = tpmHeaderSize := by
    rw [length_frame same, tpmHeaderSize, ← List.length_eq_zero_iff]
    omega
  rw [validate, valid, ResponseFrame.Answers, empty]
  simp only [dispatched, tag_frame same, rc_frame same, success, bind, Except.bind, ne_eq,
    not_false_eq_true, if_true, true_and, false_and, or_false]
  by_cases noSessions : frame.tag = .noSessions
  · by_cases bare : response.bytes.length = tpmHeaderSize
    · simp [noSessions, bare, pure, Except.pure]
    · simp [noSessions, bare]
  · simp [noSessions]

/-- The areas of a successful body that is put together from `handles` and `parameters`. -/
theorem bodyParts_frame {R : TpmBodyType} (few : R.HANDLES ≤ 3) {handles parameters auth : Bytes}
    (length : handles.length = R.HANDLES * 4) (fits : parameters.length < 256 ^ 4)
    (body : frame.body = handles ++
      if frame.tag = .sessions then prefixed 4 parameters ++ auth else parameters) :
    response.bodyParts R = .ok (handles, parameters) := by
  have area : handleAreaSize R.HANDLES tpmHeaderSize = .ok (R.HANDLES * 4) :=
    (handleAreaSize_eq_ok few).mpr rfl
  have within : ¬ frame.body.length < R.HANDLES * 4 := by
    rw [body, List.length_append, length]
    omega
  have taken : frame.body.take (R.HANDLES * 4) = handles := by
    rw [body, List.take_left' length]
  have dropped : frame.body.drop (R.HANDLES * 4) =
      if frame.tag = .sessions then prefixed 4 parameters ++ auth else parameters := by
    rw [body, List.drop_left' length]
  simp only [bodyParts, area, body_frame same, within, tag_frame same, taken, dropped, bind,
    Except.bind, if_false]
  by_cases sessions : frame.tag = .sessions
  · have count : TpmUint32.readCount (prefixed 4 parameters ++ auth) =
        .ok (parameters.length, parameters ++ auth) := by
      refine TpmList.readCount_eq_ok.mpr ⟨by simp; omega, ?_, ?_⟩
      · exact (numberAt_prefixed fits).symm
      · rw [prefixed, List.append_assoc, List.drop_left' (length_toBytes ..)]
    simp [sessions, count, pure, Except.pure]
  · simp only [sessions, ne_eq, not_false_eq_true, if_true, if_false]
    rfl

end
end TpmResponse
end Tpm2
