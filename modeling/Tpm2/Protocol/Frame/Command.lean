import Tpm2.Protocol.Frame.Grammar

/-! Command frames as byte strings put together from their parts, and what a wire view of one
returns. -/

namespace Tpm2

open ByteCodec

/-- The parts of a command frame. -/
structure CommandParts where
  tag : TpmSt
  dispatch : TpmDispatch
  handles : Bytes
  auth : Bytes
  parameters : Bytes
  tag_mem : tag = .noSessions ∨ tag = .sessions
  dispatch_mem : dispatch ∈ tpmDispatchTable
  length_handles : handles.length = dispatch.handles * 4
  auth_nil : tag ≠ .sessions → auth = []

/-- What follows the header: the handles, with sessions the authorization area behind its length,
and the parameters. -/
def CommandParts.body (parts : CommandParts) : Bytes :=
  parts.handles ++ ((if parts.tag = .sessions then prefixed 4 parts.auth else []) ++
    parts.parameters)

/-- The header's size field is the length of the frame. -/
def CommandParts.bytes (parts : CommandParts) : Bytes :=
  frameHeader (TpmEnum.value parts.tag).toNat (10 + parts.body.length)
    (TpmEnum.value parts.dispatch.cc).toNat ++ parts.body

/-- A command frame: its size fits the size field. -/
structure CommandFrame extends CommandParts where
  size_lt : 10 + toCommandParts.body.length < 256 ^ 4

/-- A byte string with the right header and body is the one that the parts make up. -/
theorem CommandParts.eq_bytes (parts : CommandParts) {b : Bytes} (enough : 10 ≤ b.length)
    (tag : numberAt b 0 2 = (TpmEnum.value parts.tag).toNat) (size : numberAt b 2 4 = b.length)
    (code : numberAt b 6 4 = (TpmEnum.value parts.dispatch.cc).toNat)
    (body : parts.body = b.drop 10) : ∃ frame : CommandFrame, b = frame.bytes := by
  have length : 10 + parts.body.length = b.length := by
    rw [body, List.length_drop]
    omega
  have split := frameHeader_split enough
  refine ⟨⟨parts, by rw [length, ← size]; exact numberAt_lt⟩, ?_⟩
  rw [tag, size, code, ← body, ← length] at split
  exact split.symm

namespace CommandFrame

variable (frame : CommandFrame)

@[simp] theorem length_bytes : frame.bytes.length = 10 + frame.body.length := by
  simp [CommandParts.bytes]

theorem numberAt_bytes :
    numberAt frame.bytes 0 2 = (TpmEnum.value frame.tag).toNat ∧
      numberAt frame.bytes 2 4 = frame.bytes.length ∧
      numberAt frame.bytes 6 4 = (TpmEnum.value frame.dispatch.cc).toNat := by
  rw [length_bytes]
  exact numberAt_frameHeader (UInt16.toNat_lt _) frame.size_lt (UInt32.toNat_lt _)

theorem drop_header : frame.bytes.drop tpmHeaderSize = frame.body :=
  List.drop_left' length_frameHeader

theorem drop_handles : frame.body.drop (frame.dispatch.handles * 4) =
    (if frame.tag = .sessions then prefixed 4 frame.auth else []) ++ frame.parameters :=
  List.drop_left' frame.length_handles

theorem auth_lt : frame.auth.length < 256 ^ 4 := by
  have := frame.size_lt
  by_cases sessions : frame.tag = .sessions
  · simp only [CommandParts.body, sessions, if_true, List.length_append, length_prefixed] at this
    omega
  · simp [frame.auth_nil sessions]

theorem handles_le : frame.dispatch.handles ≤ 3 :=
  (dispatch_handles_le _ frame.dispatch_mem).1

theorem handles_within : frame.dispatch.handles * 4 ≤ frame.body.length := by
  rw [← frame.length_handles, CommandParts.body, List.length_append]
  omega

/-- Behind the handles of a frame with sessions, the length word leads to the end of the
authorization area. -/
theorem wordAreaEnd_body (sessions : frame.tag = .sessions) (offset : Nat) :
    wordAreaEnd offset (frame.body.drop (frame.dispatch.handles * 4)) =
      .ok (4 + frame.auth.length) := by
  rw [wordAreaEnd_eq_ok, drop_handles, if_pos sessions, numberAt_prefixed frame.auth_lt,
    List.length_append, length_prefixed]
  omega

theorem validateEnvelope_bytes : TpmCommand.validateEnvelope frame.bytes = .ok () := by
  obtain ⟨tag, size, code⟩ := frame.numberAt_bytes
  have sized : validateFrameSize frame.bytes = .ok () :=
    validateFrameSize_eq_ok.mpr ⟨by simp, size⟩
  have tagged : frameTag frame.bytes = .ok frame.tag :=
    frameTag_eq_ok.mpr ⟨tag, frame.tag_mem⟩
  have coded : commandCode frame.bytes = .ok frame.dispatch.cc := commandCode_eq_ok.mpr code
  have dispatched : dispatchFor frame.dispatch.cc = .ok frame.dispatch :=
    dispatchFor_eq_ok.mpr ⟨frame.dispatch_mem, rfl⟩
  have area : handleAreaSize frame.dispatch.handles tpmHeaderSize =
      .ok (frame.dispatch.handles * 4) := (handleAreaSize_eq_ok frame.handles_le).mpr rfl
  have within : ¬ frame.body.length < frame.dispatch.handles * 4 :=
    Nat.not_lt.mpr frame.handles_within
  simp only [TpmCommand.validateEnvelope, sized, tagged, coded, dispatched, area, drop_header,
    within, bind, Except.bind, if_false]
  by_cases sessions : frame.tag = .sessions
  · simp [sessions, frame.wordAreaEnd_body sessions, pure, Except.pure]
  · simp [sessions, pure, Except.pure]

end CommandFrame

/-- A frame that passes the envelope checks is put together from parts. -/
theorem exists_commandFrame {b : Bytes} (valid : TpmCommand.validateEnvelope b = .ok ()) :
    ∃ frame : CommandFrame, b = frame.bytes := by
  obtain ⟨_, sized, valid⟩ := bind_eq_ok.mp valid
  obtain ⟨tag, tagged, valid⟩ := bind_eq_ok.mp valid
  obtain ⟨cc, coded, valid⟩ := bind_eq_ok.mp valid
  obtain ⟨dispatch, dispatched, valid⟩ := bind_eq_ok.mp valid
  obtain ⟨areaSize, area, valid⟩ := bind_eq_ok.mp valid
  obtain ⟨enough, size⟩ := validateFrameSize_eq_ok.mp sized
  obtain ⟨rawTag, tag_mem⟩ := frameTag_eq_ok.mp tagged
  obtain ⟨dispatch_mem, rfl⟩ := dispatchFor_eq_ok.mp dispatched
  obtain rfl := (handleAreaSize_eq_ok (dispatch_handles_le _ dispatch_mem).1).mp area
  have code := commandCode_eq_ok.mp coded
  dsimp only at valid
  split at valid
  · cases valid
  next within =>
  simp only [tpmHeaderSize] at within valid
  have length_handles : ((b.drop 10).take (dispatch.handles * 4)).length =
    dispatch.handles * 4 := by
    rw [List.length_take]
    omega
  by_cases sessions : tag = .sessions
  · rw [if_pos sessions] at valid
    obtain ⟨stop, word, -⟩ := bind_eq_ok.mp valid
    obtain ⟨wordWithin, areaWithin, -⟩ := wordAreaEnd_eq_ok.mp word
    obtain ⟨auth, -, split⟩ := exists_prefixed_iff.mpr ⟨wordWithin, areaWithin, rfl⟩
    generalize List.drop (4 + _) _ = parameters at split
    let parts : CommandParts :=
      ⟨tag, dispatch, _, auth, parameters, tag_mem, dispatch_mem, length_handles, fun other =>
        (other sessions).elim⟩
    refine parts.eq_bytes enough rawTag size code ?_
    simp only [CommandParts.body, parts, sessions, if_true]
    rw [← split, List.take_append_drop]
  · let parts : CommandParts :=
      ⟨tag, dispatch, _, [], (b.drop 10).drop (dispatch.handles * 4), tag_mem, dispatch_mem,
        length_handles, fun _ => rfl⟩
    refine parts.eq_bytes enough rawTag size code ?_
    simp only [CommandParts.body, parts, sessions, if_false, List.nil_append]
    exact List.take_append_drop (dispatch.handles * 4) _

namespace TpmCommand

theorem cast_eq_ok {b : Bytes} {command : TpmCommand} :
    cast b = .ok command ↔ validateEnvelope b = .ok () ∧ command.bytes = b := by
  unfold cast
  split
  next valid =>
    cases command
    simp [valid, eq_comm]
  next e invalid => simp [invalid]

theorem slice_eq {command : TpmCommand} {p q r : Bytes} {start stop : Nat}
    (split : command.bytes = p ++ (q ++ r)) (begins : start = p.length)
    (ends : stop = p.length + q.length) : command.slice (start, stop) = q := by
  rw [slice, split, begins, ends, List.drop_left, Nat.add_sub_cancel_left, List.take_left]

section
variable {command : TpmCommand} {frame : CommandFrame} (same : command.bytes = frame.bytes)
include same

theorem tag_frame : command.tag = .ok frame.tag := by
  rw [tag, same, mapError_eq_ok, TpmEnum.tryFrom_eq_ok, ← UInt16.toNat_inj, readU16_toNat]
  exact frame.numberAt_bytes.1

theorem size_frame : command.size.toNat = command.bytes.length := by
  rw [size, same, readU32_toNat]
  exact frame.numberAt_bytes.2.1

theorem cc_frame : command.cc = .ok frame.dispatch.cc := by
  rw [cc, same]
  exact commandCode_eq_ok.mpr frame.numberAt_bytes.2.2

theorem handleAreaRange_frame :
    command.handleAreaRange = .ok (10, 10 + frame.dispatch.handles * 4) := by
  have area : handleAreaSize frame.dispatch.handles tpmHeaderSize =
      .ok (frame.dispatch.handles * 4) := (handleAreaSize_eq_ok frame.handles_le).mpr rfl
  have few := frame.handles_le
  have noOverflow : tpmHeaderSize + frame.dispatch.handles * 4 ≤ usizeMax := by
    rw [usizeMax, tpmHeaderSize]
    omega
  have within : ¬ command.bytes.length < tpmHeaderSize + frame.dispatch.handles * 4 := by
    have := frame.handles_within
    rw [same, frame.length_bytes, tpmHeaderSize]
    omega
  simp only [handleAreaRange, cc_frame same, dispatchFor_eq_ok.mpr ⟨frame.dispatch_mem, rfl⟩, area,
    checkedAdd?, noOverflow, if_true, okOr, within, if_false, bind, Except.bind]
  rfl

/-- The header and the handles come before the two areas. -/
theorem ranges_frame : command.sessionAndParameterRanges = .ok
    (if frame.tag = .sessions then
      ((10 + frame.dispatch.handles * 4 + 4, 10 + frame.dispatch.handles * 4 +
          (4 + frame.auth.length)),
        (10 + frame.dispatch.handles * 4 + (4 + frame.auth.length), command.bytes.length))
    else
      ((10 + frame.dispatch.handles * 4, 10 + frame.dispatch.handles * 4),
        (10 + frame.dispatch.handles * 4, command.bytes.length))) := by
  simp only [sessionAndParameterRanges, handleAreaRange_frame same, tag_frame same, bind,
    Except.bind]
  by_cases sessions : frame.tag = .sessions
  · have rest : command.bytes.drop (10 + frame.dispatch.handles * 4) =
        frame.body.drop (frame.dispatch.handles * 4) := by
      rw [same, ← List.drop_drop, ← frame.drop_header]
      rfl
    simp only [sessions, rest, frame.wordAreaEnd_body sessions, ne_eq, not_true_eq_false, if_true,
      if_false]
    rfl
  · simp only [sessions, ne_eq, not_false_eq_true, if_true, if_false]
    rfl

theorem handles_frame : command.handles = .ok frame.handles := by
  rw [handles, handleAreaRange_frame same]
  refine congrArg Except.ok (slice_eq same (by simp) ?_)
  rw [length_frameHeader, frame.length_handles]

/-- The two areas behind the handles. -/
theorem areas_frame : command.authArea = .ok frame.auth ∧
    command.parameters = .ok frame.parameters ∧
      (command.validate = .ok () ↔ RecordsFill CommandRecord.bytes frame.auth) := by
  have valid : validateEnvelope command.bytes = .ok () := same ▸ frame.validateEnvelope_bytes
  have ranges := ranges_frame same
  have length := frame.length_handles
  have total : command.bytes.length = 10 + frame.body.length := by
    rw [same, frame.length_bytes]
  obtain ⟨header, sized, split⟩ : ∃ header : Bytes, header.length = 10 ∧
      command.bytes = header ++ frame.body := ⟨_, length_frameHeader, same⟩
  rw [authArea, parameters, validate, valid]
  by_cases sessions : frame.tag = .sessions
  · rw [if_pos sessions] at ranges
    have body : frame.body = frame.handles ++ (toBytes 4 frame.auth.length ++
        (frame.auth ++ (frame.parameters ++ []))) := by
      simp [CommandParts.body, sessions, prefixed]
    have auth : command.slice (10 + frame.dispatch.handles * 4 + 4,
        10 + frame.dispatch.handles * 4 + (4 + frame.auth.length)) = frame.auth := by
      refine slice_eq (p := header ++ (frame.handles ++ toBytes 4 frame.auth.length))
        (r := frame.parameters ++ []) ?_ ?_ ?_
      · rw [split, body]
        simp only [List.append_assoc]
      · simp only [List.length_append, length_toBytes, sized, length]
        omega
      · simp only [List.length_append, length_toBytes, sized, length]
        omega
    have params : command.slice (10 + frame.dispatch.handles * 4 + (4 + frame.auth.length),
        command.bytes.length) = frame.parameters := by
      refine slice_eq (p := header ++ (frame.handles ++ (toBytes 4 frame.auth.length ++
        frame.auth))) (r := []) ?_ ?_ ?_
      · rw [split, body]
        simp only [List.append_assoc]
      · simp only [List.length_append, length_toBytes, sized, length]
        omega
      · simp only [total, body, List.length_append, length_toBytes, sized, length,
          List.length_nil]
        omega
    simp only [ranges, auth, params, bind, Except.bind, pure, Except.pure, true_and]
    exact validateAuthCommands_eq_ok
  · rw [if_neg sessions] at ranges
    have body : frame.body = frame.handles ++ (frame.parameters ++ []) := by
      simp [CommandParts.body, sessions]
    have auth : command.slice (10 + frame.dispatch.handles * 4,
        10 + frame.dispatch.handles * 4) = frame.auth := by
      rw [frame.auth_nil sessions, slice, Nat.sub_self, List.take_zero]
    have params : command.slice (10 + frame.dispatch.handles * 4, command.bytes.length) =
        frame.parameters := by
      refine slice_eq (p := header ++ frame.handles) (r := []) ?_ ?_ ?_
      · rw [split, body]
        simp only [List.append_assoc]
      · rw [List.length_append, sized, length]
      · simp only [total, body, List.length_append, sized, length, List.length_nil]
        omega
    simp only [ranges, auth, params, bind, Except.bind, pure, Except.pure, true_and]
    exact validateAuthCommands_eq_ok

end
end TpmCommand
end Tpm2
