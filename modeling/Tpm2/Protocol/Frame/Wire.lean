import Tpm2.ByteCodec.Prefixed
import Tpm2.Protocol.Frame.Marshal

/-! Wire views of command and response frames: validation, the areas of a frame and the owned body
in it. -/

namespace Tpm2

open ByteCodec

def tagOffset : Nat := 0
def sizeOffset : Nat := 2
def codeOffset : Nat := 6

/-- `u16::from_be_bytes` of the bytes at `offset`. -/
def readU16 (buf : Bytes) (offset : Nat) : UInt16 :=
  TpmIntBytes.fromBeBytes ((buf.drop offset).take 2)

/-- `u32::from_be_bytes` of the bytes at `offset`. -/
def readU32 (buf : Bytes) (offset : Nat) : UInt32 :=
  TpmIntBytes.fromBeBytes ((buf.drop offset).take 4)

/-- `tpm_offset`: the offset in a frame of a cursor into an area that ends at `areaEnd`. -/
def tpmOffset (areaEnd : Nat) (cursor : Bytes) : Nat := areaEnd - cursor.length

def commandCode (buf : Bytes) : TpmResult TpmCc :=
  let raw := readU32 buf codeOffset
  (TpmEnum.tryFrom raw).mapError fun _ => .invalidCc codeOffset (TpmIntBytes.asU64 raw)

/-- The frame length that the header of `buf` announces, where `buf` holds that many bytes. -/
def framePrefixSize (buf : Bytes) : TpmResult Nat :=
  if buf.length < tpmHeaderSize then
    .error (.unexpectedEnd 0 tpmHeaderSize buf.length)
  else
    let size := (readU32 buf sizeOffset).toNat
    if size < tpmHeaderSize then
      .error (.unexpectedEnd sizeOffset tpmHeaderSize size)
    else if buf.length < size then
      .error (.unexpectedEnd buf.length (size - buf.length) 0)
    else
      .ok size

def validateFrameSize (buf : Bytes) : TpmResult Unit := do
  let size ← framePrefixSize buf
  if buf.length > size then
    throw (.trailingData size (buf.length - size))

theorem readU16_toNat (buf : Bytes) (offset : Nat) :
    (readU16 buf offset).toNat = numberAt buf offset 2 :=
  UInt16.toNat_ofNat_of_lt' numberAt_lt

theorem readU32_toNat (buf : Bytes) (offset : Nat) :
    (readU32 buf offset).toNat = numberAt buf offset 4 :=
  UInt32.toNat_ofNat_of_lt' numberAt_lt

theorem validateFrameSize_eq_ok {b : Bytes} :
    validateFrameSize b = .ok () ↔ 10 ≤ b.length ∧ numberAt b 2 4 = b.length := by
  simp only [validateFrameSize, framePrefixSize, readU32_toNat, tpmHeaderSize, sizeOffset]
  by_cases short : b.length < 10
  · have few : ¬ 10 ≤ b.length := by omega
    simp [short, few, bind, Except.bind]
  by_cases small : numberAt b 2 4 < 10
  · simp [short, small, bind, Except.bind]
    omega
  by_cases truncated : b.length < numberAt b 2 4
  · simp [short, small, truncated, bind, Except.bind]
    omega
  by_cases trailing : b.length > numberAt b 2 4
  · simp [short, small, truncated, trailing, bind, Except.bind]
    omega
  · simp [short, small, truncated, trailing, bind, Except.bind, pure, Except.pure]
    omega

/-- The tag of a frame, which has to be `NoSessions` or `Sessions`. -/
def frameTag (buf : Bytes) : TpmResult TpmSt := do
  let rawTag := readU16 buf tagOffset
  let invalidTag : TpmError := .invalidTag tagOffset (TpmIntBytes.asU64 rawTag)
  let tag ← (TpmEnum.tryFrom rawTag).mapError fun _ => invalidTag
  if tag ≠ .noSessions ∧ tag ≠ .sessions then
    throw invalidTag
  return tag

/-- Skips a size-prefixed byte string. -/
def skipTpm2b (areaEnd : Nat) (buf : Bytes) : TpmResult Bytes := do
  if buf.length < 2 then
    throw (.unexpectedEnd (tpmOffset areaEnd buf) 2 buf.length)
  let size := (readU16 buf 0).toNat
  let stop ← okOr (checkedAdd? 2 size) (.integerTooLarge (tpmOffset areaEnd buf) (tpmValue size))
  if buf.length < stop then
    throw (.unexpectedEnd (tpmOffset areaEnd buf) stop buf.length)
  return buf.drop stop

/-- Skips one response session record: a nonce, an attribute byte and an hmac. -/
def skipAuthResponse (areaEnd : Nat) (buf : Bytes) : TpmResult Bytes := do
  let buf ← skipTpm2b areaEnd buf
  if buf.isEmpty then
    throw (.unexpectedEnd (tpmOffset areaEnd buf) 1 0)
  skipTpm2b areaEnd (buf.drop 1)

/-- Skips one command session record: a handle and what a response record has. -/
def skipAuthCommand (areaEnd : Nat) (buf : Bytes) : TpmResult Bytes := do
  if buf.length < 4 then
    throw (.unexpectedEnd (tpmOffset areaEnd buf) 4 buf.length)
  skipAuthResponse areaEnd (buf.drop 4)

/-- Skips records until the area is used up, `room` at most. -/
def validateRecords (skip : Nat → Bytes → TpmResult Bytes) (areaEnd : Nat) :
    (room : Nat) → Bytes → TpmResult Unit
  | 0, buf =>
      if buf.isEmpty then .ok ()
      else .error (.tooManyItems (tpmOffset areaEnd buf) maxSessions (maxSessions + 1))
  | room + 1, buf =>
      if buf.isEmpty then .ok ()
      else do
        let buf ← skip areaEnd buf
        validateRecords skip areaEnd room buf

def validateAuthCommands (areaEnd : Nat) (buf : Bytes) : TpmResult Unit :=
  validateRecords skipAuthCommand areaEnd maxSessions buf

def validateAuthResponses (areaEnd : Nat) (buf : Bytes) : TpmResult Unit :=
  validateRecords skipAuthResponse areaEnd maxSessions buf

/-- The end of an area behind a 32-bit length word at the start of `buf`, which begins at `offset`
in its frame. -/
def wordAreaEnd (offset : Nat) (buf : Bytes) : TpmResult Nat := do
  if buf.length < 4 then
    throw (.unexpectedEnd offset 4 buf.length)
  let size := (readU32 buf 0).toNat
  let stop ← okOr (checkedAdd? 4 size) (.integerTooLarge offset (tpmValue size))
  if buf.length < stop then
    throw (.unexpectedEnd (offset + 4) size (buf.length - 4))
  return stop

/-- A TPM command wire view: at least a header. -/
structure TpmCommand where
  bytes : Bytes
  header : tpmHeaderSize ≤ bytes.length

namespace TpmCommand

def validateEnvelope (buf : Bytes) : TpmResult Unit := do
  validateFrameSize buf
  let tag ← frameTag buf
  let dispatch ← dispatchFor (← commandCode buf)
  let body := buf.drop tpmHeaderSize
  let handleAreaSize ← handleAreaSize dispatch.handles tpmHeaderSize
  if body.length < handleAreaSize then
    throw (.unexpectedEnd tpmHeaderSize handleAreaSize body.length)
  if tag = .sessions then
    let _ ← wordAreaEnd (tpmHeaderSize + handleAreaSize) (body.drop handleAreaSize)

/-- Casts a byte slice into a TPM command wire view. -/
def cast (buf : Bytes) : TpmResult TpmCommand :=
  match valid : validateEnvelope buf with
  | .ok () =>
      .ok ⟨buf, by
        obtain ⟨_, sized, -⟩ := bind_eq_ok.mp valid
        exact (validateFrameSize_eq_ok.mp sized).1⟩
  | .error e => .error e

section
variable (command : TpmCommand)

/-- The bytes of a range of the frame. -/
def slice (range : Nat × Nat) : Bytes := (command.bytes.drop range.1).take (range.2 - range.1)

def tag : TpmResult TpmSt :=
  let raw := readU16 command.bytes tagOffset
  (TpmEnum.tryFrom raw).mapError fun _ => .invalidTag tagOffset (TpmIntBytes.asU64 raw)

def size : UInt32 := readU32 command.bytes sizeOffset

def cc : TpmResult TpmCc := commandCode command.bytes

def handleAreaRange : TpmResult (Nat × Nat) := do
  let dispatch ← dispatchFor (← command.cc)
  let handleAreaSize ← handleAreaSize dispatch.handles tpmHeaderSize
  let handleAreaEnd ← okOr (checkedAdd? tpmHeaderSize handleAreaSize)
    (.integerTooLarge tpmHeaderSize (tpmValue handleAreaSize))
  if command.bytes.length < handleAreaEnd then
    throw (.unexpectedEnd tpmHeaderSize handleAreaSize (command.bytes.length - tpmHeaderSize))
  return (tpmHeaderSize, handleAreaEnd)

/-- The ranges of the authorization area and of the parameters. -/
def sessionAndParameterRanges : TpmResult ((Nat × Nat) × (Nat × Nat)) := do
  let handleArea ← command.handleAreaRange
  let tag ← command.tag
  let afterHandlesStart := handleArea.2
  if tag ≠ .sessions then
    return ((afterHandlesStart, afterHandlesStart), (afterHandlesStart, command.bytes.length))
  let authEnd ← wordAreaEnd afterHandlesStart (command.bytes.drop afterHandlesStart)
  return ((afterHandlesStart + 4, afterHandlesStart + authEnd),
    (afterHandlesStart + authEnd, command.bytes.length))

def handles : TpmResult Bytes := do
  return command.slice (← command.handleAreaRange)

def authArea : TpmResult Bytes := do
  return command.slice (← command.sessionAndParameterRanges).1

def parameters : TpmResult Bytes := do
  return command.slice (← command.sessionAndParameterRanges).2

/-- Validates command frame structure without constructing an owned command body. -/
def validate : TpmResult Unit := do
  validateEnvelope command.bytes
  let (authArea, _) ← command.sessionAndParameterRanges
  validateAuthCommands authArea.2 (command.slice authArea)

/-- Reconstructs an owned command body from this frame. -/
def unmarshal (C : TpmBodyType) : TpmResult (TpmBody C) := do
  command.validate
  let cc ← command.cc
  if cc ≠ C.CC then
    throw (.invalidCc codeOffset (TpmIntBytes.asU64 (TpmEnum.value cc)))
  TpmBody.unmarshalBody C (← command.handles) (← command.parameters)

end
end TpmCommand

/-- A TPM response wire view: at least a header. -/
structure TpmResponse where
  bytes : Bytes
  header : tpmHeaderSize ≤ bytes.length

namespace TpmResponse

def responseCode (buf : Bytes) : TpmResult TpmRc :=
  let raw := readU32 buf codeOffset
  (TpmRc.tryFrom raw).mapError fun _ => .invalidRc codeOffset (TpmIntBytes.asU64 raw)

def validateEnvelope (buf : Bytes) : TpmResult Unit := do
  validateFrameSize buf
  let _ ← frameTag buf
  let _ ← responseCode buf

/-- Casts a byte slice into a TPM response wire view. -/
def cast (buf : Bytes) : TpmResult TpmResponse :=
  match valid : validateEnvelope buf with
  | .ok () =>
      .ok ⟨buf, by
        obtain ⟨_, sized, -⟩ := bind_eq_ok.mp valid
        exact (validateFrameSize_eq_ok.mp sized).1⟩
  | .error e => .error e

section
variable (response : TpmResponse)

def tag : TpmResult TpmSt :=
  let raw := readU16 response.bytes tagOffset
  (TpmEnum.tryFrom raw).mapError fun _ => .invalidTag tagOffset (TpmIntBytes.asU64 raw)

def size : UInt32 := readU32 response.bytes sizeOffset

def rc : TpmResult TpmRc := responseCode response.bytes

/-- The response body bytes after the TPM header. -/
def body : Bytes := response.bytes.drop tpmHeaderSize

/-- Validates response frame structure without constructing an owned response body. -/
def validate (cc : TpmCc) : TpmResult Unit := do
  validateEnvelope response.bytes
  let dispatch ← dispatchFor cc
  let tag ← response.tag
  if (← response.rc) ≠ .fmt0 .success then
    if tag ≠ .noSessions then
      throw (.invalidTag tagOffset (TpmIntBytes.asU64 (TpmEnum.value tag)))
    if response.bytes.length ≠ tpmHeaderSize then
      throw (.trailingData tpmHeaderSize (response.bytes.length - tpmHeaderSize))
    return
  let handleAreaSize ← handleAreaSize dispatch.responseHandles tpmHeaderSize
  if response.body.length < handleAreaSize then
    throw (.unexpectedEnd tpmHeaderSize handleAreaSize response.body.length)
  if tag ≠ .sessions then
    return
  let afterHandles := response.body.drop handleAreaSize
  let sessionsStart ← wordAreaEnd (tpmHeaderSize + handleAreaSize) afterHandles
  validateAuthResponses response.bytes.length (afterHandles.drop sessionsStart)

/-- The handle area and the parameter area. -/
def bodyParts (R : TpmBodyType) : TpmResult (Bytes × Bytes) := do
  let handleAreaSize ← handleAreaSize R.HANDLES tpmHeaderSize
  if response.body.length < handleAreaSize then
    throw (.unexpectedEnd tpmHeaderSize handleAreaSize response.body.length)
  let handles := response.body.take handleAreaSize
  let afterHandles := response.body.drop handleAreaSize
  if (← response.tag) ≠ .sessions then
    return (handles, afterHandles)
  let (parameterSize, afterSize) ← TpmUint32.readCount afterHandles
  if afterSize.length < parameterSize then
    throw (.unexpectedEnd (tpmHeaderSize + handleAreaSize + 4) parameterSize afterSize.length)
  return (handles, afterSize.take parameterSize)

/-- Reconstructs an owned response body from this frame. -/
def unmarshal (R : TpmBodyType) : TpmResult (TpmBody R) := do
  response.validate R.CC
  let (handles, parameters) ← response.bodyParts R
  TpmBody.unmarshalBody R handles parameters

end
end TpmResponse
end Tpm2
