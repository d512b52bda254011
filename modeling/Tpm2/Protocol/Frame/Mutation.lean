import Tpm2.Algorithm.Checked
import Tpm2.ByteCodec.Tiling
import Tpm2.Protocol.Frame.RoundTrip

/-! Frames that are written to after they were cast: what the accessors index, whatever the bytes
have become. -/

namespace Tpm2

open ByteCodec
open Checked (orPanic result Returns)

def readU16? (buf : Bytes) (offset : Nat) : Option UInt16 :=
  if offset + 2 ≤ buf.length then some (readU16 buf offset) else none

def readU32? (buf : Bytes) (offset : Nat) : Option UInt32 :=
  if offset + 4 ≤ buf.length then some (readU32 buf offset) else none

def writeU16? (buf : Bytes) (offset : Nat) (value : UInt16) : Option Bytes :=
  copyFromSlice? buf (offset, offset + 2) (TpmIntBytes.toBeBytes value)

def writeU32? (buf : Bytes) (offset : Nat) (value : UInt32) : Option Bytes :=
  copyFromSlice? buf (offset, offset + 4) (TpmIntBytes.toBeBytes value)

namespace Frame

/-- The tag of a frame. -/
def tag (buf : Bytes) : Checked TpmError TpmSt := do
  let raw ← orPanic (readU16? buf tagOffset)
  result ((TpmEnum.tryFrom raw).mapError fun _ => .invalidTag tagOffset (TpmIntBytes.asU64 raw))

/-- The size field of a frame. -/
def size (buf : Bytes) : Checked TpmError UInt32 := orPanic (readU32? buf sizeOffset)

/-- The command code of a frame. -/
def cc (buf : Bytes) : Checked TpmError TpmCc := do
  let raw ← orPanic (readU32? buf codeOffset)
  result ((TpmEnum.tryFrom raw).mapError fun _ => .invalidCc codeOffset (TpmIntBytes.asU64 raw))

/-- The response code of a frame. -/
def rc (buf : Bytes) : Checked TpmError TpmRc := do
  let raw ← orPanic (readU32? buf codeOffset)
  result ((TpmRc.tryFrom raw).mapError fun _ => .invalidRc codeOffset (TpmIntBytes.asU64 raw))

def handleAreaRange (buf : Bytes) : Checked TpmError Span := do
  let cc ← cc buf
  let dispatch ← result (dispatchFor cc)
  let handleAreaSize ← result (handleAreaSize dispatch.handles tpmHeaderSize)
  let handleAreaEnd ← result (okOr (checkedAdd? tpmHeaderSize handleAreaSize)
    (.integerTooLarge tpmHeaderSize (tpmValue handleAreaSize)))
  if buf.length < handleAreaEnd then
    throw (.unexpectedEnd tpmHeaderSize handleAreaSize (buf.length - tpmHeaderSize))
  else
    return (tpmHeaderSize, handleAreaEnd)

/-- The end of the authorization area behind its 32-bit length word, which begins at
`afterHandlesStart` in the frame. -/
def authEnd (afterHandlesStart : Nat) (afterHandles : Bytes) : Checked TpmError Nat :=
  if afterHandles.length < 4 then
    throw (.unexpectedEnd afterHandlesStart 4 afterHandles.length)
  else do
    let authSize ← orPanic (readU32? afterHandles 0)
    let authEnd ← result (okOr (checkedAdd? 4 authSize.toNat)
      (.integerTooLarge afterHandlesStart (tpmValue authSize.toNat)))
    if afterHandles.length < authEnd then do
      let offset ← orPanic (checkedAdd? afterHandlesStart 4)
      throw (.unexpectedEnd offset authSize.toNat (afterHandles.length - 4))
    else
      return authEnd

def sessionAndParameterRanges (buf : Bytes) : Checked TpmError (Span × Span) := do
  let handleArea ← handleAreaRange buf
  let tag ← tag buf
  let afterHandlesStart := handleArea.2
  if tag ≠ .sessions then
    return ((afterHandlesStart, afterHandlesStart), (afterHandlesStart, buf.length))
  else do
    let afterHandles ← orPanic (slice? buf (afterHandlesStart, buf.length))
    let authEnd ← authEnd afterHandlesStart afterHandles
    let authStart ← orPanic (checkedAdd? afterHandlesStart 4)
    let authEnd ← orPanic (checkedAdd? afterHandlesStart authEnd)
    return ((authStart, authEnd), (authEnd, buf.length))

def authAreaRange (buf : Bytes) : Checked TpmError Span :=
  Prod.fst <$> sessionAndParameterRanges buf

def parametersRange (buf : Bytes) : Checked TpmError Span :=
  Prod.snd <$> sessionAndParameterRanges buf

/-- What `body` indexes in a response. -/
def bodyRange (buf : Bytes) : Checked TpmError Span := return (tpmHeaderSize, buf.length)

def bytesRange (buf : Bytes) : Checked TpmError Span := return (0, buf.length)

/-- The bytes of the area that `range` tells. -/
def area (range : Bytes → Checked TpmError Span) (buf : Bytes) : Checked TpmError Bytes := do
  let span ← range buf
  orPanic (slice? buf span)

def handles : Bytes → Checked TpmError Bytes := area handleAreaRange
def authArea : Bytes → Checked TpmError Bytes := area authAreaRange
def parameters : Bytes → Checked TpmError Bytes := area parametersRange
def body : Bytes → Checked TpmError Bytes := area bodyRange
def asBytes : Bytes → Checked TpmError Bytes := area bytesRange

def setTag (tag : TpmSt) (buf : Bytes) : Checked TpmError Bytes :=
  orPanic (writeU16? buf tagOffset (TpmEnum.value tag))

def setCc (cc : TpmCc) (buf : Bytes) : Checked TpmError Bytes := do
  let _ ← result (dispatchFor cc)
  orPanic (writeU32? buf codeOffset (TpmEnum.value cc))

def setRc (rc : TpmRc) (buf : Bytes) : Checked TpmError Bytes :=
  orPanic (writeU32? buf codeOffset rc.value)

/-- The frame after its caller wrote `content` through the mutable slice of an area. -/
def writeArea (range : Bytes → Checked TpmError Span) (content buf : Bytes) :
    Checked TpmError Bytes := do
  let span ← range buf
  let old ← orPanic (slice? buf span)
  return replaced buf span (copiedOver content old)

/-- The accessor fails, or returns a range of the frame. -/
def Indexes (range : Bytes → Checked TpmError Span) (buf : Bytes) : Prop :=
  ∃ value, Returns (area range buf) value ∧ ∀ bytes, value = .ok bytes →
    ∃ span, Returns (range buf) (.ok span) ∧ span.Within buf.length ∧ bytes = sliceOf buf span

/-- The range that an accessor indexes lies in the frame, if there is one. -/
def InFrame (range : Bytes → Checked TpmError Span) (buf : Bytes) : Prop :=
  ∃ value, Returns (range buf) value ∧ ∀ span, value = .ok span → span.Within buf.length

section
variable {range : Bytes → Checked TpmError Span} {buf : Bytes} {span : Span}

theorem slice?_of_within (within : span.Within buf.length) :
    slice? buf span = some (sliceOf buf span) := if_pos within

theorem InFrame.indexes (inFrame : InFrame range buf) : Indexes range buf := by
  obtain ⟨value, returns, within⟩ := inFrame
  refine ⟨value >>= fun span => .ok (sliceOf buf span), ?_, ?_⟩
  · exact .bind returns fun span found => .orPanic (slice?_of_within (within span found))
  · intro bytes same
    obtain ⟨span, rfl, sliced⟩ := bind_eq_ok.mp same
    exact ⟨span, returns, within span rfl, (Except.ok.inj sliced).symm⟩

theorem InFrame.writeArea (inFrame : InFrame range buf) (content : Bytes) :
    ∃ value, Returns (writeArea range content buf) value ∧
      ∀ buf', value = .ok buf' → buf'.length = buf.length := by
  obtain ⟨value, returns, within⟩ := inFrame
  refine ⟨value >>= fun span => .ok (replaced buf span (copiedOver content (sliceOf buf span))),
    ?_, ?_⟩
  · exact .bind returns fun span found =>
      .orPanic_bind (slice?_of_within (within span found)) (.pure _)
  · intro buf' same
    obtain ⟨span, rfl, written⟩ := bind_eq_ok.mp same
    rw [← Except.ok.inj written]
    apply length_replaced (within span rfl)
    rw [length_copiedOver, length_sliceOf (within span rfl)]

/-- A write of as many bytes as lie between its offsets keeps the length. -/
theorem copyFromSlice?_preserves {offset n : Nat} {bytes : Bytes} (length : bytes.length = n)
    (inRange : offset + n ≤ buf.length) : ∃ value,
      Returns (orPanic (copyFromSlice? buf (offset, offset + n) bytes) : Checked TpmError Bytes)
        value ∧ ∀ buf', value = .ok buf' → buf'.length = buf.length := by
  have within : Span.Within (offset, offset + n) buf.length := ⟨Nat.le_add_right .., inRange⟩
  have same : bytes.length = (offset + n) - offset := by
    rw [Nat.add_sub_cancel_left]
    exact length
  refine ⟨.ok _, .orPanic (if_pos ⟨within, same⟩), fun buf' written => ?_⟩
  cases written
  exact length_replaced within same

end

section
variable {buf : Bytes} (header : tpmHeaderSize ≤ buf.length)
include header

theorem readU16?_tag : readU16? buf tagOffset = some (readU16 buf tagOffset) :=
  if_pos (Nat.le_trans (by decide) header)

theorem readU32?_code : readU32? buf codeOffset = some (readU32 buf codeOffset) :=
  if_pos (Nat.le_trans (by decide) header)

theorem readU32?_size : readU32? buf sizeOffset = some (readU32 buf sizeOffset) :=
  if_pos (Nat.le_trans (by decide) header)

theorem tag_returns : Returns (tag buf) (⟨buf, header⟩ : TpmCommand).tag :=
  .orPanic_bind (readU16?_tag header) (.of_result _)

theorem cc_returns : Returns (cc buf) (⟨buf, header⟩ : TpmCommand).cc :=
  .orPanic_bind (readU32?_code header) (.of_result _)

theorem rc_returns : Returns (rc buf) (⟨buf, header⟩ : TpmResponse).rc :=
  .orPanic_bind (readU32?_code header) (.of_result _)

theorem handleAreaRange_returns :
    Returns (handleAreaRange buf) (⟨buf, header⟩ : TpmCommand).handleAreaRange :=
  .bind (cc_returns header) fun _ _ => .bind (.of_result _) fun _ _ => .bind (.of_result _)
    fun _ _ => .bind (.of_result _) fun _ _ => .ite (fun _ => .throw _) fun _ => .pure _

theorem size_returns : Returns (size buf) (.ok (⟨buf, header⟩ : TpmCommand).size) :=
  .orPanic (readU32?_size header)

end

/-- The handles follow the header, inside the frame. -/
theorem handleAreaRange_within {command : TpmCommand} {span : Span}
    (ok : command.handleAreaRange = .ok span) :
    span.1 = tpmHeaderSize ∧ tpmHeaderSize ≤ span.2 ∧ span.2 ≤ command.bytes.length := by
  obtain ⟨cc, -, rest⟩ := bind_eq_ok.mp ok
  obtain ⟨dispatch, -, rest'⟩ := bind_eq_ok.mp rest
  obtain ⟨size, -, rest''⟩ := bind_eq_ok.mp rest'
  obtain ⟨stop, added, checks⟩ := bind_eq_ok.mp rest''
  obtain ⟨-, rfl⟩ := checkedAdd?_eq_some.mp (okOr_eq_ok.mp added)
  split at checks
  · cases checks
  next within =>
    cases checks
    exact ⟨rfl, Nat.le_add_right .., Nat.not_lt.mp within⟩

/-- The ranges of a frame with the tag `tag`, in order: the header, the handles, with sessions the
length word, the authorization area and the parameters. -/
def ranges (tag : TpmSt) (handles auth parameters : Span) : List Span :=
  [(0, tpmHeaderSize), handles] ++
    ((if tag = .sessions then [(handles.2, handles.2 + 4)] else []) ++ [auth, parameters])

/-- Whatever a frame holds, its areas follow each other without a gap from its start to its end. -/
theorem ranges_tile {command : TpmCommand} {tag : TpmSt} {handles auth parameters : Span}
    (tagged : command.tag = .ok tag) (handled : command.handleAreaRange = .ok handles)
    (ok : command.sessionAndParameterRanges = .ok (auth, parameters)) :
    Tiles 0 (ranges tag handles auth parameters) command.bytes.length := by
  obtain ⟨begins, ordered, within⟩ := handleAreaRange_within handled
  have front : Tiles 0 [(0, tpmHeaderSize), handles] handles.2 :=
    ⟨rfl, Nat.zero_le _, begins, ordered, rfl⟩
  refine front.append ?_
  obtain ⟨handles', handled', rest⟩ := bind_eq_ok.mp ok
  obtain ⟨tag', tagged', areas⟩ := bind_eq_ok.mp rest
  obtain rfl := Except.ok.inj (handled.symm.trans handled')
  obtain rfl := Except.ok.inj (tagged.symm.trans tagged')
  dsimp only at areas
  split at areas
  next other =>
    cases areas
    rw [if_neg other]
    exact ⟨rfl, Nat.le_refl _, rfl, within, rfl⟩
  next sessions =>
    obtain ⟨stop, word, returned⟩ := bind_eq_ok.mp areas
    obtain ⟨-, inside, rfl⟩ := wordAreaEnd_eq_ok.mp word
    cases returned
    rw [if_pos (not_not.mp sessions)]
    rw [List.length_drop] at inside
    refine ⟨rfl, Nat.le_add_right .., rfl, ?_, rfl, ?_, rfl⟩ <;> dsimp only <;> omega

theorem areas_within {command : TpmCommand} {auth parameters : Span}
    (ok : command.sessionAndParameterRanges = .ok (auth, parameters)) :
    auth.Within command.bytes.length ∧ parameters.Within command.bytes.length := by
  obtain ⟨handles, handled, rest⟩ := bind_eq_ok.mp ok
  obtain ⟨tag, tagged, -⟩ := bind_eq_ok.mp rest
  have within := (ranges_tile tagged handled ok).within
  exact ⟨within auth (by simp [ranges]), within parameters (by simp [ranges])⟩

theorem authEnd_returns {start : Nat} {afterHandles : Bytes}
    (small : start + afterHandles.length ≤ usizeMax) :
    Returns (authEnd start afterHandles) (wordAreaEnd start afterHandles) := by
  refine .ite (fun _ => .throw _) fun word => ?_
  have inRange : readU32? afterHandles 0 = some (readU32 afterHandles 0) :=
    if_pos (by omega)
  refine .orPanic_bind inRange (.bind (.of_result _) fun stop _ => .ite (fun _ => ?_) fun _ =>
    .pure _)
  have sum : checkedAdd? start 4 = some (start + 4) :=
    checkedAdd?_eq_some.mpr ⟨by omega, rfl⟩
  exact .orPanic_bind sum (.throw _)

section
variable {buf : Bytes} (header : tpmHeaderSize ≤ buf.length) (small : buf.length ≤ usizeMax)
include header small

theorem sessionAndParameterRanges_returns : Returns (sessionAndParameterRanges buf)
    (⟨buf, header⟩ : TpmCommand).sessionAndParameterRanges := by
  refine .bind (handleAreaRange_returns header) fun span handled => ?_
  obtain ⟨-, -, within⟩ := handleAreaRange_within handled
  dsimp only at within
  refine .bind (tag_returns header) fun tag _ => .ite (fun _ => .pure _) fun _ => ?_
  have whole : sliceOf buf (span.2, buf.length) = buf.drop span.2 := by
    rw [sliceOf, ← List.length_drop, List.take_length]
  have inRange : slice? buf (span.2, buf.length) = some (buf.drop span.2) := by
    rw [← whole]
    exact slice?_of_within ⟨within, Nat.le_refl _⟩
  have room : span.2 + (buf.drop span.2).length ≤ usizeMax := by
    rw [List.length_drop]
    omega
  refine .orPanic_bind inRange (.bind (authEnd_returns room) fun stop word => ?_)
  obtain ⟨-, inside, rfl⟩ := wordAreaEnd_eq_ok.mp word
  dsimp only at inside
  have start : checkedAdd? span.2 4 = some (span.2 + 4) :=
    checkedAdd?_eq_some.mpr ⟨by omega, rfl⟩
  have stop : checkedAdd? span.2 (4 + numberAt (buf.drop span.2) 0 4) =
      some (span.2 + (4 + numberAt (buf.drop span.2) 0 4)) :=
    checkedAdd?_eq_some.mpr ⟨by omega, rfl⟩
  exact .orPanic_bind start (.orPanic_bind stop (.pure _))

theorem authAreaRange_inFrame : InFrame authAreaRange buf := by
  refine ⟨_, (sessionAndParameterRanges_returns header small).map _, fun span same => ?_⟩
  obtain ⟨areas, ok, rfl⟩ := map_eq_ok.mp same
  exact (areas_within ok).1

theorem parametersRange_inFrame : InFrame parametersRange buf := by
  refine ⟨_, (sessionAndParameterRanges_returns header small).map _, fun span same => ?_⟩
  obtain ⟨areas, ok, rfl⟩ := map_eq_ok.mp same
  exact (areas_within ok).2

end

section
variable {buf : Bytes} (header : tpmHeaderSize ≤ buf.length)
include header

theorem handleAreaRange_inFrame : InFrame handleAreaRange buf := by
  refine ⟨_, handleAreaRange_returns header, fun span same => ?_⟩
  obtain ⟨begins, ordered, within⟩ := handleAreaRange_within same
  exact ⟨begins ▸ ordered, within⟩

theorem bodyRange_inFrame : InFrame bodyRange buf := by
  refine ⟨_, .pure _, fun span same => ?_⟩
  cases same
  exact ⟨header, Nat.le_refl _⟩

omit header in
theorem bytesRange_inFrame (buf : Bytes) : InFrame bytesRange buf := by
  refine ⟨_, .pure _, fun span same => ?_⟩
  cases same
  exact ⟨Nat.zero_le _, Nat.le_refl _⟩

theorem setTag_preserves (tag : TpmSt) : ∃ value, Returns (setTag tag buf) value ∧
    ∀ buf', value = .ok buf' → buf'.length = buf.length :=
  copyFromSlice?_preserves (length_toBytes ..)
    (Nat.le_trans (by decide : tagOffset + 2 ≤ tpmHeaderSize) header)

theorem writeCode_preserves (code : UInt32) : ∃ value,
    Returns (orPanic (writeU32? buf codeOffset code) : Checked TpmError Bytes) value ∧
      ∀ buf', value = .ok buf' → buf'.length = buf.length :=
  copyFromSlice?_preserves (length_toBytes ..)
    (Nat.le_trans (by decide : codeOffset + 4 ≤ tpmHeaderSize) header)

theorem setCc_preserves (cc : TpmCc) : ∃ value, Returns (setCc cc buf) value ∧
    ∀ buf', value = .ok buf' → buf'.length = buf.length := by
  obtain ⟨value, returns, length⟩ := writeCode_preserves header (TpmEnum.value cc)
  refine ⟨dispatchFor cc >>= fun _ => value, .bind (.of_result _) fun _ _ => returns, ?_⟩
  intro buf' same
  obtain ⟨dispatch, -, rfl⟩ := bind_eq_ok.mp same
  exact length buf' rfl

end

/-- Writes that keep the length one by one keep it together. -/
theorem runAll_length {ω : Type} {apply : ω → Bytes → Checked TpmError Bytes} {b : Bytes}
    (step : ∀ op buf, buf.length = b.length → ∃ value, Returns (apply op buf) value ∧
      ∀ buf', value = .ok buf' → buf'.length = buf.length) (ops : List ω) :
    ∃ buf, Checked.runAll apply ops b = some buf ∧ buf.length = b.length := by
  refine Checked.runAll_preserves (P := fun buf : Bytes => buf.length = b.length) ?_ ops rfl
  intro op buf same
  obtain ⟨value, returns, kept⟩ := step op buf same
  exact ⟨value, returns, fun buf' ok => (kept buf' ok).trans same⟩

/-- `cast_prefix`: casts the first frame of a byte slice and returns the rest of it. -/
def castPrefix {V : Type} (cast : Bytes → TpmResult V) (buf : Bytes) : TpmResult (V × Bytes) := do
  let frameLen ← framePrefixSize buf
  let view ← cast (buf.take frameLen)
  return (view, buf.drop frameLen)

theorem framePrefixSize_eq_ok {b : Bytes} {size : Nat} :
    framePrefixSize b = .ok size ↔ 10 ≤ size ∧ size ≤ b.length ∧ numberAt b 2 4 = size := by
  simp only [framePrefixSize, readU32_toNat, tpmHeaderSize, sizeOffset]
  by_cases short : b.length < 10
  · simp [short]
    omega
  by_cases small : numberAt b 2 4 < 10
  · simp [short, small]
    omega
  by_cases truncated : b.length < numberAt b 2 4
  · simp [short, small, truncated]
    omega
  · simp [short, small, truncated]
    omega

section
variable {V : Type} {cast : Bytes → TpmResult V}
  (sized : ∀ {b v}, cast b = .ok v → validateFrameSize b = .ok ())
include sized

theorem castPrefix_append {f : Bytes} {view : V} (ok : cast f = .ok view) (r : Bytes) :
    castPrefix cast (f ++ r) = .ok (view, r) := by
  obtain ⟨enough, size⟩ := validateFrameSize_eq_ok.mp (sized ok)
  have announced : framePrefixSize (f ++ r) = .ok f.length := by
    apply framePrefixSize_eq_ok.mpr
    rw [numberAt_append_left (by omega), List.length_append]
    exact ⟨enough, Nat.le_add_right .., size⟩
  refine bind_eq_ok.mpr ⟨f.length, announced, bind_eq_ok.mpr ⟨view, ?_, ?_⟩⟩
  · rw [List.take_left, ok]
  · rw [List.drop_left]
    rfl

theorem cast_iff_castPrefix {b : Bytes} {view : V} :
    cast b = .ok view ↔ castPrefix cast b = .ok (view, []) := by
  constructor
  · intro ok
    have whole := castPrefix_append sized ok []
    rwa [List.append_nil] at whole
  · intro ok
    obtain ⟨frameLen, announced, rest⟩ := bind_eq_ok.mp ok
    obtain ⟨view', ok', returned⟩ := bind_eq_ok.mp rest
    obtain ⟨-, within, -⟩ := framePrefixSize_eq_ok.mp announced
    obtain ⟨rfl, empty⟩ := Prod.mk.inj (Except.ok.inj returned)
    have all := List.length_eq_zero_iff.mpr empty
    rw [List.length_drop] at all
    rwa [List.take_of_length_le (by omega)] at ok'

end

end Frame

namespace TpmCommand

def castPrefix : Bytes → TpmResult (TpmCommand × Bytes) := Frame.castPrefix cast

/-- Casts a mutable byte slice: the checks are those of `cast`. -/
def castMut (buf : Bytes) : TpmResult TpmCommand := cast buf

theorem cast_sized {b : Bytes} {command : TpmCommand} (ok : cast b = .ok command) :
    validateFrameSize b = .ok () := by
  obtain ⟨valid, -⟩ := cast_eq_ok.mp ok
  obtain ⟨_, sized, -⟩ := bind_eq_ok.mp valid
  exact sized

end TpmCommand

namespace TpmResponse

def castPrefix : Bytes → TpmResult (TpmResponse × Bytes) := Frame.castPrefix cast

def castMut (buf : Bytes) : TpmResult TpmResponse := cast buf

theorem cast_sized {b : Bytes} {response : TpmResponse} (ok : cast b = .ok response) :
    validateFrameSize b = .ok () := by
  obtain ⟨valid, -⟩ := cast_eq_ok.mp ok
  obtain ⟨_, sized, -⟩ := bind_eq_ok.mp valid
  exact sized

end TpmResponse

/-- What may be done to a command frame through its mutable view. -/
inductive CommandWrite
  | setTag (tag : TpmSt)
  | setCc (cc : TpmCc)
  | handles (content : Bytes)
  | authArea (content : Bytes)
  | parameters (content : Bytes)
  | asBytes (content : Bytes)

/-- What may be done to a response frame through its mutable view. -/
inductive ResponseWrite
  | setTag (tag : TpmSt)
  | setRc (rc : TpmRc)
  | body (content : Bytes)
  | asBytes (content : Bytes)

def CommandWrite.apply : CommandWrite → Bytes → Checked TpmError Bytes
  | setTag tag => Frame.setTag tag
  | setCc cc => Frame.setCc cc
  | handles content => Frame.writeArea Frame.handleAreaRange content
  | authArea content => Frame.writeArea Frame.authAreaRange content
  | parameters content => Frame.writeArea Frame.parametersRange content
  | asBytes content => Frame.writeArea Frame.bytesRange content

def ResponseWrite.apply : ResponseWrite → Bytes → Checked TpmError Bytes
  | setTag tag => Frame.setTag tag
  | setRc rc => Frame.setRc rc
  | body content => Frame.writeArea Frame.bodyRange content
  | asBytes content => Frame.writeArea Frame.bytesRange content

/-- No write moves the end of a command frame. -/
theorem CommandWrite.apply_preserves (write : CommandWrite) {buf : Bytes}
    (header : tpmHeaderSize ≤ buf.length) (small : buf.length ≤ usizeMax) :
    ∃ value, Returns (write.apply buf) value ∧
      ∀ buf', value = .ok buf' → buf'.length = buf.length := by
  cases write with
  | setTag tag => exact Frame.setTag_preserves header tag
  | setCc cc => exact Frame.setCc_preserves header cc
  | handles content => exact (Frame.handleAreaRange_inFrame header).writeArea content
  | authArea content => exact (Frame.authAreaRange_inFrame header small).writeArea content
  | parameters content => exact (Frame.parametersRange_inFrame header small).writeArea content
  | asBytes content => exact (Frame.bytesRange_inFrame buf).writeArea content

theorem ResponseWrite.apply_preserves (write : ResponseWrite) {buf : Bytes}
    (header : tpmHeaderSize ≤ buf.length) :
    ∃ value, Returns (write.apply buf) value ∧
      ∀ buf', value = .ok buf' → buf'.length = buf.length := by
  cases write with
  | setTag tag => exact Frame.setTag_preserves header tag
  | setRc rc => exact Frame.writeCode_preserves header rc.value
  | body content => exact (Frame.bodyRange_inFrame header).writeArea content
  | asBytes content => exact (Frame.bytesRange_inFrame buf).writeArea content

/-- No accessor of a command panics, each returns a range of the frame or fails, and where the three
areas are returned the frame consists of them, its header and the length word. -/
structure CommandAccess (buf : Bytes) : Prop where
  tag : ∃ value, Returns (Frame.tag buf) value
  size : ∃ value, Returns (Frame.size buf) value
  cc : ∃ value, Returns (Frame.cc buf) value
  handles : Frame.Indexes Frame.handleAreaRange buf
  authArea : Frame.Indexes Frame.authAreaRange buf
  parameters : Frame.Indexes Frame.parametersRange buf
  asBytes : Frame.Indexes Frame.bytesRange buf
  partition : ∀ {handles auth parameters}, Returns (Frame.handles buf) (.ok handles) →
    Returns (Frame.authArea buf) (.ok auth) → Returns (Frame.parameters buf) (.ok parameters) →
    ∃ tag handleSpan authSpan parameterSpan, Returns (Frame.tag buf) (.ok tag) ∧
      handles = sliceOf buf handleSpan ∧ auth = sliceOf buf authSpan ∧
      parameters = sliceOf buf parameterSpan ∧
      Partitions (Frame.ranges tag handleSpan authSpan parameterSpan) buf

/-- No accessor of a response panics, and each returns a range of the frame or fails. -/
structure ResponseAccess (buf : Bytes) : Prop where
  tag : ∃ value, Returns (Frame.tag buf) value
  size : ∃ value, Returns (Frame.size buf) value
  rc : ∃ value, Returns (Frame.rc buf) value
  body : Frame.Indexes Frame.bodyRange buf
  asBytes : Frame.Indexes Frame.bytesRange buf

theorem CommandAccess.of_length {buf : Bytes} (header : tpmHeaderSize ≤ buf.length)
    (small : buf.length ≤ usizeMax) : CommandAccess buf where
  tag := ⟨_, Frame.tag_returns header⟩
  size := ⟨_, Frame.size_returns header⟩
  cc := ⟨_, Frame.cc_returns header⟩
  handles := (Frame.handleAreaRange_inFrame header).indexes
  authArea := (Frame.authAreaRange_inFrame header small).indexes
  parameters := (Frame.parametersRange_inFrame header small).indexes
  asBytes := (Frame.bytesRange_inFrame buf).indexes
  partition := by
    intro handles auth parameters handled authorized rest
    have areas := Frame.sessionAndParameterRanges_returns header small
    have handleArea := Frame.handleAreaRange_returns header
    obtain ⟨value, returns, spans⟩ := (Frame.handleAreaRange_inFrame header).indexes
    obtain ⟨handleSpan, foundHandles, -, sliced⟩ := spans handles (returns.unique handled)
    obtain ⟨value', returns', spans'⟩ := (Frame.authAreaRange_inFrame header small).indexes
    obtain ⟨authSpan, foundAuth, -, sliced'⟩ := spans' auth (returns'.unique authorized)
    obtain ⟨value'', returns'', spans''⟩ := (Frame.parametersRange_inFrame header small).indexes
    obtain ⟨parameterSpan, foundParameters, -, sliced''⟩ :=
      spans'' parameters (returns''.unique rest)
    have handleRange := handleArea.unique foundHandles
    obtain ⟨⟨authSpan', parameterSpan'⟩, ranged, rfl⟩ :=
      map_eq_ok.mp ((areas.map Prod.fst).unique foundAuth)
    obtain ⟨both, ranged', rfl⟩ := map_eq_ok.mp ((areas.map Prod.snd).unique foundParameters)
    obtain rfl := Except.ok.inj (ranged.symm.trans ranged')
    obtain ⟨handleSpan', handleRange', inner⟩ := bind_eq_ok.mp ranged
    obtain ⟨tag, tagged, -⟩ := bind_eq_ok.mp inner
    have returnsTag := Frame.tag_returns header
    rw [tagged] at returnsTag
    exact ⟨tag, handleSpan, _, _, returnsTag, sliced, sliced', sliced'',
      .of_tiles (Frame.ranges_tile tagged handleRange ranged)⟩

theorem ResponseAccess.of_length {buf : Bytes} (header : tpmHeaderSize ≤ buf.length) :
    ResponseAccess buf where
  tag := ⟨_, Frame.tag_returns header⟩
  size := ⟨_, Frame.size_returns header⟩
  rc := ⟨_, Frame.rc_returns header⟩
  body := (Frame.bodyRange_inFrame header).indexes
  asBytes := (Frame.bytesRange_inFrame buf).indexes

theorem validateFrameSize_bounds {b : Bytes} (sized : validateFrameSize b = .ok ()) :
    tpmHeaderSize ≤ b.length ∧ b.length ≤ usizeMax := by
  obtain ⟨enough, size⟩ := validateFrameSize_eq_ok.mp sized
  have lt : numberAt b 2 4 < 4294967296 := numberAt_lt
  refine ⟨enough, ?_⟩
  rw [usizeMax]
  omega

/-- Writes through the view of a command never panic, keep its length, and leave it accessible. -/
theorem TpmCommand.access_of_writes {b : Bytes} {command : TpmCommand}
    (ok : castMut b = .ok command)
    (writes : List CommandWrite) : ∃ buf, Checked.runAll CommandWrite.apply writes b = some buf ∧
      buf.length = b.length ∧ CommandAccess buf := by
  obtain ⟨header, small⟩ := validateFrameSize_bounds (cast_sized ok)
  obtain ⟨buf, run, length⟩ := Frame.runAll_length (fun write _ same =>
    CommandWrite.apply_preserves write (same ▸ header) (same ▸ small)) writes
  exact ⟨buf, run, length, .of_length (length ▸ header) (length ▸ small)⟩

theorem TpmResponse.access_of_writes {b : Bytes} {response : TpmResponse}
    (ok : castMut b = .ok response) (writes : List ResponseWrite) :
    ∃ buf, Checked.runAll ResponseWrite.apply writes b = some buf ∧
      buf.length = b.length ∧ ResponseAccess buf := by
  obtain ⟨header, -⟩ := validateFrameSize_bounds (cast_sized ok)
  obtain ⟨buf, run, length⟩ := Frame.runAll_length (fun write _ same =>
    ResponseWrite.apply_preserves write (same ▸ header)) writes
  exact ⟨buf, run, length, .of_length (length ▸ header)⟩

/-- A frame that was cast stays one under every sequence of writes, and casting a frame is casting
it as a prefix. -/
theorem frames_under_writes :
    (∀ b command, TpmCommand.castMut b = .ok command → ∀ writes, ∃ buf,
      Checked.runAll CommandWrite.apply writes b = some buf ∧ buf.length = b.length ∧
        CommandAccess buf) ∧
    (∀ b response, TpmResponse.castMut b = .ok response → ∀ writes, ∃ buf,
      Checked.runAll ResponseWrite.apply writes b = some buf ∧ buf.length = b.length ∧
        ResponseAccess buf) ∧
    (∀ b command, TpmCommand.cast b = .ok command ↔
      TpmCommand.castPrefix b = .ok (command, [])) ∧
    (∀ b response, TpmResponse.cast b = .ok response ↔
      TpmResponse.castPrefix b = .ok (response, [])) ∧
    (∀ f command, TpmCommand.cast f = .ok command → ∀ r,
      TpmCommand.castPrefix (f ++ r) = .ok (command, r)) ∧
    (∀ f response, TpmResponse.cast f = .ok response → ∀ r,
      TpmResponse.castPrefix (f ++ r) = .ok (response, r)) :=
  ⟨fun _ _ ok => TpmCommand.access_of_writes ok, fun _ _ ok => TpmResponse.access_of_writes ok,
    fun _ _ => Frame.cast_iff_castPrefix TpmCommand.cast_sized,
    fun _ _ => Frame.cast_iff_castPrefix TpmResponse.cast_sized,
    fun _ _ ok => Frame.castPrefix_append TpmCommand.cast_sized ok,
    fun _ _ ok => Frame.castPrefix_append TpmResponse.cast_sized ok⟩

/-- `TPM2_GetRandom` for 16 bytes. -/
def getRandomBytes : Bytes := [0x80, 0x01, 0, 0, 0, 12, 0, 0, 0x01, 0x7b, 0, 16]

theorem frames_under_writes_getRandom : ∃ command buf,
    TpmCommand.castMut getRandomBytes = .ok command ∧
      Checked.runAll CommandWrite.apply [.asBytes (List.replicate 12 0xff), .setTag .sessions]
        getRandomBytes = some buf ∧ buf.length = 12 ∧ CommandAccess buf := by
  have valid : TpmCommand.validateEnvelope getRandomBytes = .ok () := by decide +kernel
  have ok : TpmCommand.castMut getRandomBytes = .ok ⟨getRandomBytes, by decide⟩ :=
    TpmCommand.cast_eq_ok.mpr ⟨valid, rfl⟩
  obtain ⟨buf, run, length, access⟩ := frames_under_writes.1 _ _ ok
    [.asBytes (List.replicate 12 0xff), .setTag .sessions]
  exact ⟨_, buf, ok, run, length, access⟩

end Tpm2
