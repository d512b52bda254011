import Tpm2.Protocol.Basic.Integer

/-! Byte buffers of a fixed capacity behind a 16-bit size. -/

namespace Tpm2

open ByteCodec

def tpm2bSizeLen : Nat := 2

namespace Tpm2b

/-- The declared payload size. -/
def readSize (buf : Bytes) : Nat := ofBytes (buf.take 2)

/-- Validates the first TPM2B value of `buf` and returns its wire length. -/
def validatePrefix (CAPACITY : Nat) (buf : Bytes) : TpmResult Nat := do
  if buf.length < tpm2bSizeLen then
    throw (.unexpectedEnd 0 tpm2bSizeLen buf.length)
  let payloadLen := readSize buf
  if payloadLen > CAPACITY then
    throw (.tooManyBytes 0 CAPACITY payloadLen)
  let wireLen := tpm2bSizeLen + payloadLen
  if buf.length < wireLen then
    throw (.unexpectedEnd tpm2bSizeLen payloadLen (buf.length - tpm2bSizeLen))
  return wireLen

/-- Validates an exact TPM2B value. -/
def validate (CAPACITY : Nat) (buf : Bytes) : TpmResult Unit := do
  let wireLen ← validatePrefix CAPACITY buf
  if buf.length > wireLen then
    throw (.trailingData wireLen (buf.length - wireLen))

/-- Splits the first TPM2B value off: its complete wire bytes and the rest. -/
def castPrefix (CAPACITY : Nat) (buf : Bytes) : TpmResult (Bytes × Bytes) := do
  let wireLen ← validatePrefix CAPACITY buf
  return (buf.take wireLen, buf.drop wireLen)

/-- The payload of a wire view. -/
def data (view : Bytes) : Bytes := view.drop tpm2bSizeLen

theorem castPrefix_eq_ok {CAPACITY : Nat} {b view r : Bytes} :
    castPrefix CAPACITY b = .ok (view, r) ↔
      2 + readSize b ≤ b.length ∧ readSize b ≤ CAPACITY ∧ view = b.take (2 + readSize b) ∧
        r = b.drop (2 + readSize b) := by
  simp only [castPrefix, validatePrefix, tpm2bSizeLen, bind, Except.bind, pure, Except.pure]
  by_cases short : b.length < 2
  · have few : ¬ 2 + readSize b ≤ b.length := by omega
    simp [short, few]
  by_cases exceeds : readSize b > CAPACITY
  · have many : ¬ readSize b ≤ CAPACITY := by omega
    simp [short, exceeds, many]
  by_cases truncated : b.length < 2 + readSize b
  · have few : ¬ 2 + readSize b ≤ b.length := by omega
    simp [short, exceeds, truncated, few]
  · have enough : 2 + readSize b ≤ b.length := by omega
    have bound : readSize b ≤ CAPACITY := by omega
    simp [short, exceeds, truncated, enough, bound, eq_comm]

theorem validate_eq_ok {CAPACITY : Nat} {b : Bytes} :
    validate CAPACITY b = .ok () ↔ castPrefix CAPACITY b = .ok (b, []) := by
  unfold validate castPrefix
  rw [bind_eq_ok, bind_eq_ok]
  constructor
  · rintro ⟨wireLen, valid, ok⟩
    have within : b.length ≤ wireLen := by
      by_contra long
      rw [if_pos (Nat.lt_of_not_le long)] at ok
      cases ok
    refine ⟨wireLen, valid, ?_⟩
    rw [List.take_of_length_le within, List.drop_of_length_le within]
    rfl
  · rintro ⟨wireLen, valid, split⟩
    have rest : b.drop wireLen = [] := congrArg Prod.snd (Except.ok.inj split)
    refine ⟨wireLen, valid, ?_⟩
    rw [if_neg (Nat.not_lt.mpr (List.drop_eq_nil_iff.mp rest))]
    rfl

theorem readSize_lt (b : Bytes) : readSize b < 65536 := by
  have lt := ofBytes_lt (b.take 2)
  have le : 256 ^ (b.take 2).length ≤ 256 ^ 2 :=
    Nat.pow_le_pow_right (by decide) (List.length_take_le ..)
  exact Nat.lt_of_lt_of_le lt le

/-- What a cast accepts is a size, within the capacity, and that many bytes. -/
theorem castPrefix_eq_ok_iff {CAPACITY : Nat} {b view r : Bytes} :
    castPrefix CAPACITY b = .ok (view, r) ↔
      ∃ payload, payload.length ≤ CAPACITY ∧ payload.length ≤ u16Max ∧
        view = toBytes 2 payload.length ++ payload ∧ b = view ++ r := by
  rw [castPrefix_eq_ok]
  constructor
  · rintro ⟨enough, bound, rfl, rfl⟩
    have size : ((b.drop 2).take (readSize b)).length = readSize b := by simp; omega
    have head : (b.take 2).length = 2 := by simp; omega
    refine ⟨(b.drop 2).take (readSize b), by omega, ?_, ?_, by simp⟩
    · have := readSize_lt b
      rw [size, u16Max]
      omega
    · have digits := toBytes_ofBytes (b.take 2)
      rw [head] at digits
      rw [size, readSize, digits, List.take_add]
  · rintro ⟨payload, bound, wide, rfl, rfl⟩
    have fits : payload.length < 256 ^ 2 := by rw [u16Max] at wide; omega
    have size : readSize (toBytes 2 payload.length ++ payload ++ r) = payload.length := by
      rw [readSize, List.append_assoc, List.take_left' (length_toBytes ..), ofBytes_toBytes fits]
    have length : 2 + payload.length = (toBytes 2 payload.length ++ payload).length := by simp
    rw [size]
    refine ⟨by simp, bound, ?_, ?_⟩
    · rw [length, List.take_left]
    · rw [length, List.drop_left]

end Tpm2b

/-- A buffer in the TPM2B wire format. -/
structure TpmBuffer (CAPACITY : Nat) where
  bytes : Bytes
  length_le : bytes.length ≤ CAPACITY
  length_le_u16 : bytes.length ≤ u16Max

namespace TpmBuffer

variable {CAPACITY : Nat}

@[ext] theorem ext {v w : TpmBuffer CAPACITY} (h : v.bytes = w.bytes) : v = w := by
  cases v
  cases w
  simp_all

instance : DecidableEq (TpmBuffer CAPACITY) := fun v w =>
  decidable_of_iff (v.bytes = w.bytes) ⟨ext, congrArg bytes⟩

/-- The `size` field. -/
def size (buffer : TpmBuffer CAPACITY) : Nat := buffer.bytes.length

/-- An empty buffer. -/
def new : TpmBuffer CAPACITY := ⟨[], Nat.zero_le _, Nat.zero_le _⟩

instance : Inhabited (TpmBuffer CAPACITY) := ⟨new⟩

/-- Appends a byte. -/
def tryPush (buffer : TpmBuffer CAPACITY) (byte : UInt8) : TpmResult (TpmBuffer CAPACITY) :=
  if h : CAPACITY ≤ buffer.size ∨ buffer.size = u16Max then
    .error (.bufferOverflow buffer.size 1 (CAPACITY - buffer.size))
  else
    .ok ⟨buffer.bytes ++ [byte], by simp [size] at h ⊢; omega,
      by have := buffer.length_le_u16; simp [size] at h ⊢; omega⟩

/-- Appends a slice of bytes. -/
def tryExtendFromSlice (buffer : TpmBuffer CAPACITY) (slice : Bytes) :
    TpmResult (TpmBuffer CAPACITY) :=
  let currentLen := buffer.size
  let newLen := currentLen + slice.length
  if exceeds : newLen > CAPACITY then
    .error (.bufferOverflow currentLen slice.length (CAPACITY - currentLen))
  else if wide : newLen > u16Max then
    .error (.bufferOverflow currentLen slice.length (u16Max - currentLen))
  else
    .ok ⟨buffer.bytes ++ slice, by simp [newLen, currentLen, size] at exceeds ⊢; omega,
      by simp [newLen, currentLen, size] at wide ⊢; omega⟩

/-- `TpmBuffer::try_from(&[u8])`. -/
def tryFrom (slice : Bytes) : TpmResult (TpmBuffer CAPACITY) := new.tryExtendFromSlice slice

theorem tryExtendFromSlice_eq_ok {slice : Bytes} {buffer result : TpmBuffer CAPACITY} :
    buffer.tryExtendFromSlice slice = .ok result ↔
      buffer.size + slice.length ≤ CAPACITY ∧ buffer.size + slice.length ≤ u16Max ∧
        result.bytes = buffer.bytes ++ slice := by
  unfold tryExtendFromSlice
  dsimp only
  split
  · simp
    omega
  · split
    · simp
      omega
    · rw [Except.ok.injEq]
      constructor
      · rintro rfl
        exact ⟨by omega, by omega, rfl⟩
      · rintro ⟨-, -, bytes⟩
        exact ext bytes.symm

theorem tryFrom_eq_ok {slice : Bytes} {buffer : TpmBuffer CAPACITY} :
    tryFrom slice = .ok buffer ↔
      slice.length ≤ CAPACITY ∧ slice.length ≤ u16Max ∧ buffer.bytes = slice := by
  simp [tryFrom, tryExtendFromSlice_eq_ok, new, size]

instance : TpmSized (TpmBuffer CAPACITY) := ⟨2 + CAPACITY, fun v => 2 + v.size⟩

instance : TpmMarshal (TpmBuffer CAPACITY) where
  marshal v writer := do
    let writer ← marshal (TpmInt.new (UInt16.ofNat v.size) : TpmUint16) writer
    TpmWriter.writeBytes v.bytes writer

instance : TpmUnmarshal (TpmBuffer CAPACITY) where
  unmarshal buffer := do
    let (value, remainder) ← Tpm2b.castPrefix CAPACITY buffer
    let value ← tryFrom (Tpm2b.data value)
    return (value, remainder)

instance : TpmField (TpmBuffer CAPACITY) := ⟨Bytes, Tpm2b.castPrefix CAPACITY⟩

instance : TpmSpec (TpmBuffer CAPACITY) := .plain

/-- The wire form: the size and the bytes. -/
def wire (v : TpmBuffer CAPACITY) : Bytes := toBytes 2 v.size ++ v.bytes

theorem unmarshal_eq_ok {b r : Bytes} {v : TpmBuffer CAPACITY} :
    unmarshal b = .ok (v, r) ↔ b = v.wire ++ r := by
  simp only [unmarshal, bind_eq_ok, Prod.exists, pure, Except.pure, Except.ok.injEq,
    Prod.mk.injEq, Tpm2b.castPrefix_eq_ok_iff, tryFrom_eq_ok, Tpm2b.data, tpm2bSizeLen]
  constructor
  · rintro ⟨view, r, ⟨payload, bound, wide, rfl, rfl⟩, v, ⟨-, -, bytes⟩, rfl, rfl⟩
    rw [List.drop_left' (length_toBytes ..)] at bytes
    rw [wire, size, bytes]
  · rintro rfl
    exact ⟨v.wire, r, ⟨v.bytes, v.length_le, v.length_le_u16, rfl, rfl⟩, v,
      by simp [wire, v.length_le, v.length_le_u16], rfl, rfl⟩

theorem marshal_emits (v : TpmBuffer CAPACITY) : Emits (marshal v) v.wire := by
  have fits : v.size < UInt16.size := by
    have := v.length_le_u16
    rw [u16Max] at this
    rw [UInt16.size, size]
    omega
  have head : (TpmInt.new (UInt16.ofNat v.size) : TpmUint16).bytes = toBytes 2 v.size := by
    change toBytes 2 (UInt16.ofNat v.size).toNat = _
    rw [UInt16.toNat_ofNat_of_lt' fits]
  rw [wire, ← head]
  exact (TpmWriter.writeBytes_emits _).bind (TpmWriter.writeBytes_emits v.bytes)

instance : LawfulWire (TpmBuffer CAPACITY) where
  codec := .of_wire _ marshal_emits unmarshal_eq_ok fun v => by simp [wire, size, len]
  len_le v := by have := v.length_le; simp [len, maxLen, SIZE, size, this]
  maxLen_le := Nat.le_refl _

instance : LawfulView (TpmBuffer CAPACITY) where
  sameExtent b r := by
    change (∃ view, Tpm2b.castPrefix CAPACITY b = .ok (view, r)) ↔ _
    simp only [Tpm2b.castPrefix_eq_ok_iff, unmarshal_eq_ok]
    constructor
    · rintro ⟨_, payload, bound, wide, rfl, rfl⟩
      exact ⟨⟨payload, bound, wide⟩, rfl⟩
    · rintro ⟨v, rfl⟩
      exact ⟨v.wire, v.bytes, v.length_le, v.length_le_u16, rfl, rfl⟩

instance : TpmWire (TpmBuffer CAPACITY) := .infer
instance : TpmViewed (TpmBuffer CAPACITY) := .infer

end TpmBuffer
end Tpm2
