import Tpm2.Protocol.Macro.Struct

/-! The codec of a structure behind a 16-bit size. -/

namespace Tpm2

open ByteCodec

/-- `tpm2b_struct!`: a structure in a TPM2B wrapper. -/
structure Tpm2bStruct (T : Type) where
  inner : T
  deriving DecidableEq

/-- A type whose encodings all fit a 16-bit size field. -/
class SizeFits (T : Type) [TpmSized T] : Prop where
  le : SIZE T ≤ u16Max

namespace Tpm2bStruct

variable {T : Type}

instance [TpmSized T] : TpmSized (Tpm2bStruct T) := ⟨2 + SIZE T, fun v => 2 + len v.inner⟩

instance [TpmSized T] [TpmMarshal T] : TpmMarshal (Tpm2bStruct T) where
  marshal v writer := do
    let innerLen := len v.inner
    let lenField ← TpmUint16.tryFrom innerLen (.integerTooLarge writer.pos (tpmValue innerLen))
    let writer ← marshal lenField writer
    marshal v.inner writer

instance [TpmSized T] [TpmUnmarshal T] : TpmUnmarshal (Tpm2bStruct T) where
  unmarshal buffer := do
    let (size, buffer) ← (unmarshal buffer : TpmResult (TpmUint16 × Bytes))
    let size := size.value.toNat
    if size > SIZE T then
      throw (.tooManyBytes 2 (SIZE T) size)
    if buffer.length < size then
      throw (.unexpectedEnd 2 size buffer.length)
    let (inner, tail) ← (unmarshal (buffer.take size)).mapError (TpmError.rebase 2)
    if !tail.isEmpty then
      throw (.trailingData (2 + (size - tail.length)) tail.length)
    return (⟨inner⟩, buffer.drop size)

/-- Validates the first wrapper of `buf` and returns its wire length. -/
def validatePrefix (T : Type) [TpmSized T] [TpmField T] (buf : Bytes) : TpmResult Nat := do
  let (sizeField, payload) ← (TpmInt.castPrefix buf : TpmResult (TpmUint16 × Bytes))
  let payloadLen := sizeField.value.toNat
  if payloadLen > SIZE T then
    throw (.tooManyBytes 2 (SIZE T) payloadLen)
  if payload.length < payloadLen then
    throw (.unexpectedEnd 2 payloadLen payload.length)
  let (_, tail) ← castPrefixField (α := T) (payload.take payloadLen)
  if !tail.isEmpty then
    throw (.trailingData (2 + (payloadLen - tail.length)) tail.length)
  return 2 + payloadLen

/-- The borrowed view of a wrapper is its wire bytes. -/
instance [TpmSized T] [TpmField T] : TpmField (Tpm2bStruct T) where
  View := Bytes
  castPrefixField buf := do
    let wireLen ← validatePrefix T buf
    return (buf.take wireLen, buf.drop wireLen)

instance [TpmSpec T] : TpmSpec (Tpm2bStruct T) where
  Writable v := Writable v.inner
  WellFormed v := WellFormed v.inner
  maxLen := 2 + maxLen T

theorem unmarshal_eq_ok [TpmSized T] [TpmUnmarshal T] {b r : Bytes} {v : Tpm2bStruct T} :
    unmarshal b = .ok (v, r) ↔ ∃ size m, TpmUint16.readCount b = .ok (size, m) ∧ size ≤ SIZE T ∧
      size ≤ m.length ∧ unmarshal (m.take size) = .ok (v.inner, []) ∧ r = m.drop size := by
  simp only [unmarshal, TpmUint16.readCount, bind_eq_ok, Prod.exists, Except.ok.injEq,
    Prod.mk.injEq]
  constructor
  · rintro ⟨n, m, head, ok⟩
    split at ok
    · cases ok
    split at ok
    · cases ok
    obtain ⟨⟨inner, tail⟩, read, ok⟩ := bind_eq_ok.mp ok
    cases tail with
    | nil =>
        cases ok
        exact ⟨_, m, ⟨n, m, head, rfl, rfl⟩, by omega, by omega, mapError_eq_ok.mp read, rfl⟩
    | cons => cases ok
  · rintro ⟨_, _, ⟨n, m, head, rfl, rfl⟩, bound, enough, read, rfl⟩
    refine ⟨n, m, head, ?_⟩
    rw [if_neg (by omega), if_neg (by omega)]
    exact bind_eq_ok.mpr ⟨_, mapError_eq_ok.mpr read, rfl⟩

theorem validatePrefix_eq_ok [TpmSized T] [TpmField T] {b : Bytes} {total : Nat} :
    validatePrefix T b = .ok total ↔ ∃ size m view, TpmUint16.readCount b = .ok (size, m) ∧
      size ≤ SIZE T ∧
      size ≤ m.length ∧ castPrefixField (α := T) (m.take size) = .ok (view, []) ∧
        total = 2 + size := by
  simp only [validatePrefix, TpmUint16.readCount, TpmInt.unmarshal_eq_castPrefix, bind_eq_ok,
    Prod.exists,
    Except.ok.injEq, Prod.mk.injEq]
  constructor
  · rintro ⟨n, m, head, ok⟩
    split at ok
    · cases ok
    split at ok
    · cases ok
    obtain ⟨⟨view, tail⟩, read, ok⟩ := bind_eq_ok.mp ok
    cases tail with
    | nil =>
        cases ok
        exact ⟨_, m, view, ⟨n, m, head, rfl, rfl⟩, by omega, by omega, read, rfl⟩
    | cons => cases ok
  · rintro ⟨_, _, view, ⟨n, m, head, rfl, rfl⟩, bound, enough, read, rfl⟩
    refine ⟨n, m, head, ?_⟩
    rw [if_neg (by omega), if_neg (by omega)]
    exact bind_eq_ok.mpr ⟨_, read, rfl⟩

section
variable [TpmSized T] [TpmMarshal T] [TpmUnmarshal T] [TpmSpec T] [LawfulWire T]

instance [SizeFits T] : LawfulWire (Tpm2bStruct T) where
  codec := by
    have law : LawfulCodec _ (unmarshal : _ → TpmResult (Tpm2bStruct T × Bytes)) _ _ _ :=
      (codec (α := T)).sized
        (TpmUint16.count_lawful fun n c => .integerTooLarge c.pos (tpmValue n)) (f := inner)
        fun _ _ _ => unmarshal_eq_ok
    refine (law.congr_write (fun v => ?_) fun _ => rfl).congr_prop (fun v => ?_) fun v => ?_
    · funext writer
      simp only [marshal, bind_assoc]
    · exact (and_iff_right (Nat.le_trans (len_le_size v.inner) SizeFits.le)).symm
    · exact ⟨fun wf => ⟨wf, len_le_size _, Nat.le_trans (len_le_size v.inner) SizeFits.le⟩,
      And.left⟩
  len_le v := Nat.add_le_add_left (len_le v.inner) 2
  maxLen_le := Nat.add_le_add_left maxLen_le 2

instance [TpmField T] [LawfulView T] : LawfulView (Tpm2bStruct T) where
  sameExtent b r := by
    have skip {size : Nat} {m : Bytes} (head : TpmUint16.readCount b = .ok (size, m)) :
        b.drop (2 + size) = m.drop size := by
      obtain ⟨⟨n, m⟩, read, returned⟩ := bind_eq_ok.mp head
      cases returned
      rw [TpmInt.unmarshal_eq_castPrefix, TpmInt.castPrefix_eq_ok] at read
      rw [← List.drop_drop, read, List.drop_left' n.length_bytes]
    change (∃ view, (do
      let wireLen ← validatePrefix T b
      return (b.take wireLen, b.drop wireLen)) = (.ok (view, r) : TpmResult (Bytes × Bytes))) ↔ _
    simp only [bind_eq_ok, validatePrefix_eq_ok, unmarshal_eq_ok, pure, Except.pure,
      Except.ok.injEq, Prod.mk.injEq]
    constructor
    · rintro ⟨_, _, ⟨size, m, view, head, bound, enough, cast, rfl⟩, rfl, rfl⟩
      obtain ⟨inner, read⟩ := (sameExtent _ _).mp ⟨view, cast⟩
      exact ⟨⟨inner⟩, size, m, head, bound, enough, read, skip head⟩
    · rintro ⟨v, size, m, head, bound, enough, read, rfl⟩
      obtain ⟨view, cast⟩ := (sameExtent _ _).mpr ⟨v.inner, read⟩
      exact ⟨_, _, ⟨size, m, view, head, bound, enough, cast, rfl⟩, rfl, skip head⟩

end

instance [TpmWire T] [SizeFits T] : TpmWire (Tpm2bStruct T) := .infer
instance [TpmWire T] [SizeFits T] [TpmViewed T] : TpmViewed (Tpm2bStruct T) := .infer

end Tpm2bStruct

/-! ### Wire views of a wrapper, which are its bytes -/

namespace Tpm2bWire

variable (T : Type) [TpmField T]

/-- Validates an exact wrapper. -/
def validate [TpmSized T] (buf : Bytes) : TpmResult Unit := do
  let wireLen ← Tpm2bStruct.validatePrefix T buf
  if buf.length > wireLen then
    throw (.trailingData wireLen (buf.length - wireLen))

def cast [TpmSized T] (buf : Bytes) : TpmResult Bytes := do
  validate T buf
  return buf

/-- The borrowed inner structure view. -/
def inner (wire : Bytes) : TpmResult (TpmField.View T) := do
  let (inner, tail) ← castPrefixField (α := T) (wire.drop 2)
  if !tail.isEmpty then
    throw (.trailingData (wire.length - tail.length) tail.length)
  return inner

variable {T}

/-- A wire view has an inner view: the one of all that is behind the size. -/
theorem cast_inner_eq_ok [TpmSized T] {b : Bytes} {view : TpmField.View T} :
    (cast T b >>= inner T) = .ok view ↔ ∃ size m, TpmUint16.readCount b = .ok (size, m) ∧
      size ≤ SIZE T ∧ size = m.length ∧ castPrefixField (α := T) m = .ok (view, []) := by
  have skip {size : Nat} {m : Bytes} (head : TpmUint16.readCount b = .ok (size, m)) :
      b.drop 2 = m ∧ b.length = 2 + m.length := by
    obtain ⟨⟨n, m⟩, read, returned⟩ := bind_eq_ok.mp head
    cases returned
    rw [TpmInt.unmarshal_eq_castPrefix, TpmInt.castPrefix_eq_ok] at read
    rw [read, List.length_append, List.drop_left' n.length_bytes, n.length_bytes]
    exact ⟨rfl, rfl⟩
  have innerOk : inner T b = .ok view ↔ castPrefixField (α := T) (b.drop 2) = .ok (view, []) := by
    unfold inner
    rw [bind_eq_ok]
    constructor
    · rintro ⟨⟨found, tail⟩, read, ok⟩
      cases tail with
      | nil =>
          cases ok
          exact read
      | cons => cases ok
    · intro read
      exact ⟨_, read, rfl⟩
  have castOk : (cast T b = .ok b) ↔ ∃ total, Tpm2bStruct.validatePrefix T b = .ok total ∧
      b.length ≤ total := by
    unfold cast validate
    rw [bind_eq_ok]
    constructor
    · rintro ⟨_, ok, -⟩
      obtain ⟨total, valid, ok⟩ := bind_eq_ok.mp ok
      refine ⟨total, valid, ?_⟩
      by_contra long
      rw [if_pos (Nat.lt_of_not_le long)] at ok
      cases ok
    · rintro ⟨total, valid, within⟩
      refine ⟨(), bind_eq_ok.mpr ⟨total, valid, ?_⟩, rfl⟩
      rw [if_neg (Nat.not_lt.mpr within)]
      rfl
  rw [bind_eq_ok]
  constructor
  · rintro ⟨wire, casts, views⟩
    obtain rfl : b = wire := by
      obtain ⟨_, _, same⟩ := bind_eq_ok.mp casts
      exact Except.ok.inj same
    obtain ⟨total, valid, within⟩ := castOk.mp casts
    obtain ⟨size, m, _, head, bound, enough, -, rfl⟩ := Tpm2bStruct.validatePrefix_eq_ok.mp valid
    obtain ⟨rest, length⟩ := skip head
    rw [innerOk, rest] at views
    exact ⟨size, m, head, bound, by omega, views⟩
  · rintro ⟨_, m, head, bound, rfl, views⟩
    obtain ⟨rest, length⟩ := skip head
    refine ⟨b, castOk.mpr ⟨2 + m.length, ?_, by omega⟩, innerOk.mpr (rest ▸ views)⟩
    refine Tpm2bStruct.validatePrefix_eq_ok.mpr ⟨_, m, view, head, bound, Nat.le_refl _, ?_, rfl⟩
    rw [List.take_length]
    exact views

end Tpm2bWire
end Tpm2
