import Tpm2.Protocol.Traits

/-! Big-endian integers of a fixed wire width. -/

namespace Tpm2

open ByteCodec

/-- A native integer that can occupy an `N`-byte wire field. -/
class TpmIntBytes (T : Type) (N : outParam Nat) where
  toBeBytes : T → Bytes
  fromBeBytes : Bytes → T
  /-- `value as u64`. -/
  asU64 : T → UInt64
  length_toBeBytes : ∀ v, (toBeBytes v).length = N
  fromBeBytes_toBeBytes : ∀ v, fromBeBytes (toBeBytes v) = v
  toBeBytes_fromBeBytes : ∀ {bytes}, bytes.length = N → toBeBytes (fromBeBytes bytes) = bytes

instance : TpmIntBytes UInt8 1 where
  toBeBytes v := toBytes 1 v.toNat
  fromBeBytes bytes := UInt8.ofNat (ofBytes bytes)
  asU64 v := v.toUInt64
  length_toBeBytes v := length_toBytes ..
  fromBeBytes_toBeBytes v := by rw [ofBytes_toBytes v.toNat_lt, UInt8.ofNat_toNat]
  toBeBytes_fromBeBytes {bytes} h := by
    have := h ▸ ofBytes_lt bytes
    rw [UInt8.toNat_ofNat_of_lt' this, ← h, toBytes_ofBytes]

instance : TpmIntBytes UInt16 2 where
  toBeBytes v := toBytes 2 v.toNat
  fromBeBytes bytes := UInt16.ofNat (ofBytes bytes)
  asU64 v := v.toUInt64
  length_toBeBytes v := length_toBytes ..
  fromBeBytes_toBeBytes v := by rw [ofBytes_toBytes v.toNat_lt, UInt16.ofNat_toNat]
  toBeBytes_fromBeBytes {bytes} h := by
    have := h ▸ ofBytes_lt bytes
    rw [UInt16.toNat_ofNat_of_lt' this, ← h, toBytes_ofBytes]

instance : TpmIntBytes UInt32 4 where
  toBeBytes v := toBytes 4 v.toNat
  fromBeBytes bytes := UInt32.ofNat (ofBytes bytes)
  asU64 v := v.toUInt64
  length_toBeBytes v := length_toBytes ..
  fromBeBytes_toBeBytes v := by rw [ofBytes_toBytes v.toNat_lt, UInt32.ofNat_toNat]
  toBeBytes_fromBeBytes {bytes} h := by
    have := h ▸ ofBytes_lt bytes
    rw [UInt32.toNat_ofNat_of_lt' this, ← h, toBytes_ofBytes]

instance : TpmIntBytes UInt64 8 where
  toBeBytes v := toBytes 8 v.toNat
  fromBeBytes bytes := UInt64.ofNat (ofBytes bytes)
  asU64 v := v
  length_toBeBytes v := length_toBytes ..
  fromBeBytes_toBeBytes v := by rw [ofBytes_toBytes v.toNat_lt, UInt64.ofNat_toNat]
  toBeBytes_fromBeBytes {bytes} h := by
    have := h ▸ ofBytes_lt bytes
    rw [UInt64.toNat_ofNat_of_lt' this, ← h, toBytes_ofBytes]

/-- Two's complement: the bytes are those of the unsigned number with the same bits. -/
instance : TpmIntBytes Int8 1 where
  toBeBytes v := toBytes 1 v.toUInt8.toNat
  fromBeBytes bytes := (UInt8.ofNat (ofBytes bytes)).toInt8
  asU64 v := v.toInt64.toUInt64
  length_toBeBytes v := length_toBytes ..
  fromBeBytes_toBeBytes v := by
    rw [ofBytes_toBytes v.toUInt8.toNat_lt, UInt8.ofNat_toNat, Int8.toInt8_toUInt8]
  toBeBytes_fromBeBytes {bytes} h := by
    have := h ▸ ofBytes_lt bytes
    rw [UInt8.toUInt8_toInt8, UInt8.toNat_ofNat_of_lt' this, ← h, toBytes_ofBytes]

instance : TpmIntBytes Int32 4 where
  toBeBytes v := toBytes 4 v.toUInt32.toNat
  fromBeBytes bytes := (UInt32.ofNat (ofBytes bytes)).toInt32
  asU64 v := v.toInt64.toUInt64
  length_toBeBytes v := length_toBytes ..
  fromBeBytes_toBeBytes v := by
    rw [ofBytes_toBytes v.toUInt32.toNat_lt, UInt32.ofNat_toNat, Int32.toInt32_toUInt32]
  toBeBytes_fromBeBytes {bytes} h := by
    have := h ▸ ofBytes_lt bytes
    rw [UInt32.toUInt32_toInt32, UInt32.toNat_ofNat_of_lt' this, ← h, toBytes_ofBytes]

/-- A wire view of exactly `N` bytes. -/
structure TpmWireBytes (N : Nat) where
  bytes : Bytes
  length_bytes : bytes.length = N

/-- Splits off the first `N` bytes. -/
def TpmWireBytes.castPrefix {N : Nat} (buf : Bytes) : TpmResult (TpmWireBytes N × Bytes) :=
  if h : buf.length < N then
    .error (.unexpectedEnd 0 N buf.length)
  else
    .ok (⟨buf.take N, by simp; omega⟩, buf.drop N)

/-- A big-endian integer of native type `T` and wire width `N`, kept as its wire bytes. -/
structure TpmInt (T : Type) (N : Nat) where
  bytes : Bytes
  length_bytes : bytes.length = N

namespace TpmInt

variable {T : Type} {N : Nat}

@[ext] theorem ext {v w : TpmInt T N} (h : v.bytes = w.bytes) : v = w := by
  cases v
  cases w
  simp_all

instance : DecidableEq (TpmInt T N) := fun v w =>
  decidable_of_iff (v.bytes = w.bytes) ⟨ext, congrArg bytes⟩

def new [TpmIntBytes T N] (value : T) : TpmInt T N :=
  ⟨TpmIntBytes.toBeBytes value, TpmIntBytes.length_toBeBytes value⟩

def value [TpmIntBytes T N] (v : TpmInt T N) : T := TpmIntBytes.fromBeBytes v.bytes

@[simp] theorem value_new [TpmIntBytes T N] (value : T) :
    (new value : TpmInt T N).value = value := TpmIntBytes.fromBeBytes_toBeBytes value

@[simp] theorem new_value [TpmIntBytes T N] (v : TpmInt T N) : new v.value = v :=
  ext (TpmIntBytes.toBeBytes_fromBeBytes v.length_bytes)

instance : TpmSized (TpmInt T N) := ⟨N, fun _ => N⟩

instance : TpmMarshal (TpmInt T N) := ⟨fun v => TpmWriter.writeBytes v.bytes⟩

def fromBeBytes (bytes : TpmWireBytes N) : TpmInt T N := ⟨bytes.bytes, bytes.length_bytes⟩

/-- Splits off the first `N` bytes as an integer view. -/
def castPrefix (buf : Bytes) : TpmResult (TpmInt T N × Bytes) :=
  if h : buf.length < N then
    .error (.unexpectedEnd 0 N buf.length)
  else
    .ok (⟨buf.take N, by simp; omega⟩, buf.drop N)

instance : TpmUnmarshal (TpmInt T N) where
  unmarshal buffer := do
    let (value, remainder) ← TpmWireBytes.castPrefix buffer
    .ok (fromBeBytes value, remainder)

instance : TpmField (TpmInt T N) := ⟨TpmInt T N, castPrefix⟩

instance : TpmSpec (TpmInt T N) := .plain

theorem castPrefix_eq_ok {b r : Bytes} {v : TpmInt T N} :
    castPrefix b = .ok (v, r) ↔ b = v.bytes ++ r := by
  unfold castPrefix
  constructor
  · intro ok
    split at ok
    · cases ok
    · cases ok
      exact (List.take_append_drop N b).symm
  · rintro rfl
    have enough : ¬ (v.bytes ++ r).length < N := by simp [v.length_bytes]
    rw [dif_neg enough]
    simp [List.take_left' v.length_bytes, List.drop_left' v.length_bytes]

@[simp] theorem unmarshal_eq_castPrefix :
    (unmarshal : Bytes → TpmResult (TpmInt T N × Bytes)) = castPrefix := by
  funext buffer
  simp only [unmarshal, TpmWireBytes.castPrefix, castPrefix]
  split <;> rfl

instance : LawfulWire (TpmInt T N) where
  codec := .of_wire _ (fun _ => TpmWriter.writeBytes_emits _)
    (by rw [unmarshal_eq_castPrefix]; exact castPrefix_eq_ok) length_bytes
  len_le _ := Nat.le_refl _
  maxLen_le := Nat.le_refl _

instance : LawfulView (TpmInt T N) := ⟨by rw [unmarshal_eq_castPrefix]; exact fun _ _ => Iff.rfl⟩

instance : TpmWire (TpmInt T N) := .infer
instance : TpmViewed (TpmInt T N) := .infer

end TpmInt

abbrev TpmUint8 := TpmInt UInt8 1
abbrev TpmInt8 := TpmInt Int8 1
abbrev TpmUint16 := TpmInt UInt16 2
abbrev TpmUint32 := TpmInt UInt32 4
abbrev TpmUint64 := TpmInt UInt64 8
abbrev TpmInt32 := TpmInt Int32 4

abbrev TpmHandle := TpmUint32

/-- `TpmUint16::try_from(usize)`, with the caller's error. -/
def TpmUint16.tryFrom (value : Nat) (e : TpmError) : TpmResult TpmUint16 :=
  if value ≤ u16Max then .ok (.new (UInt16.ofNat value)) else .error e

/-- `TpmUint32::try_from(usize)`, with the caller's error. -/
def TpmUint32.tryFrom (value : Nat) (e : TpmError) : TpmResult TpmUint32 :=
  if value ≤ u32Max then .ok (.new (UInt32.ofNat value)) else .error e

/-- A count that is written as an integer of the wire, where it fits. -/
theorem TpmInt.count_lawful {T : Type} {N : Nat} [TpmIntBytes T N] {ofNat : Nat → T}
    {toNat : T → Nat} {limit : Nat} (toNat_ofNat : ∀ {n}, n ≤ limit → toNat (ofNat n) = n)
    (ofNat_toNat : ∀ v, ofNat (toNat v) = v) (toNat_le : ∀ v, toNat v ≤ limit)
    (e : Nat → TpmWriter → TpmError) :
    LawfulCodec
      (fun n c => (if n ≤ limit then .ok (.new (ofNat n)) else .error (e n c)) >>=
        fun v : TpmInt T N => marshal v c)
      (fun b => do
        let (v, r) ← (unmarshal b : TpmResult (TpmInt T N × Bytes))
        .ok (toNat v.value, r))
      (fun _ => N) (· ≤ limit) (· ≤ limit) where
  emits {n} fits := by
    refine ⟨_, (TpmInt.new (N := N) (ofNat n)).length_bytes, ?_⟩
    simp only [fits, if_true]
    exact TpmWriter.writeBytes_emits _
  refuses {n} large c := ⟨e n c, by simp [large, bind, Except.bind]⟩
  writable fits := fits
  read_emitted {n p} fits emits r := by
    simp only [fits, if_true] at emits
    have read := codec.read_emitted (α := TpmInt T N) trivial emits r
    exact bind_eq_ok.mpr ⟨_, read, by simp [toNat_ofNat fits]⟩
  read_ok {b n r} ok := by
    obtain ⟨⟨v, m⟩, read, returned⟩ := bind_eq_ok.mp ok
    cases returned
    obtain ⟨-, p, split, emits⟩ := codec.read_ok read
    refine ⟨toNat_le _, p, split, ?_⟩
    simp only [toNat_le, if_true, ofNat_toNat, new_value]
    exact emits

/-- A 16-bit integer read as a number. -/
def TpmUint16.readCount (b : Bytes) : TpmResult (Nat × Bytes) := do
  let (v, r) ← (unmarshal b : TpmResult (TpmUint16 × Bytes))
  .ok (v.value.toNat, r)

/-- A 32-bit integer read as a number. -/
def TpmUint32.readCount (b : Bytes) : TpmResult (Nat × Bytes) := do
  let (v, r) ← (unmarshal b : TpmResult (TpmUint32 × Bytes))
  .ok (v.value.toNat, r)

theorem TpmUint16.count_lawful (e : Nat → TpmWriter → TpmError) :
    LawfulCodec (fun n c => TpmUint16.tryFrom n (e n c) >>= fun v => marshal v c)
      TpmUint16.readCount (fun _ => 2) (· ≤ u16Max) (· ≤ u16Max) :=
  TpmInt.count_lawful
    (fun {n} fits => by
      rw [u16Max] at fits
      exact UInt16.toNat_ofNat_of_lt' (by rw [UInt16.size]; omega))
    (fun _ => UInt16.ofNat_toNat) (fun v => by have := v.toNat_lt; rw [u16Max]; omega) e

theorem TpmUint32.count_lawful (e : Nat → TpmWriter → TpmError) :
    LawfulCodec (fun n c => TpmUint32.tryFrom n (e n c) >>= fun v => marshal v c)
      TpmUint32.readCount (fun _ => 4) (· ≤ u32Max) (· ≤ u32Max) :=
  TpmInt.count_lawful
    (fun {n} fits => by
      rw [u32Max] at fits
      exact UInt32.toNat_ofNat_of_lt' (by rw [UInt32.size]; omega))
    (fun _ => UInt32.ofNat_toNat) (fun v => by have := v.toNat_lt; rw [u32Max]; omega) e

end Tpm2
