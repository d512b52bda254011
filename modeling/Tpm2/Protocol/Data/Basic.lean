import Tpm2.Protocol.Data.Rc

/-! The limits of the protocol, its attribute words, its buffers, and PCR selections. -/

namespace Tpm2

open ByteCodec

abbrev maxBufferSize : Nat := 1024
abbrev maxDigestSize : Nat := 64

/-- `sizeof(TPMT_HA)`: an algorithm selector and the largest digest. -/
abbrev maxDataSize : Nat := maxDigestSize + 2

abbrev maxEccKeyBytes : Nat := 66
abbrev maxEventSize : Nat := 1024
abbrev maxNvBufferSize : Nat := 1024
abbrev maxPrivateSize : Nat := 1408
abbrev maxRsaKeyBytes : Nat := 512
abbrev maxSensitiveData : Nat := 256
abbrev maxSessions : Nat := 8
abbrev maxSymKeyBytes : Nat := 32
abbrev tpmGeneratedValue : UInt32 := 0xFF544347
abbrev tpmMaxCommandSize : Nat := 4096
abbrev tpmPcrSelectMax : Nat := 4

structure TpmaAct where
  bits : UInt32
  deriving DecidableEq

structure TpmaAlgorithm where
  bits : UInt32
  deriving DecidableEq

structure TpmaCc where
  bits : UInt32
  deriving DecidableEq

structure TpmaLocality where
  bits : UInt8
  deriving DecidableEq

structure TpmaNv where
  bits : UInt32
  deriving DecidableEq

structure TpmaNvExp where
  bits : UInt64
  deriving DecidableEq

structure TpmaObject where
  bits : UInt32
  deriving DecidableEq

structure TpmaSession where
  bits : UInt8
  deriving DecidableEq

instance : TpmBitflags TpmaAct UInt32 := { bits := TpmaAct.bits, fromBitsTruncate := .mk }
instance : TpmBitflags TpmaAlgorithm UInt32 :=
  { bits := TpmaAlgorithm.bits, fromBitsTruncate := .mk }
instance : TpmBitflags TpmaCc UInt32 := { bits := TpmaCc.bits, fromBitsTruncate := .mk }
instance : TpmBitflags TpmaLocality UInt8 := { bits := TpmaLocality.bits, fromBitsTruncate := .mk }
instance : TpmBitflags TpmaNv UInt32 := { bits := TpmaNv.bits, fromBitsTruncate := .mk }
instance : TpmBitflags TpmaNvExp UInt64 := { bits := TpmaNvExp.bits, fromBitsTruncate := .mk }
instance : TpmBitflags TpmaObject UInt32 := { bits := TpmaObject.bits, fromBitsTruncate := .mk }
instance : TpmBitflags TpmaSession UInt8 := { bits := TpmaSession.bits, fromBitsTruncate := .mk }

instance : TpmWire TpmaAct := .infer
instance : TpmViewed TpmaAct := .infer
instance : TpmWire TpmaAlgorithm := .infer
instance : TpmViewed TpmaAlgorithm := .infer
instance : TpmWire TpmaCc := .infer
instance : TpmViewed TpmaCc := .infer
instance : TpmWire TpmaLocality := .infer
instance : TpmViewed TpmaLocality := .infer
instance : TpmWire TpmaNv := .infer
instance : TpmViewed TpmaNv := .infer
instance : TpmWire TpmaNvExp := .infer
instance : TpmViewed TpmaNvExp := .infer
instance : TpmWire TpmaObject := .infer
instance : TpmViewed TpmaObject := .infer
instance : TpmWire TpmaSession := .infer
instance : TpmViewed TpmaSession := .infer

abbrev TpmiAlgCipherMode := TpmAlgId
abbrev TpmiAlgHash := TpmAlgId
abbrev TpmiDhPcr := TpmHandle
abbrev TpmiRhNvExpIndex := TpmHandle

abbrev Tpm2b := TpmBuffer tpmMaxCommandSize
abbrev Tpm2bAuth := TpmBuffer maxDigestSize
abbrev Tpm2bDigest := TpmBuffer maxDigestSize
abbrev Tpm2bEccParameter := TpmBuffer maxEccKeyBytes
abbrev Tpm2bEncryptedSecret := TpmBuffer maxRsaKeyBytes
abbrev Tpm2bEvent := TpmBuffer maxEventSize
abbrev Tpm2bMaxBuffer := TpmBuffer maxBufferSize
abbrev Tpm2bMaxNvBuffer := TpmBuffer maxNvBufferSize
abbrev Tpm2bName := TpmBuffer (maxDigestSize + 2)
abbrev Tpm2bNonce := TpmBuffer maxDigestSize
abbrev Tpm2bPrivate := TpmBuffer maxPrivateSize
abbrev Tpm2bPrivateKeyRsa := TpmBuffer (maxRsaKeyBytes / 2)
abbrev Tpm2bPublicKeyRsa := TpmBuffer maxRsaKeyBytes
abbrev Tpm2bSensitiveData := TpmBuffer maxSensitiveData
abbrev Tpm2bSymKey := TpmBuffer maxSymKeyBytes
abbrev Tpm2bData := TpmBuffer maxDataSize
abbrev Tpm2bTimeout := TpmBuffer 8
abbrev Tpm2bIv := TpmBuffer 16

/-- A PCR selection bitmap. -/
structure TpmsPcrSelect where
  data : Bytes
  length_le : data.length ≤ tpmPcrSelectMax

namespace TpmsPcrSelect

@[ext] theorem ext {v w : TpmsPcrSelect} (h : v.data = w.data) : v = w := by
  cases v
  cases w
  simp_all

instance : DecidableEq TpmsPcrSelect := fun v w =>
  decidable_of_iff (v.data = w.data) ⟨ext, congrArg data⟩

/-- The `size` field. -/
def size (v : TpmsPcrSelect) : Nat := v.data.length

def new : TpmsPcrSelect := ⟨[], by simp⟩

/-- `TpmsPcrSelect::try_from(&[u8])`. -/
def tryFrom (slice : Bytes) : TpmResult TpmsPcrSelect :=
  if h : slice.length > tpmPcrSelectMax then
    .error (.tooManyItems 0 tpmPcrSelectMax slice.length)
  else
    .ok ⟨slice, by omega⟩

instance : TpmSized TpmsPcrSelect := ⟨1 + tpmPcrSelectMax, fun v => 1 + v.size⟩

instance : TpmMarshal TpmsPcrSelect where
  marshal v writer := do
    let writer ← marshal (TpmInt.new (UInt8.ofNat v.size) : TpmUint8) writer
    TpmWriter.writeBytes v.data writer

instance : TpmField TpmsPcrSelect where
  View := Bytes
  castPrefixField buf := do
    let (size, remainder) ← (TpmInt.castPrefix buf : TpmResult (TpmUint8 × Bytes))
    let size := size.value.toNat
    if size > tpmPcrSelectMax then
      throw (.tooManyItems 0 tpmPcrSelectMax size)
    if remainder.length < size then
      throw (.unexpectedEnd 1 size remainder.length)
    return (remainder.take size, remainder.drop size)

instance : TpmUnmarshal TpmsPcrSelect where
  unmarshal buffer := do
    let (value, remainder) ← (castPrefixField (α := TpmsPcrSelect) buffer :
      TpmResult (Bytes × Bytes))
    let value ← tryFrom value
    return (value, remainder)

instance : TpmSpec TpmsPcrSelect := .plain

/-- The wire form: the size and the bitmap. -/
def wire (v : TpmsPcrSelect) : Bytes :=
  (TpmInt.new (UInt8.ofNat v.size) : TpmUint8).bytes ++ v.data

theorem toNat_size (v : TpmsPcrSelect) : (UInt8.ofNat v.size).toNat = v.size := by
  have : v.data.length ≤ 4 := v.length_le
  exact UInt8.toNat_ofNat_of_lt' (by rw [UInt8.size, size]; omega)

theorem castPrefixField_eq_ok {b view r : Bytes} :
    castPrefixField (α := TpmsPcrSelect) b = .ok (view, r) ↔
      ∃ v : TpmsPcrSelect, view = v.data ∧ b = v.wire ++ r := by
  simp only [castPrefixField, bind_eq_ok, Prod.exists, TpmInt.castPrefix_eq_ok]
  constructor
  · rintro ⟨n, m, rfl, ok⟩
    split at ok
    · cases ok
    split at ok
    · cases ok
    · cases ok
      have length : (m.take n.value.toNat).length = n.value.toNat := by simp; omega
      refine ⟨⟨m.take n.value.toNat, by omega⟩, rfl, ?_⟩
      simp [wire, size, length]
  · rintro ⟨v, rfl, rfl⟩
    have := v.length_le
    refine ⟨.new (UInt8.ofNat v.size), v.data ++ r, by simp [wire], ?_⟩
    rw [TpmInt.value_new, toNat_size, if_neg (by rw [size]; omega), if_neg (by simp [size])]
    simp [size, pure, Except.pure]

theorem unmarshal_eq_ok {b r : Bytes} {v : TpmsPcrSelect} :
    unmarshal b = .ok (v, r) ↔ b = v.wire ++ r := by
  simp only [unmarshal, bind_eq_ok, Prod.exists, castPrefixField_eq_ok, pure, Except.pure,
    Except.ok.injEq, Prod.mk.injEq]
  have accepts (v : TpmsPcrSelect) : tryFrom v.data = .ok v := dif_neg (Nat.not_lt.mpr v.length_le)
  constructor
  · rintro ⟨_, r, ⟨v, rfl, rfl⟩, w, ok, rfl, rfl⟩
    rw [accepts] at ok
    cases ok
    rfl
  · rintro rfl
    exact ⟨v.data, r, ⟨v, rfl, rfl⟩, v, accepts v, rfl, rfl⟩

instance : LawfulWire TpmsPcrSelect where
  codec := .of_wire wire
    (fun v => (TpmWriter.writeBytes_emits _).bind (TpmWriter.writeBytes_emits v.data))
    unmarshal_eq_ok fun v => by simp [wire, len, size, TpmInt.length_bytes]
  len_le v := Nat.add_le_add_left v.length_le 1
  maxLen_le := Nat.le_refl _

instance : LawfulView TpmsPcrSelect where
  sameExtent b r := by
    simp only [castPrefixField_eq_ok, unmarshal_eq_ok]
    exact ⟨fun ⟨_, v, _, split⟩ => ⟨v, split⟩, fun ⟨v, split⟩ => ⟨_, v, rfl, split⟩⟩

instance : TpmWire TpmsPcrSelect := .infer
instance : TpmViewed TpmsPcrSelect := .infer

end TpmsPcrSelect

/-- The PCRs of one bank. -/
structure TpmsPcrSelection where
  hash : TpmAlgId
  pcrSelect : TpmsPcrSelect
  deriving DecidableEq

namespace TpmsPcrSelection

instance : TpmSized TpmsPcrSelection :=
  ⟨SIZE TpmAlgId + 1 + tpmPcrSelectMax, fun v => len v.hash + len v.pcrSelect⟩

instance : TpmMarshal TpmsPcrSelection where
  marshal v writer := do
    let writer ← marshal v.hash writer
    marshal v.pcrSelect writer

instance : TpmField TpmsPcrSelection where
  View := TpmAlgId × Bytes
  castPrefixField buf := do
    let (hash, buf) ← (castPrefixField (α := TpmAlgId) buf : TpmResult (TpmAlgId × Bytes))
    let (pcrSelect, buf) ← (castPrefixField (α := TpmsPcrSelect) buf : TpmResult (Bytes × Bytes))
    return ((hash, pcrSelect), buf)

instance : TpmUnmarshal TpmsPcrSelection where
  unmarshal buffer := do
    let (hash, buffer) ← unmarshal buffer
    let (pcrSelect, buffer) ← unmarshal buffer
    return (⟨hash, pcrSelect⟩, buffer)

instance : TpmSpec TpmsPcrSelection := .plain

theorem unmarshal_eq_ok {b r : Bytes} {v : TpmsPcrSelection} :
    unmarshal b = .ok (v, r) ↔
      seqRead unmarshal (fun _ => unmarshal) b = .ok ((v.hash, v.pcrSelect), r) := by
  simp only [seqRead_eq_ok, unmarshal, bind_eq_ok, Prod.exists]
  constructor
  · rintro ⟨hash, m, first, select, r, second, ok⟩
    cases ok
    exact ⟨m, first, second⟩
  · rintro ⟨m, first, second⟩
    exact ⟨_, m, first, _, r, second, rfl⟩

instance : LawfulWire TpmsPcrSelection where
  codec := by
    have law := ((codec (α := TpmAlgId)).seq fun _ => codec (α := TpmsPcrSelect)).iso
      (f := fun v : TpmsPcrSelection => (v.hash, v.pcrSelect)) fun _ _ _ => unmarshal_eq_ok
    exact law.congr_prop (fun _ => (and_iff_right trivial).symm)
      fun _ => (and_iff_right trivial).symm
  len_le v := Nat.le_trans (Nat.add_le_add (len_le v.hash) (len_le v.pcrSelect))
    (Nat.le_of_eq rfl)
  maxLen_le := Nat.le_refl _

instance : LawfulView TpmsPcrSelection where
  sameExtent b := (sameExtent (α := TpmAlgId) b).bind fun _ _ m =>
    (sameExtent (α := TpmsPcrSelect) m).bind fun _ _ r => .pure _ _ r

instance : TpmWire TpmsPcrSelection := .infer
instance : TpmViewed TpmsPcrSelection := .infer

end TpmsPcrSelection

abbrev TpmlPcrSelection := TpmList TpmsPcrSelection 8

end Tpm2
