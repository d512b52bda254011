import Tpm2.Protocol.Data.Scheme

/-! Symmetric definitions, which have no payload for the null algorithm, and digests, whose size
their algorithm selects. -/

namespace Tpm2

open ByteCodec

inductive TpmuSymKeyBits
  | aes (v : TpmUint16)
  | sm4 (v : TpmUint16)
  | camellia (v : TpmUint16)
  | xor (v : TpmAlgId)
  | null
  deriving DecidableEq

namespace TpmuSymKeyBits

instance : TpmSized TpmuSymKeyBits where
  SIZE := 2
  len
    | .aes v => len v
    | .sm4 v => len v
    | .camellia v => len v
    | .xor v => len v
    | .null => 0

instance : TpmMarshal TpmuSymKeyBits where
  marshal
    | .aes v => marshal v
    | .sm4 v => marshal v
    | .camellia v => marshal v
    | .xor v => marshal v
    | .null => fun writer => .ok writer

instance : TpmuView TpmuSymKeyBits TpmAlgId (TpmUint16 ⊕ TpmUint16 ⊕ TpmUint16 ⊕ TpmAlgId ⊕ Unit ⊕
    Empty) where
  tags := [[.aes], [.sm4], [.camellia], [.xor], [.null]]
  toArms
    | .aes v => .inl v
    | .sm4 v => .inr (.inl v)
    | .camellia v => .inr (.inr (.inl v))
    | .xor v => .inr (.inr (.inr (.inl v)))
    | .null => .inr (.inr (.inr (.inr (.inl ()))))
  ofArms
    | .inl v => .aes v
    | .inr (.inl v) => .sm4 v
    | .inr (.inr (.inl v)) => .camellia v
    | .inr (.inr (.inr (.inl v))) => .xor v
    | .inr (.inr (.inr (.inr (.inl _)))) => .null
  ofArms_toArms u := by cases u <;> rfl
  toArms_ofArms a := by rcases a with _ | _ | _ | _ | _ | _ <;> first | rfl | contradiction
  nodup := by decide

instance : TpmuView.LawfulUnion TpmuSymKeyBits where
  len_eq u := by cases u <;> rfl
  marshal_eq u := by cases u <;> rfl
  maxLen_le := by decide

instance : TpmUnion TpmuSymKeyBits TpmAlgId := .infer
instance : TpmUnionView TpmuSymKeyBits TpmAlgId := .infer

end TpmuSymKeyBits

inductive TpmuSymMode
  | aes (v : TpmAlgId)
  | sm4 (v : TpmAlgId)
  | camellia (v : TpmAlgId)
  | xor (v : TpmAlgId)
  | null
  deriving DecidableEq

namespace TpmuSymMode

instance : TpmSized TpmuSymMode where
  SIZE := 2
  len
    | .aes v => len v
    | .sm4 v => len v
    | .camellia v => len v
    | .xor v => len v
    | .null => 0

instance : TpmMarshal TpmuSymMode where
  marshal
    | .aes v => marshal v
    | .sm4 v => marshal v
    | .camellia v => marshal v
    | .xor v => marshal v
    | .null => fun writer => .ok writer

instance : TpmuView TpmuSymMode TpmAlgId (TpmAlgId ⊕ TpmAlgId ⊕ TpmAlgId ⊕ TpmAlgId ⊕ Unit ⊕
    Empty) where
  tags := [[.aes], [.sm4], [.camellia], [.xor], [.null]]
  toArms
    | .aes v => .inl v
    | .sm4 v => .inr (.inl v)
    | .camellia v => .inr (.inr (.inl v))
    | .xor v => .inr (.inr (.inr (.inl v)))
    | .null => .inr (.inr (.inr (.inr (.inl ()))))
  ofArms
    | .inl v => .aes v
    | .inr (.inl v) => .sm4 v
    | .inr (.inr (.inl v)) => .camellia v
    | .inr (.inr (.inr (.inl v))) => .xor v
    | .inr (.inr (.inr (.inr (.inl _)))) => .null
  ofArms_toArms u := by cases u <;> rfl
  toArms_ofArms a := by rcases a with _ | _ | _ | _ | _ | _ <;> first | rfl | contradiction
  nodup := by decide

instance : TpmuView.LawfulUnion TpmuSymMode where
  len_eq u := by cases u <;> rfl
  marshal_eq u := by cases u <;> rfl
  maxLen_le := by decide

instance : TpmUnion TpmuSymMode TpmAlgId := .infer
instance : TpmUnionView TpmuSymMode TpmAlgId := .infer

end TpmuSymMode

theorem TpmuSymKeyBits.writable (v : TpmuSymKeyBits) : Writable v := by cases v <;> trivial

theorem TpmuSymKeyBits.wellFormed (v : TpmuSymKeyBits) : WellFormed v := by cases v <;> trivial

theorem TpmuSymMode.writable (v : TpmuSymMode) : Writable v := by cases v <;> trivial

theorem TpmuSymMode.wellFormed (v : TpmuSymMode) : WellFormed v := by cases v <;> trivial

structure TpmtSymDef where
  algorithm : TpmAlgId
  keyBits : TpmuSymKeyBits
  mode : TpmuSymMode
  deriving DecidableEq

namespace TpmtSymDef

instance : TpmSized TpmtSymDef where
  SIZE := SIZE TpmAlgId + SIZE TpmuSymKeyBits + SIZE TpmAlgId
  len v :=
    if v.algorithm = .null then len v.algorithm
    else len v.algorithm + len v.keyBits + len v.mode

instance : TpmMarshal TpmtSymDef where
  marshal v writer := do
    if v.algorithm ≠ .null ∧
        (!matchesTag v.keyBits v.algorithm || !matchesTag v.mode v.algorithm) then
      throw (.variantNotAvailable writer.pos (tagValue v.algorithm))
    let writer ← marshal v.algorithm writer
    if v.algorithm ≠ .null then
      let writer ← marshal v.keyBits writer
      marshal v.mode writer
    else
      return writer

instance : TpmUnmarshal TpmtSymDef where
  unmarshal buffer := do
    let (algorithm, buffer) ← (unmarshal buffer : TpmResult (TpmAlgId × Bytes))
    if algorithm = .null then
      return (⟨algorithm, .null, .null⟩, buffer)
    let (keyBits, buffer) ← unmarshalTagged algorithm buffer
    let (mode, buffer) ← unmarshalTagged algorithm buffer
    return (⟨algorithm, keyBits, mode⟩, buffer)

inductive View
  | null
  | value (algorithm : TpmAlgId) (keyBits : TpmTaggedField.View TpmuSymKeyBits)
      (mode : TpmTaggedField.View TpmuSymMode)

instance : TpmField TpmtSymDef where
  View := View
  castPrefixField buf := do
    let (algorithm, buf) ← (castPrefixField (α := TpmAlgId) buf : TpmResult (TpmAlgId × Bytes))
    let algorithm : TpmAlgId := algorithm
    if algorithm = .null then
      return (.null, buf)
    let (keyBits, buf) ← castTaggedPrefixField (U := TpmuSymKeyBits) algorithm buf
    let (mode, buf) ← castTaggedPrefixField (U := TpmuSymMode) algorithm buf
    return (.value algorithm keyBits mode, buf)

/-- The payloads that belong to an algorithm: none of them is written for the null algorithm. -/
def Matches (algorithm : TpmAlgId) : TpmuSymKeyBits × TpmuSymMode → Prop :=
  if algorithm = .null then fun fields => fields = (.null, .null)
  else fun fields => matchesTag fields.1 algorithm ∧ matchesTag fields.2 algorithm

instance : TpmSpec TpmtSymDef where
  Writable v := v.algorithm = .null ∨ matchesTag v.keyBits v.algorithm ∧
    matchesTag v.mode v.algorithm
  WellFormed v := Matches v.algorithm (v.keyBits, v.mode)
  maxLen := maxLen TpmAlgId + maxLen TpmuSymKeyBits + maxLen TpmuSymMode

/-- Writes the payloads of a symmetric definition after its algorithm. -/
def marshalFields (algorithm : TpmAlgId) :
    TpmuSymKeyBits × TpmuSymMode → TpmWriter → TpmResult TpmWriter :=
  if algorithm = .null then fun _ writer => .ok writer
  else fun fields writer => marshal fields.1 writer >>= marshal fields.2

def lenFields (algorithm : TpmAlgId) : TpmuSymKeyBits × TpmuSymMode → Nat :=
  if algorithm = .null then fun _ => 0
  else fun fields => len fields.1 + len fields.2

/-- Reads the payloads of a symmetric definition after its algorithm. -/
def readFields (algorithm : TpmAlgId) :
    Bytes → TpmResult ((TpmuSymKeyBits × TpmuSymMode) × Bytes) :=
  if algorithm = .null then fun buffer => .ok ((.null, .null), buffer)
  else seqRead (unmarshalTagged algorithm) fun _ => unmarshalTagged algorithm

theorem fields_lawful (algorithm : TpmAlgId) :
    LawfulCodec (marshalFields algorithm) (readFields algorithm) (lenFields algorithm)
      (fun _ => True) (Matches algorithm) := by
  by_cases null : algorithm = .null
  · simp only [marshalFields, readFields, lenFields, Matches, null, if_true]
    exact .const _
  · simp only [marshalFields, readFields, lenFields, Matches, null, if_false]
    have law := (codec_tagged (U := TpmuSymKeyBits) algorithm).seq
      fun _ => codec_tagged (U := TpmuSymMode) algorithm
    refine law.congr_prop (fun fields => ?_) fun fields => ?_
    · exact (iff_of_true trivial ⟨TpmuSymKeyBits.writable _, TpmuSymMode.writable _⟩)
    · rw [and_iff_left (TpmuSymKeyBits.wellFormed _), and_iff_left (TpmuSymMode.wellFormed _)]

theorem unmarshal_eq_ok {b r : Bytes} {v : TpmtSymDef} :
    unmarshal b = .ok (v, r) ↔
      seqRead unmarshal readFields b = .ok ((v.algorithm, v.keyBits, v.mode), r) := by
  simp only [seqRead_eq_ok, unmarshal, bind_eq_ok, Prod.exists]
  constructor
  · rintro ⟨algorithm, m, head, ok⟩
    split at ok
    next null =>
      cases ok
      exact ⟨_, head, by simp [readFields, null]⟩
    next other =>
      obtain ⟨⟨keyBits, m'⟩, first, ok⟩ := bind_eq_ok.mp ok
      obtain ⟨⟨mode, r⟩, second, ok⟩ := bind_eq_ok.mp ok
      cases ok
      refine ⟨m, head, ?_⟩
      simp only [readFields, other, if_false]
      exact seqRead_eq_ok.mpr ⟨m', first, second⟩
  · rintro ⟨m, head, rest⟩
    refine ⟨v.algorithm, m, head, ?_⟩
    split
    next null =>
      simp only [readFields, null, if_true, Except.ok.injEq, Prod.mk.injEq] at rest
      obtain ⟨⟨keyBits, mode⟩, rfl⟩ := rest
      rw [keyBits, mode]
      rfl
    next other =>
      simp only [readFields, other, if_false] at rest
      obtain ⟨m', first, second⟩ := seqRead_eq_ok.mp rest
      exact bind_eq_ok.mpr ⟨_, first, bind_eq_ok.mpr ⟨_, second, rfl⟩⟩

instance : DecidablePred fun v : TpmtSymDef => Writable v := fun _ =>
  inferInstanceAs (Decidable (_ ∨ _ ∧ _))

theorem writable_of_wellFormed {v : TpmtSymDef} (wf : WellFormed v) : Writable v := by
  by_cases null : v.algorithm = .null
  · exact .inl null
  · refine .inr ?_
    change Matches v.algorithm (v.keyBits, v.mode) at wf
    rwa [Matches, if_neg null] at wf

theorem marshal_eq {v : TpmtSymDef} (writable : Writable v) :
    marshal v = fun writer => marshal v.algorithm writer >>=
      marshalFields v.algorithm (v.keyBits, v.mode) := by
  funext writer
  have passes : ¬ (v.algorithm ≠ .null ∧ (!matchesTag v.keyBits v.algorithm ||
      !matchesTag v.mode v.algorithm) = true) := by
    rintro ⟨other, mismatch⟩
    obtain null | ⟨keyBits, mode⟩ := writable
    · exact other null
    · simp [keyBits, mode] at mismatch
  change ite _ _ _ = _
  rw [if_neg passes]
  refine congrArg (marshal v.algorithm writer >>= ·) (funext fun writer => ?_)
  by_cases null : v.algorithm = .null
  · rw [if_neg (not_not.mpr null), marshalFields, if_pos null]
    rfl
  · rw [if_pos null, marshalFields, if_neg null]

theorem marshal_refuses {v : TpmtSymDef} (other : ¬ Writable v) : Refuses (marshal v) := by
  intro writer
  have fails : v.algorithm ≠ .null ∧ (!matchesTag v.keyBits v.algorithm ||
      !matchesTag v.mode v.algorithm) = true := by
    refine ⟨fun null => other (.inl null), ?_⟩
    have mismatch := fun both => other (.inr both)
    revert mismatch
    cases matchesTag v.keyBits v.algorithm <;> cases matchesTag v.mode v.algorithm <;> simp
  refine ⟨.variantNotAvailable writer.pos (tagValue v.algorithm), ?_⟩
  change ite _ _ _ = _
  rw [if_pos fails]
  rfl

instance : LawfulWire TpmtSymDef where
  codec := by
    have law := ((codec (α := TpmAlgId)).seq fields_lawful).iso
      (f := fun v : TpmtSymDef => (v.algorithm, v.keyBits, v.mode)) fun _ _ _ => unmarshal_eq_ok
    refine ((law.guard (fun v : TpmtSymDef => Writable v) (fun wf =>
      writable_of_wellFormed wf.2) _ marshal_eq marshal_refuses).congr_prop (fun _ => ?_)
        fun _ => ?_).congr_write (fun _ => rfl) fun v => ?_
    · exact (and_iff_left ⟨trivial, trivial⟩).symm
    · exact (and_iff_right trivial).symm
    · change ite _ _ _ = _ + lenFields _ _
      rw [lenFields]
      split
      · rfl
      · exact Nat.add_assoc ..
  len_le v := by
    have := len_le v.algorithm
    have := len_tagged_le v.keyBits
    have := len_tagged_le v.mode
    simp only [len, maxLen] at *
    split <;> omega
  maxLen_le := by decide

instance : LawfulView TpmtSymDef where
  sameExtent b := by
    refine SameRest.bind_same (y := (unmarshal b : TpmResult (TpmAlgId × Bytes)))
      fun algorithm m => ?_
    dsimp only
    split
    · exact .pure _ _ m
    · refine (sameExtent_tagged algorithm m).bind fun _ _ m => ?_
      refine (sameExtent_tagged algorithm m).bind fun _ _ r => ?_
      exact .pure _ _ r

instance : TpmWire TpmtSymDef := .infer
instance : TpmViewed TpmtSymDef := .infer

end TpmtSymDef

abbrev TpmtSymDefObject := TpmtSymDef

inductive TpmuHa
  | null
  | digest (d : TpmBuffer maxDigestSize)
  deriving DecidableEq

namespace TpmuHa

instance : TpmMarshal TpmuHa where
  marshal
    | .null => fun writer => .ok writer
    | .digest d => TpmWriter.writeBytes d.bytes

instance : TpmSized TpmuHa where
  SIZE := maxDigestSize
  len
    | .null => 0
    | .digest d => d.bytes.length

inductive View
  | null
  | digest (bytes : Bytes)

/-- The digest size in bytes for a hash algorithm selector. -/
def digestSize : TpmAlgId → Option Nat
  | .sha1 => some 20
  | .shake256_192 => some 24
  | .sha256 | .sm3_256 | .sha3_256 | .shake256_256 => some 32
  | .sha384 | .sha3_384 => some 48
  | .sha512 | .sha3_512 | .shake256_512 => some 64
  | _ => none

instance : TpmTaggedField TpmuHa TpmAlgId where
  View := View
  castTaggedPrefixField tag buf :=
    match digestSize tag with
    | none =>
        if tag = .null then .ok (.null, buf)
        else .error (.variantNotAvailable 0 (tagValue tag))
    | some size =>
        if buf.length < size then .error (.unexpectedEnd 0 size buf.length)
        else .ok (.digest (buf.take size), buf.drop size)

instance : TpmUnmarshalTagged TpmuHa TpmAlgId where
  matchesTag
    | .null, tag => decide (tag = .null)
    | .digest d, tag => (digestSize tag).any fun size => d.bytes.length == size
  unmarshalTagged tag buffer := do
    let (view, buffer) ← (castTaggedPrefixField (U := TpmuHa) tag buffer :
      TpmResult (View × Bytes))
    match view with
    | .null => return (.null, buffer)
    | .digest bytes =>
        let d ← TpmBuffer.tryFrom bytes
        return (.digest d, buffer)

instance : TpmSpec TpmuHa := .plain

theorem digestSize_le {tag : TpmAlgId} {size : Nat} (selected : digestSize tag = some size) :
    size ≤ maxDigestSize := by
  unfold digestSize at selected
  split at selected <;> cases selected <;> decide

/-- The bytes of a payload. -/
def wire : TpmuHa → Bytes
  | null => []
  | digest d => d.bytes

theorem marshal_emits (v : TpmuHa) : Emits (marshal v) v.wire := by
  cases v with
  | null => exact Emits.nil
  | digest d => exact TpmWriter.writeBytes_emits d.bytes

theorem matchesTag_digest {tag : TpmAlgId} {d : TpmBuffer maxDigestSize} :
    matchesTag (digest d) tag ↔ digestSize tag = some d.bytes.length := by
  change ((digestSize tag).any fun size => d.bytes.length == size) = true ↔ _
  cases digestSize tag with
  | none => simp
  | some size => simpa using eq_comm

theorem castTagged_eq_ok {tag : TpmAlgId} {b r : Bytes} {view : View} :
    castTaggedPrefixField (U := TpmuHa) tag b = .ok (view, r) ↔
      (view = .null ∧ tag = .null ∧ r = b) ∨
        ∃ bytes, view = .digest bytes ∧ digestSize tag = some bytes.length ∧ b = bytes ++ r := by
  simp only [castTaggedPrefixField]
  cases selected : digestSize tag with
  | none => by_cases isNull : tag = .null <;> simp [isNull, eq_comm]
  | some size =>
      have notNull : tag ≠ .null := by
        rintro rfl
        cases selected
      by_cases short : b.length < size
      · simp only [short, if_true, notNull]
        constructor
        · intro ok
          cases ok
        · rintro (⟨-, isNull, -⟩ | ⟨bytes, -, length, rfl⟩)
          · exact isNull.elim
          · cases length
            rw [List.length_append] at short
            omega
      · simp only [short, if_false, notNull, Except.ok.injEq, Prod.mk.injEq]
        constructor
        · rintro ⟨rfl, rfl⟩
          exact .inr ⟨b.take size, rfl, by rw [List.length_take]; simp; omega, by simp⟩
        · rintro (⟨-, isNull, -⟩ | ⟨bytes, rfl, length, rfl⟩)
          · exact isNull.elim
          · cases length
            simp

/-- A payload is read where its tag selects it and its bytes are there. -/
theorem unmarshalTagged_eq_ok {tag : TpmAlgId} {b r : Bytes} {v : TpmuHa} :
    unmarshalTagged tag b = .ok (v, r) ↔ matchesTag v tag ∧ b = v.wire ++ r := by
  simp only [unmarshalTagged, bind_eq_ok, Prod.exists, castTagged_eq_ok]
  constructor
  · rintro ⟨_, r, ⟨rfl, rfl, rfl⟩ | ⟨bytes, rfl, selected, rfl⟩, ok⟩
    · cases ok
      exact ⟨rfl, rfl⟩
    · obtain ⟨d, accepted, ok⟩ := bind_eq_ok.mp ok
      cases ok
      obtain ⟨-, -, rfl⟩ := TpmBuffer.tryFrom_eq_ok.mp accepted
      exact ⟨matchesTag_digest.mpr selected, rfl⟩
  · rintro ⟨matched, rfl⟩
    cases v with
    | null => exact ⟨.null, r, .inl ⟨rfl, of_decide_eq_true matched, rfl⟩, rfl⟩
    | digest d =>
        have accepted : TpmBuffer.tryFrom d.bytes = .ok d :=
          TpmBuffer.tryFrom_eq_ok.mpr ⟨d.length_le, d.length_le_u16, rfl⟩
        exact ⟨.digest d.bytes, r, .inr ⟨_, rfl, matchesTag_digest.mp matched, rfl⟩,
          bind_eq_ok.mpr ⟨d, accepted, rfl⟩⟩

instance : LawfulTagged TpmuHa TpmAlgId where
  codec_tagged tag :=
    { emits := fun {v} _ => ⟨v.wire, by cases v <;> rfl, marshal_emits v⟩
      refuses := fun w => (w trivial).elim
      writable := fun _ => trivial
      read_emitted := fun {v p} wf e r =>
        unmarshalTagged_eq_ok.mpr ⟨wf.1, by rw [e.unique (marshal_emits v)]⟩
      read_ok := fun ok => by
        obtain ⟨matched, split⟩ := unmarshalTagged_eq_ok.mp ok
        exact ⟨⟨matched, trivial⟩, _, split, marshal_emits _⟩ }
  len_tagged_le v := by
    cases v with
    | null => exact Nat.zero_le _
    | digest d => exact d.length_le
  maxLen_tagged_le := Nat.le_refl _

instance : LawfulTaggedView TpmuHa TpmAlgId where
  sameExtent_tagged tag b r := by
    simp only [castTagged_eq_ok, unmarshalTagged_eq_ok]
    constructor
    · rintro ⟨_, ⟨rfl, rfl, rfl⟩ | ⟨bytes, rfl, selected, rfl⟩⟩
      · exact ⟨.null, rfl, rfl⟩
      · have small := digestSize_le selected
        have wide : bytes.length ≤ u16Max := Nat.le_trans small (by decide)
        exact ⟨.digest ⟨bytes, small, wide⟩, matchesTag_digest.mpr selected, rfl⟩
    · rintro ⟨v, matched, rfl⟩
      cases v with
      | null => exact ⟨_, .inl ⟨rfl, of_decide_eq_true matched, rfl⟩⟩
      | digest d => exact ⟨_, .inr ⟨_, rfl, matchesTag_digest.mp matched, rfl⟩⟩

instance : TpmUnion TpmuHa TpmAlgId := .infer
instance : TpmUnionView TpmuHa TpmAlgId := .infer

end TpmuHa

structure TpmtHa where
  hashAlg : TpmAlgId
  digest : TpmuHa
  deriving DecidableEq

instance : TpmStructTagged TpmtHa TpmAlgId TpmuHa where
  toPair v := (v.hashAlg, v.digest)
  ofPair p := ⟨p.1, p.2⟩

instance : TpmWire TpmtHa := TpmStructTagged.wire
instance : TpmViewed TpmtHa := TpmStructTagged.viewed

end Tpm2
