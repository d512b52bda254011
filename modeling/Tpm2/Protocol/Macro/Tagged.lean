import Tpm2.Protocol.Macro.Union

/-! The codec of a tag next to the payload it selects. -/

namespace Tpm2

open ByteCodec

/-- `tpm_struct_tagged!`: a tag and a payload. -/
class TpmStructTagged (S : Type) (Tag U : outParam Type) where
  toPair : S → Tag × U
  ofPair : Tag × U → S
  ofPair_toPair : ∀ s, ofPair (toPair s) = s := by intros; rfl
  toPair_ofPair : ∀ p, toPair (ofPair p) = p := by intros; rfl

namespace TpmStructTagged

instance {S Tag U : Type} [TpmStructTagged S Tag U] [TpmSized Tag] [TpmSized U] : TpmSized S :=
  ⟨SIZE Tag + SIZE U, fun s => len (toPair s).1 + len (toPair s).2⟩

instance {S Tag U R : Type} {N : Nat} [TpmStructTagged S Tag U] [DecidableEq R] [TpmEnum Tag R]
    [TpmIntBytes R N] [TpmMarshal U] [TpmUnmarshalTagged U Tag] : TpmMarshal S where
  marshal s writer :=
    let (tag, payload) := toPair s
    if !matchesTag payload tag then
      .error (.variantNotAvailable writer.pos (tagValue tag))
    else do
      let writer ← marshal tag writer
      marshal payload writer

instance {S Tag U : Type} [TpmStructTagged S Tag U] [TpmUnmarshal Tag] [TpmUnmarshalTagged U Tag] :
    TpmUnmarshal S where
  unmarshal buffer := do
    let (tag, rest) ← unmarshal buffer
    let offset := buffer.length - rest.length
    let (payload, buffer) ← (unmarshalTagged tag rest).mapError (TpmError.rebase offset)
    return (ofPair (tag, payload), buffer)

/-- The view of a tagged structure is the tag and the view of the payload. -/
instance {S Tag U R : Type} {N : Nat} [TpmStructTagged S Tag U] [DecidableEq R] [TpmEnum Tag R]
    [TpmIntBytes R N] [TpmTaggedField U Tag] : TpmField S where
  View := Tag × TpmTaggedField.View U
  castPrefixField buf := do
    let (tag, buf) ← (castPrefixField (α := Tag) buf : TpmResult (Tag × Bytes))
    let (view, buf) ← castTaggedPrefixField (U := U) tag buf
    return ((tag, view), buf)

instance {S Tag U : Type} [TpmStructTagged S Tag U] [TpmUnmarshalTagged U Tag] [TpmSpec Tag]
    [TpmSpec U] : TpmSpec S where
  Writable s := matchesTag (toPair s).2 (toPair s).1 ∧ Writable (toPair s).2
  WellFormed s := matchesTag (toPair s).2 (toPair s).1 ∧ WellFormed (toPair s).2
  maxLen := maxLen Tag + maxLen U

variable {S Tag U R : Type} {N : Nat} [TpmStructTagged S Tag U] [DecidableEq R] [TpmEnum Tag R]
  [TpmIntBytes R N]

theorem unmarshal_eq_ok [TpmUnmarshalTagged U Tag] {b r : Bytes} {s : S} :
    unmarshal b = .ok (s, r) ↔ seqRead unmarshal unmarshalTagged b = .ok (toPair s, r) := by
  rw [seqRead_eq_ok]
  simp only [unmarshal, bind_eq_ok, mapError_eq_ok, Prod.exists, pure, Except.pure,
    Except.ok.injEq, Prod.mk.injEq]
  constructor
  · rintro ⟨tag, m, head, payload, r, read, rfl, rfl⟩
    rw [toPair_ofPair]
    exact ⟨m, head, read⟩
  · rintro ⟨m, head, read⟩
    exact ⟨_, m, head, _, r, read, ofPair_toPair s, rfl⟩

theorem lawful [TpmUnion U Tag] : LawfulWire S where
  codec := by
    have law := ((codec (α := Tag)).seq fun tag => codec_tagged (U := U) tag).iso
      (f := (toPair : S → Tag × U)) fun _ _ _ => unmarshal_eq_ok
    refine (law.guard (fun s => matchesTag (toPair s).2 (toPair s).1)
      (fun wf => wf.2.1) _ (fun {s} matched => ?_) fun {s} other => ?_).congr_prop
        (fun _ => and_congr_right fun _ => (and_iff_right trivial).symm)
        fun _ => (and_iff_right trivial).symm
    · funext writer
      simp only [marshal, matched]
      rfl
    · intro writer
      exact ⟨_, by simp only [marshal, other]; rfl⟩
  len_le s := Nat.add_le_add (len_le (toPair s).1) (len_tagged_le (toPair s).2)
  maxLen_le := Nat.add_le_add (maxLen_le (α := Tag)) maxLen_tagged_le

theorem lawfulView [TpmUnion U Tag] [TpmUnionView U Tag] : LawfulView S where
  sameExtent b r := by
    change (∃ view, (do
      let (tag, buf) ← (unmarshal b : TpmResult (Tag × Bytes))
      let (view, buf) ← castTaggedPrefixField (U := U) tag buf
      return ((tag, view), buf)) = (.ok (view, r) : TpmResult (_ × Bytes))) ↔ _
    simp only [unmarshal_eq_ok, seqRead_eq_ok, bind_eq_ok, Prod.exists, pure, Except.pure,
      Except.ok.injEq, Prod.mk.injEq]
    constructor
    · rintro ⟨_, _, tag, m, head, view, r, cast, -, rfl⟩
      obtain ⟨payload, read⟩ := (sameExtent_tagged tag m r).mp ⟨view, cast⟩
      refine ⟨ofPair (tag, payload), m, ?_⟩
      rw [toPair_ofPair]
      exact ⟨head, read⟩
    · rintro ⟨s, m, head, read⟩
      obtain ⟨view, cast⟩ := (sameExtent_tagged _ m r).mpr ⟨_, read⟩
      exact ⟨_, _, _, m, head, view, r, cast, ⟨rfl, rfl⟩, rfl⟩

abbrev wire [TpmUnion U Tag] : TpmWire S := { lawful := lawful }

abbrev viewed [TpmUnion U Tag] [TpmUnionView U Tag] : TpmViewed S := { lawful := lawfulView }

end TpmStructTagged
end Tpm2
