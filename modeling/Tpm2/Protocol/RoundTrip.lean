import Tpm2.Protocol.Mismatch

/-! What holds of the wire traits of every data type: one theorem for all types, values and byte
strings. -/

namespace Tpm2

open ByteCodec

/-- Decoding is canonical and self-delimiting, for every data type and for every union under every
tag. -/
theorem unmarshal_canonical :
    (∀ {viewed : Bool} (t : DataType viewed),
      Canonical (ε := TpmError) (α := t.Carrier) marshal unmarshal len) ∧
    ∀ (u : UnionType) (tag : u.Tag),
      Canonical (ε := TpmError) (α := u.Carrier) marshal (unmarshalTagged tag) len :=
  ⟨fun _ => codec.canonical, fun _ tag => (codec_tagged tag).canonical⟩

/-- Every well-formed value of every data type is written where its `len` bytes fit, as these bytes
and nothing else, and they decode to it; so is every payload that matches the tag it is read
under. -/
theorem marshal_roundTrips :
    (∀ {viewed : Bool} (t : DataType viewed) (v : t.Carrier), WellFormed v →
      RoundTrips (ε := TpmError) marshal unmarshal len v) ∧
    ∀ (u : UnionType) (tag : u.Tag) (v : u.Carrier), matchesTag v tag → WellFormed v →
      RoundTrips (ε := TpmError) marshal (unmarshalTagged tag) len v :=
  ⟨fun _ _ wf => codec.roundTrips wf,
    fun _ tag _ matched wf => (codec_tagged tag).roundTrips ⟨matched, wf⟩⟩

theorem marshal_roundTrips_kdfScheme :
    RoundTrips (ε := TpmError) marshal unmarshal len (⟨.mgf1, .mgf1 ⟨.sha256⟩⟩ : TpmtKdfScheme) ∧
    RoundTrips (ε := TpmError) marshal (unmarshalTagged TpmAlgId.null) len TpmuKdfScheme.null :=
  ⟨marshal_roundTrips.1 (.viewed .tpmtKdfScheme) ⟨.mgf1, .mgf1 ⟨.sha256⟩⟩
      ⟨by decide, trivial, trivial⟩,
    marshal_roundTrips.2 .tpmuKdfScheme .null .null (by decide) trivial⟩

/-- The borrowed reader of every data type, and of every union under every tag, accepts what the
owned reader accepts and leaves the same remainder. -/
theorem castPrefixField_agrees :
    (∀ (t : DataType true) (b : Bytes),
      ((∃ view r, castPrefixField (α := t.Carrier) b = .ok (view, r)) ↔
        ∃ (v : t.Carrier) (r : Bytes), unmarshal b = .ok (v, r)) ∧
      ∀ view r (v : t.Carrier) r', castPrefixField (α := t.Carrier) b = .ok (view, r) →
        unmarshal b = .ok (v, r') → r = r' ∧ ∃ p, b = p ++ r) ∧
    ∀ (u : UnionType) (tag : u.Tag) (b : Bytes),
      ((∃ view r, castTaggedPrefixField (U := u.Carrier) tag b = .ok (view, r)) ↔
        ∃ (v : u.Carrier) (r : Bytes), unmarshalTagged tag b = .ok (v, r)) ∧
      ∀ view r (v : u.Carrier) r', castTaggedPrefixField (U := u.Carrier) tag b = .ok (view, r) →
        unmarshalTagged tag b = .ok (v, r') → r = r' ∧ ∃ p, b = p ++ r := by
  constructor
  · intro t b
    obtain ⟨accepts, rest⟩ := (sameExtent (α := t.Carrier) b).agree
    refine ⟨accepts, fun view r v r' cast read => ?_⟩
    obtain rfl := rest view r v r' cast read
    exact ⟨rfl, codec.read_suffix read⟩
  · intro u tag b
    obtain ⟨accepts, rest⟩ := (sameExtent_tagged (U := u.Carrier) tag b).agree
    refine ⟨accepts, fun view r v r' cast read => ?_⟩
    obtain rfl := rest view r v r' cast read
    exact ⟨rfl, (codec_tagged tag).read_suffix read⟩

/-- Marshalling `v` with enough room fails or writes bytes that decode to `v`, and it always fails
where a payload of `v` does not match its tag. -/
def TagSafe {α : Type} [TpmWire α] (v : α) : Prop :=
  NeverMisread (ε := TpmError) marshal unmarshal len v ∧
    (¬ WellFormed v → ∀ writer : TpmWriter, ∃ e, marshal v writer = .error e)

/-- A tagged structure is tag safe exactly when it has no mismatch that marshalling does not look
for, or another one, for which marshalling refuses it. -/
theorem tagSafe_iff (t : TaggedType) (v : t.Carrier) :
    TagSafe v ↔ (t.UncheckedMismatch v → t.CheckedMismatch v) :=
  codec.neverMisread_iff.trans (t.mismatches.writable_imp_wellFormed_iff v)

theorem not_tagSafe {α : Type} [TpmWire α] {v : α} (writable : Writable v) (ill : ¬ WellFormed v) :
    ¬ TagSafe v :=
  fun safe => ill (codec.neverMisread_iff.mp safe writable)

/-- Three structures are written with a payload that does not belong to their tag: a symmetric
definition with the null algorithm loses its other fields, and capability data and attestations are
not checked at all. -/
theorem tagSafe_fails :
    ¬ TagSafe (⟨.null, .aes (.new 128), .aes .cfb⟩ : TpmtSymDef) ∧
    ¬ TagSafe (⟨.algs, .handles .new⟩ : TpmsCapabilityData) ∧
    ¬ TagSafe (⟨.attestQuote, .new, .new, ⟨.new 0, .new 0, .new 0, ⟨false⟩⟩, .new 0,
      .certify ⟨.new, .new⟩⟩ : TpmsAttest) := by
  refine ⟨not_tagSafe (.inl rfl) ?_, not_tagSafe ?_ ?_, not_tagSafe ?_ ?_⟩
  · intro wf
    change (TpmuSymKeyBits.aes _, TpmuSymMode.aes _) = (.null, .null) at wf
    cases wf
  · exact ⟨by decide, nofun⟩
  · exact fun wf => absurd wf.1 (by decide)
  · exact ⟨trivial, trivial, trivial⟩
  · exact fun wf => absurd wf.1 (by decide)

end Tpm2
