import Tpm2.Protocol.Macro.Enum

/-! The codecs of structures: their fields one after another, and the same behind a 16-bit size. -/

namespace Tpm2

open ByteCodec

/-! A list of fields is a nested pair that ends in `Unit`. -/

instance : TpmSized Unit := ⟨0, fun _ => 0⟩
instance : TpmMarshal Unit := ⟨fun _ writer => .ok writer⟩
instance : TpmUnmarshal Unit := ⟨fun buffer => .ok ((), buffer)⟩
instance : TpmField Unit := ⟨Unit, fun buf => .ok ((), buf)⟩
instance : TpmSpec Unit := .plain

instance : LawfulWire Unit where
  codec := (LawfulCodec.const ()).congr_prop (fun _ => Iff.rfl) fun _ => iff_of_true trivial rfl
  len_le _ := Nat.le_refl _
  maxLen_le := Nat.le_refl _

instance : LawfulView Unit := ⟨fun _ _ => Iff.rfl⟩

section
variable {α F : Type}

instance [TpmSized α] [TpmSized F] : TpmSized (α × F) :=
  ⟨SIZE α + SIZE F, fun v => len v.1 + len v.2⟩

instance [TpmMarshal α] [TpmMarshal F] : TpmMarshal (α × F) where
  marshal v writer := do
    let writer ← marshal v.1 writer
    marshal v.2 writer

instance [TpmSpec α] [TpmSpec F] : TpmSpec (α × F) where
  Writable v := Writable v.1 ∧ Writable v.2
  WellFormed v := WellFormed v.1 ∧ WellFormed v.2
  maxLen := maxLen α + maxLen F

end

/-- Reads the remaining fields of a structure, whose encoding began `start` bytes before the end of
the input; an error is moved to its offset in the structure. -/
class TpmUnmarshalFields (F : Type) where
  unmarshalFields : Nat → Bytes → TpmResult (F × Bytes)

/-- Steps over the remaining fields of a structure, `consumed` bytes into it, and returns the total
number of bytes consumed. -/
class TpmFieldViews (F : Type) where
  validateFields : Nat → Bytes → TpmResult Nat

export TpmUnmarshalFields (unmarshalFields)
export TpmFieldViews (validateFields)

instance : TpmUnmarshalFields Unit := ⟨fun _ buffer => .ok ((), buffer)⟩
instance : TpmFieldViews Unit := ⟨fun consumed _ => .ok consumed⟩

section
variable {α F : Type}

instance [TpmUnmarshal α] [TpmUnmarshalFields F] : TpmUnmarshalFields (α × F) where
  unmarshalFields start buffer := do
    let offset := start - buffer.length
    let (field, buffer) ← (unmarshal buffer).mapError (TpmError.rebase offset)
    let (fields, buffer) ← unmarshalFields start buffer
    return ((field, fields), buffer)

instance [TpmField α] [TpmFieldViews F] : TpmFieldViews (α × F) where
  validateFields consumed cursor := do
    let before := cursor.length
    let (_, tail) ← castPrefixField (α := α) cursor
    if before < tail.length then
      throw (.integerTooLarge consumed (tpmValue tail.length))
    let fieldLen := before - tail.length
    validateFields F (consumed + fieldLen) tail

end

/-- The three traversals of a field list agree. -/
class LawfulFields (F : Type) [TpmSized F] [TpmMarshal F] [TpmUnmarshalFields F] [TpmSpec F] :
    Prop where
  codec : ∀ start, LawfulCodec (marshal : F → _) (unmarshalFields start) len Writable WellFormed
  len_le : ∀ v : F, len v ≤ maxLen F
  maxLen_le : maxLen F ≤ SIZE F

/-- Stepping over a field list agrees with reading it. -/
class LawfulFieldViews (F : Type) [TpmUnmarshalFields F] [TpmFieldViews F] : Prop where
  validate_eq_ok : ∀ start consumed b total, validateFields F consumed b = .ok total ↔
    ∃ (v : F) (r : Bytes), unmarshalFields start b = .ok (v, r) ∧
      total = consumed + (b.length - r.length) ∧ r.length ≤ b.length

/-- A field list: its traits, which agree. -/
class TpmWireFields (F : Type) extends TpmSized F, TpmMarshal F, TpmUnmarshalFields F,
    TpmSpec F where
  lawful : LawfulFields F

/-- A field list that can be stepped over. -/
class TpmViewedFields (F : Type) [TpmUnmarshalFields F] extends TpmFieldViews F where
  lawful : LawfulFieldViews F

instance (priority := 1100) {F : Type} [h : TpmWireFields F] : TpmSized F := h.toTpmSized
instance (priority := 1100) {F : Type} [h : TpmWireFields F] : TpmMarshal F := h.toTpmMarshal
instance (priority := 1100) {F : Type} [h : TpmWireFields F] : TpmUnmarshalFields F :=
  h.toTpmUnmarshalFields
instance (priority := 1100) {F : Type} [h : TpmWireFields F] : TpmSpec F := h.toTpmSpec
instance (priority := 1100) {F : Type} [h : TpmWireFields F] : LawfulFields F := h.lawful

instance (priority := 1100) {F : Type} [TpmUnmarshalFields F] [h : TpmViewedFields F] :
    TpmFieldViews F := h.toTpmFieldViews
instance (priority := 1100) {F : Type} [TpmUnmarshalFields F] [h : TpmViewedFields F] :
    LawfulFieldViews F := h.lawful

instance : LawfulFields Unit where
  codec _ := (LawfulCodec.const ()).congr_prop (fun _ => Iff.rfl) fun _ => iff_of_true trivial rfl
  len_le _ := Nat.le_refl _
  maxLen_le := Nat.le_refl _

instance : LawfulFieldViews Unit where
  validate_eq_ok start consumed b total := by
    simp [validateFields, unmarshalFields, eq_comm]

instance : TpmWireFields Unit := { lawful := inferInstance }
instance : TpmViewedFields Unit := { lawful := inferInstance }

section
variable {α F : Type}

theorem unmarshalFields_cons_eq_ok [TpmUnmarshal α] [TpmUnmarshalFields F] {start : Nat}
    {b r : Bytes} {v : α × F} :
    unmarshalFields start b = .ok (v, r) ↔
      seqRead unmarshal (fun _ => unmarshalFields start) b = .ok (v, r) := by
  rw [seqRead_eq_ok]
  simp only [unmarshalFields, bind_eq_ok, mapError_eq_ok, Prod.exists, pure, Except.pure,
    Except.ok.injEq, Prod.mk.injEq]
  constructor
  · rintro ⟨field, m, first, fields, r, others, rfl, rfl⟩
    exact ⟨m, first, others⟩
  · rintro ⟨m, first, others⟩
    exact ⟨v.1, m, first, v.2, r, others, rfl, rfl⟩

instance [TpmWire α] [TpmWireFields F] : LawfulFields (α × F) where
  codec start := (LawfulCodec.seq codec fun _ => LawfulFields.codec start).congr_read
    fun _ _ _ => unmarshalFields_cons_eq_ok
  len_le v := Nat.add_le_add (len_le v.1) (LawfulFields.len_le v.2)
  maxLen_le := Nat.add_le_add maxLen_le LawfulFields.maxLen_le

instance [TpmWire α] [TpmViewed α] [TpmWireFields F] [TpmViewedFields F] :
    LawfulFieldViews (α × F) where
  validate_eq_ok start consumed b total := by
    simp only [unmarshalFields_cons_eq_ok, seqRead_eq_ok, validateFields, bind_eq_ok, Prod.exists]
    constructor
    · rintro ⟨view, m, cast, others⟩
      obtain ⟨field, read⟩ := (sameExtent b m).mp ⟨view, cast⟩
      obtain ⟨p, rfl⟩ := codec.read_suffix read
      split at others
      · cases others
      · obtain ⟨fields, r, reads, rfl, shorter⟩ :=
          (LawfulFieldViews.validate_eq_ok start ..).mp others
        refine ⟨field, fields, r, ⟨m, read, reads⟩, ?_, ?_⟩ <;>
          simp only [List.length_append] <;> omega
    · rintro ⟨field, fields, r, ⟨m, read, reads⟩, rfl, shorter⟩
      obtain ⟨view, cast⟩ := (sameExtent b m).mpr ⟨field, read⟩
      obtain ⟨p, rfl⟩ := codec.read_suffix read
      refine ⟨view, m, cast, ?_⟩
      have forward : ¬ (p ++ m).length < m.length := by simp
      obtain ⟨q, rfl⟩ := (LawfulFields.codec start).read_suffix reads
      simp only [forward, if_false]
      refine (LawfulFieldViews.validate_eq_ok start ..).mpr ⟨fields, r, reads, ?_, ?_⟩ <;>
        simp only [List.length_append] <;> omega

instance [TpmWire α] [TpmWireFields F] : TpmWireFields (α × F) := { lawful := inferInstance }
instance [TpmWire α] [TpmViewed α] [TpmWireFields F] [TpmViewedFields F] :
    TpmViewedFields (α × F) := { lawful := inferInstance }

end

/-- `tpm_struct!`: a structure is the list of its fields. -/
class TpmStruct (S : Type) (F : outParam Type) where
  toFields : S → F
  ofFields : F → S
  ofFields_toFields : ∀ s, ofFields (toFields s) = s := by intros; rfl
  toFields_ofFields : ∀ f, toFields (ofFields f) = f := by intros; rfl

namespace TpmStruct

/-- The borrowed view of a structure is its wire bytes. -/
instance {S F : Type} [TpmStruct S F] [TpmFieldViews F] : TpmField S where
  View := Bytes
  castPrefixField buf := do
    let wireLen ← validateFields F 0 buf
    if buf.length < wireLen then
      throw (.unexpectedEnd 0 wireLen buf.length)
    return (buf.take wireLen, buf.drop wireLen)

section
variable {S F : Type} [TpmStruct S F]

instance [TpmSized F] : TpmSized S := ⟨SIZE F, fun s => len (toFields s)⟩

instance [TpmMarshal F] : TpmMarshal S := ⟨fun s => marshal (toFields s)⟩

instance [TpmUnmarshalFields F] : TpmUnmarshal S where
  unmarshal buffer := do
    let (fields, buffer) ← unmarshalFields buffer.length buffer
    return (ofFields fields, buffer)

instance [TpmSpec F] : TpmSpec S where
  Writable s := Writable (toFields s)
  WellFormed s := WellFormed (toFields s)
  maxLen := maxLen F

theorem unmarshal_eq_ok [TpmUnmarshalFields F] {b r : Bytes} {s : S} :
    unmarshal b = .ok (s, r) ↔ unmarshalFields b.length b = .ok (toFields s, r) := by
  simp only [unmarshal, bind_eq_ok, Prod.exists, pure, Except.pure, Except.ok.injEq,
    Prod.mk.injEq]
  constructor
  · rintro ⟨fields, r, ok, rfl, rfl⟩
    rwa [toFields_ofFields]
  · intro ok
    exact ⟨_, r, ok, ofFields_toFields s, rfl⟩

/-- Where the structure starts only moves the errors. -/
theorem unmarshalFields_start [TpmWireFields F] {start start' : Nat} {b r : Bytes} {v : F}
    (ok : unmarshalFields start b = .ok (v, r)) : unmarshalFields start' b = .ok (v, r) := by
  obtain ⟨wf, p, rfl, emits⟩ := (LawfulFields.codec start).read_ok ok
  exact (LawfulFields.codec start').read_emitted wf emits r

theorem lawful [TpmWireFields F] : LawfulWire S where
  codec := (LawfulFields.codec (F := F) 0).iso (f := toFields) fun _ _ _ =>
    unmarshal_eq_ok.trans ⟨unmarshalFields_start, unmarshalFields_start⟩
  len_le s := LawfulFields.len_le (toFields s)
  maxLen_le := LawfulFields.maxLen_le (F := F)

theorem lawfulView [TpmWireFields F] [TpmViewedFields F] : LawfulView S where
  sameExtent b r := by
    have suffix {v : F} {r : Bytes} (read : unmarshalFields b.length b = .ok (v, r)) :
        b.length - r.length ≤ b.length ∧ b.drop (b.length - r.length) = r := by
      obtain ⟨p, split⟩ := (LawfulFields.codec b.length).read_suffix read
      exact ⟨by omega, by simp [split]⟩
    change (∃ view, (do
      let wireLen ← validateFields F 0 b
      if b.length < wireLen then
        throw (.unexpectedEnd 0 wireLen b.length)
      return (b.take wireLen, b.drop wireLen)) = (.ok (view, r) : TpmResult (Bytes × Bytes))) ↔ _
    simp only [bind_eq_ok, LawfulFieldViews.validate_eq_ok b.length, unmarshal_eq_ok, Nat.zero_add]
    constructor
    · rintro ⟨view, total, ⟨fields, r', read, rfl, shorter⟩, ok⟩
      obtain ⟨within, rest⟩ := suffix read
      simp only [Nat.not_lt.mpr within, if_false, rest, pure, Except.pure, Except.ok.injEq,
        Prod.mk.injEq] at ok
      obtain ⟨-, rfl⟩ := ok
      exact ⟨ofFields fields, by rwa [toFields_ofFields]⟩
    · rintro ⟨s, read⟩
      obtain ⟨within, rest⟩ := suffix read
      obtain ⟨p, split⟩ := (LawfulFields.codec b.length).read_suffix read
      refine ⟨b.take (b.length - r.length), _, ⟨toFields s, r, read, rfl, by simp [split]⟩, ?_⟩
      simp only [Nat.not_lt.mpr within, if_false, rest]
      rfl

abbrev wire [TpmWireFields F] : TpmWire S := { lawful := lawful }

abbrev viewed [TpmWireFields F] [TpmViewedFields F] : TpmViewed S := { lawful := lawfulView }

end
end TpmStruct
end Tpm2
