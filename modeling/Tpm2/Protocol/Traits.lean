import Tpm2.Protocol.Error

/-! The traits of a wire type, and what it means for their implementations to agree. -/

namespace Tpm2

open ByteCodec

/-- Builds wire bytes into a caller-provided byte slice. Slices hold at most `isize::MAX` bytes, so
sums of their lengths are plain numbers here: `usize::checked_add` never overflows on them. -/
abbrev TpmWriter := Cursor

/-- Appends a slice of bytes to the writer. -/
def TpmWriter.writeBytes (bytes : Bytes) (writer : TpmWriter) : TpmResult TpmWriter :=
  if h : writer.pos + bytes.length > writer.buffer.length then
    .error (.bufferOverflow writer.pos bytes.length (writer.buffer.length - writer.pos))
  else
    .ok {
      buffer := writer.buffer.take writer.pos ++ bytes ++
        writer.buffer.drop (writer.pos + bytes.length)
      pos := writer.pos + bytes.length
      pos_le := by simp; omega }

theorem TpmWriter.writeBytes_emits (bytes : Bytes) : Emits (TpmWriter.writeBytes bytes) bytes := by
  intro c
  have := c.pos_le
  unfold Cursor.room
  constructor
  · intro fits
    have small : ¬ c.pos + bytes.length > c.buffer.length := by omega
    simp [TpmWriter.writeBytes, small, Cursor.push, Cursor.room, fits]
  · intro small
    have large : c.pos + bytes.length > c.buffer.length := by omega
    exact ⟨_, by rw [TpmWriter.writeBytes, dif_pos large]⟩

/-- Two ways to determine the size of an object: the static maximum `SIZE` and the exact length. -/
class TpmSized (α : Type) where
  SIZE : Nat
  len : α → Nat

class TpmMarshal (α : Type) where
  marshal : α → TpmWriter → TpmResult TpmWriter

/-- Reads one owned value from the start of a buffer and returns the rest. -/
class TpmUnmarshal (α : Type) where
  unmarshal : Bytes → TpmResult (α × Bytes)

/-- Reads one borrowed field from the start of a buffer and returns the rest. -/
class TpmField (α : Type) where
  View : Type
  castPrefixField : Bytes → TpmResult (View × Bytes)

export TpmSized (SIZE len)
export TpmMarshal (marshal)
export TpmUnmarshal (unmarshal)
export TpmField (castPrefixField)

/-- What the wire format asks of a value. `Writable` values pass every tag check that marshalling
makes; in a `WellFormed` one every payload matches its tag, at every depth. No encoding is longer
than `maxLen` bytes, which for a union is less than the round number its `SIZE` is. -/
class TpmSpec (α : Type) where
  Writable : α → Prop
  WellFormed : α → Prop
  maxLen : Nat

export TpmSpec (Writable WellFormed maxLen)

/-- The three traversals of a wire type agree. -/
class LawfulWire (α : Type) [TpmSized α] [TpmMarshal α] [TpmUnmarshal α] [TpmSpec α] : Prop where
  codec : LawfulCodec (marshal : α → _) unmarshal len Writable WellFormed
  len_le : ∀ v : α, len v ≤ maxLen α
  maxLen_le : maxLen α ≤ SIZE α

/-- The borrowed reader of a wire type agrees with the owned one. -/
class LawfulView (α : Type) [TpmUnmarshal α] [TpmField α] : Prop where
  sameExtent : SameExtent (castPrefixField (α := α)) (unmarshal : _ → TpmResult (α × Bytes))

export LawfulWire (codec len_le maxLen_le)
export LawfulView (sameExtent)

/-- A wire type: its traits, which agree. -/
class TpmWire (α : Type) extends TpmSized α, TpmMarshal α, TpmUnmarshal α, TpmSpec α where
  lawful : LawfulWire α

/-- A wire type with a borrowed reader, which agrees with the owned one. -/
class TpmViewed (α : Type) [TpmUnmarshal α] extends TpmField α where
  lawful : LawfulView α

instance (priority := 1100) {α : Type} [h : TpmWire α] : TpmSized α := h.toTpmSized
instance (priority := 1100) {α : Type} [h : TpmWire α] : TpmMarshal α := h.toTpmMarshal
instance (priority := 1100) {α : Type} [h : TpmWire α] : TpmUnmarshal α := h.toTpmUnmarshal
instance (priority := 1100) {α : Type} [h : TpmWire α] : TpmSpec α := h.toTpmSpec
instance (priority := 1100) {α : Type} [h : TpmWire α] : LawfulWire α := h.lawful

instance (priority := 1100) {α : Type} [TpmUnmarshal α] [h : TpmViewed α] : TpmField α :=
  h.toTpmField
instance (priority := 1100) {α : Type} [TpmUnmarshal α] [h : TpmViewed α] : LawfulView α :=
  h.lawful

section
variable {α : Type}

/-- The wire type that the instances at hand make up. -/
abbrev TpmWire.infer [TpmSized α] [TpmMarshal α] [TpmUnmarshal α] [TpmSpec α] [h : LawfulWire α] :
    TpmWire α := { lawful := h }

abbrev TpmViewed.infer [TpmUnmarshal α] [TpmField α] [h : LawfulView α] : TpmViewed α :=
  { lawful := h }

/-- A type without tags: every value may be written and is well formed. -/
abbrev TpmSpec.plain [TpmSized α] : TpmSpec α := ⟨fun _ => True, fun _ => True, SIZE α⟩

theorem len_le_size [TpmSized α] [TpmMarshal α] [TpmUnmarshal α] [TpmSpec α] [LawfulWire α]
    (v : α) : len v ≤ SIZE α := Nat.le_trans (len_le v) maxLen_le

/-- The bytes that marshalling `v` into a buffer of `SIZE` bytes leaves there. -/
def encode [TpmSized α] [TpmMarshal α] (v : α) : TpmResult Bytes := do
  let writer ← marshal v (Cursor.zeros (SIZE α))
  .ok writer.written

/-- What `encode` returns is what marshalling appends to any buffer. -/
theorem encode_eq_ok [TpmSized α] [TpmMarshal α] [TpmUnmarshal α] [TpmSpec α] [LawfulWire α]
    {v : α} {p : Bytes} : encode v = .ok p ↔ Emits (marshal v) p := by
  have law := codec (α := α)
  constructor
  · intro ok
    obtain ⟨d, marshalled, returned⟩ := bind_eq_ok.mp ok
    obtain rfl := Except.ok.inj returned
    by_cases w : Writable v
    · obtain ⟨q, -, emits⟩ := law.emits w
      obtain ⟨fits, rfl⟩ := emits.of_ok marshalled
      simpa [Cursor.push_written fits] using emits
    · obtain ⟨e, failed⟩ := law.refuses w (Cursor.zeros (SIZE α))
      rw [failed] at marshalled
      cases marshalled
  · intro emits
    have fits : p.length ≤ SIZE α := by
      rw [law.length_emitted emits]
      exact len_le_size v
    obtain ⟨d, marshalled, rfl⟩ := emits.written fits
    exact bind_eq_ok.mpr ⟨d, marshalled, rfl⟩

/-- A well-formed value is told by its encoding, also where bytes follow. -/
theorem encode_append_inj [TpmSized α] [TpmMarshal α] [TpmUnmarshal α] [TpmSpec α] [LawfulWire α]
    {v v' : α} {p p' r r' : Bytes} (wf : WellFormed v) (wf' : WellFormed v')
    (encoded : encode v = .ok p) (encoded' : encode v' = .ok p') (same : p ++ r = p' ++ r') :
    v = v' ∧ r = r' := by
  have law := codec (α := α)
  have read := law.read_emitted wf (encode_eq_ok.mp encoded) r
  rw [same, law.read_emitted wf' (encode_eq_ok.mp encoded') r'] at read
  cases read
  exact ⟨rfl, rfl⟩

end
end Tpm2
