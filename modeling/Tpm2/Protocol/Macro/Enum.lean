import Tpm2.Protocol.Basic.List

/-! The wire codecs of enumerations, of attribute words and of the boolean. -/

namespace Tpm2

open ByteCodec

/-- `tpm_enum!`: an enumeration over the native integer `R`, with its variants in declaration
order. No two variants share a value. -/
class TpmEnum (E : Type) (R : outParam Type) [DecidableEq R] where
  variants : List E
  value : E → R
  complete : ∀ e, e ∈ variants
  nodup : (variants.map value).Nodup

namespace TpmEnum

instance {E R : Type} {N : Nat} [DecidableEq R] [TpmEnum E R] [TpmIntBytes R N] : TpmSized E :=
  ⟨N, fun _ => N⟩

variable {E R : Type} {N : Nat} [DecidableEq R] [TpmEnum E R] [TpmIntBytes R N]

omit [TpmEnum E R] [TpmIntBytes R N] in
/-- In a list without repeated keys a key finds its own element. -/
theorem find?_key {l : List E} {key : E → R} (nodup : (l.map key).Nodup) {e : E} (mem : e ∈ l) :
    l.find? (fun e' => decide (key e' = key e)) = some e := by
  induction l with
  | nil => cases mem
  | cons head rest ih =>
      rw [List.map_cons, List.nodup_cons] at nodup
      rcases List.mem_cons.mp mem with rfl | later
      · simp
      · have other : key head ≠ key e := fun same =>
          nodup.1 (same ▸ List.mem_map.mpr ⟨e, later, rfl⟩)
        rw [List.find?_cons_of_neg (by simpa using other)]
        exact ih nodup.2 later

omit [TpmIntBytes R N] in
theorem find_value (e : E) : variants.find? (fun e' => decide (value e' = value e)) = some e :=
  find?_key nodup (complete e)

omit [TpmIntBytes R N] in
theorem value_injective {e e' : E} (h : value e = value e') : e = e' := by
  have found := find_value e
  rw [h, find_value] at found
  exact (Option.some.inj found).symm

/-- `TryFrom<$repr>`: the variant of a raw value. -/
def tryFrom (raw : R) : TpmResult E :=
  match variants.find? (fun e : E => decide (value e = raw)) with
  | some e => .ok e
  | none => .error (.variantNotAvailable 0 (TpmIntBytes.asU64 raw))

theorem tryFrom_eq_ok {raw : R} {e : E} : tryFrom raw = .ok e ↔ raw = value e := by
  unfold tryFrom
  constructor
  · intro ok
    split at ok
    next e' found =>
      cases ok
      simpa [eq_comm] using List.find?_some found
    next => cases ok
  · rintro rfl
    rw [find_value]

instance : TpmMarshal E := ⟨fun e => marshal (TpmInt.new (value e) : TpmInt R N)⟩

/-- An enumeration is read by value. -/
instance : TpmField E where
  View := E
  castPrefixField buf := do
    let (value, buf) ← (TpmInt.castPrefix buf : TpmResult (TpmInt R N × Bytes))
    let e ← tryFrom value.value
    return (e, buf)

instance : TpmUnmarshal E := ⟨castPrefixField (α := E)⟩

instance : TpmSpec E := .plain

/-- The wire form: the bytes of the value. -/
def wire (e : E) : Bytes := (TpmInt.new (value e) : TpmInt R N).bytes

theorem castPrefixField_eq_ok {b r : Bytes} {e : E} :
    castPrefixField (α := E) b = .ok (e, r) ↔ b = wire e ++ r := by
  simp only [castPrefixField, bind_eq_ok, Prod.exists, TpmInt.castPrefix_eq_ok, tryFrom_eq_ok,
    pure, Except.pure, Except.ok.injEq, Prod.mk.injEq]
  constructor
  · rintro ⟨v, r, rfl, e, raw, rfl, rfl⟩
    rw [wire, ← raw, TpmInt.new_value]
  · rintro rfl
    exact ⟨_, r, rfl, e, TpmInt.value_new _, rfl, rfl⟩

instance : LawfulWire E where
  codec := .of_wire wire (fun _ => TpmWriter.writeBytes_emits _) castPrefixField_eq_ok
    fun e => (TpmInt.new (value e) : TpmInt R N).length_bytes
  len_le _ := Nat.le_refl _
  maxLen_le := Nat.le_refl _

instance : LawfulView E := ⟨fun _ _ => Iff.rfl⟩

end TpmEnum

/-- `tpm_bitflags!`: a word of attribute bits. Undefined bits are kept. -/
class TpmBitflags (F : Type) (R : outParam Type) where
  bits : F → R
  fromBitsTruncate : R → F
  fromBitsTruncate_bits : ∀ f, fromBitsTruncate (bits f) = f := by intros; rfl
  bits_fromBitsTruncate : ∀ r, bits (fromBitsTruncate r) = r := by intros; rfl

namespace TpmBitflags

instance {F R : Type} {N : Nat} [TpmBitflags F R] [TpmIntBytes R N] : TpmSized F :=
  ⟨N, fun _ => N⟩

variable {F R : Type} {N : Nat} [TpmBitflags F R] [TpmIntBytes R N]

instance : TpmMarshal F := ⟨fun f => marshal (TpmInt.new (bits f) : TpmInt R N)⟩

instance : TpmField F where
  View := F
  castPrefixField buf := do
    let (value, buf) ← (TpmInt.castPrefix buf : TpmResult (TpmInt R N × Bytes))
    return (fromBitsTruncate value.value, buf)

instance : TpmUnmarshal F := ⟨castPrefixField (α := F)⟩

instance : TpmSpec F := .plain

/-- The wire form: the bytes of the word. -/
def wire (f : F) : Bytes := (TpmInt.new (bits f) : TpmInt R N).bytes

theorem castPrefixField_eq_ok {b r : Bytes} {f : F} :
    castPrefixField (α := F) b = .ok (f, r) ↔ b = wire f ++ r := by
  simp only [castPrefixField, bind_eq_ok, Prod.exists, TpmInt.castPrefix_eq_ok, pure, Except.pure,
    Except.ok.injEq, Prod.mk.injEq]
  constructor
  · rintro ⟨v, r, rfl, rfl, rfl⟩
    rw [wire, bits_fromBitsTruncate, TpmInt.new_value]
  · rintro rfl
    exact ⟨_, r, rfl, by rw [TpmInt.value_new, fromBitsTruncate_bits], rfl⟩

instance : LawfulWire F where
  codec := .of_wire wire (fun _ => TpmWriter.writeBytes_emits _) castPrefixField_eq_ok
    fun f => (TpmInt.new (bits f) : TpmInt R N).length_bytes
  len_le _ := Nat.le_refl _
  maxLen_le := Nat.le_refl _

instance : LawfulView F := ⟨fun _ _ => Iff.rfl⟩

end TpmBitflags

/-- `tpm_bool!`: a boolean byte, `0` or `1`. -/
structure TpmiYesNo where
  val : Bool
  deriving DecidableEq

namespace TpmiYesNo

instance : TpmSized TpmiYesNo := ⟨1, fun _ => 1⟩

instance : TpmMarshal TpmiYesNo where
  marshal v := marshal (TpmInt.new (if v.val then 1 else 0) : TpmUint8)

instance : TpmField TpmiYesNo where
  View := TpmiYesNo
  castPrefixField buf := do
    let (value, buf) ← (TpmInt.castPrefix buf : TpmResult (TpmUint8 × Bytes))
    match value.value with
    | 0 => return (⟨false⟩, buf)
    | 1 => return (⟨true⟩, buf)
    | raw => throw (.invalidBoolean 0 (TpmIntBytes.asU64 raw))

instance : TpmUnmarshal TpmiYesNo := ⟨castPrefixField (α := TpmiYesNo)⟩

instance : TpmSpec TpmiYesNo := .plain

def wire (v : TpmiYesNo) : Bytes := (TpmInt.new (if v.val then 1 else 0) : TpmUint8).bytes

theorem castPrefixField_eq_ok {b r : Bytes} {v : TpmiYesNo} :
    castPrefixField (α := TpmiYesNo) b = .ok (v, r) ↔ b = wire v ++ r := by
  simp only [castPrefixField, bind_eq_ok, Prod.exists, TpmInt.castPrefix_eq_ok]
  constructor
  · rintro ⟨byte, m, rfl, ok⟩
    have same : byte = .new byte.value := (TpmInt.new_value byte).symm
    split at ok
    next zero => cases ok; rw [same, zero]; rfl
    next one => cases ok; rw [same, one]; rfl
    next => cases ok
  · rintro rfl
    refine ⟨_, r, rfl, ?_⟩
    rw [TpmInt.value_new]
    cases v with
    | mk val => cases val <;> rfl

instance : LawfulWire TpmiYesNo where
  codec := .of_wire wire (fun _ => TpmWriter.writeBytes_emits _) castPrefixField_eq_ok
    fun _ => TpmInt.length_bytes _
  len_le _ := Nat.le_refl _
  maxLen_le := Nat.le_refl _

instance : LawfulView TpmiYesNo := ⟨fun _ _ => Iff.rfl⟩

instance : TpmWire TpmiYesNo := .infer
instance : TpmViewed TpmiYesNo := .infer

end TpmiYesNo
end Tpm2
