import Tpm2.ByteCodec.BigEndian

/-! Byte strings behind a fixed-width length, and numbers at an offset. -/

namespace ByteCodec

/-- `payload` behind its length in `width` bytes. -/
def prefixed (width : Nat) (payload : Bytes) : Bytes := toBytes width payload.length ++ payload

/-- The number in the `width` bytes at `offset`. -/
def numberAt (b : Bytes) (offset width : Nat) : Nat := ofBytes ((b.drop offset).take width)

variable {b r p q payload : Bytes} {width offset n : Nat}

@[simp] theorem length_prefixed : (prefixed width payload).length = width + payload.length := by
  simp [prefixed]

theorem numberAt_lt : numberAt b offset width < 256 ^ width := by
  have lt := ofBytes_lt ((b.drop offset).take width)
  have le : ((b.drop offset).take width).length ≤ width := by
    rw [List.length_take]
    omega
  exact Nat.lt_of_lt_of_le lt (Nat.pow_le_pow_right (by decide) le)

/-- A number written behind `p` is found there. -/
theorem numberAt_append (at_offset : p.length = offset) (fits : n < 256 ^ width) :
    numberAt (p ++ (toBytes width n ++ r)) offset width = n := by
  rw [numberAt, ← at_offset, List.drop_left, List.take_left' (length_toBytes width n),
    ofBytes_toBytes fits]

/-- The bytes at an offset are the digits of the number there. -/
theorem toBytes_numberAt (within : offset + width ≤ b.length) :
    toBytes width (numberAt b offset width) = (b.drop offset).take width := by
  have length : ((b.drop offset).take width).length = width := by
    rw [List.length_take, List.length_drop]
    omega
  have same := toBytes_ofBytes ((b.drop offset).take width)
  rwa [length] at same

/-- A number is not moved by what follows it. -/
theorem numberAt_append_left (within : offset + width ≤ b.length) :
    numberAt (b ++ r) offset width = numberAt b offset width := by
  have enough : width ≤ (b.drop offset).length := by
    rw [List.length_drop]
    omega
  rw [numberAt, List.drop_append_of_le_length (by omega), List.take_append_of_le_length enough,
    numberAt]

/-- The length word of a prefixed byte string. -/
theorem numberAt_prefixed (fits : payload.length < 256 ^ width) :
    numberAt (prefixed width payload ++ r) 0 width = payload.length := by
  rw [prefixed, List.append_assoc]
  exact numberAt_append (p := []) rfl fits

/-- A byte string starts with a prefixed one exactly where its length word stays within it. -/
theorem exists_prefixed_iff :
    (∃ payload, payload.length < 256 ^ width ∧ b = prefixed width payload ++ r) ↔
      width ≤ b.length ∧ width + numberAt b 0 width ≤ b.length ∧
        r = b.drop (width + numberAt b 0 width) := by
  constructor
  · rintro ⟨payload, fits, rfl⟩
    rw [numberAt_prefixed fits, List.length_append, length_prefixed]
    refine ⟨by omega, by omega, ?_⟩
    rw [List.drop_left' length_prefixed]
  · rintro ⟨word, within, rfl⟩
    refine ⟨(b.drop width).take (numberAt b 0 width), ?_, ?_⟩
    · rw [List.length_take]
      exact Nat.lt_of_le_of_lt (Nat.min_le_left ..) numberAt_lt
    · have length : ((b.drop width).take (numberAt b 0 width)).length = numberAt b 0 width := by
        rw [List.length_take, List.length_drop]
        omega
      rw [prefixed, length, toBytes_numberAt (by omega), List.drop_zero, List.append_assoc,
        ← List.drop_drop, List.take_append_drop, List.take_append_drop]

end ByteCodec
