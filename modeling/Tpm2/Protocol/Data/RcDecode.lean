import Mathlib.Data.Nat.Bitwise
import Tpm2.Protocol.Data.Rc

/-! Exactly which 32-bit values decode to a response code, and to which one. -/

namespace Tpm2

open ByteCodec

namespace TpmRc

/-! The fields of a raw value, by bit position: bits 0 to 5 are the error number of format one,
bit 6 is `P`, bit 7 selects the format, bits 8 to 11 are `N` and the rest is reserved. -/

section Bits

variable (raw : UInt32)

theorem and_fmt1_eq_zero : raw &&& tpmRcFmt1 = 0 ↔ raw.toNat.testBit 7 = false := by
  rw [← UInt32.toNat_inj, UInt32.toNat_and]
  show raw.toNat &&& 2 ^ 7 = 0 ↔ _
  rw [Nat.and_two_pow]
  cases raw.toNat.testBit 7 <;> simp

theorem and_pBit_eq_zero : raw &&& tpmRcPBit = 0 ↔ raw.toNat.testBit 6 = false := by
  rw [← UInt32.toNat_inj, UInt32.toNat_and]
  show raw.toNat &&& 2 ^ 6 = 0 ↔ _
  rw [Nat.and_two_pow]
  cases raw.toNat.testBit 6 <;> simp

/-- The valid mask leaves exactly the bits from 12 on. -/
theorem and_reserved_eq_zero :
    raw &&& ~~~tpmRcFmt1ValidMask = 0 ↔ ∀ i, 12 ≤ i → raw.toNat.testBit i = false := by
  constructor
  · intro clear i le
    apply Nat.testBit_eq_false_of_lt
    calc
      raw.toNat < 2 ^ 12 := lt_of_masked clear
      _ ≤ 2 ^ i := Nat.pow_le_pow_right (by decide) le
  · intro clear
    have mask : (~~~tpmRcFmt1ValidMask).toNat = 2 ^ 12 * (2 ^ 20 - 1) := by decide
    apply UInt32.toNat_inj.mp
    rw [UInt32.toNat_and, mask]
    apply Nat.eq_of_testBit_eq
    intro i
    rw [Nat.testBit_and, Nat.testBit_two_pow_mul]
    rcases Nat.lt_or_ge i 12 with low | high
    · simp [Nat.not_le.mpr low]
    · simp [clear i high]

/-- The code of the format-one base is the number of the low six bits with bit 7 set. -/
theorem toNat_fmt1Base : (tpmRcFmt1 ||| (raw &&& tpmRcFmt1ErrorMask)).toNat
    = 0x80 + raw.toNat % 64 := by
  rw [UInt32.toNat_or, UInt32.toNat_and]
  show 2 ^ 7 ||| (raw.toNat &&& 2 ^ 6 - 1) = _
  rw [Nat.and_two_pow_sub_one_eq_mod, Nat.or_comm]
  have low : raw.toNat % 2 ^ 6 < 2 ^ 7 := by omega
  rw [← Nat.mul_one (2 ^ 7), Nat.or_comm, ← Nat.two_pow_add_eq_or_of_lt low]
  omega

/-- The number in the `N` field. -/
def number : UInt8 := UInt8.ofNat (raw.toNat / 256 % 16)

theorem toNat_number : (number raw).toNat = raw.toNat / 256 % 16 := by
  rw [number, UInt8.toNat_ofNat']
  omega

theorem number_eq : ((raw >>> tpmRcNShift) &&& tpmRcNMask).toUInt8 = number raw := by
  apply UInt8.toNat_inj.mp
  rw [toNat_number, UInt32.toNat_toUInt8, UInt32.toNat_and, UInt32.toNat_shiftRight]
  show (raw.toNat >>> 8 &&& 2 ^ 4 - 1) % 2 ^ 8 = _
  rw [Nat.and_two_pow_sub_one_eq_mod, Nat.shiftRight_eq_div_pow]
  omega

/-- The index that the bits of a format-one value name: with `P` set a parameter, else no index
for the number 0, a handle for 1 to 7 and a session, counted from 0, for 8 to 15. -/
def indexOfBits : Option TpmRcIndex :=
  if raw.toNat.testBit 6 then some (.parameter (number raw))
  else if number raw = 0 then none
  else if number raw ≤ 7 then some (.handle (number raw))
  else some (.session (number raw - 8))

/-- Only a set `P` bit with the number 0 names nothing. -/
theorem fmt1Index_eq :
    fmt1Index (decide (raw &&& tpmRcPBit ≠ 0)) ((raw >>> tpmRcNShift) &&& tpmRcNMask).toUInt8 =
      if raw.toNat.testBit 6 = true ∧ number raw = 0 then none else some (indexOfBits raw) := by
  rw [number_eq, indexOfBits]
  simp only [ne_eq, and_pBit_eq_zero]
  cases raw.toNat.testBit 6 with
  | true =>
      by_cases zero : number raw = 0
      · simp [zero, fmt1Index]
      · simp [zero, fmt1Index]
  | false =>
      by_cases zero : number raw = 0
      · simp [zero, fmt1Index]
      · simp only [Bool.false_eq_true, not_true, decide_false, zero, fmt1Index]
        split <;> simp_all [maxHandleIndex, sessionIndexOffset]

end Bits

/-- A value with bit 7 clear is a whole code of the table. -/
theorem tryFrom_fmt0_eq_ok {raw : UInt32} (format : raw.toNat.testBit 7 = false) {rc : TpmRc} :
    tryFrom raw = .ok rc ↔ ∃ base : TpmRcBase, TpmEnum.value base = raw ∧
      rc = if raw &&& tpmRcWarn = tpmRcWarn then .warn base else .fmt0 base := by
  have clear : ¬ raw &&& tpmRcFmt1 ≠ 0 := not_not.mpr ((and_fmt1_eq_zero raw).mpr format)
  simp only [tryFrom, if_neg clear]
  constructor
  · intro ok
    obtain ⟨base, found, ok⟩ := bind_eq_ok.mp ok
    refine ⟨base, (TpmEnum.tryFrom_eq_ok.mp (mapError_eq_ok.mp found)).symm, ?_⟩
    split at ok
    next warn => rw [if_pos warn, Except.ok.inj ok]
    next other => rw [if_neg other, Except.ok.inj ok]
  · rintro ⟨base, found, rfl⟩
    refine bind_eq_ok.mpr ⟨base, mapError_eq_ok.mpr (TpmEnum.tryFrom_eq_ok.mpr found.symm), ?_⟩
    split <;> rfl

/-- A value with bit 7 set holds the low bits of a format-one base and an index. -/
theorem tryFrom_fmt1_eq_ok {raw : UInt32} (format : raw.toNat.testBit 7 = true) {rc : TpmRc} :
    tryFrom raw = .ok rc ↔ (∀ i, 12 ≤ i → raw.toNat.testBit i = false) ∧
      ∃ base : TpmRcBase, (TpmEnum.value base).toNat = 0x80 + raw.toNat % 64 ∧
        ¬ (raw.toNat.testBit 6 = true ∧ number raw = 0) ∧ rc = .fmt1 ⟨base, indexOfBits raw⟩ := by
  have set : raw &&& tpmRcFmt1 ≠ 0 := fun clear => by
    rw [and_fmt1_eq_zero, format] at clear
    cases clear
  simp only [tryFrom, if_pos set, fmt1Index_eq]
  rw [← and_reserved_eq_zero]
  constructor
  · intro ok
    split at ok
    · cases ok
    next valid =>
      obtain ⟨base, found, ok⟩ := bind_eq_ok.mp ok
      have code := TpmEnum.tryFrom_eq_ok.mp (mapError_eq_ok.mp found)
      split at ok
      · cases ok
      next index selected =>
        split at selected
        · cases selected
        next named =>
          cases selected
          exact ⟨not_not.mp valid, base, by rw [← code, toNat_fmt1Base], named,
            (Except.ok.inj ok).symm⟩
  · rintro ⟨valid, base, code, named, rfl⟩
    rw [if_neg (not_not.mpr valid), if_neg named]
    refine bind_eq_ok.mpr ⟨base, mapError_eq_ok.mpr (TpmEnum.tryFrom_eq_ok.mpr ?_), rfl⟩
    apply UInt32.toNat_inj.mp
    rw [toNat_fmt1Base, code]

/-- Response codes decode exactly: a value is accepted if and only if it is a code of the table in
format zero, or in format one has no reserved bit, a base of the table and no parameter number
zero. The decoded code has that value and, in format one, the index its bits name, and decodes to
itself again. -/
theorem tryFrom_exact (raw : UInt32) :
    ((∃ rc, tryFrom raw = .ok rc) ↔
      (raw.toNat.testBit 7 = false ∧ ∃ base : TpmRcBase, TpmEnum.value base = raw) ∨
      (raw.toNat.testBit 7 = true ∧ (∀ i, 12 ≤ i → raw.toNat.testBit i = false) ∧
        (∃ base : TpmRcBase, (TpmEnum.value base).toNat = 0x80 + raw.toNat % 64) ∧
        (raw.toNat.testBit 6 = true → number raw ≠ 0))) ∧
    ∀ rc, tryFrom raw = .ok rc →
      rc.value = raw ∧ tryFrom rc.value = .ok rc ∧
      (raw.toNat.testBit 7 = false → ∃ base, rc = .fmt0 base ∨ rc = .warn base) ∧
      (raw.toNat.testBit 7 = true → ∃ base, rc = .fmt1 ⟨base, indexOfBits raw⟩) := by
  refine ⟨?_, fun rc ok => ⟨value_of_tryFrom ok, tryFrom_value ⟨raw, ok⟩, ?_, ?_⟩⟩
  · cases format : raw.toNat.testBit 7 with
    | false =>
        simp only [tryFrom_fmt0_eq_ok format, true_and, Bool.false_eq_true, false_and, or_false]
        constructor
        · rintro ⟨rc, base, code, -⟩
          exact ⟨base, code⟩
        · rintro ⟨base, code⟩
          exact ⟨_, base, code, rfl⟩
    | true =>
        simp only [tryFrom_fmt1_eq_ok format, true_and, Bool.true_eq_false, false_and, false_or]
        constructor
        · rintro ⟨rc, valid, base, code, named, -⟩
          exact ⟨valid, ⟨base, code⟩, fun p zero => named ⟨p, zero⟩⟩
        · rintro ⟨valid, ⟨base, code⟩, named⟩
          exact ⟨_, valid, base, code, fun both => named both.1 both.2, rfl⟩
  · intro format
    obtain ⟨base, -, rfl⟩ := (tryFrom_fmt0_eq_ok format).mp ok
    refine ⟨base, ?_⟩
    split
    · exact .inr rfl
    · exact .inl rfl
  · intro format
    obtain ⟨-, base, -, -, rfl⟩ := (tryFrom_fmt1_eq_ok format).mp ok
    exact ⟨base, rfl⟩

end TpmRc
end Tpm2
