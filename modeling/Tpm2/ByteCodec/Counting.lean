import Mathlib.Data.Int.CardIntervalMod
import Mathlib.Data.Set.Card
import Tpm2.ByteCodec.BigEndian

/-! Byte strings of one length, counted by the numbers that they denote. -/

namespace ByteCodec

theorem ofBytes_cons (byte : UInt8) (bytes : Bytes) :
    ofBytes (byte :: bytes) = byte.toNat * 256 ^ bytes.length + ofBytes bytes := by
  induction bytes using List.reverseRecOn with
  | nil => simp [ofBytes]
  | append_singleton bytes last ih =>
      rw [← List.cons_append, ofBytes_concat, ih, ofBytes_concat, List.length_append,
        List.length_singleton, Nat.pow_succ]
      ring

/-- A mask of low bits on the first byte keeps the low bits of the number. -/
theorem ofBytes_masked {mask : UInt8} {r : Nat} (low : mask.toNat = 2 ^ r - 1) (byte : UInt8)
    (bytes : Bytes) : ofBytes ((byte &&& mask) :: bytes) =
      ofBytes (byte :: bytes) % 2 ^ (8 * bytes.length + r) := by
  have small := ofBytes_lt bytes
  have positive : 0 < 256 ^ bytes.length := Nat.pow_pos (by decide)
  have power : 2 ^ (8 * bytes.length + r) = 256 ^ bytes.length * 2 ^ r := by
    rw [Nat.pow_add, Nat.pow_mul]
  have rest : (byte.toNat * 256 ^ bytes.length + ofBytes bytes) % 256 ^ bytes.length =
      ofBytes bytes := by
    rw [Nat.mul_add_mod_self_right, Nat.mod_eq_of_lt small]
  have first : (byte.toNat * 256 ^ bytes.length + ofBytes bytes) / 256 ^ bytes.length =
      byte.toNat := by
    rw [Nat.mul_comm, Nat.mul_add_div positive, Nat.div_eq_of_lt small, Nat.add_zero]
  rw [ofBytes_cons, ofBytes_cons, power, Nat.mod_mul, rest, first, UInt8.toNat_and, low,
    Nat.and_two_pow_sub_one_eq_mod]
  ring

/-- There are as many byte strings with a property of their numbers as there are numbers. -/
theorem ncard_bytes (n : Nat) (P : Nat → Prop) [DecidablePred P] :
    {bytes : Bytes | bytes.length = n ∧ P (ofBytes bytes)}.ncard = (256 ^ n).count P := by
  have numbers : {bytes : Bytes | bytes.length = n ∧ P (ofBytes bytes)} =
      toBytes n '' ((Finset.range (256 ^ n)).filter P : Finset Nat) := by
    ext bytes
    simp only [Set.mem_ofPred_eq, Set.mem_image, SetLike.mem_coe, Finset.mem_filter,
      Finset.mem_range]
    constructor
    · rintro ⟨rfl, holds⟩
      exact ⟨ofBytes bytes, ⟨ofBytes_lt bytes, holds⟩, toBytes_ofBytes bytes⟩
    · rintro ⟨value, ⟨fits, holds⟩, rfl⟩
      rw [ofBytes_toBytes fits]
      exact ⟨length_toBytes n value, holds⟩
  have injective : Set.InjOn (toBytes n) ((Finset.range (256 ^ n)).filter P : Finset Nat) := by
    intro value mem value' mem' same
    simp only [SetLike.mem_coe, Finset.mem_filter, Finset.mem_range] at mem mem'
    rw [← ofBytes_toBytes mem.1, same, ofBytes_toBytes mem'.1]
  rw [numbers, injective.ncard_image, Set.ncard_coe_finset,
    Nat.count_eq_card_filter_range]

/-- Whole periods have each remainder equally often. -/
theorem count_mod_eq {m v : Nat} (small : v < m) (k : Nat) :
    (m * k).count (· % m = v) = k := by
  have positive : 0 < m := Nat.zero_lt_of_lt small
  have counted := Nat.count_modEq_card (m * k) positive v
  rw [Nat.mul_div_cancel_left k positive, Nat.mul_mod_right, if_neg (Nat.not_lt_zero _),
    Nat.add_zero] at counted
  simpa only [Nat.ModEq, Nat.mod_eq_of_lt small] using counted

/-- The low bits of byte strings take each value equally often. -/
theorem ncard_lowBits {n bits v : Nat} (within : bits ≤ 8 * n) (small : v < 2 ^ bits) :
    {bytes : Bytes | bytes.length = n ∧ ofBytes bytes % 2 ^ bits = v}.ncard =
      2 ^ (8 * n - bits) := by
  have periods : 256 ^ n = 2 ^ bits * 2 ^ (8 * n - bits) := by
    rw [← Nat.pow_add, Nat.add_sub_cancel' within, Nat.pow_mul]
  rw [ncard_bytes n (· % 2 ^ bits = v), periods, count_mod_eq small]

end ByteCodec
