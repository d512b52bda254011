import Mathlib.Algebra.GroupWithZero.Nat
import Mathlib.Data.List.Induction
import Mathlib.Tactic.Common

/-! Fixed-width big-endian numbers over byte strings. -/

namespace ByteCodec

/-- A byte string. -/
abbrev Bytes := List UInt8

/-- The number whose base-256 digits, most significant first, are `bytes`. -/
def ofBytes (bytes : Bytes) : Nat :=
  bytes.foldl (fun value byte => value * 256 + byte.toNat) 0

/-- The `width` low base-256 digits of `value`, most significant first. -/
def toBytes : Nat → Nat → Bytes
  | 0, _ => []
  | width + 1, value => toBytes width (value / 256) ++ [UInt8.ofNat value]

@[simp] theorem length_toBytes (width value : Nat) : (toBytes width value).length = width := by
  induction width generalizing value with
  | zero => rfl
  | succ width ih => simp [toBytes, ih]

@[simp] theorem ofBytes_nil : ofBytes [] = 0 := rfl

@[simp] theorem ofBytes_concat (bytes : Bytes) (byte : UInt8) :
    ofBytes (bytes ++ [byte]) = ofBytes bytes * 256 + byte.toNat := by
  simp [ofBytes]

theorem ofBytes_lt (bytes : Bytes) : ofBytes bytes < 256 ^ bytes.length := by
  induction bytes using List.reverseRecOn with
  | nil => simp
  | append_singleton bytes byte ih =>
      have digit : byte.toNat < 256 := byte.toNat_lt
      simp only [ofBytes_concat, List.length_append, List.length_singleton, Nat.pow_succ]
      omega

/-- Reading back the digits of a number that fits gives the number. -/
theorem ofBytes_toBytes {width value : Nat} (fits : value < 256 ^ width) :
    ofBytes (toBytes width value) = value := by
  induction width generalizing value with
  | zero => simp at fits; simp [toBytes, fits]
  | succ width ih =>
      have high : value / 256 < 256 ^ width := by
        rw [Nat.pow_succ] at fits
        exact Nat.div_lt_of_lt_mul (by omega)
      have low : (UInt8.ofNat value).toNat = value % 256 := by simp
      rw [toBytes, ofBytes_concat, ih high, low]
      omega

/-- Every byte string is the digits of the number it denotes. -/
theorem toBytes_ofBytes (bytes : Bytes) : toBytes bytes.length (ofBytes bytes) = bytes := by
  induction bytes using List.reverseRecOn with
  | nil => rfl
  | append_singleton bytes byte ih =>
      have digit : byte.toNat < 256 := byte.toNat_lt
      have high : (ofBytes bytes * 256 + byte.toNat) / 256 = ofBytes bytes := by omega
      have low : UInt8.ofNat (ofBytes bytes * 256 + byte.toNat) = byte := by
        apply UInt8.toNat_inj.mp
        rw [UInt8.toNat_ofNat']
        omega
      rw [List.length_append, List.length_singleton, toBytes, ofBytes_concat, high, low, ih]

end ByteCodec
