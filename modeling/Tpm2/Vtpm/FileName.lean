import Tpm2.Vtpm.Cache

/-! The names of record files: the name of a handle stands for that handle, and temporary files are
no records. -/

namespace Tpm2

open ByteCodec

/-- The dot of a file name. -/
abbrev dot : UInt8 := 46

theorem splitFileAtDot_append {stem extension : Bytes} (named : stem ≠ [])
    (extended : extension ≠ []) (last : dot ∉ extension) :
    splitFileAtDot (stem ++ dot :: extension) = some (stem, extension) := by
  have reversed : (stem ++ dot :: extension).reverse =
      extension.reverse ++ dot :: stem.reverse := by simp
  have after : ((stem ++ dot :: extension).reverse.takeWhile (· ≠ dot)).reverse = extension := by
    rw [reversed, List.takeWhile_append_of_pos, List.takeWhile_cons_of_neg (by simp)]
    · simp
    · intro c mem
      have other : c ≠ dot := by
        rintro rfl
        exact last (List.mem_reverse.mp mem)
      simpa using other
  have before : (stem ++ dot :: extension).take
      ((stem ++ dot :: extension).length - extension.length - 1) = stem := by
    have length : (stem ++ dot :: extension).length - extension.length - 1 = stem.length := by
      simp only [List.length_append, List.length_cons]
      omega
    rw [length, List.take_left]
  have proper : stem ++ dot :: extension ≠ [dot, dot] := by
    intro same
    have lengths := congrArg List.length same
    have some_stem := List.length_pos_of_ne_nil named
    have some_extension := List.length_pos_of_ne_nil extended
    simp only [List.length_append, List.length_cons, List.length_nil] at lengths
    omega
  rw [splitFileAtDot]
  simp only [after, before]
  rw [if_neg]
  rintro (same | missing | empty)
  · exact proper same
  · simp at missing
  · exact named empty

theorem hexValue_hexDigit {d : Nat} (digit : d < 16) : hexValue (hexDigit d) = some d := by
  have all : ∀ d < 16, hexValue (hexDigit d) = some d := by decide
  exact all d digit

/-- The number of some hexadecimal digits, behind those of `value`. -/
def ofHexDigits (value : Nat) (digits : List Nat) : Nat := digits.foldl (16 * · + ·) value

theorem le_ofHexDigits (value : Nat) (digits : List Nat) : value ≤ ofHexDigits value digits := by
  induction digits generalizing value with
  | nil => exact Nat.le_refl _
  | cons d digits ih =>
      have rest := ih (16 * value + d)
      rw [ofHexDigits, List.foldl_cons]
      rw [ofHexDigits] at rest
      omega

theorem fromHexDigits_map {digits : List Nat} {value : Nat} (small : ∀ d ∈ digits, d < 16)
    (fits : ofHexDigits value digits ≤ u32Max) :
    fromHexDigits (digits.map hexDigit) value = some (ofHexDigits value digits) := by
  induction digits generalizing value with
  | nil => rfl
  | cons d digits ih =>
      obtain ⟨digit, small⟩ := List.forall_mem_cons.mp small
      have next : 16 * value + d ≤ u32Max :=
        Nat.le_trans (le_ofHexDigits (16 * value + d) digits) fits
      rw [List.map_cons, fromHexDigits, hexValue_hexDigit digit]
      dsimp only [Option.bind_eq_bind, Option.bind_some]
      rw [if_pos next]
      exact ih small fits

/-- The digits of a handle in a file name. -/
def hexDigitsOf (v : UInt32) : List Nat := (List.range 8).map fun i => v.toNat / 16 ^ (7 - i) % 16

theorem hex8_eq (v : UInt32) : hex8 v = (hexDigitsOf v).map hexDigit := by
  rw [hex8, hexDigitsOf, List.map_map]
  rfl

theorem ofHexDigits_hexDigitsOf (v : UInt32) : ofHexDigits 0 (hexDigitsOf v) = v.toNat := by
  have bound := v.toNat_lt
  simp only [ofHexDigits, hexDigitsOf, List.range_succ, List.range_zero, List.nil_append,
    List.map_append, List.map_cons, List.map_nil, List.foldl_append, List.foldl_cons,
    List.foldl_nil]
  omega

theorem hex8_ne_nil (v : UInt32) : hex8 v ≠ [] := by
  intro empty
  have length := congrArg List.length empty
  simp [hex8] at length

theorem fromStrRadix16_hex8 (v : UInt32) : fromStrRadix16 (hex8 v) = some v := by
  have small : ∀ d ∈ hexDigitsOf v, d < 16 := by
    intro d mem
    obtain ⟨i, -, rfl⟩ := List.mem_map.mp mem
    exact Nat.mod_lt _ (by decide)
  have fits : ofHexDigits 0 (hexDigitsOf v) ≤ u32Max := by
    have bound := v.toNat_lt
    rw [ofHexDigits_hexDigitsOf, u32Max]
    omega
  have unsigned : (hex8 v).head? ≠ some 43 := by
    have digits : ∀ d < 16, hexDigit d ≠ 43 := by decide
    intro sign
    exact digits _ (Nat.mod_lt _ (by decide)) (Option.some.inj sign)
  rw [fromStrRadix16, if_neg unsigned, if_neg (hex8_ne_nil v), hex8_eq,
    fromHexDigits_map small fits, ofHexDigits_hexDigitsOf]
  simp

@[simp] theorem recordHandle_binName (v : UInt32) : recordHandle (binName v) = some v := by
  have split : splitFileAtDot (binName v) = some (hex8 v, ascii ['b', 'i', 'n']) :=
    splitFileAtDot_append (hex8_ne_nil v) (by decide) (by decide)
  rw [recordHandle, split]
  dsimp only [Option.bind_eq_bind, Option.bind_some]
  rw [if_pos rfl, fromStrRadix16_hex8]

theorem binName_injective : Function.Injective binName := by
  intro v w same
  have handles := congrArg recordHandle same
  rw [recordHandle_binName, recordHandle_binName] at handles
  exact Option.some.inj handles

@[simp] theorem recordHandle_tempName (fileName : Bytes) (processId : Nat) :
    recordHandle (tempName fileName processId) = none := by
  have split : splitFileAtDot (tempName fileName processId) = some
      (ascii ['.'] ++ fileName ++ ascii ['.'] ++ decimal processId, ascii ['t', 'm', 'p']) :=
    splitFileAtDot_append (by simp [ascii]) (by decide) (by decide)
  rw [recordHandle, split]
  rfl

end Tpm2
