import Mathlib.Data.List.Sort
import Mathlib.Data.Nat.Bitwise
import Tpm2.PolicyLanguage.Expression

/-! The bitmaps of PCR selections: setting a bit for each PCR, and listing the PCRs again. -/

namespace Tpm2

open ByteCodec

/-- The bytes of a bitmap that has a bit for every PCR: `context.pcr_count.div_ceil(8)`. -/
def TpmPolicyContext.pcrSelectSize (context : TpmPolicyContext) : Nat := (context.pcrCount + 7) / 8

/-- `pcr_select_bytes[pcr_index / 8] |= 1 << (pcr_index % 8)`. -/
def setPcrBit (pcrSelectBytes : Bytes) (pcrIndex : Nat) : Bytes :=
  pcrSelectBytes.modify (pcrIndex / 8) (· ||| 1 <<< UInt8.ofNat (pcrIndex % 8))

/-- Selects one more PCR. -/
def selectPcr (pcrCount : Nat) (pcrSelectBytes : Bytes) (pcrIndex : Nat) :
    Except TpmPolicyError Bytes :=
  if pcrCount ≤ pcrIndex then
    .error .pcrIndexTooLarge
  else
    .ok (setPcrBit pcrSelectBytes pcrIndex)

/-- The selection of the PCRs of one bank. -/
def selectPcrs (context : TpmPolicyContext) (alg : TpmHash) (indices : List Nat) :
    Except TpmPolicyError TpmsPcrSelection := do
  let unset : Bytes := List.replicate context.pcrSelectSize 0
  let pcrSelectBytes ← indices.foldlM (selectPcr context.pcrCount) unset
  let pcrSelect ← (TpmsPcrSelect.tryFrom pcrSelectBytes).mapError fun _ => .pcrDigestTooLarge
  return ⟨alg.toAlgId, pcrSelect⟩

/-- Whether a bitmap selects a PCR. -/
def pcrSelected (pcrSelect : Bytes) (pcrIndex : Nat) : Bool :=
  (pcrSelect.getD (pcrIndex / 8) 0).toNat.testBit (pcrIndex % 8)

theorem toNat_shiftLeft_one {bit : Nat} (low : bit < 8) :
    (1 <<< UInt8.ofNat bit : UInt8).toNat = 2 ^ bit := by
  have bits : ∀ bit < 8, (1 <<< UInt8.ofNat bit : UInt8).toNat = 2 ^ bit := by decide
  exact bits bit low

theorem and_shiftLeft_ne_zero (byte : UInt8) {bit : Nat} (low : bit < 8) :
    byte &&& (1 <<< UInt8.ofNat bit) ≠ 0 ↔ byte.toNat.testBit bit := by
  have zero : byte &&& (1 <<< UInt8.ofNat bit) = 0 ↔ byte.toNat &&& 2 ^ bit = 0 := by
    rw [← UInt8.toNat_inj, UInt8.toNat_and, toNat_shiftLeft_one low]
    rfl
  rw [Ne, zero, Nat.and_two_pow]
  cases byte.toNat.testBit bit <;> simp

/-- The PCRs of a bitmap are those that it selects. -/
theorem mem_pcrIndices {pcrSelect : Bytes} {pcrIndex : UInt32}
    (short : pcrSelect.length ≤ tpmPcrSelectMax) :
    pcrIndex ∈ pcrIndices pcrSelect ↔
      pcrIndex.toNat < 8 * pcrSelect.length ∧ pcrSelected pcrSelect pcrIndex.toNat := by
  have small : pcrSelect.length ≤ 4 := short
  simp only [pcrIndices, List.mem_flatMap, List.mem_filterMap, Prod.exists,
    List.mk_mem_zipIdx_iff_getElem?, List.mem_range]
  constructor
  · rintro ⟨byte, byteIndex, found, bitIndex, low, listed⟩
    have inside := (List.getElem?_eq_some_iff.mp found).1
    split at listed
    next set =>
      have index : pcrIndex.toNat = byteIndex * 8 + bitIndex := by
        rw [← Option.some.inj listed]
        exact UInt32.toNat_ofNat_of_lt' (by rw [UInt32.size]; omega)
      have quotient : pcrIndex.toNat / 8 = byteIndex := by omega
      have remainder : pcrIndex.toNat % 8 = bitIndex := by omega
      refine ⟨by omega, ?_⟩
      rw [pcrSelected, quotient, remainder, List.getD_eq_getElem?_getD, found, Option.getD_some]
      exact (and_shiftLeft_ne_zero byte low).mp set
    next => cases listed
  · rintro ⟨inside, set⟩
    have byteInside : pcrIndex.toNat / 8 < pcrSelect.length := by omega
    have found := List.getElem?_eq_getElem byteInside
    rw [pcrSelected, List.getD_eq_getElem?_getD, found, Option.getD_some] at set
    refine ⟨_, _, found, pcrIndex.toNat % 8, by omega, ?_⟩
    rw [if_pos ((and_shiftLeft_ne_zero _ (by omega)).mpr set), Nat.div_add_mod',
      UInt32.ofNat_toNat]

theorem length_setPcrBit (pcrSelectBytes : Bytes) (pcrIndex : Nat) :
    (setPcrBit pcrSelectBytes pcrIndex).length = pcrSelectBytes.length :=
  List.length_modify ..

theorem pcrSelected_setPcrBit {pcrSelectBytes : Bytes} {pcrIndex : Nat}
    (inside : pcrIndex < 8 * pcrSelectBytes.length) (other : Nat) :
    pcrSelected (setPcrBit pcrSelectBytes pcrIndex) other =
      (pcrSelected pcrSelectBytes other || decide (other = pcrIndex)) := by
  have byteInside : pcrIndex / 8 < pcrSelectBytes.length := by omega
  simp only [pcrSelected, setPcrBit, List.getD_eq_getElem?_getD, List.getElem?_modify]
  by_cases byte : pcrIndex / 8 = other / 8
  · simp only [if_pos byte]
    rw [← byte, List.getElem?_eq_getElem byteInside, Option.map_eq_map, Option.map_some,
      Option.getD_some, Option.getD_some, UInt8.toNat_or, toNat_shiftLeft_one (by omega),
      Nat.testBit_or, Nat.testBit_two_pow]
    congr 1
    rw [decide_eq_decide]
    omega
  · have different : other ≠ pcrIndex := by
      rintro rfl
      exact byte rfl
    simp [if_neg byte, different]

theorem length_foldl_setPcrBit (indices : List Nat) (pcrSelectBytes : Bytes) :
    (indices.foldl setPcrBit pcrSelectBytes).length = pcrSelectBytes.length := by
  induction indices generalizing pcrSelectBytes with
  | nil => rfl
  | cons pcrIndex indices ih => rw [List.foldl_cons, ih, length_setPcrBit]

theorem pcrSelected_foldl {indices : List Nat} {pcrSelectBytes : Bytes}
    (inside : ∀ pcrIndex ∈ indices, pcrIndex < 8 * pcrSelectBytes.length) (other : Nat) :
    pcrSelected (indices.foldl setPcrBit pcrSelectBytes) other =
      (pcrSelected pcrSelectBytes other || decide (other ∈ indices)) := by
  induction indices generalizing pcrSelectBytes with
  | nil => simp
  | cons pcrIndex indices ih =>
      rw [List.foldl_cons, ih, pcrSelected_setPcrBit (inside pcrIndex List.mem_cons_self)]
      · simp [Bool.or_assoc]
      · intro later mem
        rw [length_setPcrBit]
        exact inside later (List.mem_cons_of_mem _ mem)

/-- Selecting PCRs succeeds if and only if the context has them all. -/
theorem foldlM_selectPcr_eq_ok {pcrCount : Nat} {indices : List Nat} {before after : Bytes} :
    indices.foldlM (selectPcr pcrCount) before = .ok after ↔
      (∀ pcrIndex ∈ indices, pcrIndex < pcrCount) ∧ after = indices.foldl setPcrBit before := by
  induction indices generalizing before with
  | nil => simp [pure, Except.pure, eq_comm]
  | cons pcrIndex indices ih =>
      rw [List.foldlM_cons, bind_eq_ok, List.forall_mem_cons, List.foldl_cons]
      simp only [ih, selectPcr]
      constructor
      · rintro ⟨next, selected, others, rfl⟩
        split at selected
        · cases selected
        next known =>
          cases selected
          exact ⟨⟨by omega, others⟩, rfl⟩
      · rintro ⟨⟨known, others⟩, rfl⟩
        exact ⟨_, if_neg (by omega), others, rfl⟩

theorem selectPcrs_eq_ok {context : TpmPolicyContext} {alg : TpmHash} {indices : List Nat}
    {selection : TpmsPcrSelection} :
    selectPcrs context alg indices = .ok selection ↔
      (∀ pcrIndex ∈ indices, pcrIndex < context.pcrCount) ∧ selection.hash = alg.toAlgId ∧
      selection.pcrSelect.data =
        indices.foldl setPcrBit (List.replicate context.pcrSelectSize 0) := by
  simp only [selectPcrs, bind_eq_ok, foldlM_selectPcr_eq_ok, mapError_eq_ok, pure, Except.pure,
    Except.ok.injEq]
  constructor
  · rintro ⟨bytes, ⟨known, rfl⟩, pcrSelect, fits, rfl⟩
    refine ⟨known, rfl, ?_⟩
    unfold TpmsPcrSelect.tryFrom at fits
    split at fits
    · cases fits
    · cases fits
      rfl
  · obtain ⟨hash, data, length⟩ := selection
    rintro ⟨known, rfl, rfl⟩
    exact ⟨_, ⟨known, rfl⟩, ⟨_, length⟩, dif_neg (by omega), rfl⟩

theorem pcrSelected_zeros (size pcrIndex : Nat) :
    pcrSelected (List.replicate size 0) pcrIndex = false := by
  rw [pcrSelected, List.getD_eq_getElem?_getD, List.getElem?_replicate]
  split <;> simp

/-- The PCRs of a selection are those that were selected. -/
theorem mem_pcrIndices_selectPcrs {context : TpmPolicyContext} {alg : TpmHash} {indices : List Nat}
    {selection : TpmsPcrSelection} (ok : selectPcrs context alg indices = .ok selection)
    {pcrIndex : UInt32} :
    pcrIndex ∈ pcrIndices selection.pcrSelect.data ↔ pcrIndex.toNat ∈ indices := by
  obtain ⟨known, -, data⟩ := selectPcrs_eq_ok.mp ok
  have inside : ∀ pcrIndex ∈ indices, pcrIndex < 8 * (List.replicate context.pcrSelectSize
      (0 : UInt8)).length := by
    intro pcrIndex mem
    have := known pcrIndex mem
    rw [List.length_replicate, TpmPolicyContext.pcrSelectSize]
    omega
  rw [mem_pcrIndices selection.pcrSelect.length_le, data, length_foldl_setPcrBit,
    pcrSelected_foldl inside, pcrSelected_zeros]
  simp only [Bool.false_or, decide_eq_true_eq]
  exact ⟨fun ⟨_, mem⟩ => mem, fun mem => ⟨inside _ mem, mem⟩⟩

theorem eq_of_pcrSelected {v w : Bytes} (length : v.length = w.length)
    (same : ∀ pcrIndex < 8 * v.length, pcrSelected v pcrIndex = pcrSelected w pcrIndex) :
    v = w := by
  apply List.ext_getElem length
  intro byteIndex inV inW
  rw [← UInt8.toNat_inj]
  apply Nat.eq_of_testBit_eq
  intro bit
  by_cases low : bit < 8
  · have bits := same (byteIndex * 8 + bit) (by omega)
    have quotient : (byteIndex * 8 + bit) / 8 = byteIndex := by omega
    have remainder : (byteIndex * 8 + bit) % 8 = bit := by omega
    simpa [pcrSelected, quotient, remainder, inV, inW] using bits
  · have high (byte : UInt8) : byte.toNat.testBit bit = false :=
      Nat.testBit_lt_two_pow
        (Nat.lt_of_lt_of_le byte.toNat_lt (Nat.pow_le_pow_right (by decide) (by omega)))
    rw [high, high]

/-- Selecting the PCRs of a bitmap of the context's size gives that bitmap. -/
theorem selectPcrs_pcrIndices {context : TpmPolicyContext} {alg : TpmHash}
    {selection : TpmsPcrSelection} (hash : selection.hash = alg.toAlgId)
    (size : selection.pcrSelect.data.length = context.pcrSelectSize)
    (known : ∀ pcrIndex ∈ pcrIndices selection.pcrSelect.data,
      pcrIndex.toNat < context.pcrCount) :
    selectPcrs context alg ((pcrIndices selection.pcrSelect.data).map UInt32.toNat) =
      .ok selection := by
  have inside : ∀ pcrIndex ∈ (pcrIndices selection.pcrSelect.data).map UInt32.toNat,
      pcrIndex < 8 * (List.replicate context.pcrSelectSize (0 : UInt8)).length := by
    intro pcrIndex mem
    obtain ⟨index, listed, rfl⟩ := List.mem_map.mp mem
    have := ((mem_pcrIndices selection.pcrSelect.length_le).mp listed).1
    simpa [← size] using this
  refine selectPcrs_eq_ok.mpr ⟨by simpa using known, hash, ?_⟩
  apply eq_of_pcrSelected
  · rw [length_foldl_setPcrBit, List.length_replicate, size]
  · intro pcrIndex bound
    rw [pcrSelected_foldl inside, pcrSelected_zeros, Bool.false_or, Bool.eq_iff_iff,
      decide_eq_true_eq, List.mem_map]
    have short : selection.pcrSelect.data.length ≤ 4 := selection.pcrSelect.length_le
    have toNat : (UInt32.ofNat pcrIndex).toNat = pcrIndex :=
      UInt32.toNat_ofNat_of_lt' (by rw [UInt32.size]; omega)
    constructor
    · intro set
      refine ⟨UInt32.ofNat pcrIndex, ?_, toNat⟩
      rw [mem_pcrIndices selection.pcrSelect.length_le, toNat]
      exact ⟨bound, set⟩
    · rintro ⟨index, listed, rfl⟩
      exact ((mem_pcrIndices selection.pcrSelect.length_le).mp listed).2

/-- The PCRs of a bitmap are listed in ascending order. -/
theorem pcrIndices_pairwise {pcrSelect : Bytes} (short : pcrSelect.length ≤ tpmPcrSelectMax) :
    (pcrIndices pcrSelect).Pairwise (· < ·) := by
  have small : pcrSelect.length ≤ 4 := short
  have listed {byte : UInt8} {byteIndex bitIndex : Nat} {pcrIndex : UInt32}
      (found : (byte, byteIndex) ∈ pcrSelect.zipIdx) (low : bitIndex < 8)
      (set : (if byte &&& (1 <<< UInt8.ofNat bitIndex) ≠ 0 then
        some (UInt32.ofNat (byteIndex * 8 + bitIndex)) else none) = some pcrIndex) :
      pcrIndex.toNat = byteIndex * 8 + bitIndex := by
    have inside := List.snd_lt_of_mem_zipIdx found
    split at set
    · rw [← Option.some.inj set]
      exact UInt32.toNat_ofNat_of_lt' (by rw [UInt32.size]; dsimp only at inside; omega)
    · cases set
  have bytes : (pcrSelect.zipIdx).Pairwise fun x y => x.2 < y.2 := by
    rw [← List.pairwise_map (f := Prod.snd), List.zipIdx_map_snd]
    exact List.pairwise_lt_range'
  rw [pcrIndices, List.pairwise_flatMap]
  constructor
  · rintro ⟨byte, byteIndex⟩ found
    rw [List.pairwise_filterMap]
    apply List.pairwise_lt_range.imp_of_mem
    intro bitIndex bitIndex' mem mem' order pcrIndex set pcrIndex' set'
    rw [UInt32.lt_iff_toNat_lt, listed found (List.mem_range.mp mem) set,
      listed found (List.mem_range.mp mem') set']
    omega
  · apply bytes.imp_of_mem
    rintro ⟨byte, byteIndex⟩ ⟨byte', byteIndex'⟩ found found' order pcrIndex mem pcrIndex' mem'
    obtain ⟨bitIndex, inRange, set⟩ := List.mem_filterMap.mp mem
    obtain ⟨bitIndex', inRange', set'⟩ := List.mem_filterMap.mp mem'
    have low := List.mem_range.mp inRange
    have low' := List.mem_range.mp inRange'
    rw [UInt32.lt_iff_toNat_lt, listed found low set, listed found' low' set']
    dsimp only at order
    omega

/-- Selecting the PCRs of a bitmap lists the same PCRs again. -/
theorem pcrIndices_selectPcrs {context : TpmPolicyContext} {alg : TpmHash} {pcrSelect : Bytes}
    {selection : TpmsPcrSelection} (short : pcrSelect.length ≤ tpmPcrSelectMax)
    (ok : selectPcrs context alg ((pcrIndices pcrSelect).map UInt32.toNat) = .ok selection) :
    pcrIndices selection.pcrSelect.data = pcrIndices pcrSelect := by
  apply (pcrIndices_pairwise selection.pcrSelect.length_le).eq_of_mem_iff
    (pcrIndices_pairwise short)
  intro pcrIndex
  rw [mem_pcrIndices_selectPcrs ok, List.mem_map]
  constructor
  · rintro ⟨index, listed, same⟩
    rwa [← UInt32.toNat_inj.mp same]
  · exact fun listed => ⟨pcrIndex, listed, rfl⟩

end Tpm2
