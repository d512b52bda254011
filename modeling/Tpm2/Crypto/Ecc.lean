import Mathlib.Data.Nat.Size
import Tpm2.Algorithm.Rejection
import Tpm2.ByteCodec.Counting
import Tpm2.Crypto.Hash

/-! Random numbers for the keys of elliptic curves: those of a range come from byte strings, of
which the ones that are too large are drawn again. -/

namespace Tpm2

open ByteCodec Mutating Rejection

/-- The random generator of libcrypto: filling a buffer of some length changes its state, and may
fail. -/
structure RandBytes (σ : Type) where
  draw : Nat → σ → Except TpmCryptoError Bytes × σ
  length_draw : ∀ {n s bytes t}, draw n s = (.ok bytes, t) → bytes.length = n

/-- `rand_bytes`, on a buffer of `len` bytes. -/
def randBytes {σ : Type} (rand : RandBytes σ) (len : Nat) : Mutating TpmCryptoError σ Bytes :=
  ofRun fun s => some (rand.draw len s)

/-- `buf[0] &= mask`, which panics on an empty buffer. -/
def maskFirst? (mask : UInt8) : Bytes → Option Bytes
  | [] => none
  | byte :: bytes => some ((byte &&& mask) :: bytes)

/-- `byte_len`. A number of bits that a `u64` holds is one of bytes that a `usize` holds. -/
def byteLen (range : Nat) : Nat := max ((range.size + 7) / 8) 1

/-- `high_mask`. -/
def highMask (range : Nat) : UInt8 :=
  match range.size % 8 with
  | 0 => 0xff
  | rem => (1 <<< UInt8.ofNat rem) - 1

/-- What the loop returns for a masked buffer, if it does not draw again. -/
def accept (low range : Nat) (buf : Bytes) : Option Nat :=
  let candidate := ofBytes buf
  if candidate < range then some (low + candidate) else none

/-- A round of the loop of `genBiguintRange`. -/
def genRound {σ : Type} (rand : RandBytes σ) (low range : Nat) :
    Mutating TpmCryptoError σ (Option Nat) := do
  let buf ← randBytes rand (byteLen range)
  let buf ← orPanic (maskFirst? (highMask range) buf)
  return accept low range buf

/-- Samples a number in the half-open range from `low` to `high`, in `rounds` rounds at most: it
returns `none` when it would go on then. -/
def genBiguintRange {σ : Type} (rand : RandBytes σ) (low high rounds : Nat) :
    Mutating TpmCryptoError σ (Option Nat) :=
  if low ≥ high then
    throw .invalidRandomRange
  else do
    let range := high - low
    let sampled ← loop Option.isSome (fun _ => genRound rand low range) rounds none
    return sampled.join

/-- What a drawn byte string is accepted as. -/
def sampled (low high : Nat) (buf : Bytes) : Option Nat :=
  (maskFirst? (highMask (high - low)) buf).bind (accept low (high - low))

/-- The byte strings that may be drawn. -/
def candidates (low high : Nat) : Set Bytes := {buf | buf.length = byteLen (high - low)}

section
variable {low high v : Nat} {buf : Bytes}

/-- The mask keeps the bits of the first byte that numbers of the range have. -/
theorem highMask_spec {range : Nat} (positive : 0 < range) : ∃ r,
    (highMask range).toNat = 2 ^ r - 1 ∧ 8 * (byteLen range - 1) + r = range.size := by
  have bits : 0 < range.size := Nat.size_pos.mpr positive
  have masks : ∀ rem < 8, ((1 <<< UInt8.ofNat rem) - 1 : UInt8).toNat = 2 ^ rem - 1 := by decide
  unfold highMask byteLen
  split
  next whole => exact ⟨8, rfl, by omega⟩
  next rem other =>
    have part : range.size % 8 ≠ 0 := other
    have small : range.size % 8 < 8 := Nat.mod_lt _ (by decide)
    exact ⟨range.size % 8, masks _ small, by omega⟩

/-- A byte string is accepted as the value that its low bits are the offset of. -/
theorem sampled_eq_some (proper : low < high) (drawn : buf ∈ candidates low high) :
    sampled low high buf = some v ↔
      v ∈ Set.Ico low high ∧ ofBytes buf % 2 ^ (high - low).size = v - low := by
  obtain ⟨r, mask, bits⟩ := highMask_spec (Nat.sub_pos_of_lt proper)
  have length : buf.length = byteLen (high - low) := drawn
  cases buf with
  | nil =>
      have positive : 1 ≤ byteLen (high - low) := Nat.le_max_right _ _
      rw [← length] at positive
      cases positive
  | cons byte bytes =>
      have exponent : 8 * bytes.length + r = (high - low).size := by
        rw [← bits, ← length, List.length_cons, Nat.add_sub_cancel]
      rw [sampled, maskFirst?, Option.bind_some, accept, ofBytes_masked mask, exponent]
      rw [Set.mem_Ico]
      constructor
      · intro accepted
        split at accepted
        · cases accepted
          omega
        · cases accepted
      · rintro ⟨⟨above, below⟩, offset⟩
        rw [offset, if_pos (by omega), Nat.add_sub_cancel' above]

/-- All values of the range come from equally many byte strings. -/
theorem ncard_fibre_sampled (proper : low < high) (inRange : v ∈ Set.Ico low high) :
    (fibre (candidates low high) (sampled low high) v).ncard =
      2 ^ (8 * byteLen (high - low) - (high - low).size) := by
  have offset : v - low < 2 ^ (high - low).size := by
    refine Nat.lt_trans ?_ (Nat.lt_size_self (high - low))
    rw [Set.mem_Ico] at inRange
    omega
  have within : (high - low).size ≤ 8 * byteLen (high - low) := by
    unfold byteLen
    omega
  have same : fibre (candidates low high) (sampled low high) v =
      {buf | buf.length = byteLen (high - low) ∧
        ofBytes buf % 2 ^ (high - low).size = v - low} := by
    ext buf
    rw [fibre, Set.mem_ofPred_eq, Set.mem_ofPred_eq]
    refine and_congr_right fun drawn => ?_
    rw [sampled_eq_some proper drawn, and_iff_right inRange]
  rw [same, ncard_lowBits within offset]

theorem even_sampled (proper : low < high) :
    Even (candidates low high) (sampled low high) (Set.Ico low high) :=
  ⟨_, Nat.two_pow_pos _, fun _ => ncard_fibre_sampled proper⟩

theorem finite_candidates (low high : Nat) : (candidates low high).Finite := by
  have image : candidates low high ⊆
      toBytes (byteLen (high - low)) '' Set.Iio (256 ^ byteLen (high - low)) := by
    intro buf length
    change buf.length = _ at length
    rw [← length]
    exact ⟨ofBytes buf, ofBytes_lt buf, toBytes_ofBytes buf⟩
  exact ((Set.finite_Iio _).image _).subset image

variable {σ : Type} {rand : RandBytes σ} {s t : σ}

/-- A round draws a byte string and returns what it is accepted as; there is a first byte to be
masked. -/
theorem genRound_samples (rand : RandBytes σ) (low high : Nat) :
    Samples (rand.draw (byteLen (high - low))) (sampled low high)
      (genRound rand low (high - low)) where
  ok := by
    intro s t buf drawn
    have length := rand.length_draw drawn
    cases buf with
    | nil =>
        have positive : 1 ≤ byteLen (high - low) := Nat.le_max_right _ _
        rw [← length] at positive
        cases positive
    | cons byte bytes =>
        have filled : (randBytes rand (byteLen (high - low))).Ends s (.ok (byte :: bytes)) t :=
          congrArg some drawn
        exact filled.bind ((ends_orPanic rfl t).bind (ends_pure _ t))
  error := by
    intro s t e failed
    have ends : (randBytes rand (byteLen (high - low))).Ends s (.error e) t := congrArg some failed
    exact ends.bind_error _

/-- The function returns the value of the first byte string that is accepted. -/
theorem genBiguintRange_returns_iff (rand : RandBytes σ) (proper : low < high) (rounds : Nat) :
    (genBiguintRange rand low high rounds).Ends s (.ok (some v)) t ↔
      ∃ rejected buf u, rejected.length < rounds ∧
        Draws (rand.draw (byteLen (high - low))) s rejected u ∧
        (∀ r ∈ rejected, sampled low high r = none) ∧
        rand.draw (byteLen (high - low)) u = (.ok buf, t) ∧ sampled low high buf = some v := by
  rw [genBiguintRange, if_neg (Nat.not_le.mpr proper), ends_bind_pure_iff,
    ← (genRound_samples rand low high).returns_iff]
  simp only [Option.join_eq_some_iff, exists_eq_right]

end

/-- Sampling is in range and unbiased. Whatever the random generator yields, a number that is
returned is in the range; it is what the first byte string is accepted as that is accepted at all.
Of the byte strings that may be drawn, equally many, at least one, are accepted as each number of
the range, and of the streams of one or more of them equally many are sampled as each number. -/
theorem genBiguintRange_uniform {σ : Type} (rand : RandBytes σ) {low high : Nat}
    (proper : low < high) :
    (∀ rounds s v t, (genBiguintRange rand low high rounds).Ends s (.ok (some v)) t →
      low ≤ v ∧ v < high) ∧
    (∃ count, 0 < count ∧ ∀ v, low ≤ v → v < high →
      {buf ∈ candidates low high | sampled low high buf = some v}.ncard = count) ∧
    (∀ rounds s v t, (genBiguintRange rand low high rounds).Ends s (.ok (some v)) t ↔
      ∃ rejected buf u, rejected.length < rounds ∧
        Draws (rand.draw (byteLen (high - low))) s rejected u ∧
        (∀ r ∈ rejected, sampled low high r = none) ∧
        rand.draw (byteLen (high - low)) u = (.ok buf, t) ∧ sampled low high buf = some v) ∧
    ∀ n, Even (streams (candidates low high) (n + 1)) (List.findSome? (sampled low high))
      (Set.Ico low high) := by
  have even := even_sampled proper
  refine ⟨fun rounds s v t returns => ?_, ?_, fun rounds s v t =>
    genBiguintRange_returns_iff rand proper rounds, even.streams (finite_candidates low high)⟩
  · obtain ⟨rejected, buf, u, -, -, -, drawn, accepted⟩ :=
      (genBiguintRange_returns_iff rand proper rounds).mp returns
    exact ((sampled_eq_some proper (rand.length_draw drawn)).mp accepted).1
  · obtain ⟨count, positive, all⟩ := even
    exact ⟨count, positive, fun v above below => all v ⟨above, below⟩⟩

/-- The random bytes of a list. -/
def listRand : RandBytes Bytes where
  draw n s := if n ≤ s.length then (.ok (s.take n), s.drop n) else (.error .crypto, s)
  length_draw {n s bytes t} drawn := by
    split at drawn
    next enough =>
      cases drawn
      exact List.length_take_of_le enough
    next => cases drawn

/-- The numbers 1 to 3 take two bits: the byte 7 is drawn again, the byte 6 makes 3. -/
theorem genBiguintRange_uniform_three :
    (genBiguintRange listRand 1 4 2).Ends [7, 6, 5] (.ok (some 3)) [5] ∧
      ∃ count, 0 < count ∧ ∀ v, 1 ≤ v → v < 4 →
        {buf ∈ candidates 1 4 | sampled 1 4 buf = some v}.ncard = count := by
  obtain ⟨-, even, returns, -⟩ := genBiguintRange_uniform listRand (show 1 < 4 by decide)
  refine ⟨(returns 2 [7, 6, 5] 3 [5]).mpr ⟨[[7]], [6], [6, 5], by decide, ?_, ?_, ?_, ?_⟩, even⟩
  · exact .cons (by rfl) (.nil _)
  · decide +kernel
  · rfl
  · decide +kernel

end Tpm2
