import Mathlib.Data.List.Induction
import Mathlib.Data.Nat.Notation
import Mathlib.Tactic.IntervalCases

/-! Numerals: reading unsigned numbers in a radix, and bytes in hexadecimal. -/

namespace Text

/-- `c.to_digit(radix)`. -/
def toDigit (radix : Nat) (c : Char) : Option Nat :=
  let digit :=
    if '0' ≤ c ∧ c ≤ '9' then
      some (c.toNat - '0'.toNat)
    else if 'a' ≤ c ∧ c ≤ 'z' then
      some (c.toNat - 'a'.toNat + 10)
    else if 'A' ≤ c ∧ c ≤ 'Z' then
      some (c.toNat - 'A'.toNat + 10)
    else
      none
  digit.filter (· < radix)

/-- Every character is a digit. -/
def Digits (radix : Nat) (s : List Char) : Prop := ∀ c ∈ s, (toDigit radix c).isSome

instance (radix : Nat) (s : List Char) : Decidable (Digits radix s) :=
  List.decidableBAll _ s

/-- The number that a text of digits stands for, most significant digit first. -/
def ofDigits (radix : Nat) (s : List Char) : Option Nat :=
  s.foldlM (fun n c => (toDigit radix c).map (n * radix + ·)) 0

/-- `from_str_radix` for an unsigned type with `bound` values: an optional sign and at least one
digit. -/
def fromStrRadix (bound radix : Nat) (s : List Char) : Option Nat :=
  let digits := if s.head? = some '+' then s.tail else s
  if digits.isEmpty then none else (ofDigits radix digits).filter (· < bound)

theorem toDigit_digitChar {radix n : Nat} (small : radix ≤ 16) (digit : n < radix) :
    toDigit radix (Nat.digitChar n) = some n := by
  have values : ∀ n < 16, toDigit 16 (Nat.digitChar n) = some n := by decide
  have value := values n (by omega)
  rw [toDigit, Option.filter_eq_some_iff] at value ⊢
  exact ⟨value.1, by simpa using digit⟩

theorem ofDigits_append {radix : Nat} {s t : List Char} :
    ofDigits radix (s ++ t) = (ofDigits radix s).bind fun n =>
      t.foldlM (fun n c => (toDigit radix c).map (n * radix + ·)) n := by
  simp only [ofDigits, List.foldlM_append, Option.bind_eq_bind]

theorem digits_of_ofDigits {radix n : Nat} {s : List Char} (read : ofDigits radix s = some n) :
    Digits radix s := by
  induction s using List.reverseRecOn generalizing n with
  | nil => simp [Digits]
  | append_singleton s c ih =>
      rw [ofDigits_append, Option.bind_eq_some_iff] at read
      obtain ⟨m, front, last⟩ := read
      simp only [List.foldlM_cons, List.foldlM_nil, bind_pure] at last
      cases digit : toDigit radix c with
      | none => simp [digit] at last
      | some d =>
          intro e mem
          rcases List.mem_append.mp mem with earlier | final
          · exact ih front e earlier
          · rw [List.mem_singleton.mp final, digit]
            rfl

theorem ofDigits_toDigits {radix : Nat} (large : 1 < radix) (small : radix ≤ 16) (n : Nat) :
    ofDigits radix (Nat.toDigits radix n) = some n := by
  induction n using Nat.strong_induction_on with
  | _ n ih =>
      rw [Nat.toDigits_eq_if large]
      split
      next digit =>
        simp [ofDigits, toDigit_digitChar small digit]
      next more =>
        have smaller : n / radix < n := Nat.div_lt_self (by omega) large
        rw [ofDigits_append, ih _ smaller, Option.bind_some, List.foldlM_cons,
          toDigit_digitChar small (Nat.mod_lt n (by omega))]
        simp [Nat.div_add_mod' n radix]

theorem ofDigits_zeros {radix : Nat} (positive : 0 < radix) (zeros : Nat) (s : List Char) :
    ofDigits radix (List.replicate zeros '0' ++ s) = ofDigits radix s := by
  have zero : toDigit radix '0' = some 0 := by
    rw [toDigit, Option.filter_eq_some_iff]
    exact ⟨by decide, by simpa using positive⟩
  induction zeros with
  | zero => rfl
  | succ zeros ih =>
      rw [List.replicate_succ, List.cons_append, ofDigits, List.foldlM_cons, zero]
      simpa [ofDigits] using ih

theorem not_digit_plus (radix : Nat) : toDigit radix '+' = none := by
  rw [toDigit]
  rfl

/-- What is read is an optional sign and a number in range. -/
theorem fromStrRadix_eq_some {bound radix n : Nat} {s : List Char} :
    fromStrRadix bound radix s = some n ↔ ∃ digits, (s = digits ∨ s = '+' :: digits) ∧
      digits ≠ [] ∧ ofDigits radix digits = some n ∧ n < bound := by
  have unsigned {digits : List Char} {n : Nat} (read : ofDigits radix digits = some n) :
      digits.head? ≠ some '+' := by
    intro sign
    have digit := digits_of_ofDigits read '+' (List.mem_of_head? sign)
    simp [not_digit_plus] at digit
  simp only [fromStrRadix]
  split
  next sign =>
    obtain ⟨rest, rfl⟩ : ∃ rest, s = '+' :: rest := by
      cases s with
      | nil => cases sign
      | cons c rest => exact ⟨rest, by simpa using sign⟩
    rw [List.tail_cons]
    constructor
    · intro read
      split at read
      · cases read
      next nonempty =>
        obtain ⟨value, fits⟩ := Option.filter_eq_some_iff.mp read
        exact ⟨rest, .inr rfl, by simpa using nonempty, value, by simpa using fits⟩
    · rintro ⟨digits, rfl | shape, nonempty, value, fits⟩
      · exact absurd rfl (unsigned value)
      · obtain ⟨-, rfl⟩ := List.cons.inj shape
        rw [if_neg (by simpa using nonempty), Option.filter_eq_some_iff]
        exact ⟨value, by simpa using fits⟩
  next plain =>
    constructor
    · intro read
      split at read
      · cases read
      next nonempty =>
        obtain ⟨value, fits⟩ := Option.filter_eq_some_iff.mp read
        exact ⟨s, .inl rfl, by simpa using nonempty, value, by simpa using fits⟩
    · rintro ⟨digits, rfl | rfl, nonempty, value, fits⟩
      · rw [if_neg (by simpa using nonempty), Option.filter_eq_some_iff]
        exact ⟨value, by simpa using fits⟩
      · exact absurd rfl plain

theorem fromStrRadix_of_ofDigits {bound radix n : Nat} {s : List Char} (nonempty : s ≠ [])
    (read : ofDigits radix s = some n) (fits : n < bound) :
    fromStrRadix bound radix s = some n :=
  fromStrRadix_eq_some.mpr ⟨s, .inl rfl, nonempty, read, fits⟩

/-- A text without a sign that is read is one of digits. -/
theorem digits_of_fromStrRadix {bound radix n : Nat} {s : List Char}
    (read : fromStrRadix bound radix s = some n) (unsigned : s.head? ≠ some '+') :
    Digits radix s ∧ s ≠ [] := by
  obtain ⟨digits, rfl | rfl, nonempty, value, -⟩ := fromStrRadix_eq_some.mp read
  · exact ⟨digits_of_ofDigits value, nonempty⟩
  · exact absurd rfl unsigned

/-- Digits stand for a number. -/
theorem exists_ofDigits {radix : Nat} {s : List Char} (digits : Digits radix s) :
    ∃ n, ofDigits radix s = some n := by
  induction s using List.reverseRecOn with
  | nil => exact ⟨0, rfl⟩
  | append_singleton s c ih =>
      obtain ⟨n, front⟩ := ih fun e mem => digits e (List.mem_append_left _ mem)
      obtain ⟨d, digit⟩ := Option.isSome_iff_exists.mp (digits c (by simp))
      refine ⟨n * radix + d, ?_⟩
      rw [ofDigits_append, front, Option.bind_some, List.foldlM_cons, digit]
      rfl

theorem fromStrRadix_of_digits {bound radix n : Nat} {s : List Char} (digits : Digits radix s)
    (nonempty : s ≠ []) :
    fromStrRadix bound radix s = some n ↔ ofDigits radix s = some n ∧ n < bound := by
  rw [fromStrRadix_eq_some]
  constructor
  · rintro ⟨digits', rfl | rfl, -, read, below⟩
    · exact ⟨read, below⟩
    · have sign := digits '+' List.mem_cons_self
      simp [not_digit_plus] at sign
  · rintro ⟨read, below⟩
    exact ⟨s, .inl rfl, nonempty, read, below⟩

/-- A digit is a letter or a decimal digit, and takes one byte. -/
theorem alphanum_of_toDigit {radix : Nat} {c : Char} (digit : (toDigit radix c).isSome) :
    c.isAlphanum ∧ c.utf8Size = 1 := by
  obtain ⟨n, value⟩ := Option.isSome_iff_exists.mp digit
  rw [toDigit, Option.filter_eq_some_iff] at value
  have small {last : Char} (upTo : c ≤ last) (ascii : last.val ≤ 0x7f) : c.utf8Size = 1 :=
    if_pos (UInt32.le_trans upTo ascii)
  have shape := value.1
  split at shape
  next decimal =>
    refine ⟨?_, small decimal.2 (by decide)⟩
    simp only [Char.isAlphanum, Bool.or_eq_true]
    exact .inr (by simpa [Char.isDigit, Char.le_def] using decimal)
  next =>
    split at shape
    next lower =>
      refine ⟨?_, small lower.2 (by decide)⟩
      have letter : c.isLower := Bool.and_eq_true_iff.mpr ⟨decide_eq_true lower.1,
        decide_eq_true (UInt32.le_trans lower.2 (by decide))⟩
      simp only [Char.isAlphanum, Bool.or_eq_true]
      exact .inl (Bool.or_eq_true_iff.mpr (.inr letter))
    next =>
      split at shape
      next upper =>
        refine ⟨?_, small upper.2 (by decide)⟩
        have letter : c.isUpper := decide_eq_true ⟨upper.1, UInt32.le_trans upper.2 (by decide)⟩
        simp only [Char.isAlphanum, Bool.or_eq_true]
        exact .inl (Bool.or_eq_true_iff.mpr (.inl letter))
      next => cases shape

theorem Digits.utf8Size {radix : Nat} {s : List Char} (digits : Digits radix s) :
    (s.map Char.utf8Size).sum = s.length := by
  induction s with
  | nil => rfl
  | cons c s ih =>
      have rest := ih fun d mem => digits d (List.mem_cons_of_mem _ mem)
      rw [List.map_cons, List.sum_cons, rest, (alphanum_of_toDigit (digits c List.mem_cons_self)).2,
        List.length_cons, Nat.add_comm]

end Text
