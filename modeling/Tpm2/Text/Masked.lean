import Mathlib.Algebra.GroupWithZero.Nat
import Mathlib.Data.List.Forall2
import Mathlib.Data.List.Induction
import Mathlib.Tactic.Common

/-! Words of hexadecimal digits of which some are known: a mask selects the known digits, and a
value gives them. -/

namespace Text

/-- The number with these hexadecimal digits, most significant first. -/
def ofNibbles (digits : List Nat) : Nat := digits.foldl (fun n d => n * 16 + d) 0

/-- The `width` low hexadecimal digits of a number, most significant first. -/
def nibbles : Nat → Nat → List Nat
  | 0, _ => []
  | width + 1, n => nibbles width (n / 16) ++ [n % 16]

@[simp] theorem ofNibbles_nil : ofNibbles [] = 0 := rfl

@[simp] theorem ofNibbles_concat (digits : List Nat) (d : Nat) :
    ofNibbles (digits ++ [d]) = ofNibbles digits * 16 + d := by
  simp [ofNibbles]

@[simp] theorem length_nibbles (width n : Nat) : (nibbles width n).length = width := by
  induction width generalizing n with
  | zero => rfl
  | succ width ih => rw [nibbles, List.length_append, ih, List.length_singleton]

theorem nibbles_lt {width n d : Nat} (mem : d ∈ nibbles width n) : d < 16 := by
  induction width generalizing n with
  | zero => cases mem
  | succ width ih =>
      rcases List.mem_append.mp mem with front | last
      · exact ih front
      · rw [List.mem_singleton.mp last]
        exact Nat.mod_lt n (by decide)

theorem ofNibbles_nibbles {width n : Nat} (fits : n < 16 ^ width) :
    ofNibbles (nibbles width n) = n := by
  induction width generalizing n with
  | zero => rw [nibbles, ofNibbles_nil]; omega
  | succ width ih =>
      have front : n / 16 < 16 ^ width := by
        rw [Nat.pow_succ] at fits
        exact Nat.div_lt_of_lt_mul (by omega)
      rw [nibbles, ofNibbles_concat, ih front]
      omega

theorem nibbles_ofNibbles {digits : List Nat} (small : ∀ d ∈ digits, d < 16) :
    nibbles digits.length (ofNibbles digits) = digits := by
  induction digits using List.reverseRecOn with
  | nil => rfl
  | append_singleton digits d ih =>
      have front := ih fun e mem => small e (List.mem_append_left _ mem)
      have last := small d (List.mem_append_right _ List.mem_cons_self)
      have high : (ofNibbles digits * 16 + d) / 16 = ofNibbles digits := by omega
      have low : (ofNibbles digits * 16 + d) % 16 = d := by omega
      rw [List.length_append, List.length_singleton, nibbles, ofNibbles_concat, high, low, front]

/-- The digits of a number are the low digits of its shifts, from the largest one on. -/
theorem nibbles_eq_map (width n : Nat) :
    nibbles width n = (List.range width).reverse.map fun i => n >>> (i * 4) % 16 := by
  induction width generalizing n with
  | zero => rfl
  | succ width ih =>
      have shifted (i : Nat) : (n / 16) >>> (i * 4) = n >>> ((i + 1) * 4) := by
        rw [Nat.add_mul, Nat.add_comm (i * 4), Nat.shiftRight_add, Nat.shiftRight_eq_div_pow n]
      rw [nibbles, ih, List.range_succ_eq_map, List.reverse_cons, List.map_append,
        ← List.map_reverse, List.map_map]
      simp only [shifted]
      rfl

theorem nibbles_zero (width : Nat) : nibbles width 0 = List.replicate width 0 := by
  induction width with
  | zero => rfl
  | succ width ih => rw [nibbles, Nat.zero_div, ih, List.replicate_succ']

/-- A number printed with leading zeros is its digits. -/
theorem leftpad_toDigits {width n : Nat} (fits : n < 16 ^ (width + 1)) :
    (Nat.toDigits 16 n).leftpad (width + 1) '0' = (nibbles (width + 1) n).map Nat.digitChar := by
  induction width generalizing n with
  | zero =>
      have digit : n < 16 := fits
      rw [Nat.toDigits_of_lt_base digit, nibbles, Nat.mod_eq_of_lt digit]
      rfl
  | succ width ih =>
      rw [Nat.toDigits_eq_if (by decide)]
      split
      next digit =>
        have none_in_front : n / 16 = 0 := by omega
        rw [nibbles, none_in_front, Nat.mod_eq_of_lt digit, nibbles_zero, List.map_append,
          List.map_replicate]
        rfl
      next more =>
        have front : n / 16 < 16 ^ (width + 1) := by
          rw [Nat.pow_succ] at fits
          exact Nat.div_lt_of_lt_mul (by omega)
        rw [nibbles, List.map_append, ← ih front]
        simp [List.leftpad]

/-- A digit that is known, or nothing. -/
abbrev Cell := Option Nat

def maskDigit (cell : Cell) : Nat := if cell.isSome then 15 else 0

/-- The mask selects the known digits. -/
def mask (cells : List Cell) : Nat := ofNibbles (cells.map maskDigit)

/-- The value has the known digits, and zeros in place of the others. -/
def value (cells : List Cell) : Nat := ofNibbles (cells.map (·.getD 0))

/-- The digits agree with those that are known. -/
def Agree (cells : List Cell) (digits : List Nat) : Prop :=
  List.Forall₂ (fun cell d => ∀ v, cell = some v → d = v) cells digits

theorem agree_append {cells more : List Cell} {digits rest : List Nat}
    (lengths : cells.length = digits.length) :
    Agree (cells ++ more) (digits ++ rest) ↔ Agree cells digits ∧ Agree more rest := by
  induction cells generalizing digits with
  | nil =>
      obtain rfl := List.length_eq_zero_iff.mp lengths.symm
      simp [Agree]
  | cons cell cells ih =>
      cases digits with
      | nil => cases lengths
      | cons d digits =>
          have rest := ih (Nat.succ.inj lengths)
          simp only [Agree, List.cons_append, List.forall₂_cons] at rest ⊢
          rw [rest, and_assoc]

/-- Unknown digits agree with as many digits of any values. -/
theorem agree_replicate_none {n : Nat} {digits : List Nat} :
    Agree (List.replicate n none) digits ↔ digits.length = n := by
  induction n generalizing digits with
  | zero => exact List.forall₂_nil_left_iff.trans List.length_eq_zero_iff.symm
  | succ n ih =>
      cases digits with
      | nil =>
          constructor
          · intro agree
            cases agree
          · intro length
            cases length
      | cons d digits =>
          rw [Agree, List.replicate_succ, List.forall₂_cons, List.length_cons, Nat.succ.injEq]
          exact (and_iff_right fun v known => by cases known).trans ih

/-- Conjunction works on the last digit and on those in front of it. -/
theorem and_nibble {a b c d : Nat} (hc : c < 16) (hd : d < 16) :
    (a * 16 + c) &&& (b * 16 + d) = (a &&& b) * 16 + (c &&& d) := by
  have high : ((a * 16 + c) &&& (b * 16 + d)) / 16 = a &&& b := by
    have split := Nat.and_div_two_pow (a := a * 16 + c) (b := b * 16 + d) (n := 4)
    have ha : (a * 16 + c) / 2 ^ 4 = a := by omega
    have hb : (b * 16 + d) / 2 ^ 4 = b := by omega
    rw [ha, hb] at split
    exact split
  have low : ((a * 16 + c) &&& (b * 16 + d)) % 16 = c &&& d := by
    have split := Nat.and_mod_two_pow (a := a * 16 + c) (b := b * 16 + d) (n := 4)
    have ha : (a * 16 + c) % 2 ^ 4 = c := by omega
    have hb : (b * 16 + d) % 2 ^ 4 = d := by omega
    rw [ha, hb] at split
    exact split
  omega

/-- A digit and its part of the mask. -/
theorem and_maskDigit {d : Nat} (small : d < 16) (cell : Cell) :
    d &&& maskDigit cell = if cell.isSome then d else 0 := by
  cases cell with
  | none => exact Nat.and_zero d
  | some v =>
      change d &&& 2 ^ 4 - 1 = d
      rw [Nat.and_two_pow_sub_one_eq_mod]
      exact Nat.mod_eq_of_lt small

theorem maskDigit_lt (cell : Cell) : maskDigit cell < 16 := by
  unfold maskDigit
  split <;> decide

/-- A word has the value under the mask if and only if its digits agree with the known ones. -/
theorem and_mask_eq_value {cells : List Cell} (known : ∀ v, some v ∈ cells → v < 16)
    {digits : List Nat} (small : ∀ d ∈ digits, d < 16) (lengths : digits.length = cells.length) :
    ofNibbles digits &&& mask cells = value cells ↔ Agree cells digits := by
  induction cells using List.reverseRecOn generalizing digits with
  | nil =>
      obtain rfl := List.length_eq_zero_iff.mp lengths
      exact ⟨fun _ => .nil, fun _ => rfl⟩
  | append_singleton cells cell ih =>
      cases digits using List.reverseRecOn with
      | nil => simp at lengths
      | append_singleton digits d =>
          have hd := small d (List.mem_append_right _ List.mem_cons_self)
          have front := ih (fun v mem => known v (List.mem_append_left _ mem))
            (fun e mem => small e (List.mem_append_left _ mem)) (by simpa using lengths)
          have step : Agree (cells ++ [cell]) (digits ++ [d]) ↔
              Agree cells digits ∧ ∀ v, cell = some v → d = v := by
            have lengths' : cells.length = digits.length := by simpa using lengths.symm
            rw [agree_append lengths']
            simp [Agree]
          have last : (d &&& maskDigit cell = cell.getD 0) ↔ ∀ v, cell = some v → d = v := by
            rw [and_maskDigit hd]
            cases cell with
            | none => simp
            | some v => simp
          have bound : cell.getD 0 < 16 := by
            cases cell with
            | none => decide
            | some v => exact known v (List.mem_append_right _ List.mem_cons_self)
          have low : d &&& maskDigit cell < 16 := Nat.lt_of_le_of_lt Nat.and_le_left hd
          rw [step, ← front, ← last, mask, value, List.map_append, List.map_append,
            List.map_singleton, List.map_singleton, ofNibbles_concat, ofNibbles_concat,
            ofNibbles_concat, and_nibble hd (maskDigit_lt cell)]
          change (ofNibbles digits &&& mask cells) * 16 + _ = value cells * 16 + _ ↔ _
          omega

/-- A digit is put in its place behind the digits in front of it. -/
theorem shiftLeft_or_nibble {d : Nat} (small : d < 16) (a k : Nat) :
    a <<< ((k + 1) * 4) ||| d <<< (k * 4) = (a * 16 + d) <<< (k * 4) := by
  have joined : a <<< 4 ||| d = a * 16 + d := by
    rw [← Nat.shiftLeft_add_eq_or_of_lt small, Nat.shiftLeft_eq]
  rw [Nat.add_mul, Nat.add_comm (k * 4), Nat.shiftLeft_add, ← Nat.shiftLeft_or_distrib, joined]

/-- An unknown digit leaves a gap behind the digits in front of it. -/
theorem shiftLeft_gap (a k : Nat) : a <<< ((k + 1) * 4) = (a * 16 + 0) <<< (k * 4) := by
  have same := shiftLeft_or_nibble (d := 0) (by decide) a k
  rw [Nat.zero_shiftLeft, Nat.or_zero] at same
  exact same

end Text
