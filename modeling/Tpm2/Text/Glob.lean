import Tpm2.Text.Masked
import Tpm2.Text.Number

/-! Glob patterns over hexadecimal digits: `?` stands for one digit, `*` for any run of digits, and
a digit for itself in either case. -/

namespace Text

/-- The text matches the pattern. -/
def Glob : List Char → List Char → Prop
  | [], text => text = []
  | c :: pattern, text =>
      if c = '*' then
        ∃ run rest, text = run ++ rest ∧ Glob pattern rest
      else
        ∃ d rest, text = d :: rest ∧ (c = '?' ∨ c.toLower = d.toLower) ∧ Glob pattern rest

/-- A pattern without a star matches texts of its own length only. -/
theorem Glob.length {pattern text : List Char} (single : '*' ∉ pattern)
    (glob : Glob pattern text) : text.length = pattern.length := by
  induction pattern generalizing text with
  | nil => rw [show text = [] from glob]
  | cons c pattern ih =>
      have plain : c ≠ '*' := fun star => single (star ▸ List.mem_cons_self)
      rw [Glob, if_neg plain] at glob
      obtain ⟨d, rest, rfl, -, glob⟩ := glob
      rw [List.length_cons, List.length_cons,
        ih (fun star => single (List.mem_cons_of_mem _ star)) glob]

/-- The digits that can stand in a pattern. -/
def hexDigits : List Char := "0123456789abcdefABCDEF".toList

theorem toNat_lt_of_utf8Size {c : Char} (single : c.utf8Size = 1) : c.toNat < 128 := by
  by_contra wide
  have large : ¬ c.val ≤ 0x7f := fun le => wide (Nat.lt_succ_of_le (UInt32.le_iff_toNat_le.mp le))
  have size : c.utf8Size = if c.val ≤ 0x7f then 1 else if c.val ≤ 0x7ff then 2
      else if c.val ≤ 0xffff then 3 else 4 := rfl
  rw [size, if_neg large] at single
  split at single
  · cases single
  · split at single <;> cases single

theorem mem_hexDigits {c : Char} {v : Nat} (digit : toDigit 16 c = some v) : c ∈ hexDigits := by
  have table : ((List.range 128).all fun n =>
      decide ((toDigit 16 (Char.ofNat n)).isSome → (hexDigits.any (· == Char.ofNat n)) = true))
        = true := by
    decide +kernel
  have known : (toDigit 16 c).isSome := by
    rw [digit]
    rfl
  have ascii := toNat_lt_of_utf8Size (alphanum_of_toDigit known).2
  have row := of_decide_eq_true (List.all_eq_true.mp table c.toNat (List.mem_range.mpr ascii))
  rw [Char.ofNat_toNat] at row
  obtain ⟨d, mem, same⟩ := List.any_eq_true.mp (row known)
  rw [← beq_iff_eq.mp same]
  exact mem

/-- A digit matches the digits of the same value. -/
theorem toLower_eq_iff {c : Char} {v d : Nat} (digit : toDigit 16 c = some v) (small : d < 16) :
    c.toLower = (Nat.digitChar d).toLower ↔ d = v := by
  have table : (hexDigits.all fun c => (List.range 16).all fun d =>
      decide (c.toLower = (Nat.digitChar d).toLower ↔ toDigit 16 c = some d)) = true := by
    decide
  have row := List.all_eq_true.mp table c (mem_hexDigits digit)
  have entry := of_decide_eq_true (List.all_eq_true.mp row d (List.mem_range.mpr small))
  rw [entry, digit, Option.some.injEq]
  exact eq_comm

end Text
