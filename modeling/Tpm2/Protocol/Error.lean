import Tpm2.ByteCodec.Framing

/-! Marshaling errors: each carries the byte offset at which it arose and the counts that describe
it. -/

namespace Tpm2

/-- `usize::MAX` on a 64-bit target. -/
def usizeMax : Nat := 2 ^ 64 - 1

/-- `u16::MAX`. -/
def u16Max : Nat := 2 ^ 16 - 1

/-- `u32::MAX`. -/
def u32Max : Nat := 2 ^ 32 - 1

inductive TpmError
  | bufferOverflow (offset needed available : Nat)
  | integerTooLarge (offset : Nat) (value : UInt64)
  | invalidBoolean (offset : Nat) (value : UInt64)
  | invalidCc (offset : Nat) (value : UInt64)
  | invalidMagicNumber (offset : Nat) (value : UInt64)
  | invalidRc (offset : Nat) (value : UInt64)
  | invalidTag (offset : Nat) (value : UInt64)
  | tooManyBytes (offset limit actual : Nat)
  | tooManyItems (offset limit actual : Nat)
  | trailingData (offset actual : Nat)
  | unexpectedEnd (offset needed available : Nat)
  | variantNotAvailable (offset : Nat) (value : UInt64)
  deriving DecidableEq

abbrev TpmResult (α : Type) := Except TpmError α

/-- `tpm_value`: a count as it appears in an error. -/
def tpmValue (value : Nat) : UInt64 := UInt64.ofNat value

/-- `usize::saturating_add`. -/
def saturatingAdd (lhs rhs : Nat) : Nat := min (lhs + rhs) usizeMax

/-- `usize::checked_add`. -/
def checkedAdd? (lhs rhs : Nat) : Option Nat :=
  if lhs + rhs ≤ usizeMax then some (lhs + rhs) else none

/-- `usize::checked_mul`. -/
def checkedMul? (lhs rhs : Nat) : Option Nat :=
  if lhs * rhs ≤ usizeMax then some (lhs * rhs) else none

/-- `Option::ok_or`. -/
def okOr {α : Type} (value : Option α) (e : TpmError) : TpmResult α :=
  match value with
  | some value => .ok value
  | none => .error e

@[simp] theorem okOr_eq_ok {α : Type} {value : Option α} {e : TpmError} {a : α} :
    okOr value e = .ok a ↔ value = some a := by
  cases value <;> simp [okOr]

@[simp] theorem checkedAdd?_eq_some {lhs rhs sum : Nat} :
    checkedAdd? lhs rhs = some sum ↔ lhs + rhs ≤ usizeMax ∧ lhs + rhs = sum := by
  simp [checkedAdd?]

@[simp] theorem checkedMul?_eq_some {lhs rhs product : Nat} :
    checkedMul? lhs rhs = some product ↔ lhs * rhs ≤ usizeMax ∧ lhs * rhs = product := by
  simp [checkedMul?]

namespace TpmError

def offset : TpmError → Nat
  | bufferOverflow offset _ _ => offset
  | integerTooLarge offset _ => offset
  | invalidBoolean offset _ => offset
  | invalidCc offset _ => offset
  | invalidMagicNumber offset _ => offset
  | invalidRc offset _ => offset
  | invalidTag offset _ => offset
  | tooManyBytes offset _ _ => offset
  | tooManyItems offset _ _ => offset
  | trailingData offset _ => offset
  | unexpectedEnd offset _ _ => offset
  | variantNotAvailable offset _ => offset

/-- Shifts the byte offset by `delta` bytes. -/
def rebase (delta : Nat) : TpmError → TpmError
  | bufferOverflow offset needed available =>
      bufferOverflow (saturatingAdd offset delta) needed available
  | integerTooLarge offset value => integerTooLarge (saturatingAdd offset delta) value
  | invalidBoolean offset value => invalidBoolean (saturatingAdd offset delta) value
  | invalidCc offset value => invalidCc (saturatingAdd offset delta) value
  | invalidMagicNumber offset value => invalidMagicNumber (saturatingAdd offset delta) value
  | invalidRc offset value => invalidRc (saturatingAdd offset delta) value
  | invalidTag offset value => invalidTag (saturatingAdd offset delta) value
  | tooManyBytes offset limit actual => tooManyBytes (saturatingAdd offset delta) limit actual
  | tooManyItems offset limit actual => tooManyItems (saturatingAdd offset delta) limit actual
  | trailingData offset actual => trailingData (saturatingAdd offset delta) actual
  | unexpectedEnd offset needed available =>
      unexpectedEnd (saturatingAdd offset delta) needed available
  | variantNotAvailable offset value => variantNotAvailable (saturatingAdd offset delta) value

end TpmError
end Tpm2
