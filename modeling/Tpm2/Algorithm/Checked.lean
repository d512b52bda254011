import Mathlib.Tactic.Common

/-! Programs that may panic: they return a value or an error, or nothing at all. -/

/-- A program that returns `α` or fails with `ε`, and has no result where it panics. -/
abbrev Checked (ε α : Type) := ExceptT ε Option α

namespace Checked

variable {ε α β : Type}

/-- A program that does not panic. -/
def result (value : Except ε α) : Checked ε α := ExceptT.mk (some value)

/-- Panics where there is no value. -/
def orPanic (value : Option α) : Checked ε α := ExceptT.lift value

/-- The program does not panic, and returns what `value` says. -/
def Returns (program : Checked ε α) (value : Except ε α) : Prop := program.run = some value

namespace Returns

theorem of_result (value : Except ε α) : Returns (result value) value := rfl

theorem orPanic {value : Option α} {a : α} (inRange : value = some a) :
    Returns (orPanic value : Checked ε α) (.ok a) := by
  rw [inRange]
  rfl

/-- What is in range does not matter to what comes behind it. -/
theorem orPanic_bind {value : Option α} {a : α} {next : α → Checked ε β} {rest : Except ε β}
    (inRange : value = some a) (returns : Returns (next a) rest) :
    Returns (Checked.orPanic value >>= next) rest := by
  rw [inRange]
  exact returns

theorem pure (a : α) : Returns (pure a : Checked ε α) (.ok a) := rfl

theorem throw (e : ε) : Returns (throw e : Checked ε α) (.error e) := rfl

/-- The second program has to be looked at for what the first one returns only. -/
theorem bind {program : Checked ε α} {next : α → Checked ε β} {value : Except ε α}
    {g : α → Except ε β} (first : Returns program value)
    (second : ∀ a, value = .ok a → Returns (next a) (g a)) :
    Returns (program >>= next) (value >>= g) := by
  rw [Returns, ExceptT.run_bind, first]
  cases value with
  | error e => rfl
  | ok a => exact second a rfl

theorem map {program : Checked ε α} {value : Except ε α} (f : α → β)
    (returns : Returns program value) : Returns (f <$> program) (value.map f) := by
  rw [Returns, ExceptT.run_map, returns]
  cases value <;> rfl

theorem ite {condition : Prop} [Decidable condition] {program program' : Checked ε α}
    {value value' : Except ε α} (first : condition → Returns program value)
    (second : ¬ condition → Returns program' value') :
    Returns (if condition then program else program') (if condition then value else value') := by
  split
  next holds => exact first holds
  next fails => exact second fails

/-- A program returns one value. -/
theorem unique {program : Checked ε α} {value value' : Except ε α}
    (returns : Returns program value) (returns' : Returns program value') : value = value' :=
  Option.some.inj (returns.symm.trans returns')

end Returns

section
variable {σ ω : Type}

/-- The state after a list of operations, each of which may fail and then changes nothing; there is
none if one of them panics. -/
def runAll (apply : ω → σ → Checked ε σ) : List ω → σ → Option σ
  | [], s => some s
  | op :: ops, s =>
      match (apply op s).run with
      | none => none
      | some (.ok s) => runAll apply ops s
      | some (.error _) => runAll apply ops s

/-- What each operation preserves without a panic, all of them preserve. -/
theorem runAll_preserves {apply : ω → σ → Checked ε σ} {P : σ → Prop}
    (step : ∀ op s, P s → ∃ value, Returns (apply op s) value ∧ ∀ s', value = .ok s' → P s')
    (ops : List ω) {s : σ} (start : P s) : ∃ s', runAll apply ops s = some s' ∧ P s' := by
  induction ops generalizing s with
  | nil => exact ⟨s, rfl, start⟩
  | cons op ops ih =>
      obtain ⟨value, returns, preserved⟩ := step op s start
      rw [runAll, returns]
      cases value with
      | error e => exact ih start
      | ok s' => exact ih (preserved s' rfl)

end
end Checked
