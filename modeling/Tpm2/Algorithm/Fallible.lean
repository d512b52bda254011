import Mathlib.Logic.Relation
import Mathlib.Tactic.Common

/-! Programs that change a state and may fail on the way: what was changed before an error stays
changed. -/

/-- A program on a state `σ` with errors `ε`. -/
abbrev Fallible (ε σ α : Type) := EStateM ε σ α

namespace Fallible

variable {ε φ σ τ α β : Type}

/-- The state that a run leaves behind, whether it succeeded or failed. -/
def after : EStateM.Result ε σ α → σ
  | .ok _ s => s
  | .error _ s => s

@[simp] theorem after_ok (a : α) (s : σ) : after (.ok a s : EStateM.Result ε σ α) = s := rfl
@[simp] theorem after_error (e : ε) (s : σ) : after (.error e s : EStateM.Result ε σ α) = s := rfl

/-- How a run ended. -/
def ending : EStateM.Result ε σ α → Except ε α
  | .ok a _ => .ok a
  | .error e _ => .error e

/-- The value that a run returns, if it succeeds. -/
def value? : EStateM.Result ε σ α → Option α
  | .ok a _ => some a
  | .error _ _ => none

theorem value?_eq_some {r : EStateM.Result ε σ α} {a : α} :
    value? r = some a ↔ r = .ok a (after r) := by
  cases r <;> simp [value?, after]

/-- The program with the given runs. -/
def ofRun (f : σ → EStateM.Result ε σ α) : Fallible ε σ α := f

/-- The result of a computation that has no state. -/
def ofExcept (x : Except ε α) : Fallible ε σ α := fun s =>
  match x with
  | .ok a => .ok a s
  | .error e => .error e s

/-- Runs a program and returns how it ended. -/
def outcome (x : Fallible ε σ α) : Fallible φ σ (Except ε α) := fun s =>
  match x.run s with
  | .ok a s => .ok (.ok a) s
  | .error e s => .ok (.error e) s

/-- Runs a program on one part of the state. -/
def part (get : σ → τ) (set : σ → τ → σ) (x : Fallible ε τ α) : Fallible ε σ α := fun s =>
  match x.run (get s) with
  | .ok a t => .ok a (set s t)
  | .error e t => .error e (set s t)

section
variable {x : Fallible ε σ α} {f : α → Fallible ε σ β} {s t : σ} {a : α} {b : β} {e : ε}

theorem run_bind_eq_ok :
    (x >>= f).run s = .ok b t ↔ ∃ a u, x.run s = .ok a u ∧ (f a).run u = .ok b t := by
  rw [EStateM.run_bind]
  cases x.run s <;> simp

@[simp] theorem run_ofExcept_ok (a : α) (s : σ) :
    (ofExcept (.ok a) : Fallible ε σ α).run s = .ok a s := rfl

@[simp] theorem run_ofExcept_error (e : ε) (s : σ) :
    (ofExcept (.error e) : Fallible ε σ α).run s = .error e s := rfl

@[simp] theorem run_ofExcept_eq_ok {y : Except ε α} :
    (ofExcept y).run s = .ok a t ↔ y = .ok a ∧ s = t := by
  cases y <;> simp

theorem ofExcept_bind (y : Except ε α) (f : α → Except ε β) :
    (ofExcept (y >>= f) : Fallible ε σ β) = ofExcept y >>= fun a => ofExcept (f a) := by
  funext s
  cases y <;> rfl

theorem run_adaptExcept_eq_ok {f : ε → φ} :
    (EStateM.adaptExcept f x).run s = .ok a t ↔ x.run s = .ok a t := by
  rw [EStateM.run_adaptExcept]
  cases x.run s <;> simp

theorem run_outcome (x : Fallible ε σ α) (s : σ) : (outcome x : Fallible φ σ _).run s =
    match x.run s with
    | .ok a s => .ok (.ok a) s
    | .error e s => .ok (.error e) s := rfl

theorem run_part (get : σ → τ) (set : σ → τ → σ) (x : Fallible ε τ α) (s : σ) :
    (part get set x).run s = match x.run (get s) with
      | .ok a t => .ok a (set s t)
      | .error e t => .error e (set s t) := rfl

theorem after_bind_pure (x : Fallible ε σ α) (g : α → β) (s : σ) :
    after ((x >>= fun a => pure (g a)).run s) = after (x.run s) := by
  rw [EStateM.run_bind]
  cases x.run s <;> rfl

theorem after_outcome (x : Fallible ε σ α) (s : σ) :
    after ((outcome x : Fallible φ σ _).run s) = after (x.run s) := by
  rw [run_outcome]
  cases x.run s <;> rfl

theorem after_adaptExcept (f : ε → φ) (x : Fallible ε σ α) (s : σ) :
    after ((EStateM.adaptExcept f x).run s) = after (x.run s) := by
  rw [EStateM.run_adaptExcept]
  cases x.run s <;> rfl

end

/-- Every run of the program, successful or not, takes the state along `R`. -/
def Moves (R : σ → σ → Prop) (x : Fallible ε σ α) : Prop := ∀ s, R s (after (x.run s))

theorem moves_modify {R : σ → σ → Prop} {g : σ → σ} (step : ∀ s, R s (g s)) :
    Moves R (modify g : Fallible ε σ PUnit) := step

namespace Moves

variable {R S T : σ → σ → Prop} {x : Fallible ε σ α} {f : α → Fallible ε σ β}

/-- A program along `R` and then one along `S`, where the first may be the end. -/
theorem andThen (trans : ∀ {a b c}, R a b → S b c → T a c) (stop : ∀ {a b}, R a b → T a b)
    (first : Moves R x) (next : ∀ a, Moves S (f a)) : Moves T (x >>= f) := by
  intro s
  have moved := first s
  rw [EStateM.run_bind]
  cases ran : x.run s with
  | ok a u =>
      rw [ran] at moved
      exact trans moved (next a u)
  | error e u =>
      rw [ran] at moved
      exact stop moved

theorem bind (trans : ∀ {a b c}, R a b → R b c → R a c) (first : Moves R x)
    (next : ∀ a, Moves R (f a)) : Moves R (x >>= f) :=
  andThen (R := R) (S := R) trans id first next

theorem pure (refl : ∀ a, R a a) (a : α) : Moves R (Pure.pure a : Fallible ε σ α) := refl

theorem get (refl : ∀ a, R a a) : Moves R (MonadState.get : Fallible ε σ σ) := refl

theorem throw (refl : ∀ a, R a a) (e : ε) : Moves R (MonadExcept.throw e : Fallible ε σ α) := refl

theorem ofExcept (refl : ∀ a, R a a) (y : Except ε α) : Moves R (Fallible.ofExcept y) := by
  intro s
  cases y <;> exact refl s

theorem outcome (moves : Moves R x) : Moves R (Fallible.outcome x : Fallible φ σ _) := by
  intro s
  rw [after_outcome]
  exact moves s

theorem adaptExcept (f : ε → φ) (moves : Moves R x) : Moves R (EStateM.adaptExcept f x) := by
  intro s
  rw [after_adaptExcept]
  exact moves s

end Moves
end Fallible
