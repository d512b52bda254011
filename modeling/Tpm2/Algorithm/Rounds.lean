import Mathlib.Order.Basic
import Tpm2.Algorithm.Fallible

/-! Loops that run a program on their variables until these say that they are done: such a loop may
have no end, so it is run for a number of rounds. -/

namespace Rounds

variable {ε σ L : Type} (done : L → Bool) (body : L → Fallible ε σ L)

/-- The loop, `fuel` rounds at most: it returns `none` when it would go on then. -/
def loop : (fuel : Nat) → L → Fallible ε σ (Option L)
  | 0, vars => pure (if done vars then some vars else none)
  | fuel + 1, vars =>
      if done vars then
        pure (some vars)
      else do
        let vars ← body vars
        loop fuel vars

/-- The variables and states in which a round of the loop begins or that it leaves behind. -/
inductive Reaches (start : L) (s₀ : σ) : L → σ → Prop
  | start : Reaches start s₀ start s₀
  | round {vars next : L} {s t : σ} : Reaches start s₀ vars s → done vars = false →
      (body vars).run s = .ok next t → Reaches start s₀ next t

/-- The loop has returned or failed after `fuel` rounds. -/
def EndsWithin (fuel : Nat) (start : L) (s₀ : σ) : Prop :=
  ∀ t, (loop done body fuel start).run s₀ ≠ .ok none t

/-- The loop ends within `fuel` rounds, and each of them begins where a check passes. -/
def passes (check : L → σ → Bool) : (fuel : Nat) → L → σ → Bool
  | 0, vars, _ => done vars
  | fuel + 1, vars, s =>
      done vars || check vars s && match (body vars).run s with
        | .ok next t => passes check fuel next t
        | .error _ _ => true

variable {done body} {start vars : L} {s₀ s : σ} {fuel : Nat}

section
variable {check : L → σ → Bool}

theorem passes_going (passed : passes done body check fuel vars s = true)
    (goes : done vars = false) : ∃ less, check vars s = true ∧
      ∀ next t, (body vars).run s = .ok next t → passes done body check less next t = true := by
  cases fuel with
  | zero =>
      rw [passes, goes] at passed
      cases passed
  | succ fuel =>
      rw [passes, goes, Bool.false_or, Bool.and_eq_true] at passed
      refine ⟨fuel, passed.1, fun next t ran => ?_⟩
      have rest := passed.2
      rwa [ran] at rest

/-- A check that passes where the rounds begin passes wherever the loop goes on. -/
theorem Reaches.passed (reached : Reaches done body start s₀ vars s) (goes : done vars = false)
    (passed : passes done body check fuel start s₀ = true) : check vars s = true := by
  have later : ∃ less, passes done body check less vars s = true := by
    clear goes
    induction reached with
    | start => exact ⟨fuel, passed⟩
    | round _ goes ran ih =>
        obtain ⟨fuel, passed⟩ := ih
        obtain ⟨less, -, rest⟩ := passes_going passed goes
        exact ⟨less, rest _ _ ran⟩
  obtain ⟨fuel, passed⟩ := later
  obtain ⟨less, now, -⟩ := passes_going passed goes
  exact now

end

theorem run_loop_done (isDone : done vars = true) :
    (loop done body fuel vars).run s = .ok (some vars) s := by
  cases fuel <;> simp [loop, isDone]

theorem endsWithin_of_done (isDone : done vars = true) : EndsWithin done body fuel vars s := by
  intro t
  rw [run_loop_done isDone]
  simp

theorem endsWithin_succ (goes : done vars = false) :
    EndsWithin done body (fuel + 1) vars s ↔
      ∀ next t, (body vars).run s = .ok next t → EndsWithin done body fuel next t := by
  unfold EndsWithin
  rw [loop, goes, if_neg (by simp), EStateM.run_bind]
  cases ran : (body vars).run s with
  | ok next t =>
      constructor
      · rintro ends _ _ ⟨⟩
        exact ends
      · intro ends
        exact ends next t rfl
  | error e t => simp

/-- A loop whose rounds all lower a measure has at most as many as the measure says. -/
theorem endsWithin_of_lowers (measure : L → Nat)
    (goes : ∀ vars, done vars = false → 0 < measure vars)
    (lowers : ∀ vars s next t, Reaches done body start s₀ vars s → done vars = false →
      (body vars).run s = .ok next t → measure next < measure vars) :
    EndsWithin done body (measure start) start s₀ := by
  suffices ends : ∀ fuel vars s, Reaches done body start s₀ vars s → measure vars ≤ fuel →
      EndsWithin done body fuel vars s from ends _ _ _ .start (Nat.le_refl _)
  intro fuel
  induction fuel with
  | zero =>
      intro vars s _ le
      apply endsWithin_of_done
      by_contra notDone
      have positive := goes vars ((Bool.not_eq_true _).mp notDone)
      omega
  | succ fuel ih =>
      intro vars s reached le
      by_cases isDone : done vars = true
      · exact endsWithin_of_done isDone
      · have goesOn := (Bool.not_eq_true _).mp isDone
        apply (endsWithin_succ goesOn).mpr
        intro next t ran
        have lower := lowers vars s next t reached goesOn ran
        exact ih next t (reached.round goesOn ran) (by omega)

/-- A loop whose rounds change nothing of its variables has no end. -/
theorem not_endsWithin_of_stuck (goes : done vars = false) (stuck : σ → Prop)
    (stays : ∀ s, stuck s → ∃ t, (body vars).run s = .ok vars t ∧ stuck t) (now : stuck s) :
    ¬ EndsWithin done body fuel vars s := by
  induction fuel generalizing s with
  | zero =>
      intro ends
      apply ends s
      simp [loop, goes]
  | succ fuel ih =>
      intro ends
      obtain ⟨t, ran, still⟩ := stays s now
      exact ih still ((endsWithin_succ goes).mp ends vars t ran)

/-- A loop whose rounds succeed, keep an invariant and lower a measure returns, with the invariant,
after as many rounds as the measure says. -/
theorem loop_returns {Inv : L → σ → Prop} {measure : L → Nat}
    (round : ∀ vars s, Inv vars s → done vars = false → ∃ next t,
      (body vars).run s = .ok next t ∧ Inv next t ∧ measure next < measure vars)
    (fuel : Nat) {vars : L} {s : σ} (inv : Inv vars s) (enough : measure vars ≤ fuel) :
    ∃ last t, (loop done body fuel vars).run s = .ok (some last) t ∧ done last = true ∧
      Inv last t := by
  induction fuel generalizing vars s with
  | zero =>
      by_cases isDone : done vars = true
      · exact ⟨vars, s, run_loop_done isDone, isDone, inv⟩
      · obtain ⟨next, t, -, -, lower⟩ := round vars s inv ((Bool.not_eq_true _).mp isDone)
        omega
  | succ fuel ih =>
      by_cases isDone : done vars = true
      · exact ⟨vars, s, run_loop_done isDone, isDone, inv⟩
      · obtain ⟨next, t, ran, kept, lower⟩ := round vars s inv ((Bool.not_eq_true _).mp isDone)
        obtain ⟨last, u, rest, ended, holds⟩ := ih kept (by omega)
        refine ⟨last, u, ?_, ended, holds⟩
        rw [loop, if_neg isDone, EStateM.run_bind, ran]
        exact rest

/-- A loop that returns goes through all the variables and states that it reaches. -/
theorem Reaches.loop_returns (reached : Reaches done body start s₀ vars s) {last : L} {t : σ}
    (ran : (loop done body fuel start).run s₀ = .ok (some last) t) :
    ∃ fuel', (loop done body fuel' vars).run s = .ok (some last) t := by
  induction reached with
  | start => exact ⟨fuel, ran⟩
  | round _ goes once ih =>
      obtain ⟨fuel', ran⟩ := ih
      cases fuel' with
      | zero =>
          rw [loop, if_neg (by simp [goes])] at ran
          cases ran
      | succ fuel' =>
          rw [loop, if_neg (by simp [goes]), EStateM.run_bind, once] at ran
          exact ⟨fuel', ran⟩

/-- Where the loop goes on, its next round succeeds. -/
theorem Reaches.round_ok (reached : Reaches done body start s₀ vars s) (goes : done vars = false)
    {last : L} {t : σ} (ran : (loop done body fuel start).run s₀ = .ok (some last) t) :
    ∃ next u, (body vars).run s = .ok next u := by
  obtain ⟨fuel', ran⟩ := reached.loop_returns ran
  cases fuel' with
  | zero =>
      rw [loop, if_neg (by simp [goes])] at ran
      cases ran
  | succ fuel' =>
      rw [loop, if_neg (by simp [goes])] at ran
      obtain ⟨next, u, once, -⟩ := Fallible.run_bind_eq_ok.mp ran
      exact ⟨next, u, once⟩

/-- What a round may do to the state, a loop may do once for each of its rounds. -/
theorem loop_moves {R : Nat → σ → σ → Prop} (nothing : ∀ n s, R n s s)
    (more : ∀ {n a b c}, R 1 a b → R n b c → R (n + 1) a c)
    (mono : ∀ {n a b}, R 1 a b → R (n + 1) a b)
    (body_moves : ∀ vars, Fallible.Moves (R 1) (body vars)) :
    Fallible.Moves (R fuel) (loop done body fuel vars) := by
  induction fuel generalizing vars with
  | zero => exact Fallible.Moves.pure (nothing 0) _
  | succ fuel ih =>
      rw [loop]
      split
      next => exact Fallible.Moves.pure (nothing _) _
      next =>
        exact Fallible.Moves.andThen (R := R 1) (S := R fuel) more mono (body_moves vars)
          fun _ => ih

end Rounds
