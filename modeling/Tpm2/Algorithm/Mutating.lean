import Tpm2.Algorithm.Checked

/-! Programs that change a state in place: they may fail, and then what was changed stays changed,
or they may panic, and then there is neither a result nor a state. -/

/-- A program on a state `σ` that returns `α`, fails with `ε` or panics. -/
abbrev Mutating (ε σ α : Type) := ExceptT ε (StateT σ Option) α

namespace Mutating

variable {ε σ α β ω : Type}

/-- How a run from `s` ends: the result and the state, unless it panics. -/
def outcome (program : Mutating ε σ α) (s : σ) : Option (Except ε α × σ) := program.run.run s

/-- A program given by its runs. -/
def ofRun (run : σ → Option (Except ε α × σ)) : Mutating ε σ α := ExceptT.mk run

/-- Changes the state, or panics. -/
def modify? (change : σ → Option σ) : Mutating ε σ Unit :=
  ofRun fun s => (change s).map fun s' => (.ok (), s')

/-- Panics where there is no value. -/
def orPanic (value : Option α) : Mutating ε σ α :=
  ofRun fun s => value.map fun a => (.ok a, s)

/-- A result that does not depend on the state. -/
def result (value : Except ε α) : Mutating ε σ α := ofRun fun s => some (value, s)

/-- The run from `s` ends with this result and in this state. -/
def Ends (program : Mutating ε σ α) (s : σ) (value : Except ε α) (s' : σ) : Prop :=
  program.outcome s = some (value, s')

theorem Ends.unique {program : Mutating ε σ α} {s s₁ s₂ : σ} {value₁ value₂ : Except ε α}
    (ends₁ : program.Ends s value₁ s₁) (ends₂ : program.Ends s value₂ s₂) :
    value₁ = value₂ ∧ s₁ = s₂ :=
  Prod.mk.inj (Option.some.inj (ends₁.symm.trans ends₂))

theorem ends_pure (a : α) (s : σ) : (pure a : Mutating ε σ α).Ends s (.ok a) s := rfl

theorem ends_throw (e : ε) (s : σ) : (throw e : Mutating ε σ α).Ends s (.error e) s := rfl

theorem ends_get (s : σ) : (get : Mutating ε σ σ).Ends s (.ok s) s := rfl

theorem ends_modify (f : σ → σ) (s : σ) :
    (modify f : Mutating ε σ PUnit).Ends s (.ok ()) (f s) := rfl

theorem ends_result (value : Except ε α) (s : σ) :
    (result value : Mutating ε σ α).Ends s value s := rfl

theorem ends_orPanic {value : Option α} {a : α} (inRange : value = some a) (s : σ) :
    (orPanic value : Mutating ε σ α).Ends s (.ok a) s := by
  rw [inRange]
  rfl

theorem ends_modify? {change : σ → Option σ} {s s' : σ} (changed : change s = some s') :
    (modify? change : Mutating ε σ Unit).Ends s (.ok ()) s' := by
  unfold Ends outcome modify? ofRun
  change (change s).map _ = _
  rw [changed]
  rfl

/-- After a first program that succeeds, the second one runs in the state it left. -/
theorem Ends.bind {program : Mutating ε σ α} {next : α → Mutating ε σ β} {s t u : σ} {a : α}
    {value : Except ε β} (first : program.Ends s (.ok a) t) (second : (next a).Ends t value u) :
    (program >>= next).Ends s value u := by
  unfold Ends outcome at *
  rw [ExceptT.run_bind, StateT.run_bind, first]
  exact second

/-- A first program that fails is all that runs. -/
theorem Ends.bind_error {program : Mutating ε σ α} {s t : σ} {e : ε}
    (first : program.Ends s (.error e) t) (next : α → Mutating ε σ β) :
    (program >>= next).Ends s (.error e) t := by
  unfold Ends outcome at *
  rw [ExceptT.run_bind, StateT.run_bind, first]
  rfl

namespace Ends

/-- Where two programs in a row succeed, the first one has, and the second one behind it. -/
theorem of_bind {program : Mutating ε σ α} {next : α → Mutating ε σ β} {s u : σ} {b : β}
    (ends : (program >>= next).Ends s (.ok b) u) :
    ∃ a t, program.Ends s (.ok a) t ∧ (next a).Ends t (.ok b) u := by
  unfold Ends outcome at *
  rw [ExceptT.run_bind, StateT.run_bind] at ends
  cases ran : program.run.run s with
  | none =>
      rw [ran] at ends
      cases ends
  | some ending =>
      obtain ⟨value, t⟩ := ending
      rw [ran] at ends
      cases value with
      | error e => cases ends
      | ok a => exact ⟨a, t, rfl, ends⟩

theorem of_pure {a b : α} {s t : σ} (ends : (pure a : Mutating ε σ α).Ends s (.ok b) t) : a = b :=
  Except.ok.inj (ends.unique (ends_pure a s)).1.symm

theorem of_result {value : Except ε α} {a : α} {s t : σ}
    (ends : (result value).Ends s (.ok a) t) : value = .ok a :=
  (ends.unique (ends_result value s)).1.symm

theorem of_adapt {φ : Type} {f : ε → φ} {program : Mutating ε σ α} {a : α} {s t : σ}
    (ends : Ends (ExceptT.adapt f program) s (.ok a) t) :
    program.Ends s (.ok a) t := by
  unfold Ends outcome at ends
  rw [ExceptT.run_adapt, StateT.run_map] at ends
  obtain ⟨⟨value, u⟩, ran, same⟩ := Option.map_eq_some_iff.mp ends
  cases value with
  | error e => cases same
  | ok a =>
      cases same
      exact ran

end Ends

/-- Every run of the program that ends takes the state along `R`. -/
def Moves (R : σ → σ → Prop) (program : Mutating ε σ α) : Prop :=
  ∀ s value t, program.Ends s value t → R s t

namespace Moves

variable {φ : Type} {R : σ → σ → Prop} {program : Mutating ε σ α} {next : α → Mutating ε σ β}

theorem bind (trans : ∀ {a b c}, R a b → R b c → R a c) (first : Moves R program)
    (second : ∀ a, Moves R (next a)) : Moves R (program >>= next) := by
  intro s value t ends
  unfold Ends outcome at ends
  rw [ExceptT.run_bind, StateT.run_bind] at ends
  cases ran : program.run.run s with
  | none =>
      rw [ran] at ends
      cases ends
  | some ending =>
      obtain ⟨ended, u⟩ := ending
      have moved := first s ended u ran
      rw [ran] at ends
      cases ended with
      | error e =>
          cases ends
          exact moved
      | ok a => exact trans moved (second a u value t ends)

theorem pure (refl : ∀ s, R s s) (a : α) : Moves R (Pure.pure a : Mutating ε σ α) := by
  intro s value t ends
  cases ends
  exact refl s

theorem throw (refl : ∀ s, R s s) (e : ε) : Moves R (MonadExcept.throw e : Mutating ε σ α) := by
  intro s value t ends
  cases ends
  exact refl s

theorem result (refl : ∀ s, R s s) (value : Except ε α) :
    Moves R (Mutating.result value : Mutating ε σ α) := by
  intro s value t ends
  cases ends
  exact refl s

theorem orPanic (refl : ∀ s, R s s) (value : Option α) :
    Moves R (Mutating.orPanic value : Mutating ε σ α) := by
  intro s ended t ends
  cases value with
  | none => cases ends
  | some a =>
      cases ends
      exact refl s

theorem adapt (f : ε → φ) (moves : Moves R program) : Moves R (ExceptT.adapt f program) := by
  intro s value t ends
  unfold Ends outcome at ends
  rw [ExceptT.run_adapt, StateT.run_map] at ends
  obtain ⟨⟨ended, u⟩, ran, same⟩ := Option.map_eq_some_iff.mp ends
  cases same
  exact moves s ended _ ran

end Moves

/-- A program whose value is only converted afterwards. -/
theorem ends_bind_pure_iff {program : Mutating ε σ α} {f : α → β} {s t : σ} {b : β} :
    (do return f (← program) : Mutating ε σ β).Ends s (.ok b) t ↔
      ∃ a, program.Ends s (.ok a) t ∧ f a = b := by
  unfold Ends outcome
  rw [ExceptT.run_bind, StateT.run_bind]
  cases program.run.run s with
  | none => exact iff_of_false nofun nofun
  | some ending =>
      obtain ⟨value, u⟩ := ending
      cases value with
      | error e => exact iff_of_false nofun nofun
      | ok a =>
          change some (Except.ok (f a), u) = some (.ok b, t) ↔ _
          simp only [Option.some.injEq, Prod.mk.injEq, Except.ok.injEq]
          constructor
          · rintro ⟨same, rfl⟩
            exact ⟨a, ⟨rfl, rfl⟩, same⟩
          · rintro ⟨a', ⟨rfl, rfl⟩, same⟩
            exact ⟨same, rfl⟩

/-- The results of a list of calls, one after the other on the same state, and the state after the
last of them; a call that fails does not keep the next one from being made. -/
def runCalls (apply : ω → Mutating ε σ α) : List ω → σ → Option (List (Except ε α) × σ)
  | [], s => some ([], s)
  | call :: calls, s => do
      let (value, s) ← (apply call).outcome s
      let (values, s) ← runCalls apply calls s
      return (value :: values, s)

theorem runCalls_cons {apply : ω → Mutating ε σ α} {call : ω} {calls : List ω} {s t u : σ}
    {value : Except ε α} {values : List (Except ε α)} (first : (apply call).Ends s value t)
    (others : runCalls apply calls t = some (values, u)) :
    runCalls apply (call :: calls) s = some (value :: values, u) := by
  unfold Ends at first
  rw [runCalls, first]
  change (runCalls apply calls t).bind _ = _
  rw [others]
  rfl

section
variable {L : Type} {done : L → Bool} {body : L → Mutating ε σ L}

/-- A loop that runs a program on its variables until these say that they are done, `fuel` rounds at
most: it returns `none` when it would go on then. -/
def loop (done : L → Bool) (body : L → Mutating ε σ L) : (fuel : Nat) → L →
    Mutating ε σ (Option L)
  | 0, vars => pure (if done vars then some vars else none)
  | fuel + 1, vars =>
      if done vars then
        pure (some vars)
      else do
        let vars ← body vars
        loop done body fuel vars

theorem loop_done {fuel : Nat} {vars : L} {s : σ} (isDone : done vars = true) :
    (loop done body fuel vars).Ends s (.ok (some vars)) s := by
  cases fuel with
  | zero =>
      rw [loop, if_pos isDone]
      exact ends_pure _ _
  | succ fuel =>
      rw [loop, if_pos isDone]
      exact ends_pure _ _

/-- A loop whose rounds succeed, keep an invariant and lower a measure returns, with the invariant,
after as many rounds as the measure says. -/
theorem loop_ends {Inv : L → σ → Prop} {measure : L → Nat}
    (round : ∀ vars s, Inv vars s → done vars = false → ∃ next t,
      (body vars).Ends s (.ok next) t ∧ Inv next t ∧ measure next < measure vars)
    (fuel : Nat) {vars : L} {s : σ} (inv : Inv vars s) (enough : measure vars ≤ fuel) :
    ∃ last t, (loop done body fuel vars).Ends s (.ok (some last)) t ∧ done last = true ∧
      Inv last t := by
  induction fuel generalizing vars s with
  | zero =>
      by_cases isDone : done vars = true
      · exact ⟨vars, s, loop_done isDone, isDone, inv⟩
      · obtain ⟨next, t, -, -, lower⟩ := round vars s inv ((Bool.not_eq_true _).mp isDone)
        omega
  | succ fuel ih =>
      by_cases isDone : done vars = true
      · exact ⟨vars, s, loop_done isDone, isDone, inv⟩
      · obtain ⟨next, t, ran, kept, lower⟩ := round vars s inv ((Bool.not_eq_true _).mp isDone)
        obtain ⟨last, u, rest, ended, holds⟩ := ih kept (by omega)
        refine ⟨last, u, ?_, ended, holds⟩
        rw [loop, if_neg isDone]
        exact ran.bind rest

/-- What the rounds may do to the state, the loop may do. -/
theorem loop_moves {R : σ → σ → Prop} (refl : ∀ s, R s s)
    (trans : ∀ {a b c}, R a b → R b c → R a c) (round : ∀ vars, Moves R (body vars)) (fuel : Nat)
    (vars : L) : Moves R (loop done body fuel vars) := by
  induction fuel generalizing vars with
  | zero => exact .pure refl _
  | succ fuel ih =>
      rw [loop]
      split
      · exact .pure refl _
      · exact .bind trans (round vars) ih

end

end Mutating
