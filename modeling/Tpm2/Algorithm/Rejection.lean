import Mathlib.Data.Set.Card
import Tpm2.Algorithm.Mutating

/-! Rejection sampling: candidates are drawn until one is accepted. -/

namespace Rejection

open Mutating

variable {ε σ D α : Type}

/-- The results of successive draws, none of which fails. -/
inductive Draws (draw : σ → Except ε D × σ) : σ → List D → σ → Prop
  | nil (s : σ) : Draws draw s [] s
  | cons {s t u : σ} {d : D} {ds : List D} : draw s = (.ok d, t) → Draws draw t ds u →
      Draws draw s (d :: ds) u

/-- A round of sampling draws one candidate and returns what it is accepted as. -/
structure Samples (draw : σ → Except ε D × σ) (accept : D → Option α)
    (round : Mutating ε σ (Option α)) : Prop where
  ok : ∀ {s t d}, draw s = (.ok d, t) → round.Ends s (.ok (accept d)) t
  error : ∀ {s t e}, draw s = (.error e, t) → round.Ends s (.error e) t

/-- The candidates that are accepted as `a`. -/
def fibre (candidates : Set D) (accept : D → Option α) (a : α) : Set D :=
  {d ∈ candidates | accept d = some a}

/-- Every value of `range` comes from one and the same positive number of candidates. -/
def Even (candidates : Set D) (accept : D → Option α) (range : Set α) : Prop :=
  ∃ count, 0 < count ∧ ∀ a ∈ range, (fibre candidates accept a).ncard = count

/-- The results that `n` draws of candidates may have. -/
def streams (candidates : Set D) (n : Nat) : Set (List D) :=
  {ds | ds.length = n ∧ ∀ d ∈ ds, d ∈ candidates}

/-- The lists with a head and a tail of these sets. -/
def consing (heads : Set D) (tails : Set (List D)) : Set (List D) :=
  (fun pair : D × List D => pair.1 :: pair.2) '' (heads ×ˢ tails)

section
variable {draw : σ → Except ε D × σ} {accept : D → Option α} {round : Mutating ε σ (Option α)}
  (samples : Samples draw accept round) {s t : σ} {d : D} {a : α}
include samples

theorem Samples.fails {e : ε} (drawn : draw s = (.error e, t)) (fuel : Nat) :
    (loop Option.isSome (fun _ => round) (fuel + 1) none).Ends s (.error e) t := by
  rw [loop, if_neg (by simp)]
  exact (samples.error drawn).bind_error _

theorem Samples.accepts (drawn : draw s = (.ok d, t)) (accepted : accept d = some a) (fuel : Nat) :
    (loop Option.isSome (fun _ => round) (fuel + 1) none).Ends s (.ok (some (some a))) t := by
  have first := samples.ok drawn
  rw [accepted] at first
  rw [loop, if_neg (by simp)]
  exact first.bind (loop_done Option.isSome_some)

/-- After a rejected candidate the sampling starts again. -/
theorem Samples.rejects (drawn : draw s = (.ok d, t)) (rejected : accept d = none) (fuel : Nat) :
    (loop Option.isSome (fun _ => round) (fuel + 1) none).outcome s =
      (loop Option.isSome (fun _ => round) fuel none).outcome t := by
  have first := samples.ok drawn
  rw [rejected] at first
  unfold Ends outcome at *
  rw [loop, if_neg (by simp), ExceptT.run_bind, StateT.run_bind, first]
  rfl

/-- Sampling returns the value of the first candidate that is accepted. -/
theorem Samples.returns_iff (fuel : Nat) :
    (loop Option.isSome (fun _ => round) fuel none).Ends s (.ok (some (some a))) t ↔
      ∃ rejected d u, rejected.length < fuel ∧ Draws draw s rejected u ∧
        (∀ r ∈ rejected, accept r = none) ∧ draw u = (.ok d, t) ∧ accept d = some a := by
  constructor
  · intro returns
    induction fuel generalizing s with
    | zero =>
        obtain ⟨same, -⟩ := returns.unique (ends_pure none s)
        cases same
    | succ fuel ih =>
        cases drawn : draw s with
        | mk result s' =>
            cases result with
            | error e =>
                obtain ⟨same, -⟩ := returns.unique (samples.fails drawn fuel)
                cases same
            | ok d =>
                cases accepted : accept d with
                | some b =>
                    obtain ⟨same, rfl⟩ := returns.unique (samples.accepts drawn accepted fuel)
                    cases same
                    exact ⟨[], d, s, Nat.succ_pos fuel, .nil s, by simp, drawn, accepted⟩
                | none =>
                    rw [Ends, samples.rejects drawn accepted fuel] at returns
                    obtain ⟨rejected, d', u, short, draws, none, last, value⟩ := ih returns
                    exact ⟨d :: rejected, d', u, Nat.succ_lt_succ short, .cons drawn draws,
                      List.forall_mem_cons.mpr ⟨accepted, none⟩, last, value⟩
  · rintro ⟨rejected, d, u, short, draws, none, last, value⟩
    induction draws generalizing fuel with
    | nil s =>
        obtain ⟨fuel, rfl⟩ := Nat.exists_eq_succ_of_ne_zero (Nat.ne_of_gt short)
        exact samples.accepts last value fuel
    | cons first _ ih =>
        obtain ⟨fuel, rfl⟩ := Nat.exists_eq_succ_of_ne_zero (Nat.ne_zero_of_lt short)
        obtain ⟨rejects, none⟩ := List.forall_mem_cons.mp none
        rw [Ends, samples.rejects first rejects fuel]
        exact ih fuel (Nat.lt_of_succ_lt_succ short) none last

end

section
variable {candidates : Set D} {accept : D → Option α} {range : Set α} {a : α}

theorem ncard_consing (heads : Set D) (tails : Set (List D)) :
    (consing heads tails).ncard = heads.ncard * tails.ncard := by
  have injective : Function.Injective fun pair : D × List D => pair.1 :: pair.2 := by
    intro pair pair' same
    obtain ⟨head, tail⟩ := List.cons.inj same
    exact Prod.ext head tail
  rw [consing, Set.ncard_image_of_injective _ injective, Set.ncard_prod]

theorem mem_consing {heads : Set D} {tails : Set (List D)} {d : D} {ds : List D} :
    d :: ds ∈ consing heads tails ↔ d ∈ heads ∧ ds ∈ tails := by
  constructor
  · rintro ⟨⟨head, tail⟩, mem, same⟩
    cases same
    exact mem
  · intro mem
    exact ⟨(d, ds), mem, rfl⟩

theorem nil_notMem_consing (heads : Set D) (tails : Set (List D)) : [] ∉ consing heads tails := by
  rintro ⟨pair, -, same⟩
  cases same

theorem streams_zero (candidates : Set D) : streams candidates 0 = {[]} := by
  ext ds
  cases ds <;> simp [streams]

theorem streams_succ (candidates : Set D) (n : Nat) :
    streams candidates (n + 1) = consing candidates (streams candidates n) := by
  ext ds
  cases ds with
  | nil => simp [streams, nil_notMem_consing]
  | cons d ds =>
      rw [mem_consing]
      simp only [streams, Set.mem_ofPred_eq, List.length_cons, Nat.add_right_cancel_iff,
        List.forall_mem_cons]
      tauto

theorem finite_streams (finite : candidates.Finite) (n : Nat) : (streams candidates n).Finite := by
  induction n with
  | zero =>
      rw [streams_zero]
      exact Set.finite_singleton []
  | succ n ih =>
      rw [streams_succ]
      exact (finite.prod ih).image _

theorem streams_nonempty (nonempty : candidates.Nonempty) (n : Nat) :
    (streams candidates n).Nonempty := by
  obtain ⟨d, mem⟩ := nonempty
  exact ⟨List.replicate n d, List.length_replicate, fun d' isIn =>
    List.eq_of_mem_replicate isIn ▸ mem⟩

/-- The first draw gives the value, or it is rejected and the others give the value. -/
theorem fibre_streams_succ (candidates : Set D) (accept : D → Option α) (a : α) (n : Nat) :
    fibre (streams candidates (n + 1)) (List.findSome? accept) a =
      consing (fibre candidates accept a) (streams candidates n) ∪
        consing {d ∈ candidates | accept d = none}
          (fibre (streams candidates n) (List.findSome? accept) a) := by
  ext ds
  cases ds with
  | nil => simp [fibre, nil_notMem_consing]
  | cons d ds =>
      rw [Set.mem_union, mem_consing, mem_consing, fibre, streams_succ, Set.mem_ofPred_eq,
        mem_consing, List.findSome?_cons]
      cases accepted : accept d with
      | none =>
          simp only [fibre, Set.mem_ofPred_eq, accepted]
          tauto
      | some b =>
          simp only [fibre, Set.mem_ofPred_eq, accepted, reduceCtorEq, and_false, false_and,
            or_false]
          tauto

theorem ncard_fibre_streams_succ (finite : candidates.Finite) (accept : D → Option α) (a : α)
    (n : Nat) : (fibre (streams candidates (n + 1)) (List.findSome? accept) a).ncard =
      (fibre candidates accept a).ncard * (streams candidates n).ncard +
        {d ∈ candidates | accept d = none}.ncard *
          (fibre (streams candidates n) (List.findSome? accept) a).ncard := by
  have streamsFinite := finite_streams finite n
  have acceptFinite := ((finite.subset (Set.sep_subset candidates (accept · = some a))).prod
    streamsFinite).image fun pair => pair.1 :: pair.2
  have rejectFinite := ((finite.subset (Set.sep_subset candidates (accept · = none))).prod
    (streamsFinite.subset (Set.sep_subset _ (List.findSome? accept · = some a)))).image
      fun pair => pair.1 :: pair.2
  have disjoint : Disjoint (consing (fibre candidates accept a) (streams candidates n))
      (consing {d ∈ candidates | accept d = none}
        (fibre (streams candidates n) (List.findSome? accept) a)) := by
    rw [Set.disjoint_left]
    intro ds accepted rejected
    cases ds with
    | nil => exact nil_notMem_consing _ _ accepted
    | cons d ds =>
        have value := (mem_consing.mp accepted).1.2
        rw [(mem_consing.mp rejected).1.2] at value
        cases value
  rw [fibre_streams_succ, Set.ncard_union_eq disjoint acceptFinite rejectFinite, ncard_consing,
    ncard_consing]

/-- Where single candidates are even, so are the streams of any number of draws. -/
theorem Even.streams (finite : candidates.Finite) (even : Even candidates accept range) (n : Nat) :
    Even (streams candidates (n + 1)) (List.findSome? accept) range := by
  obtain ⟨count, positive, all⟩ := even
  rcases range.eq_empty_or_nonempty with rfl | ⟨a, inRange⟩
  · exact ⟨1, Nat.one_pos, by simp⟩
  have nonempty : candidates.Nonempty := by
    have some := (Set.ncard_pos (finite.subset (Set.sep_subset _ _))).mp (all a inRange ▸ positive)
    exact some.mono (Set.sep_subset _ _)
  have others (n : Nat) : ∃ count', ∀ a ∈ range,
      (fibre (Rejection.streams candidates n) (List.findSome? accept) a).ncard = count' := by
    induction n with
    | zero =>
        refine ⟨0, fun a _ => ?_⟩
        have empty : fibre (Rejection.streams candidates 0) (List.findSome? accept) a = ∅ := by
          rw [streams_zero]
          ext ds
          simp +contextual [fibre]
        rw [empty, Set.ncard_empty]
    | succ n ih =>
        obtain ⟨count', same⟩ := ih
        refine ⟨count * (Rejection.streams candidates n).ncard +
          {d ∈ candidates | accept d = none}.ncard * count', fun a inRange => ?_⟩
        rw [ncard_fibre_streams_succ finite, all a inRange, same a inRange]
  obtain ⟨count', same⟩ := others n
  refine ⟨count * (Rejection.streams candidates n).ncard +
    {d ∈ candidates | accept d = none}.ncard * count', ?_, fun a inRange => ?_⟩
  · have streams := (Set.ncard_pos (finite_streams finite n)).mpr (streams_nonempty nonempty n)
    exact Nat.add_pos_left (Nat.mul_pos positive streams) _
  · rw [ncard_fibre_streams_succ finite, all a inRange, same a inRange]

end

end Rejection
