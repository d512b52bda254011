import Mathlib.Data.List.Induction
import Mathlib.Tactic.Common

/-! Ledgers: histories of events that give resources and take them back, and what is outstanding at
the end. -/

namespace Ledger

variable {ε ρ : Type} [DecidableEq ρ] (gives : List ε → ε → Option ρ) (takes : ε → Option ρ)

/-- What an event leaves of the resources that were outstanding before it. -/
def settle (event : ε) (resources : List ρ) : List ρ :=
  resources.filter fun resource => takes event ≠ some resource

/-- The resources that are outstanding after events, the last event first. What an event gives may
depend on the events before it. -/
def outstandingRev : List ε → List ρ
  | [] => []
  | event :: before =>
      (gives before.reverse event).toList ++ settle takes event (outstandingRev before)

/-- The resources that are outstanding after events. -/
def outstanding (events : List ε) : List ρ := outstandingRev gives takes events.reverse

variable {gives takes}

@[simp] theorem outstanding_nil : outstanding gives takes [] = [] := rfl

theorem outstanding_concat (events : List ε) (event : ε) :
    outstanding gives takes (events ++ [event]) =
      (gives events event).toList ++ settle takes event (outstanding gives takes events) := by
  rw [outstanding, List.reverse_append, List.reverse_singleton, List.singleton_append,
    outstandingRev, List.reverse_reverse]
  rfl

theorem mem_settle {event : ε} {resources : List ρ} {resource : ρ} :
    resource ∈ settle takes event resources ↔
      resource ∈ resources ∧ takes event ≠ some resource := by
  rw [settle, List.mem_filter, decide_eq_true_iff]

theorem settle_of_none {event : ε} (nothing : takes event = none) (resources : List ρ) :
    settle takes event resources = resources := by
  rw [settle, nothing]
  exact List.filter_eq_self.mpr fun _ _ => rfl

/-- A resource is outstanding where an event has given it and no later event has taken it. -/
theorem mem_outstanding {events : List ε} {resource : ρ} :
    resource ∈ outstanding gives takes events ↔ ∃ before event behind,
      events = before ++ event :: behind ∧ gives before event = some resource ∧
        ∀ later ∈ behind, takes later ≠ some resource := by
  induction events using List.reverseRecOn with
  | nil => simp
  | append_singleton events last ih =>
      rw [outstanding_concat, List.mem_append, Option.mem_toList, mem_settle, ih]
      constructor
      · rintro (given | ⟨⟨before, event, behind, rfl, given, kept⟩, left⟩)
        · exact ⟨events, last, [], rfl, given, by simp⟩
        · refine ⟨before, event, behind ++ [last], by simp, given, ?_⟩
          intro later member
          rcases List.mem_append.mp member with earlier | isLast
          · exact kept later earlier
          · rw [List.mem_singleton.mp isLast]
            exact left
      · rintro ⟨before, event, behind, split, given, kept⟩
        rcases List.eq_nil_or_concat behind with rfl | ⟨front, final, rfl⟩
        · obtain ⟨rfl, same⟩ := List.append_inj' split rfl
          obtain rfl := List.singleton_inj.mp same
          exact .inl given
        · rw [List.concat_eq_append] at split kept
          rw [← List.cons_append, ← List.append_assoc] at split
          obtain ⟨rfl, same⟩ := List.append_inj' split rfl
          obtain rfl := List.singleton_inj.mp same
          refine .inr ⟨⟨before, event, front, rfl, given, ?_⟩, kept _ (by simp)⟩
          exact fun later member => kept later (by simp [member])

end Ledger
