import Mathlib.Data.List.Basic
import Mathlib.Tactic.Common

/-! Pages of a list that is sorted by a key: each is asked for by the least key that is wanted. -/

namespace Pagination

variable {α : Type} {key : α → Nat} {held items : List α} {start count : Nat} {more : Bool}

/-- The items from `start` on. -/
def remaining (key : α → Nat) (held : List α) (start : Nat) : List α :=
  held.filter fun item => start ≤ key item

/-- An honest page: the first items from `start` on, `count` at most and one at least if there is
one, and whether there are more. -/
structure Page (key : α → Nat) (held : List α) (start count : Nat) (items : List α) (more : Bool) :
    Prop where
  first : items <+: remaining key held start
  length_le : items.length ≤ count
  nonempty : remaining key held start ≠ [] → items ≠ []
  more_iff : more = true ↔ items ≠ remaining key held start

/-- Behind its last element, the rest of a sorted list is what has a larger key. -/
theorem remaining_split {l before : List α} {last : α} {after : List α}
    (sorted : l.Pairwise fun a b => key a < key b) (split : l = before ++ last :: after) :
    remaining key l (key last + 1) = after := by
  rw [split, List.pairwise_append, List.pairwise_cons] at sorted
  obtain ⟨-, ⟨later, -⟩, earlier⟩ := sorted
  rw [remaining, split, List.filter_append, List.filter_cons]
  have none : before.filter (fun item => decide (key last + 1 ≤ key item)) = [] := by
    apply List.filter_eq_nil_iff.mpr
    intro item member
    have lt := earlier item member last List.mem_cons_self
    simp only [decide_eq_true_eq]
    omega
  have all : after.filter (fun item => decide (key last + 1 ≤ key item)) = after := by
    apply List.filter_eq_self.mpr
    intro item member
    have lt := later item member
    simp only [decide_eq_true_eq]
    omega
  rw [none, all, if_neg (by simp), List.nil_append]

/-- A larger start leaves out more. -/
theorem remaining_remaining {start' : Nat} (le : start ≤ start') :
    remaining key (remaining key held start) start' = remaining key held start' := by
  rw [remaining, remaining, remaining, List.filter_filter]
  apply List.filter_congr
  intro item _
  by_cases later : start' ≤ key item
  · simp [later, Nat.le_trans le later]
  · simp [later]

namespace Page

theorem all (page : Page key held start count items false) :
    items = remaining key held start := by
  by_contra other
  exact Bool.false_ne_true (page.more_iff.mpr other)

/-- When there is more, the last item of the page tells where it starts. -/
theorem next (sorted : held.Pairwise fun a b => key a < key b)
    (page : Page key held start count items true) : ∃ last, items.getLast? = some last ∧
      start ≤ key last ∧ (∃ item ∈ held, key last < key item) ∧
      remaining key held start = items ++ remaining key held (key last + 1) := by
  obtain ⟨after, split⟩ := page.first
  have rest : after ≠ [] := by
    rintro rfl
    exact page.more_iff.mp rfl (by rw [← split, List.append_nil])
  have nonempty : items ≠ [] := by
    apply page.nonempty
    rw [← split]
    exact List.append_ne_nil_of_right_ne_nil _ rest
  obtain ⟨before, last, rfl⟩ := List.eq_nil_or_concat' items |>.resolve_left nonempty
  rw [List.append_assoc, List.singleton_append] at split
  have sortedFrom : (remaining key held start).Pairwise fun a b => key a < key b :=
    sorted.filter _
  have member : last ∈ remaining key held start := by
    rw [← split]
    simp
  have le : start ≤ key last := by simpa using (List.mem_filter.mp member).2
  have behind := remaining_split sortedFrom split.symm
  rw [remaining_remaining (by omega)] at behind
  refine ⟨last, by simp, le, ?_, ?_⟩
  · obtain ⟨item, others, rfl⟩ := List.exists_cons_of_ne_nil rest
    have found : item ∈ remaining key held (key last + 1) := by
      rw [behind]
      exact List.mem_cons_self
    obtain ⟨isHeld, larger⟩ := List.mem_filter.mp found
    exact ⟨item, isHeld, of_decide_eq_true larger⟩
  · rw [behind, ← split, List.append_assoc, List.singleton_append]

end Page
end Pagination
