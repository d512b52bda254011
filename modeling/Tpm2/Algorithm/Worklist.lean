import Mathlib.Data.List.Nodup
import Mathlib.Logic.Relation
import Mathlib.Tactic.Common

/-! The descendants of a node, collected with a queue of labels: a node has a label, and its
children are given by that label. -/

namespace Worklist

variable {α β : Type} (Child : β → α → Prop) (label : α → β)

/-- `w` is reached from `v` by going from nodes to children of their labels. -/
def Descends : α → α → Prop := Relation.ReflTransGen fun v w => Child (label v) w

/-- What holds of the nodes `taken` and the labels in the queue while the descendants of `root` are
collected. -/
structure Holds (root : α) (taken : List α) (queue : List β) : Prop where
  root_mem : root ∈ taken
  nodup : taken.Nodup
  descends : ∀ v ∈ taken, Descends Child label root v
  queued : ∀ b ∈ queue, ∃ v ∈ taken, label v = b
  expanded : ∀ v ∈ taken, label v ∉ queue → ∀ w, Child (label v) w → w ∈ taken

variable {Child label} {root : α} {taken new : List α} {b : β} {queue : List β}

theorem Holds.start (root : α) : Holds Child label root [root] [label root] where
  root_mem := List.mem_singleton_self root
  nodup := List.nodup_singleton root
  descends v mem := by
    obtain rfl := List.mem_singleton.mp mem
    exact .refl
  queued b mem := ⟨root, List.mem_singleton_self root, (List.mem_singleton.mp mem).symm⟩
  expanded v mem free := by
    obtain rfl := List.mem_singleton.mp mem
    exact (free (List.mem_singleton_self _)).elim

/-- The children of the first label descend from the root. -/
theorem Holds.descends_child (holds : Holds Child label root taken (b :: queue)) {v : α}
    (child : Child b v) : Descends Child label root v := by
  obtain ⟨u, old, rfl⟩ := holds.queued b List.mem_cons_self
  exact (holds.descends u old).tail child

/-- The first label leaves the queue, and those of its children that are not there yet come in. -/
theorem Holds.step (holds : Holds Child label root taken (b :: queue)) (nodup : new.Nodup)
    (fresh : ∀ v ∈ new, v ∉ taken) (child : ∀ v ∈ new, Child b v)
    (all : ∀ v, Child b v → v ∈ taken ∨ v ∈ new) :
    Holds Child label root (taken ++ new) (queue ++ new.map label) where
  root_mem := List.mem_append_left _ holds.root_mem
  nodup := holds.nodup.append nodup fun v old mem => fresh v mem old
  descends v mem := by
    rcases List.mem_append.mp mem with old | mem
    · exact holds.descends v old
    · exact holds.descends_child (child v mem)
  queued c mem := by
    rcases List.mem_append.mp mem with old | mem
    · obtain ⟨v, old, same⟩ := holds.queued c (List.mem_cons_of_mem _ old)
      exact ⟨v, List.mem_append_left _ old, same⟩
    · obtain ⟨v, mem, same⟩ := List.mem_map.mp mem
      exact ⟨v, List.mem_append_right _ mem, same⟩
  expanded v mem free w isChild := by
    have notQueued : label v ∉ queue := fun queued => free (List.mem_append_left _ queued)
    rcases List.mem_append.mp mem with old | mem
    · by_cases first : label v = b
      · exact List.mem_append.mpr (all w (first ▸ isChild))
      · have done : label v ∉ b :: queue := by simp [first, notQueued]
        exact List.mem_append_left _ (holds.expanded v old done w isChild)
    · exact (free (List.mem_append_right _ (List.mem_map_of_mem mem))).elim

/-- Once the queue is empty the nodes are exactly the descendants. -/
theorem Holds.mem_iff (holds : Holds Child label root taken []) {v : α} :
    v ∈ taken ↔ Descends Child label root v := by
  refine ⟨holds.descends v, fun descends => ?_⟩
  induction descends with
  | refl => exact holds.root_mem
  | tail _ isChild ih => exact holds.expanded _ ih List.not_mem_nil _ isChild

end Worklist
