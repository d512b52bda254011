import Mathlib.Order.Lattice
import Mathlib.Tactic.Common

/-! Binary search by key in a list that is sorted by that key. -/

namespace BinarySearch

variable {α κ : Type} [LinearOrder κ]

/-- Halves the list at most `fuel` times. -/
def search (key : α → κ) (target : κ) : Nat → List α → Option α
  | 0, _ => none
  | fuel + 1, l =>
      match l.drop (l.length / 2) with
      | [] => none
      | mid :: right =>
          if key mid = target then some mid
          else if key mid < target then search key target fuel right
          else search key target fuel (l.take (l.length / 2))

/-- The element of a sorted list that has the key `target`. -/
def searchByKey (l : List α) (target : κ) (key : α → κ) : Option α := search key target l.length l

/-- The middle of a list that is not empty, and what is on either side of it. -/
theorem split_middle {l : List α} (nonempty : l ≠ []) :
    ∃ mid right, l.drop (l.length / 2) = mid :: right ∧
      l = l.take (l.length / 2) ++ mid :: right ∧ right.length < l.length ∧
        (l.take (l.length / 2)).length < l.length := by
  have positive := List.length_pos_iff.mpr nonempty
  have half : l.length / 2 < l.length := by omega
  have split : l.drop (l.length / 2) = l[l.length / 2] :: l.drop (l.length / 2 + 1) :=
    List.drop_eq_getElem_cons half
  refine ⟨l[l.length / 2], l.drop (l.length / 2 + 1), split, ?_, ?_, ?_⟩
  · rw [← split, List.take_append_drop]
  · rw [List.length_drop]
    omega
  · rw [List.length_take]
    omega

theorem search_eq_some {key : α → κ} {target : κ} {fuel : Nat} {l : List α}
    (sorted : l.Pairwise fun a b => key a < key b) (enough : l.length ≤ fuel) {x : α} :
    search key target fuel l = some x ↔ x ∈ l ∧ key x = target := by
  induction fuel generalizing l with
  | zero =>
      obtain rfl := List.length_eq_zero_iff.mp (Nat.le_zero.mp enough)
      simp [search]
  | succ fuel ih =>
      by_cases nonempty : l = []
      · subst nonempty
        simp [search]
      obtain ⟨mid, right, found, split, shorter, half⟩ := split_middle nonempty
      rw [split, List.pairwise_append, List.pairwise_cons] at sorted
      obtain ⟨sortedLeft, ⟨midRight, sortedRight⟩, leftRight⟩ := sorted
      have member : x ∈ l ↔ x ∈ l.take (l.length / 2) ∨ x = mid ∨ x ∈ right := by
        rw [← List.mem_cons, ← List.mem_append, ← split]
      rw [search, found, member]
      dsimp only
      by_cases hit : key mid = target
      · rw [if_pos hit]
        constructor
        · rintro ⟨⟩
          exact ⟨.inr (.inl rfl), hit⟩
        · rintro ⟨left | rfl | later, same⟩
          · have := leftRight x left mid List.mem_cons_self
            rw [same, hit] at this
            exact (lt_irrefl _ this).elim
          · rfl
          · have := midRight x later
            rw [same, hit] at this
            exact (lt_irrefl _ this).elim
      rw [if_neg hit]
      by_cases below : key mid < target
      · rw [if_pos below, ih sortedRight (by omega)]
        constructor
        · rintro ⟨later, same⟩
          exact ⟨.inr (.inr later), same⟩
        · rintro ⟨left | rfl | later, same⟩
          · have := leftRight x left mid List.mem_cons_self
            rw [same] at this
            exact (lt_asymm this below).elim
          · exact (hit same).elim
          · exact ⟨later, same⟩
      · rw [if_neg below, ih sortedLeft (by omega)]
        constructor
        · rintro ⟨left, same⟩
          exact ⟨.inl left, same⟩
        · rintro ⟨left | rfl | later, same⟩
          · exact ⟨left, same⟩
          · exact (hit same).elim
          · exact (below (same ▸ midRight x later)).elim

/-- A search in a strictly sorted list finds the element with that key and nothing else. -/
theorem searchByKey_eq_some {l : List α} {target : κ} {key : α → κ}
    (sorted : l.Pairwise fun a b => key a < key b) {x : α} :
    searchByKey l target key = some x ↔ x ∈ l ∧ key x = target :=
  search_eq_some sorted (Nat.le_refl _)

end BinarySearch
