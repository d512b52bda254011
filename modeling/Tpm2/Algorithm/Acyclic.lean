import Mathlib.Logic.Relation
import Mathlib.Tactic.Common

/-! Relations without cycles, and edges that close none. -/

open Relation

variable {α : Type} {r s : α → α → Prop}

/-- Nothing leads back to itself. -/
def Acyclic (r : α → α → Prop) : Prop := ∀ a, ¬ TransGen r a a

namespace Acyclic

theorem mono (acyclic : Acyclic r) (sub : ∀ a b, s a b → r a b) : Acyclic s :=
  fun a cycle => acyclic a (TransGen.mono sub a a cycle)

/-- Paths with the edge `(x, y)` added go around it, or come to `x` and go on from `y`. -/
theorem reflTransGen_addEdge {x y a b : α}
    (path : ReflTransGen (fun a b => r a b ∨ a = x ∧ b = y) a b) :
    ReflTransGen r a b ∨ ReflTransGen r a x ∧ ReflTransGen r y b := by
  induction path with
  | refl => exact .inl .refl
  | tail _ edge ih =>
      rcases edge with edge | ⟨rfl, rfl⟩
      · exact ih.imp (·.tail edge) fun ⟨before, after⟩ => ⟨before, after.tail edge⟩
      · exact .inr ⟨ih.elim id And.left, .refl⟩

/-- An edge from `x` to `y` closes no cycle when `y` does not lead to `x`. -/
theorem addEdge (acyclic : Acyclic r) {x y : α} (apart : ¬ ReflTransGen r y x) :
    Acyclic fun a b => r a b ∨ a = x ∧ b = y := by
  intro a cycle
  obtain ⟨b, path, edge⟩ := TransGen.tail'_iff.mp cycle
  have around := reflTransGen_addEdge path
  rcases edge with edge | ⟨rfl, rfl⟩
  · rcases around with around | ⟨before, after⟩
    · exact acyclic a (.tail' around edge)
    · exact apart ((after.tail edge).trans before)
  · rcases around with around | ⟨-, after⟩
    · exact apart around
    · exact apart after

end Acyclic
