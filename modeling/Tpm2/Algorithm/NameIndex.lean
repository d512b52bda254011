import Mathlib.Data.Set.Insert
import Mathlib.Tactic.Common

/-! Two-way indices: holders publish names, and a name resolves to the holder that published it
last, or to an outside holder that never published it here. -/

/-- `resolve` finds the holder of a name; `name` is the name that a holder has published. -/
@[ext] structure NameIndex (κ ν : Type) where
  resolve : ν → Option κ
  name : κ → Option ν

namespace NameIndex

variable {κ ν : Type} {index : NameIndex κ ν} {n m : ν} {v w : κ} {S T : Set κ}

open Classical in
/-- The holders in `S` take their names back: one stops to resolve when it resolved to the holder
that takes it back. -/
noncomputable def retire (index : NameIndex κ ν) (S : Set κ) : NameIndex κ ν where
  resolve n := if ∃ v ∈ S, index.resolve n = some v ∧ index.name v = some n then none
    else index.resolve n
  name v := if v ∈ S then none else index.name v

open Classical in
/-- The holder `v` publishes `n`, in place of the name it had. -/
noncomputable def publish (index : NameIndex κ ν) (v : κ) (n : ν) : NameIndex κ ν where
  resolve m := if m = n then some v else (index.retire {v}).resolve m
  name w := if w = v then some n else index.name w

@[simp] theorem name_retire_eq_some :
    (index.retire S).name v = some n ↔ v ∉ S ∧ index.name v = some n := by
  by_cases mem : v ∈ S <;> simp [retire, mem]

theorem name_retire_of_notMem (other : v ∉ S) : (index.retire S).name v = index.name v := by
  simp [retire, other]

theorem name_retire_of_mem (mem : v ∈ S) : (index.retire S).name v = none := by
  simp [retire, mem]

theorem resolve_retire_eq_some : (index.retire S).resolve n = some v ↔
    index.resolve n = some v ∧ (v ∈ S → index.name v ≠ some n) := by
  unfold retire
  dsimp only
  split
  next taken =>
    obtain ⟨w, mem, resolves, named⟩ := taken
    constructor
    · nofun
    · rintro ⟨resolves', free⟩
      rw [resolves] at resolves'
      obtain rfl := Option.some.inj resolves'
      exact (free mem named).elim
  next free =>
    constructor
    · exact fun resolves => ⟨resolves, fun mem named => free ⟨v, mem, resolves, named⟩⟩
    · exact And.left

@[simp] theorem retire_empty : index.retire ∅ = index := by
  simp [retire]

/-- Holders may take their names back one after another or all at once. -/
theorem retire_retire : (index.retire S).retire T = index.retire (S ∪ T) := by
  apply NameIndex.ext
  · funext n
    refine Option.ext fun v => ?_
    simp only [resolve_retire_eq_some, Set.mem_union, ne_eq, name_retire_eq_some]
    tauto
  · funext v
    refine Option.ext fun n => ?_
    simp only [name_retire_eq_some, Set.mem_union]
    tauto

@[simp] theorem name_publish_self : (index.publish v n).name v = some n := by
  simp [publish]

theorem name_publish_of_ne (other : w ≠ v) : (index.publish v n).name w = index.name w := by
  simp [publish, other]

theorem name_publish_eq_some : (index.publish v n).name w = some m ↔
    (w = v ∧ m = n) ∨ (w ≠ v ∧ index.name w = some m) := by
  by_cases same : w = v
  · simp [same, eq_comm]
  · simp [name_publish_of_ne same, same]

@[simp] theorem resolve_publish_self : (index.publish v n).resolve n = some v := by
  simp [publish]

theorem resolve_publish_of_ne (other : m ≠ n) :
    (index.publish v n).resolve m = (index.retire {v}).resolve m := by
  simp [publish, other]

theorem resolve_publish_eq_some : (index.publish v n).resolve m = some w ↔
    (m = n ∧ w = v) ∨
      (m ≠ n ∧ index.resolve m = some w ∧ (w = v → index.name v ≠ some m)) := by
  by_cases same : m = n
  · simp [same, eq_comm]
  · simp only [resolve_publish_of_ne same, resolve_retire_eq_some, Set.mem_singleton_iff, same,
      false_and, false_or, ne_eq, not_false_eq_true, true_and]
    constructor
    · rintro ⟨resolves, free⟩
      exact ⟨resolves, fun eq => eq ▸ free eq⟩
    · rintro ⟨resolves, free⟩
      exact ⟨resolves, fun eq => eq ▸ free eq⟩

/-- A name resolves to an outside holder, or to one that has published it. -/
def Backed (outside : ν → κ → Prop) (index : NameIndex κ ν) : Prop :=
  ∀ n v, index.resolve n = some v → outside n v ∨ index.name v = some n

theorem Backed.retire {outside : ν → κ → Prop} (backed : index.Backed outside) (S : Set κ) :
    (index.retire S).Backed outside := by
  intro n v resolves
  obtain ⟨resolves, free⟩ := resolve_retire_eq_some.mp resolves
  refine (backed n v resolves).imp_right fun named => name_retire_eq_some.mpr ⟨?_, named⟩
  exact fun mem => free mem named

theorem Backed.publish {outside : ν → κ → Prop} (backed : index.Backed outside) (v : κ) (n : ν) :
    (index.publish v n).Backed outside := by
  intro m w resolves
  rcases resolve_publish_eq_some.mp resolves with ⟨rfl, rfl⟩ | ⟨-, resolves, free⟩
  · exact .inr name_publish_self
  · refine (backed m w resolves).imp_right fun named => name_publish_eq_some.mpr (.inr ⟨?_, named⟩)
    rintro rfl
    exact free rfl named

/-- Every published name resolves to some holder of it. -/
def Complete (index : NameIndex κ ν) : Prop :=
  ∀ v n, index.name v = some n → ∃ w, index.resolve n = some w ∧ index.name w = some n

/-- No holder in `S` takes back a name that resolves to it while a holder outside `S` has it. -/
def Spares (index : NameIndex κ ν) (S : Set κ) : Prop :=
  ∀ n, ∀ v ∈ S, ∀ w ∉ S, index.resolve n = some v → index.name v = some n → index.name w ≠ some n

theorem Complete.retire (complete : index.Complete) (spares : index.Spares S) :
    (index.retire S).Complete := by
  intro v n named
  obtain ⟨outside, named⟩ := name_retire_eq_some.mp named
  obtain ⟨w, resolves, named'⟩ := complete v n named
  have stays : w ∉ S := fun mem => spares n w mem v outside resolves named' named
  exact ⟨w, resolve_retire_eq_some.mpr ⟨resolves, fun mem => (stays mem).elim⟩,
    name_retire_eq_some.mpr ⟨stays, named'⟩⟩

theorem Complete.publish (complete : index.Complete)
    (spares : ∀ m ≠ n, index.resolve m = some v → index.name v = some m → ∀ w ≠ v,
      index.name w ≠ some m) :
    (index.publish v n).Complete := by
  intro w m named
  by_cases new : m = n
  · subst new
    exact ⟨v, resolve_publish_self, name_publish_self⟩
  · have old : w ≠ v ∧ index.name w = some m := by
      rcases name_publish_eq_some.mp named with ⟨-, same⟩ | old
      · exact (new same).elim
      · exact old
    obtain ⟨u, resolves, named'⟩ := complete w m old.2
    have stays : u ≠ v := by
      rintro rfl
      exact spares m new resolves named' w old.1 old.2
    exact ⟨u, resolve_publish_eq_some.mpr (.inr ⟨new, resolves, fun same => (stays same).elim⟩),
      name_publish_eq_some.mpr (.inr ⟨stays, named'⟩)⟩

/-- A name resolves to a holder of it, or to one that has published nothing. -/
def Sound (index : NameIndex κ ν) : Prop :=
  ∀ n v m, index.resolve n = some v → index.name v = some m → m = n

theorem Sound.retire (sound : index.Sound) (S : Set κ) : (index.retire S).Sound :=
  fun n v m resolves named =>
    sound n v m (resolve_retire_eq_some.mp resolves).1 (name_retire_eq_some.mp named).2

theorem Sound.publish (sound : index.Sound)
    (own : ∀ m ≠ n, index.resolve m = some v → index.name v = some m) :
    (index.publish v n).Sound := by
  intro m w k resolves named
  rcases resolve_publish_eq_some.mp resolves with ⟨rfl, rfl⟩ | ⟨other, old, free⟩
  · rw [name_publish_self] at named
    exact (Option.some.inj named).symm
  · rcases name_publish_eq_some.mp named with ⟨rfl, -⟩ | ⟨-, named⟩
    · exact (free rfl (own m other old)).elim
    · exact sound m w k old named

/-- A name that nobody has published since resolves as it did. -/
theorem resolve_retire_of_unnamed (free : ∀ v, index.name v ≠ some n) :
    (index.retire S).resolve n = index.resolve n :=
  Option.ext fun v => by simp [resolve_retire_eq_some, free v]

theorem resolve_publish_of_unnamed (other : n ≠ m) (free : ∀ v, index.name v ≠ some n) :
    (index.publish w m).resolve n = index.resolve n := by
  rw [resolve_publish_of_ne other, resolve_retire_of_unnamed free]

end NameIndex
