import Mathlib.Data.List.Basic
import Mathlib.Tactic.Common

/-! A fixed number of cells, each of which holds a value once it has been written and nothing
before. What a counter of used cells exposes is defined only while every one of them has been
written. -/

/-- `capacity` cells. -/
structure Cells (α : Type) (capacity : Nat) where
  slots : List (Option α)
  length_slots : slots.length = capacity

namespace Cells

variable {α : Type} {capacity : Nat}

/-- Cells of which none has been written. -/
def uninit : Cells α capacity := ⟨List.replicate capacity none, List.length_replicate⟩

/-- Writes one cell; there is no cell outside the range. -/
def write? (i : Nat) (a : α) (cells : Cells α capacity) : Option (Cells α capacity) :=
  if i < capacity then
    some ⟨cells.slots.set i (some a), by rw [List.length_set, cells.length_slots]⟩
  else
    none

/-- Writes values from cell `i` on, one cell after the other. -/
def writeFrom : Nat → List α → List (Option α) → List (Option α)
  | _, [], slots => slots
  | i, a :: as, slots => writeFrom (i + 1) as (slots.set i (some a))

theorem length_writeFrom (i : Nat) (values : List α) (slots : List (Option α)) :
    (writeFrom i values slots).length = slots.length := by
  induction values generalizing i slots with
  | nil => rfl
  | cons a as ih => rw [writeFrom, ih, List.length_set]

/-- Writes the cells from `start` up to `stop` and the values in parallel, until either ends; there
is no such range of cells if it is reversed or ends behind the last cell. -/
def writeRange? (start stop : Nat) (values : List α) (cells : Cells α capacity) :
    Option (Cells α capacity) :=
  if start ≤ stop ∧ stop ≤ capacity then
    some ⟨writeFrom start (values.take (stop - start)) cells.slots,
      by rw [length_writeFrom, cells.length_slots]⟩
  else
    none

/-- The values that the cells hold, if each of them has been written. -/
def written? : List (Option α) → Option (List α)
  | [] => some []
  | none :: _ => none
  | some a :: slots => (written? slots).map (a :: ·)

/-- The first `n` cells as a slice; there is none if a cell that it exposes does not exist or has
not been written. -/
def view? (n : Nat) (cells : Cells α capacity) : Option (List α) :=
  if n ≤ capacity then written? (cells.slots.take n) else none

/-- The first cells hold these values. -/
def Holds (cells : Cells α capacity) (values : List α) : Prop :=
  cells.slots.take values.length = values.map some

theorem written?_map_some (values : List α) : written? (values.map some) = some values := by
  induction values with
  | nil => rfl
  | cons a as ih => rw [List.map_cons, written?, ih, Option.map_some]

theorem eq_map_some_of_written? {slots : List (Option α)} {values : List α}
    (h : written? slots = some values) : slots = values.map some := by
  induction slots generalizing values with
  | nil =>
      cases Option.some.inj h
      rfl
  | cons slot slots ih =>
      cases slot with
      | none => cases h
      | some a =>
          obtain ⟨as, rest, rfl⟩ := Option.map_eq_some_iff.mp h
          rw [List.map_cons, ← ih rest]

theorem uninit_holds : (uninit : Cells α capacity).Holds [] := rfl

theorem Holds.length_le {cells : Cells α capacity} {values : List α} (holds : cells.Holds values) :
    values.length ≤ capacity := by
  have lengths := congrArg List.length holds
  rw [List.length_take, List.length_map, cells.length_slots] at lengths
  omega

/-- Cells hold the values that they expose. -/
theorem view?_eq_some {n : Nat} {cells : Cells α capacity} {values : List α} :
    cells.view? n = some values ↔ values.length = n ∧ cells.Holds values := by
  unfold view?
  constructor
  · intro exposed
    split at exposed
    · next le =>
        have slots := eq_map_some_of_written? exposed
        have lengths := congrArg List.length slots
        rw [List.length_take, cells.length_slots, List.length_map, Nat.min_eq_left le] at lengths
        refine ⟨lengths.symm, ?_⟩
        rw [Holds, ← lengths, slots]
    · cases exposed
  · rintro ⟨rfl, holds⟩
    rw [if_pos holds.length_le, holds, written?_map_some]

theorem take_set_self {slots : List (Option α)} {i : Nat} (inRange : i < slots.length) (a : α) :
    (slots.set i (some a)).take (i + 1) = slots.take i ++ [some a] := by
  rw [List.take_add_one, List.take_set_of_le (Nat.le_refl i),
    List.getElem?_set_self inRange, Option.toList_some]

theorem take_writeFrom {values more : List α} {slots : List (Option α)}
    (holds : slots.take values.length = values.map some)
    (room : values.length + more.length ≤ slots.length) :
    (writeFrom values.length more slots).take (values ++ more).length
      = (values ++ more).map some := by
  induction more generalizing values slots with
  | nil =>
      rw [List.append_nil]
      exact holds
  | cons a as ih =>
      have inRange : values.length < slots.length := by
        rw [List.length_cons] at room
        omega
      have next : (slots.set values.length (some a)).take (values ++ [a]).length
          = (values ++ [a]).map some := by
        rw [List.length_append, List.length_singleton, take_set_self inRange, holds,
          List.map_append, List.map_singleton]
      have room' : (values ++ [a]).length + as.length
          ≤ (slots.set values.length (some a)).length := by
        rw [List.length_append, List.length_singleton, List.length_set]
        rw [List.length_cons] at room
        omega
      have rest := ih next room'
      have counted : (values ++ [a]).length = values.length + 1 := List.length_append
      rw [counted, List.append_assoc, List.singleton_append] at rest
      exact rest

/-- A write behind the values that the cells hold appends to them. -/
theorem Holds.write {cells : Cells α capacity} {values : List α} (holds : cells.Holds values)
    (room : values.length < capacity) (a : α) :
    ∃ cells', cells.write? values.length a = some cells' ∧ cells'.Holds (values ++ [a]) := by
  refine ⟨_, if_pos room, ?_⟩
  have inRange : values.length + [a].length ≤ cells.slots.length := by
    rw [cells.length_slots]
    exact room
  exact take_writeFrom holds inRange

/-- A range of cells behind the values that the cells hold takes as many more. -/
theorem Holds.writeRange {cells : Cells α capacity} {values more : List α}
    (holds : cells.Holds values) (room : values.length + more.length ≤ capacity) :
    ∃ cells', cells.writeRange? values.length (values.length + more.length) more = some cells' ∧
      cells'.Holds (values ++ more) := by
  have inRange : values.length + more.length ≤ cells.slots.length := by
    rw [cells.length_slots]
    exact room
  refine ⟨_, if_pos ⟨Nat.le_add_right .., room⟩, ?_⟩
  have all : more.take (values.length + more.length - values.length) = more := by
    rw [Nat.add_sub_cancel_left, List.take_length]
  change (writeFrom values.length (more.take _) cells.slots).take _ = _
  rw [all]
  exact take_writeFrom holds inRange

end Cells
