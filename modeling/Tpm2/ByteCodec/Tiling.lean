import Mathlib.Data.List.Basic

/-! Ranges of a list: indexing and overwriting them, and when they tile it. -/

namespace ByteCodec

variable {α : Type}

/-- A half-open range of indices, empty when it does not end behind its start. -/
abbrev Span := Nat × Nat

/-- The range may index a list of `size` elements. -/
def Span.Within (span : Span) (size : Nat) : Prop := span.1 ≤ span.2 ∧ span.2 ≤ size

instance (span : Span) (size : Nat) : Decidable (span.Within size) :=
  inferInstanceAs (Decidable (_ ∧ _))

/-- The elements of a range that the list has. -/
def sliceOf (l : List α) (span : Span) : List α := (l.drop span.1).take (span.2 - span.1)

/-- `&l[start..stop]`, which panics out of range. -/
def slice? (l : List α) (span : Span) : Option (List α) :=
  if span.Within l.length then some (sliceOf l span) else none

/-- The list with other elements in the place of a range. -/
def replaced (l : List α) (span : Span) (content : List α) : List α :=
  l.take span.1 ++ content ++ l.drop span.2

/-- `l[start..stop].copy_from_slice(content)`, which panics out of range and where the lengths
differ. -/
def copyFromSlice? (l : List α) (span : Span) (content : List α) : Option (List α) :=
  if span.Within l.length ∧ content.length = span.2 - span.1 then
    some (replaced l span content)
  else
    none

/-- The elements with `content` written over them from the start, as far as it fits. -/
def copiedOver (content l : List α) : List α := content.take l.length ++ l.drop content.length

theorem length_copiedOver (content l : List α) : (copiedOver content l).length = l.length := by
  simp only [copiedOver, List.length_append, List.length_take, List.length_drop]
  omega

theorem length_sliceOf {l : List α} {span : Span} (within : span.Within l.length) :
    (sliceOf l span).length = span.2 - span.1 := by
  obtain ⟨ordered, inside⟩ := within
  simp only [sliceOf, List.length_take, List.length_drop]
  omega

theorem length_replaced {l : List α} {span : Span} {content : List α}
    (within : span.Within l.length) (length : content.length = span.2 - span.1) :
    (replaced l span content).length = l.length := by
  obtain ⟨ordered, inside⟩ := within
  simp only [replaced, List.length_append, List.length_take, List.length_drop, length]
  omega

/-- The spans follow each other from `start` to `stop` without a gap and without overlap. -/
def Tiles : Nat → List Span → Nat → Prop
  | start, [], stop => start = stop
  | start, span :: spans, stop => span.1 = start ∧ start ≤ span.2 ∧ Tiles span.2 spans stop

namespace Tiles

theorem le {start stop : Nat} {spans : List Span} (tiles : Tiles start spans stop) :
    start ≤ stop := by
  induction spans generalizing start with
  | nil => exact Nat.le_of_eq tiles
  | cons span spans ih =>
      obtain ⟨-, ordered, rest⟩ := tiles
      exact Nat.le_trans ordered (ih rest)

theorem append {start middle stop : Nat} {spans spans' : List Span}
    (first : Tiles start spans middle) (second : Tiles middle spans' stop) :
    Tiles start (spans ++ spans') stop := by
  induction spans generalizing start with
  | nil =>
      obtain rfl : start = middle := first
      exact second
  | cons span spans ih =>
      obtain ⟨begins, ordered, rest⟩ := first
      exact ⟨begins, ordered, ih rest⟩

/-- Every tile starts at `start` or later. -/
theorem start_le {start stop : Nat} {spans : List Span} (tiles : Tiles start spans stop) :
    ∀ span ∈ spans, start ≤ span.1 := by
  induction spans generalizing start with
  | nil => simp
  | cons span spans ih =>
      obtain ⟨begins, ordered, rest⟩ := tiles
      rw [List.forall_mem_cons]
      refine ⟨Nat.le_of_eq begins.symm, fun later member => ?_⟩
      exact Nat.le_trans ordered (ih rest later member)

theorem within {start stop : Nat} {spans : List Span} (tiles : Tiles start spans stop) :
    ∀ span ∈ spans, span.Within stop := by
  induction spans generalizing start with
  | nil => simp
  | cons span spans ih =>
      obtain ⟨begins, ordered, rest⟩ := tiles
      rw [List.forall_mem_cons]
      exact ⟨⟨begins ▸ ordered, rest.le⟩, ih rest⟩

/-- No two tiles overlap. -/
theorem disjoint {start stop : Nat} {spans : List Span} (tiles : Tiles start spans stop) :
    spans.Pairwise fun span later => span.2 ≤ later.1 := by
  induction spans generalizing start with
  | nil => exact .nil
  | cons span spans ih =>
      obtain ⟨-, -, rest⟩ := tiles
      exact .cons rest.start_le (ih rest)

/-- The tiles cover everything: their elements, put together, are all from `start` to `stop`. -/
theorem flatMap_sliceOf (l : List α) {start stop : Nat} {spans : List Span}
    (tiles : Tiles start spans stop) : spans.flatMap (sliceOf l) = sliceOf l (start, stop) := by
  induction spans generalizing start with
  | nil =>
      obtain rfl : start = stop := tiles
      simp [sliceOf]
  | cons span spans ih =>
      obtain ⟨begins, ordered, rest⟩ := tiles
      have split : stop - start = (span.2 - start) + (stop - span.2) := by
        have := rest.le
        omega
      rw [List.flatMap_cons, ih rest, sliceOf, begins, sliceOf, sliceOf, split, List.take_add,
        List.drop_drop, Nat.add_sub_cancel' ordered]

end Tiles

/-- The spans are adjacent and disjoint, and cover the list. -/
structure Partitions (spans : List Span) (l : List α) : Prop where
  tiles : Tiles 0 spans l.length
  disjoint : spans.Pairwise fun span later => span.2 ≤ later.1
  covers : spans.flatMap (sliceOf l) = l

theorem Partitions.of_tiles {spans : List Span} {l : List α} (tiles : Tiles 0 spans l.length) :
    Partitions spans l where
  tiles := tiles
  disjoint := tiles.disjoint
  covers := by simpa [sliceOf] using tiles.flatMap_sliceOf l

end ByteCodec
