import Mathlib.Data.List.SplitBy

/-! Splitting a text at a separator, and cutting it into symbols. -/

namespace Text

variable {α : Type}

section
variable [DecidableEq α] {sep : α}

/-- The text before the first separator and the text after it. -/
def splitOnce (sep : α) : List α → Option (List α × List α)
  | [] => none
  | c :: s =>
      if c = sep then
        some ([], s)
      else
        (splitOnce sep s).map fun (before, after) => (c :: before, after)

/-- The text before the last separator and the text after it. -/
def rsplitOnce (sep : α) (s : List α) : Option (List α × List α) :=
  (splitOnce sep s.reverse).map fun (after, before) => (before.reverse, after.reverse)

theorem splitOnce_eq_some {s before after : List α} :
    splitOnce sep s = some (before, after) ↔ s = before ++ sep :: after ∧ sep ∉ before := by
  induction s generalizing before with
  | nil => simp [splitOnce]
  | cons c s ih =>
      rw [splitOnce]
      by_cases same : c = sep
      · rw [if_pos same]
        subst same
        cases before with
        | nil => simp [eq_comm]
        | cons d before =>
            simp only [Option.some.injEq, Prod.mk.injEq, List.cons_append, List.cons.injEq]
            constructor
            · rintro ⟨empty, -⟩
              cases empty
            · rintro ⟨⟨rfl, -⟩, absent⟩
              simp at absent
      · rw [if_neg same, Option.map_eq_some_iff]
        constructor
        · rintro ⟨⟨front, back⟩, split, shape⟩
          obtain ⟨rfl, rfl⟩ := Prod.mk.inj shape
          obtain ⟨rfl, absent⟩ := ih.mp split
          exact ⟨rfl, by simp [absent, Ne.symm same]⟩
        · rintro ⟨shape, absent⟩
          cases before with
          | nil => exact absurd (List.cons.inj shape).1 same
          | cons d before =>
              obtain ⟨rfl, rfl⟩ := List.cons.inj shape
              have earlier : sep ∉ before := fun mem => absent (List.mem_cons_of_mem _ mem)
              exact ⟨(before, after), ih.mpr ⟨rfl, earlier⟩, rfl⟩

theorem rsplitOnce_eq_some {s before after : List α} :
    rsplitOnce sep s = some (before, after) ↔ s = before ++ sep :: after ∧ sep ∉ after := by
  rw [rsplitOnce, Option.map_eq_some_iff]
  constructor
  · rintro ⟨⟨back, front⟩, split, shape⟩
    obtain ⟨rfl, rfl⟩ := Prod.mk.inj shape
    obtain ⟨reversed, absent⟩ := splitOnce_eq_some.mp split
    refine ⟨?_, by simpa using absent⟩
    rw [← List.reverse_reverse s, reversed]
    simp
  · rintro ⟨rfl, absent⟩
    refine ⟨(after.reverse, before.reverse), splitOnce_eq_some.mpr ?_, by simp⟩
    simpa using absent

/-- The parts of a split are what the separator joins. -/
theorem splitOn_eq_iff {s : List α} {parts : List (List α)} :
    s.splitOn sep = parts ↔
      s = [sep].intercalate parts ∧ parts ≠ [] ∧ ∀ part ∈ parts, sep ∉ part := by
  constructor
  · rintro rfl
    refine ⟨(List.intercalate_splitOn sep).symm, by simp, ?_⟩
    induction s with
    | nil => simp
    | cons c s ih =>
        rw [List.splitOn_cons_eq_if_modifyHead]
        split
        · simpa using ih
        next different =>
          have absent : sep ≠ c := fun same => different (by simp [same])
          cases split : s.splitOn sep with
          | nil => simp
          | cons part parts =>
              rw [split] at ih
              simpa [absent] using ih
  · rintro ⟨rfl, some, absent⟩
    exact List.splitOn_intercalate sep absent some

end

/-- What is in a part of a joined text is in the text. -/
theorem mem_intercalate {parts : List (List α)} {part sep : List α} {c : α} (listed : part ∈ parts)
    (mem : c ∈ part) : c ∈ sep.intercalate parts := by
  induction parts with
  | nil => cases listed
  | cons first parts ih =>
      cases parts with
      | nil => simpa [List.mem_singleton.mp listed] using mem
      | cons second parts =>
          rw [List.intercalate_cons_cons]
          rcases List.mem_cons.mp listed with rfl | later
          · simp [mem]
          · simp [ih later]

/-- The last part of a cut text ends where the text does, and the first starts where it does. -/
theorem splitBy_boundary {joined : α → α → Bool} {u v : List α} :
    (∀ x ∈ (u.splitBy joined).getLast?, ∀ y ∈ (v.splitBy joined).head?,
      ∃ hx hy, joined (x.getLast hx) (y.head hy) = false) ↔
      ∀ c ∈ u.getLast?, ∀ d ∈ v.head?, joined c d = false := by
  by_cases left : u = []
  · simp [left]
  by_cases right : v = []
  · simp [right]
  have last := List.getLast_getLast_splitBy joined left
  have first := List.head_head_splitBy joined right
  have lastPart := List.getLast?_eq_some_getLast (List.splitBy_ne_nil (r := joined).mpr left)
  have firstPart := List.head?_eq_some_head (List.splitBy_ne_nil (r := joined).mpr right)
  rw [lastPart, firstPart, List.getLast?_eq_some_getLast left, List.head?_eq_some_head right]
  simp only [Option.mem_some_iff, forall_eq', last, first]
  constructor
  · rintro ⟨-, -, apart⟩
    exact apart
  · intro apart
    exact ⟨List.ne_nil_of_mem_splitBy (List.getLast_mem _),
      List.ne_nil_of_mem_splitBy (List.head_mem _), apart⟩

/-- Cutting texts one by one is cutting their joined text if and only if every two that meet are
cut apart. -/
theorem splitBy_flatten_iff {joined : α → α → Bool} {texts : List (List α)} (some : [] ∉ texts) :
    texts.flatten.splitBy joined = texts.flatMap (List.splitBy joined) ↔
      texts.IsChain fun u v => ∀ c ∈ u.getLast?, ∀ d ∈ v.head?, joined c d = false := by
  have flatten : texts.flatten = (texts.flatMap (List.splitBy joined)).flatten := by
    rw [List.flatMap_def, List.flatten_flatten, List.map_map]
    simp [Function.comp_def]
  have chains : ∀ part ∈ texts.flatMap (List.splitBy joined),
      part.IsChain fun c d => joined c d := by
    intro part listed
    obtain ⟨text, -, cut⟩ := List.mem_flatMap.mp listed
    exact List.isChain_of_mem_splitBy cut
  have parts : [] ∉ texts.flatMap (List.splitBy joined) := by simp
  have cuts : [] ∉ texts.map (List.splitBy joined) := by
    simpa using some
  have inner : ∀ cut ∈ texts.map (List.splitBy joined),
      cut.IsChain fun x y => ∃ hx hy, joined (x.getLast hx) (y.head hy) = false := by
    intro cut listed
    obtain ⟨text, -, rfl⟩ := List.mem_map.mp listed
    exact List.isChain_getLast_head_splitBy joined text
  rw [List.splitBy_eq_iff, List.flatMap_def, List.isChain_flatten cuts, List.isChain_map]
  simp only [splitBy_boundary]
  constructor
  · rintro ⟨-, -, -, -, apart⟩
    exact apart
  · intro apart
    exact ⟨flatten, parts, chains, inner, apart⟩

end Text
