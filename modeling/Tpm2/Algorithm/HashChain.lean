import Tpm2.ByteCodec.Writer

/-! Digests that are extended by data, under a hash without collisions among the inputs it is
asked for. -/

namespace HashChain

open ByteCodec

variable {ε : Type} {hash : Bytes → Except ε Bytes} {x y d : Bytes}

/-- No two inputs have the same digest. -/
def CollisionFree (hash : Bytes → Except ε Bytes) : Prop :=
  ∀ x y d, hash x = .ok d → hash y = .ok d → x = y

/-- The hash of `inputs`, which fails on everything else. -/
def restrict (hash : Bytes → Except ε Bytes) (inputs : List Bytes) (refusal : ε) (x : Bytes) :
    Except ε Bytes :=
  if x ∈ inputs then hash x else .error refusal

theorem restrict_eq_ok {inputs : List Bytes} {refusal : ε} :
    restrict hash inputs refusal x = .ok d ↔ x ∈ inputs ∧ hash x = .ok d := by
  unfold restrict
  split <;> simp [*]

/-- A restricted hash has no collisions exactly when the hash has none among the inputs it is
restricted to. -/
theorem collisionFree_restrict {inputs : List Bytes} {refusal : ε} :
    CollisionFree (restrict hash inputs refusal) ↔
      ∀ x ∈ inputs, ∀ y ∈ inputs, ∀ d, hash x = .ok d → hash y = .ok d → x = y := by
  constructor
  · intro free x memx y memy d hx hy
    exact free x y d (restrict_eq_ok.mpr ⟨memx, hx⟩) (restrict_eq_ok.mpr ⟨memy, hy⟩)
  · intro free x y d hx hy
    obtain ⟨memx, hx⟩ := restrict_eq_ok.mp hx
    obtain ⟨memy, hy⟩ := restrict_eq_ok.mp hy
    exact free x memx y memy d hx hy

/-- The digest that takes the place of `digest` when it is extended by `data`. -/
def extend (hash : Bytes → Except ε Bytes) (digest data : Bytes) : Except ε Bytes :=
  hash (digest ++ data)

section
variable (free : CollisionFree hash) {digest digest' data data' : Bytes}
include free

/-- An extended digest of a known length tells which digest was extended and by what. -/
theorem extend_inj (length : digest.length = digest'.length)
    (ok : extend hash digest data = .ok d) (ok' : extend hash digest' data' = .ok d) :
    digest = digest' ∧ data = data' :=
  List.append_inj (free _ _ _ ok ok') length

end

/-- The concatenation of equally many blocks, all of one size, tells the blocks. -/
theorem flatten_inj {size : Nat} {blocks blocks' : List Bytes}
    (count : blocks.length = blocks'.length) (sizes : ∀ block ∈ blocks, block.length = size)
    (sizes' : ∀ block ∈ blocks', block.length = size) (same : blocks.flatten = blocks'.flatten) :
    blocks = blocks' := by
  induction blocks generalizing blocks' with
  | nil => exact (List.length_eq_zero_iff.mp count.symm).symm
  | cons block rest ih =>
      obtain ⟨block', rest', rfl⟩ := List.exists_cons_of_length_eq_add_one count.symm
      have first := sizes block List.mem_cons_self
      have first' := sizes' block' List.mem_cons_self
      rw [List.flatten_cons, List.flatten_cons] at same
      obtain ⟨rfl, others⟩ := List.append_inj same (first.trans first'.symm)
      rw [ih (Nat.succ.inj count) (fun b mem => sizes b (List.mem_cons_of_mem _ mem))
        (fun b mem => sizes' b (List.mem_cons_of_mem _ mem)) others]

end HashChain
