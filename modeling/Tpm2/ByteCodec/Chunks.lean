import Tpm2.ByteCodec.Writer

/-! Reading from a stream that arrives in chunks: how it was cut up does not matter. -/

namespace ByteCodec

variable {α ε : Type}

/-- What a read meets behind everything that has arrived. -/
inductive Ending (ε : Type)
  | waits
  | closed
  | fails (e : ε)

/-- `read_exact`: takes what arrives until `n` elements are there, and fails with the ending of the
stream if that comes first. An empty chunk is no arrival. -/
def readExact (ending : Ending ε) : Nat → List (List α) →
    Except (Ending ε) (List α × List (List α))
  | 0, chunks => .ok ([], chunks)
  | _ + 1, [] => .error ending
  | n + 1, chunk :: chunks =>
      if n + 1 < chunk.length then
        .ok (chunk.take (n + 1), chunk.drop (n + 1) :: chunks)
      else do
        let (rest, chunks) ← readExact ending (n + 1 - chunk.length) chunks
        return (chunk ++ rest, chunks)

/-- What has arrived is read as if it were one chunk. -/
theorem readExact_ok (ending : Ending ε) {n : Nat} {chunks : List (List α)}
    (enough : n ≤ chunks.flatten.length) :
    ∃ rest, readExact ending n chunks = .ok (chunks.flatten.take n, rest) ∧
      rest.flatten = chunks.flatten.drop n := by
  induction chunks generalizing n with
  | nil =>
      obtain rfl : n = 0 := Nat.le_zero.mp enough
      exact ⟨[], rfl, rfl⟩
  | cons chunk chunks ih =>
      cases n with
      | zero => exact ⟨chunk :: chunks, rfl, rfl⟩
      | succ n =>
          rw [List.flatten_cons, List.length_append] at enough
          rw [readExact, List.flatten_cons]
          split
          next partly =>
            refine ⟨chunk.drop (n + 1) :: chunks, ?_, ?_⟩
            · rw [List.take_append_of_le_length (Nat.le_of_lt partly)]
            · rw [List.flatten_cons, List.drop_append_of_le_length (Nat.le_of_lt partly)]
          next whole =>
            have all : chunk.length ≤ n + 1 := Nat.not_lt.mp whole
            obtain ⟨rest, read, left⟩ := ih (n := n + 1 - chunk.length) (by omega)
            refine ⟨rest, bind_eq_ok.mpr ⟨_, read, ?_⟩, ?_⟩
            · rw [List.take_append, List.take_of_length_le all]
              rfl
            · rw [left, List.drop_append, List.drop_of_length_le all, List.nil_append]

theorem readExact_short {ending : Ending ε} {n : Nat} {chunks : List (List α)}
    (short : chunks.flatten.length < n) : readExact ending n chunks = .error ending := by
  induction chunks generalizing n with
  | nil =>
      cases n with
      | zero => exact (Nat.not_lt_zero _ short).elim
      | succ n => rfl
  | cons chunk chunks ih =>
      cases n with
      | zero => exact (Nat.not_lt_zero _ short).elim
      | succ n =>
          rw [List.flatten_cons, List.length_append] at short
          have whole : ¬ n + 1 < chunk.length := by omega
          rw [readExact, if_neg whole, ih (by omega)]
          rfl

end ByteCodec
