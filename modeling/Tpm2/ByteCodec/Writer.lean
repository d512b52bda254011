import Tpm2.ByteCodec.Cursor

/-! Writers over a cursor: a lawful writer either appends one fixed byte string wherever it fits,
or refuses everywhere. -/

namespace ByteCodec

variable {ε φ α β : Type}

theorem map_eq_ok {x : Except ε α} {f : α → β} {b : β} :
    x.map f = .ok b ↔ ∃ a, x = .ok a ∧ f a = b := by
  cases x <;> simp [Except.map]

theorem bind_eq_ok {x : Except ε α} {f : α → Except ε β} {b : β} :
    (x >>= f) = .ok b ↔ ∃ a, x = .ok a ∧ f a = .ok b := by
  cases x <;> simp [bind, Except.bind]

theorem bind_eq_error {x : Except ε α} {f : α → Except ε β} :
    (∃ e, (x >>= f) = .error e) ↔ (∃ e, x = .error e) ∨ ∃ a, x = .ok a ∧ ∃ e, f a = .error e := by
  cases x <;> simp [bind, Except.bind]

@[simp] theorem mapError_eq_ok {x : Except ε α} {f : ε → φ} {a : α} :
    x.mapError f = .ok a ↔ x = .ok a := by
  cases x <;> simp [Except.mapError]

theorem exists_ok_of_isOk {x : Except ε α} (isOk : x.isOk) : ∃ a, x = .ok a := by
  cases x with
  | error e => cases isOk
  | ok a => exact ⟨a, rfl⟩

/-- `write` appends exactly `p` where `p` fits, and fails where it does not. -/
def Emits (write : Cursor → Except ε Cursor) (p : Bytes) : Prop :=
  ∀ c, (p.length ≤ c.room → write c = .ok (c.push p)) ∧
    (c.room < p.length → ∃ e, write c = .error e)

/-- `write` fails whatever the room. -/
def Refuses (write : Cursor → Except ε Cursor) : Prop := ∀ c, ∃ e, write c = .error e

/-- `write` appends one byte string or refuses. -/
def Writes (write : Cursor → Except ε Cursor) : Prop := (∃ p, Emits write p) ∨ Refuses write

section
variable {write next : Cursor → Except ε Cursor} {p q : Bytes} {c d : Cursor}

theorem Emits.ok (h : Emits write p) (fits : p.length ≤ c.room) : write c = .ok (c.push p) :=
  (h c).1 fits

theorem Emits.of_ok (h : Emits write p) (ok : write c = .ok d) :
    p.length ≤ c.room ∧ d = c.push p := by
  by_cases fits : p.length ≤ c.room
  · rw [h.ok fits] at ok
    exact ⟨fits, (Except.ok.inj ok).symm⟩
  · obtain ⟨e, failed⟩ := (h c).2 (by omega)
    rw [failed] at ok
    cases ok

theorem Emits.isOk_iff (h : Emits write p) : (∃ d, write c = .ok d) ↔ p.length ≤ c.room :=
  ⟨fun ⟨_, ok⟩ => (h.of_ok ok).1, fun fits => ⟨_, h.ok fits⟩⟩

/-- A writer appends at most one byte string: it shows on a buffer with room for both. -/
theorem Emits.unique (hp : Emits write p) (hq : Emits write q) : p = q := by
  let c := Cursor.zeros (p.length + q.length)
  have fitsp : p.length ≤ c.room := by simp [c]
  have fitsq : q.length ≤ c.room := by simp [c]
  have same : c.push p = c.push q := Except.ok.inj ((hp.ok fitsp).symm.trans (hq.ok fitsq))
  have written := congrArg Cursor.written same
  rw [Cursor.push_written fitsp, Cursor.push_written fitsq] at written
  simpa [c] using written

theorem Emits.not_refuses (h : Emits write p) : ¬ Refuses write := fun refuses => by
  obtain ⟨e, failed⟩ := refuses (Cursor.zeros p.length)
  rw [h.ok (by simp)] at failed
  cases failed

/-- An emitting writer succeeds on an empty buffer of the right size, with its bytes in it. -/
theorem Emits.written (h : Emits write p) {size : Nat} (fits : p.length ≤ size) :
    ∃ d, write (Cursor.zeros size) = .ok d ∧ d.written = p := by
  have room : p.length ≤ (Cursor.zeros size).room := by simpa using fits
  exact ⟨_, h.ok room, by simp [Cursor.push_written room]⟩

theorem Emits.mapError (h : Emits write p) (f : ε → φ) :
    Emits (fun c => (write c).mapError f) p := by
  intro c
  constructor
  · intro fits
    exact mapError_eq_ok.mpr (h.ok fits)
  · intro small
    obtain ⟨e, failed⟩ := (h c).2 small
    refine ⟨f e, ?_⟩
    show (write c).mapError f = _
    rw [failed]
    rfl

theorem Emits.nil : Emits (fun c => (.ok c : Except ε Cursor)) [] := fun c => by simp

/-- Writing in sequence appends in sequence. -/
theorem Emits.bind (hp : Emits write p) (hq : Emits next q) :
    Emits (fun c => write c >>= next) (p ++ q) := by
  intro c
  rw [List.length_append]
  constructor
  · intro fits
    have first : p.length ≤ c.room := by omega
    have second : q.length ≤ (c.push p).room := by rw [Cursor.push_room first]; omega
    change write c >>= next = _
    rw [hp.ok first]
    change next (c.push p) = _
    rw [hq.ok second, Cursor.push_push (by rw [List.length_append]; exact fits)]
  · intro small
    apply bind_eq_error.mpr
    by_cases first : p.length ≤ c.room
    · refine .inr ⟨_, hp.ok first, (hq _).2 ?_⟩
      rw [Cursor.push_room first]
      omega
    · exact .inl ((hp c).2 (by omega))

theorem Refuses.bind_left (h : Refuses write) : Refuses (fun c => write c >>= next) :=
  fun c => bind_eq_error.mpr (.inl (h c))

theorem Emits.bind_refuses (hp : Emits write p) (h : Refuses next) :
    Refuses (fun c => write c >>= next) := by
  intro c
  apply bind_eq_error.mpr
  by_cases fits : p.length ≤ c.room
  · exact .inr ⟨_, hp.ok fits, h _⟩
  · exact .inl ((hp c).2 (by omega))

theorem Emits.writes (h : Emits write p) : Writes write := .inl ⟨p, h⟩

theorem Writes.error (e : ε) : Writes (fun _ => (.error e : Except ε Cursor)) :=
  .inr fun _ => ⟨e, rfl⟩

theorem Writes.bind (first : Writes write) (second : Writes next) :
    Writes (fun c => write c >>= next) := by
  obtain ⟨p, emits⟩ | refuses := first
  · obtain ⟨q, emits'⟩ | refuses := second
    · exact (emits.bind emits').writes
    · exact .inr (emits.bind_refuses refuses)
  · exact .inr refuses.bind_left

/-- What a writer appends depends on the room that it has, not on the bytes that stand there. -/
theorem Writes.agree (writes : Writes write) {c d c' : Cursor} (room : c.room = d.room)
    (written : c.written = d.written) (ok : write c = .ok c') :
    ∃ d', write d = .ok d' ∧ d'.written = c'.written := by
  obtain ⟨p, emits⟩ | refuses := writes
  · obtain ⟨fits, rfl⟩ := emits.of_ok ok
    have fits' : p.length ≤ d.room := room ▸ fits
    exact ⟨_, emits.ok fits', by rw [Cursor.push_written fits, Cursor.push_written fits', written]⟩
  · obtain ⟨e, failed⟩ := refuses c
    rw [failed] at ok
    cases ok

end
end ByteCodec
