import Tpm2.ByteCodec.Writer

/-! Codecs: a writer and a reader of the same values that are each other's inverse on the
well-formed ones, and how codecs compose. -/

namespace ByteCodec

variable {ε φ α β : Type}

/-- Writing and reading agree. A value that is not `Writable` is refused, any other is written as
`len` bytes; the reader returns a well-formed value from exactly the bytes that writing it emits,
whatever follows them, and accepts nothing else. -/
structure LawfulCodec (write : α → Cursor → Except ε Cursor)
    (read : Bytes → Except ε (α × Bytes)) (len : α → Nat) (Writable WellFormed : α → Prop) :
    Prop where
  emits : ∀ {v}, Writable v → ∃ p, p.length = len v ∧ Emits (write v) p
  refuses : ∀ {v}, ¬ Writable v → Refuses (write v)
  writable : ∀ {v}, WellFormed v → Writable v
  read_emitted : ∀ {v p}, WellFormed v → Emits (write v) p → ∀ r, read (p ++ r) = .ok (v, r)
  read_ok : ∀ {b v r}, read b = .ok (v, r) → WellFormed v ∧ ∃ p, b = p ++ r ∧ Emits (write v) p

/-- Both results are failures or both leave the same bytes unread, whatever they return. -/
def SameRest (x : Except ε (β × Bytes)) (y : Except ε (α × Bytes)) : Prop :=
  ∀ r, (∃ view, x = .ok (view, r)) ↔ ∃ v, y = .ok (v, r)

/-- A second reader that accepts the same prefixes, whatever it returns for them. -/
def SameExtent (cast : Bytes → Except ε (β × Bytes)) (read : Bytes → Except ε (α × Bytes)) :
    Prop :=
  ∀ b, SameRest (cast b) (read b)

/-- Whatever the reader accepts is exactly what writing its value emits, on its own or before any
other bytes. -/
def Canonical (write : α → Cursor → Except ε Cursor) (read : Bytes → Except ε (α × Bytes))
    (len : α → Nat) : Prop :=
  ∀ b v r, read b = .ok (v, r) → ∃ p, b = p ++ r ∧ len v = p.length ∧
    (∀ c : Cursor, p.length ≤ c.room → write v c = .ok (c.push p)) ∧
    ∀ r', read (p ++ r') = .ok (v, r')

/-- Writing `v` succeeds exactly where `len v` bytes fit, writes just these and nothing else, and
they read back as `v` before any other bytes. -/
def RoundTrips (write : α → Cursor → Except ε Cursor) (read : Bytes → Except ε (α × Bytes))
    (len : α → Nat) (v : α) : Prop :=
  ∀ c : Cursor, ((∃ d, write v c = .ok d) ↔ len v ≤ c.room) ∧
    ∀ d, write v c = .ok d → d.pos = c.pos + len v ∧ d.buffer.length = c.buffer.length ∧
      d.buffer.take c.pos = c.buffer.take c.pos ∧ d.buffer.drop d.pos = c.buffer.drop d.pos ∧
      ∀ r, read ((d.buffer.drop c.pos).take (len v) ++ r) = .ok (v, r)

/-- Writing `v` with enough room fails or appends bytes that read back as `v`. -/
def NeverMisread (write : α → Cursor → Except ε Cursor) (read : Bytes → Except ε (α × Bytes))
    (len : α → Nat) (v : α) : Prop :=
  ∀ c : Cursor, len v ≤ c.room →
    (∃ e, write v c = .error e) ∨ ∃ p, write v c = .ok (c.push p) ∧ read p = .ok (v, [])

/-- Both readers accept the same byte strings and leave the same remainder of each. -/
theorem SameRest.agree {x : Except ε (β × Bytes)} {y : Except ε (α × Bytes)} (h : SameRest x y) :
    ((∃ view r, x = .ok (view, r)) ↔ ∃ v r, y = .ok (v, r)) ∧
      ∀ view r v r', x = .ok (view, r) → y = .ok (v, r') → r = r' := by
  refine ⟨⟨?_, ?_⟩, ?_⟩
  · rintro ⟨view, r, cast⟩
    obtain ⟨v, read⟩ := (h r).mp ⟨view, cast⟩
    exact ⟨v, r, read⟩
  · rintro ⟨v, r, read⟩
    obtain ⟨view, cast⟩ := (h r).mpr ⟨v, read⟩
    exact ⟨view, r, cast⟩
  · intro view r v r' cast read
    obtain ⟨w, same⟩ := (h r).mp ⟨view, cast⟩
    rw [read] at same
    cases same
    rfl

/-- Reads one value and then another. -/
def seqRead (read₁ : Bytes → Except ε (α × Bytes)) (read₂ : α → Bytes → Except ε (β × Bytes))
    (b : Bytes) : Except ε ((α × β) × Bytes) := do
  let (first, b) ← read₁ b
  let (second, b) ← read₂ first b
  .ok ((first, second), b)

theorem seqRead_eq_ok {read₁ : Bytes → Except ε (α × Bytes)}
    {read₂ : α → Bytes → Except ε (β × Bytes)} {b r : Bytes} {v : α × β} :
    seqRead read₁ read₂ b = .ok (v, r) ↔
      ∃ m, read₁ b = .ok (v.1, m) ∧ read₂ v.1 m = .ok (v.2, r) := by
  simp only [seqRead, bind_eq_ok, Prod.exists, Except.ok.injEq, Prod.mk.injEq]
  constructor
  · rintro ⟨first, m, ok₁, second, r, ok₂, rfl, rfl⟩
    exact ⟨m, ok₁, ok₂⟩
  · rintro ⟨m, ok₁, ok₂⟩
    exact ⟨v.1, m, ok₁, v.2, r, ok₂, rfl, rfl⟩

section
variable {α' β' : Type} {x : Except ε (β × Bytes)} {y : Except ε (α × Bytes)}
  {f : β × Bytes → Except ε (β' × Bytes)} {g : α × Bytes → Except ε (α' × Bytes)}

theorem SameRest.bind (h : SameRest x y)
    (rest : ∀ view v m, SameRest (f (view, m)) (g (v, m))) : SameRest (x >>= f) (y >>= g) := by
  intro r
  simp only [bind_eq_ok, Prod.exists]
  constructor
  · rintro ⟨w, view, m, first, second⟩
    obtain ⟨v, first⟩ := (h m).mp ⟨view, first⟩
    obtain ⟨w, second⟩ := (rest view v m r).mp ⟨w, second⟩
    exact ⟨w, v, m, first, second⟩
  · rintro ⟨w, v, m, first, second⟩
    obtain ⟨view, first⟩ := (h m).mpr ⟨v, first⟩
    obtain ⟨w, second⟩ := (rest view v m r).mpr ⟨w, second⟩
    exact ⟨w, view, m, first, second⟩

/-- Two readers that start with the same read. -/
theorem SameRest.bind_same {f : α × Bytes → Except ε (β' × Bytes)}
    (rest : ∀ v m, SameRest (f (v, m)) (g (v, m))) : SameRest (y >>= f) (y >>= g) := by
  intro r
  cases y with
  | error e => simp [Bind.bind, Except.bind]
  | ok first => exact rest first.1 first.2 r

theorem SameRest.error (e e' : ε) :
    SameRest (.error e : Except ε (β × Bytes)) (.error e' : Except ε (α × Bytes)) := by
  intro r
  simp

theorem SameRest.pure (view : β) (v : α) (b : Bytes) :
    SameRest (.ok (view, b) : Except ε _) (.ok (v, b) : Except ε _) := by
  intro r
  simp

end

namespace LawfulCodec

section
variable {write : α → Cursor → Except ε Cursor} {read : Bytes → Except ε (α × Bytes)}
  {len : α → Nat} {Writable WellFormed : α → Prop}
  (h : LawfulCodec write read len Writable WellFormed)
include h

theorem length_emitted {v : α} {p : Bytes} (e : Emits (write v) p) : p.length = len v := by
  by_cases writable : Writable v
  · obtain ⟨q, length, emits⟩ := h.emits writable
    rw [e.unique emits, length]
  · exact (e.not_refuses (h.refuses writable)).elim

theorem emits_wellFormed {v : α} (wf : WellFormed v) :
    ∃ p, p.length = len v ∧ Emits (write v) p := h.emits (h.writable wf)

theorem writable_of_emits {v : α} {p : Bytes} (e : Emits (write v) p) : Writable v :=
  Classical.byContradiction fun no => e.not_refuses (h.refuses no)

theorem writable_of_ok {v : α} {c d : Cursor} (ok : write v c = .ok d) : Writable v := by
  by_contra no
  obtain ⟨e, failed⟩ := h.refuses no c
  rw [failed] at ok
  cases ok

theorem writes (v : α) : Writes (write v) := by
  by_cases writable : Writable v
  · obtain ⟨p, -, emits⟩ := h.emits writable
    exact emits.writes
  · exact .inr (h.refuses writable)

/-- Writing only appends. -/
theorem written_append {v : α} {c d : Cursor} (ok : write v c = .ok d) :
    ∃ p, d.written = c.written ++ p := by
  obtain ⟨p, -, emits⟩ := h.emits (h.writable_of_ok ok)
  obtain ⟨fits, rfl⟩ := emits.of_ok ok
  exact ⟨p, Cursor.push_written fits⟩

theorem canonical : Canonical write read len := by
  intro b v r ok
  obtain ⟨wf, p, split, emits⟩ := h.read_ok ok
  exact ⟨p, split, (h.length_emitted emits).symm, fun _ fits => emits.ok fits,
    fun r' => h.read_emitted wf emits r'⟩

theorem roundTrips {v : α} (wf : WellFormed v) : RoundTrips write read len v := by
  obtain ⟨p, length, emits⟩ := h.emits_wellFormed wf
  intro c
  rw [← length]
  refine ⟨emits.isOk_iff, fun d ok => ?_⟩
  obtain ⟨fits, rfl⟩ := emits.of_ok ok
  obtain ⟨before, after⟩ := Cursor.push_frame fits
  rw [Cursor.push_pos fits]
  refine ⟨rfl, c.length_push_buffer p, before, after, fun r => ?_⟩
  rw [Cursor.push_range fits]
  exact h.read_emitted wf emits r

/-- Only well-formed values are written wherever they fit and read back. -/
theorem roundTrips_iff {v : α} : RoundTrips write read len v ↔ WellFormed v := by
  refine ⟨fun trips => ?_, h.roundTrips⟩
  obtain ⟨fits, exact⟩ := trips (Cursor.zeros (len v))
  obtain ⟨d, ok⟩ := fits.mpr (by simp)
  obtain ⟨-, -, -, -, read⟩ := exact d ok
  exact (h.read_ok (read [])).1

/-- A value is never misread, and refused where it is not well formed, exactly when the writer's
checks that it passes make it well formed. -/
theorem neverMisread_iff {v : α} :
    (NeverMisread write read len v ∧ (¬ WellFormed v → Refuses (write v))) ↔
      (Writable v → WellFormed v) := by
  constructor
  · rintro ⟨-, refused⟩ writable
    obtain ⟨p, -, emits⟩ := h.emits writable
    exact Classical.byContradiction fun ill => emits.not_refuses (refused ill)
  · intro checked
    refine ⟨fun c room => ?_, fun ill => h.refuses fun writable => ill (checked writable)⟩
    by_cases writable : Writable v
    · obtain ⟨p, length, emits⟩ := h.emits writable
      refine .inr ⟨p, emits.ok (length ▸ room), ?_⟩
      simpa using h.read_emitted (checked writable) emits []
    · exact .inl (h.refuses writable c)

/-- The remainder of a successful read is a suffix of the input. -/
theorem read_suffix {b r : Bytes} {v : α} (ok : read b = .ok (v, r)) : ∃ p, b = p ++ r := by
  obtain ⟨-, p, split, -⟩ := h.read_ok ok
  exact ⟨p, split⟩

theorem congr_read {read' : Bytes → Except ε (α × Bytes)}
    (same : ∀ b v r, read' b = .ok (v, r) ↔ read b = .ok (v, r)) :
    LawfulCodec write read' len Writable WellFormed where
  emits := h.emits
  refuses := h.refuses
  writable := h.writable
  read_emitted wf e r := (same ..).mpr (h.read_emitted wf e r)
  read_ok ok := h.read_ok ((same ..).mp ok)

theorem congr_write {write' : α → Cursor → Except ε Cursor} {len' : α → Nat}
    (same : ∀ v, write' v = write v) (sameLen : ∀ v, len' v = len v) :
    LawfulCodec write' read len' Writable WellFormed := by
  obtain rfl : write' = write := funext same
  obtain rfl : len' = len := funext sameLen
  exact h

theorem congr_prop {Writable' WellFormed' : α → Prop} (sameW : ∀ v, Writable' v ↔ Writable v)
    (sameF : ∀ v, WellFormed' v ↔ WellFormed v) :
    LawfulCodec write read len Writable' WellFormed' := by
  obtain rfl : Writable' = Writable := funext fun v => propext (sameW v)
  obtain rfl : WellFormed' = WellFormed := funext fun v => propext (sameF v)
  exact h

/-- The codec of a type in bijection with a codec's values. -/
theorem iso {f : β → α} {read' : Bytes → Except ε (β × Bytes)}
    (same : ∀ b v r, read' b = .ok (v, r) ↔ read b = .ok (f v, r)) :
    LawfulCodec (fun v => write (f v)) read' (fun v => len (f v)) (fun v => Writable (f v))
      (fun v => WellFormed (f v)) where
  emits w := h.emits w
  refuses w := h.refuses w
  writable wf := h.writable wf
  read_emitted wf e r := (same ..).mpr (h.read_emitted wf e r)
  read_ok ok := h.read_ok ((same ..).mp ok)

/-- A writer that first checks its value. -/
theorem guard (check : α → Prop) [DecidablePred check] (passes : ∀ {v}, WellFormed v → check v)
    (write' : α → Cursor → Except ε Cursor)
    (accepted : ∀ {v}, check v → write' v = write v)
    (rejected : ∀ {v}, ¬ check v → Refuses (write' v)) :
    LawfulCodec write' read len (fun v => check v ∧ Writable v) WellFormed where
  emits w := by
    obtain ⟨p, length, emits⟩ := h.emits w.2
    exact ⟨p, length, accepted w.1 ▸ emits⟩
  refuses {v} w := by
    by_cases c : check v
    · rw [accepted c]
      exact h.refuses fun w' => w ⟨c, w'⟩
    · exact rejected c
  writable wf := ⟨passes wf, h.writable wf⟩
  read_emitted wf e := h.read_emitted wf (accepted (passes wf) ▸ e)
  read_ok ok := by
    obtain ⟨wf, p, split, emits⟩ := h.read_ok ok
    exact ⟨wf, p, split, accepted (passes wf) ▸ emits⟩

end

/-- One value after another, where the second codec may depend on the first value. -/
theorem seq {write₁ : α → Cursor → Except ε Cursor} {read₁ : Bytes → Except ε (α × Bytes)}
    {len₁ : α → Nat} {W₁ F₁ : α → Prop} {write₂ : α → β → Cursor → Except ε Cursor}
    {read₂ : α → Bytes → Except ε (β × Bytes)} {len₂ : α → β → Nat} {W₂ F₂ : α → β → Prop}
    (h₁ : LawfulCodec write₁ read₁ len₁ W₁ F₁)
    (h₂ : ∀ a, LawfulCodec (write₂ a) (read₂ a) (len₂ a) (W₂ a) (F₂ a)) :
    LawfulCodec (fun v c => write₁ v.1 c >>= write₂ v.1 v.2) (seqRead read₁ read₂)
      (fun v => len₁ v.1 + len₂ v.1 v.2) (fun v => W₁ v.1 ∧ W₂ v.1 v.2)
      (fun v => F₁ v.1 ∧ F₂ v.1 v.2) where
  emits {v} w := by
    obtain ⟨p, lengthp, emitsp⟩ := h₁.emits w.1
    obtain ⟨q, lengthq, emitsq⟩ := (h₂ v.1).emits w.2
    exact ⟨p ++ q, by rw [List.length_append, lengthp, lengthq], emitsp.bind emitsq⟩
  refuses {v} w := by
    by_cases first : W₁ v.1
    · obtain ⟨p, -, emits⟩ := h₁.emits first
      exact emits.bind_refuses ((h₂ v.1).refuses fun second => w ⟨first, second⟩)
    · exact (h₁.refuses first).bind_left
  writable {v} wf := ⟨h₁.writable wf.1, (h₂ v.1).writable wf.2⟩
  read_emitted {v p} wf e r := by
    obtain ⟨p₁, -, emits₁⟩ := h₁.emits_wellFormed wf.1
    obtain ⟨p₂, -, emits₂⟩ := (h₂ v.1).emits_wellFormed wf.2
    obtain rfl := e.unique (emits₁.bind emits₂)
    refine seqRead_eq_ok.mpr ⟨p₂ ++ r, ?_, (h₂ v.1).read_emitted wf.2 emits₂ r⟩
    rw [List.append_assoc]
    exact h₁.read_emitted wf.1 emits₁ _
  read_ok {b v r} ok := by
    obtain ⟨m, ok₁, ok₂⟩ := seqRead_eq_ok.mp ok
    obtain ⟨wf₁, p₁, rfl, emits₁⟩ := h₁.read_ok ok₁
    obtain ⟨wf₂, p₂, rfl, emits₂⟩ := (h₂ v.1).read_ok ok₂
    exact ⟨⟨wf₁, wf₂⟩, p₁ ++ p₂, by simp, emits₁.bind emits₂⟩

/-- A choice whose reader reads the first alternative. -/
theorem sum_left {write₁ : α → Cursor → Except ε Cursor} {read₁ : Bytes → Except ε (α × Bytes)}
    {len₁ : α → Nat} {W₁ F₁ : α → Prop} (h₁ : LawfulCodec write₁ read₁ len₁ W₁ F₁)
    {write₂ : β → Cursor → Except ε Cursor} {read₂ : Bytes → Except ε (β × Bytes)}
    {len₂ : β → Nat} {W₂ F₂ : β → Prop} (h₂ : LawfulCodec write₂ read₂ len₂ W₂ F₂)
    {read : Bytes → Except ε ((α ⊕ β) × Bytes)}
    (same : ∀ {b v r}, read b = .ok (v, r) ↔ ∃ a, v = .inl a ∧ read₁ b = .ok (a, r)) :
    LawfulCodec (Sum.elim write₁ write₂) read (Sum.elim len₁ len₂) (Sum.elim W₁ W₂)
      (Sum.elim F₁ fun _ => False) where
  emits {v} w := match v with
    | .inl _ => h₁.emits w
    | .inr _ => h₂.emits w
  refuses {v} w := match v with
    | .inl _ => h₁.refuses w
    | .inr _ => h₂.refuses w
  writable {v} wf := match v with
    | .inl _ => h₁.writable wf
    | .inr _ => wf.elim
  read_emitted {v _} wf e r := match v with
    | .inl a => same.mpr ⟨a, rfl, h₁.read_emitted wf e r⟩
    | .inr _ => wf.elim
  read_ok ok := by
    obtain ⟨a, rfl, read⟩ := same.mp ok
    exact h₁.read_ok read

/-- A choice whose reader reads the second alternative. -/
theorem sum_right {write₁ : α → Cursor → Except ε Cursor} {read₁ : Bytes → Except ε (α × Bytes)}
    {len₁ : α → Nat} {W₁ F₁ : α → Prop} (h₁ : LawfulCodec write₁ read₁ len₁ W₁ F₁)
    {write₂ : β → Cursor → Except ε Cursor} {read₂ : Bytes → Except ε (β × Bytes)}
    {len₂ : β → Nat} {W₂ F₂ : β → Prop} (h₂ : LawfulCodec write₂ read₂ len₂ W₂ F₂)
    {read : Bytes → Except ε ((α ⊕ β) × Bytes)}
    (same : ∀ {b v r}, read b = .ok (v, r) ↔ ∃ a, v = .inr a ∧ read₂ b = .ok (a, r)) :
    LawfulCodec (Sum.elim write₁ write₂) read (Sum.elim len₁ len₂) (Sum.elim W₁ W₂)
      (Sum.elim (fun _ => False) F₂) where
  emits {v} w := match v with
    | .inl _ => h₁.emits w
    | .inr _ => h₂.emits w
  refuses {v} w := match v with
    | .inl _ => h₁.refuses w
    | .inr _ => h₂.refuses w
  writable {v} wf := match v with
    | .inl _ => wf.elim
    | .inr _ => h₂.writable wf
  read_emitted {v _} wf e r := match v with
    | .inl _ => wf.elim
    | .inr a => same.mpr ⟨a, rfl, h₂.read_emitted wf e r⟩
  read_ok ok := by
    obtain ⟨a, rfl, read⟩ := same.mp ok
    exact h₂.read_ok read

/-- A type whose values all have a wire form, which the reader accepts and nothing else. -/
theorem of_wire {write : α → Cursor → Except ε Cursor} {read : Bytes → Except ε (α × Bytes)}
    (wire : α → Bytes) (emits : ∀ v, Emits (write v) (wire v))
    (accepts : ∀ {b v r}, read b = .ok (v, r) ↔ b = wire v ++ r) {len : α → Nat}
    (length : ∀ v, (wire v).length = len v) :
    LawfulCodec write read len (fun _ => True) (fun _ => True) where
  emits _ := ⟨_, length _, emits _⟩
  refuses w := (w trivial).elim
  writable _ := trivial
  read_emitted _ e r := accepts.mpr (by rw [e.unique (emits _)])
  read_ok ok := ⟨trivial, _, accepts.mp ok, emits _⟩

/-- A value that takes no bytes and is always read back as `a`. -/
theorem const (a : α) : LawfulCodec (fun _ c => .ok c) (fun b => (.ok (a, b) : Except ε _))
    (fun _ => 0) (fun _ => True) (· = a) where
  emits _ := ⟨[], rfl, Emits.nil⟩
  refuses w := (w trivial).elim
  writable _ := trivial
  read_emitted wf e r := by
    obtain rfl := e.unique Emits.nil
    rw [wf]
    rfl
  read_ok ok := by
    cases ok
    exact ⟨rfl, [], rfl, Emits.nil⟩

end LawfulCodec
end ByteCodec
