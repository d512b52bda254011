import Tpm2.ByteCodec.Codec

/-! Codecs of raw byte strings, of counted repetitions and of values behind a length prefix. -/

namespace ByteCodec

variable {ε α β : Type}

/-- Writes the values of a list one after another. -/
def writeMany (write : α → Cursor → Except ε Cursor) : List α → Cursor → Except ε Cursor
  | [], c => .ok c
  | a :: rest, c => write a c >>= writeMany write rest

/-- Reads exactly `count` values. -/
def readMany (read : Bytes → Except ε (α × Bytes)) : Nat → Bytes → Except ε (List α × Bytes)
  | 0, b => .ok ([], b)
  | count + 1, b => do
      let (a, b) ← read b
      let (rest, b) ← readMany read count b
      .ok (a :: rest, b)

theorem writeMany_emits {write : α → Cursor → Except ε Cursor} {wire : α → Bytes}
    (emits : ∀ a, Emits (write a) (wire a)) (values : List α) :
    Emits (writeMany write values) (values.flatMap wire) := by
  induction values with
  | nil => exact Emits.nil
  | cons a rest ih => exact (emits a).bind ih

theorem readMany_succ_eq_ok {read : Bytes → Except ε (α × Bytes)} {count : Nat} {b r : Bytes}
    {values : List α} :
    readMany read (count + 1) b = .ok (values, r) ↔
      ∃ a m rest, read b = .ok (a, m) ∧ readMany read count m = .ok (rest, r) ∧
        values = a :: rest := by
  simp only [readMany, bind_eq_ok, Prod.exists, Except.ok.injEq, Prod.mk.injEq]
  constructor
  · rintro ⟨a, m, first, rest, r', others, rfl, rfl⟩
    exact ⟨a, m, rest, first, others, rfl⟩
  · rintro ⟨a, m, rest, first, others, rfl⟩
    exact ⟨a, m, first, rest, r, others, rfl, rfl⟩

namespace LawfulCodec

section
variable {write : α → Cursor → Except ε Cursor} {read : Bytes → Except ε (α × Bytes)}
  {len : α → Nat} {W F : α → Prop} (h : LawfulCodec write read len W F)
include h

theorem many_emits {values : List α} (w : ∀ a ∈ values, W a) :
    ∃ p, p.length = (values.map len).sum ∧ Emits (writeMany write values) p := by
  induction values with
  | nil => exact ⟨[], rfl, Emits.nil⟩
  | cons a rest ih =>
      obtain ⟨p, lengthp, emitsp⟩ := h.emits (w a List.mem_cons_self)
      obtain ⟨q, lengthq, emitsq⟩ := ih fun a member => w a (List.mem_cons_of_mem _ member)
      exact ⟨p ++ q, by simp [lengthp, lengthq], emitsp.bind emitsq⟩

theorem many_refuses {values : List α} (w : ¬ ∀ a ∈ values, W a) :
    Refuses (writeMany write values) := by
  induction values with
  | nil => exact (w (by simp)).elim
  | cons a rest ih =>
      by_cases first : W a
      · obtain ⟨p, -, emits⟩ := h.emits first
        exact emits.bind_refuses (ih fun all => w (by simpa [first] using all))
      · exact (h.refuses first).bind_left

theorem many_read_emitted {values : List α} {p : Bytes} (wf : ∀ a ∈ values, F a)
    (e : Emits (writeMany write values) p) (r : Bytes) :
    readMany read values.length (p ++ r) = .ok (values, r) := by
  induction values generalizing p with
  | nil =>
      obtain rfl := e.unique Emits.nil
      rfl
  | cons a rest ih =>
      obtain ⟨p₁, -, emits₁⟩ := h.emits_wellFormed (wf a List.mem_cons_self)
      have others : ∀ a ∈ rest, F a := fun a member => wf a (List.mem_cons_of_mem _ member)
      obtain ⟨p₂, -, emits₂⟩ := h.many_emits fun a member => h.writable (others a member)
      obtain rfl := e.unique (emits₁.bind emits₂)
      refine readMany_succ_eq_ok.mpr ⟨a, p₂ ++ r, rest, ?_, ih others emits₂, rfl⟩
      rw [List.append_assoc]
      exact h.read_emitted (wf a List.mem_cons_self) emits₁ _

theorem many_read_ok {count : Nat} {b r : Bytes} {values : List α}
    (ok : readMany read count b = .ok (values, r)) :
    (values.length = count ∧ ∀ a ∈ values, F a) ∧
      ∃ p, b = p ++ r ∧ Emits (writeMany write values) p := by
  induction count generalizing b values with
  | zero =>
      cases ok
      exact ⟨by simp, [], rfl, Emits.nil⟩
  | succ count ih =>
      obtain ⟨a, m, rest, first, others, rfl⟩ := readMany_succ_eq_ok.mp ok
      obtain ⟨wf, p, rfl, emitsp⟩ := h.read_ok first
      obtain ⟨⟨length, wfs⟩, q, rfl, emitsq⟩ := ih others
      exact ⟨⟨by simp [length], by simpa [wf] using wfs⟩, p ++ q, by simp, emitsp.bind emitsq⟩

/-- A repetition whose length the reader is told. -/
theorem many (count : Nat) :
    LawfulCodec (writeMany write) (readMany read count) (fun values => (values.map len).sum)
      (fun values => ∀ a ∈ values, W a)
      (fun values => values.length = count ∧ ∀ a ∈ values, F a) where
  emits := h.many_emits
  refuses := h.many_refuses
  writable wf a member := h.writable (wf.2 a member)
  read_emitted wf e r := wf.1 ▸ h.many_read_emitted wf.2 e r
  read_ok := h.many_read_ok

/-- A wrapped value behind its length: the reader takes `size` bytes, at most `limit`, and the value
has to fill them. -/
theorem sized {writeSize : Nat → Cursor → Except ε Cursor}
    {readSize : Bytes → Except ε (Nat × Bytes)} {width limit : Nat} {Fits : Nat → Prop}
    (hsize : LawfulCodec writeSize readSize (fun _ => width) Fits Fits) {f : β → α}
    {read' : Bytes → Except ε (β × Bytes)}
    (same : ∀ b v r, read' b = .ok (v, r) ↔ ∃ size m, readSize b = .ok (size, m) ∧
      size ≤ limit ∧ size ≤ m.length ∧ read (m.take size) = .ok (f v, []) ∧ r = m.drop size) :
    LawfulCodec (fun v c => writeSize (len (f v)) c >>= write (f v)) read'
      (fun v => width + len (f v)) (fun v => Fits (len (f v)) ∧ W (f v))
      (fun v => F (f v) ∧ len (f v) ≤ limit ∧ Fits (len (f v))) where
  emits {v} w := by
    obtain ⟨p, lengthp, emitsp⟩ := hsize.emits w.1
    obtain ⟨q, lengthq, emitsq⟩ := h.emits w.2
    exact ⟨p ++ q, by simp [lengthp, lengthq], emitsp.bind emitsq⟩
  refuses {v} w := by
    by_cases fits : Fits (len (f v))
    · obtain ⟨p, -, emits⟩ := hsize.emits fits
      exact emits.bind_refuses (h.refuses fun value => w ⟨fits, value⟩)
    · exact (hsize.refuses fits).bind_left
  writable wf := ⟨wf.2.2, h.writable wf.1⟩
  read_emitted {v p} wf e r := by
    obtain ⟨p₁, -, emits₁⟩ := hsize.emits wf.2.2
    obtain ⟨p₂, length, emits₂⟩ := h.emits_wellFormed wf.1
    obtain rfl := e.unique (emits₁.bind emits₂)
    refine (same ..).mpr ⟨len (f v), p₂ ++ r, ?_, wf.2.1, by simp [length], ?_, ?_⟩
    · rw [List.append_assoc]
      exact hsize.read_emitted wf.2.2 emits₁ _
    · rw [← length, List.take_left]
      simpa using h.read_emitted wf.1 emits₂ []
    · rw [← length, List.drop_left]
  read_ok {b v r} ok := by
    obtain ⟨size, m, prefixed, bound, enough, value, rfl⟩ := (same ..).mp ok
    obtain ⟨fits, p, rfl, emitsp⟩ := hsize.read_ok prefixed
    obtain ⟨wf, q, split, emitsq⟩ := h.read_ok value
    rw [List.append_nil] at split
    obtain rfl : len (f v) = size := by
      rw [← h.length_emitted emitsq, ← split, List.length_take]
      omega
    refine ⟨⟨wf, bound, fits⟩, p ++ q, ?_, emitsp.bind emitsq⟩
    rw [List.append_assoc, ← split, List.take_append_drop]

end

/-- A byte string of a length the reader is told. -/
theorem bytes (count : Nat) {write : Bytes → Cursor → Except ε Cursor}
    (hwrite : ∀ p, Emits (write p) p) {read : Bytes → Except ε (Bytes × Bytes)}
    (same : ∀ b v r, read b = .ok (v, r) ↔ count ≤ b.length ∧ v = b.take count ∧
      r = b.drop count) :
    LawfulCodec write read List.length (fun _ => True) (fun v => v.length = count) where
  emits _ := ⟨_, rfl, hwrite _⟩
  refuses w := (w trivial).elim
  writable _ := trivial
  read_emitted {v p} wf e r := by
    obtain rfl := e.unique (hwrite v)
    exact (same ..).mpr ⟨by simp [← wf], by simp [← wf], by simp [← wf]⟩
  read_ok {b v r} ok := by
    obtain ⟨enough, rfl, rfl⟩ := (same ..).mp ok
    exact ⟨by rw [List.length_take]; omega, _, (List.take_append_drop count b).symm, hwrite _⟩

end LawfulCodec
end ByteCodec
