import Tpm2.ByteCodec.BigEndian

/-! Bounded output buffers with a write position, and the writers that append a fixed byte string
or refuse. -/

namespace ByteCodec

/-- An output buffer of a fixed size, filled up to `pos`. -/
structure Cursor where
  buffer : Bytes
  pos : Nat
  pos_le : pos ≤ buffer.length

namespace Cursor

/-- The number of bytes that still fit. -/
def room (c : Cursor) : Nat := c.buffer.length - c.pos

/-- The bytes written so far. -/
def written (c : Cursor) : Bytes := c.buffer.take c.pos

/-- Overwrites the bytes after `pos` with `bytes` and moves past them, where they fit. -/
def push (c : Cursor) (bytes : Bytes) : Cursor :=
  if fits : bytes.length ≤ c.room then
    { buffer := c.buffer.take c.pos ++ bytes ++ c.buffer.drop (c.pos + bytes.length)
      pos := c.pos + bytes.length
      pos_le := by
        have := c.pos_le
        unfold room at fits
        simp
        omega }
  else c

variable {c : Cursor} {p q : Bytes}

@[ext] theorem ext {c d : Cursor} (hbuffer : c.buffer = d.buffer) (hpos : c.pos = d.pos) :
    c = d := by
  cases c
  cases d
  simp_all

theorem length_push_buffer (c : Cursor) (p : Bytes) :
    (c.push p).buffer.length = c.buffer.length := by
  have := c.pos_le
  unfold push room
  split
  · simp
    omega
  · rfl

theorem push_pos (fits : p.length ≤ c.room) : (c.push p).pos = c.pos + p.length := by
  simp [push, fits]

theorem push_buffer (fits : p.length ≤ c.room) :
    (c.push p).buffer = c.buffer.take c.pos ++ p ++ c.buffer.drop (c.pos + p.length) := by
  simp [push, fits]

theorem push_room (fits : p.length ≤ c.room) : (c.push p).room = c.room - p.length := by
  rw [room, length_push_buffer, push_pos fits, room]
  omega

@[simp] theorem push_nil (c : Cursor) : c.push [] = c := by
  ext1 <;> simp [push]

theorem push_written (fits : p.length ≤ c.room) : (c.push p).written = c.written ++ p := by
  have := c.pos_le
  have taken : (c.buffer.take c.pos ++ p).length = c.pos + p.length := by simp; omega
  rw [written, push_buffer fits, push_pos fits, ← taken, List.take_left, written]

/-- Pushing twice is pushing once: the second push writes right after the first. -/
theorem push_push (fits : (p ++ q).length ≤ c.room) :
    (c.push p).push q = c.push (p ++ q) := by
  have := c.pos_le
  rw [List.length_append] at fits
  have first : p.length ≤ c.room := by omega
  have second : q.length ≤ (c.push p).room := by rw [push_room first]; omega
  have both : (p ++ q).length ≤ c.room := by rw [List.length_append]; exact fits
  have taken : (c.buffer.take c.pos ++ p).length = c.pos + p.length := by simp; omega
  ext1
  · rw [push_buffer second, push_buffer both, push_buffer first, push_pos first, ← taken,
      List.take_left, List.drop_append, List.drop_drop, List.length_append,
      List.append_assoc (c.buffer.take c.pos) p q]
    simp [List.drop_of_length_le, Nat.add_assoc]
    omega
  · rw [push_pos second, push_pos both, push_pos first, List.length_append]
    omega

/-- A push leaves every byte outside the written range alone. -/
theorem push_frame (fits : p.length ≤ c.room) :
    (c.push p).buffer.take c.pos = c.buffer.take c.pos ∧
      (c.push p).buffer.drop (c.pos + p.length) = c.buffer.drop (c.pos + p.length) := by
  have := c.pos_le
  have taken : (c.buffer.take c.pos).length = c.pos := by simp; omega
  constructor
  · rw [push_buffer fits, List.append_assoc]
    nth_rewrite 1 [← taken]
    rw [List.take_left]
  · have both : (c.buffer.take c.pos ++ p).length = c.pos + p.length := by simp; omega
    rw [push_buffer fits, ← both, List.drop_left]

/-- A push puts its bytes where the position was. -/
theorem push_range (fits : p.length ≤ c.room) :
    ((c.push p).buffer.drop c.pos).take p.length = p := by
  have := c.pos_le
  have taken : (c.buffer.take c.pos).length = c.pos := by simp; omega
  rw [push_buffer fits, List.append_assoc]
  nth_rewrite 1 [← taken]
  rw [List.drop_left, List.take_left]

/-- An empty buffer of `size` zero bytes. -/
def zeros (size : Nat) : Cursor := ⟨List.replicate size 0, 0, Nat.zero_le _⟩

@[simp] theorem zeros_room (size : Nat) : (zeros size).room = size := by simp [zeros, room]

@[simp] theorem zeros_written (size : Nat) : (zeros size).written = [] := by
  simp [zeros, written]

end Cursor
end ByteCodec
