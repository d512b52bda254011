import Tpm2.Algorithm.Cells
import Tpm2.Algorithm.Mutating
import Tpm2.Protocol.Basic.List

/-! How the containers are stored: slots that may not have been written, a count of the used ones
and a slice view of these. What a container shows is what the calls that succeeded have put in, so
that `TpmList` and `TpmBuffer` are right about it. -/

namespace Tpm2

open ByteCodec Mutating

/-- A call that adds to a container. -/
inductive Growth (T : Type)
  | tryPush (item : T)
  | tryExtendFromSlice (slice : List T)

/-- What a call is given. -/
def Growth.input {T : Type} : Growth T → List T
  | tryPush item => [item]
  | tryExtendFromSlice slice => slice

/-- The inputs of the calls that returned `Ok`, in order. -/
def accepted {T : Type} (calls : List (Growth T)) (results : List (TpmResult Unit)) : List T :=
  (calls.zip results).flatMap fun made => if made.2.isOk then made.1.input else []

/-- A container keeps what it accepts: after any calls its slice view exposes written elements only,
and these are what the calls that succeeded were given, never more than `limit`; a call that fails
leaves the view as it is. -/
def KeepsAccepted {T σ : Type} (apply : Growth T → Mutating TpmError σ Unit)
    (deref : σ → Option (List T)) (start : σ) (limit : Nat) : Prop :=
  ∀ calls : List (Growth T), ∃ results container,
    runCalls apply calls start = some (results, container) ∧ results.length = calls.length ∧
    deref container = some (accepted calls results) ∧ (accepted calls results).length ≤ limit ∧
    ∀ call, ∃ result container', (apply call).Ends container result container' ∧
      ∀ e, result = .error e → deref container' = deref container

/-- What a call does to a container that shows `values`: it appends its input, which then fits, or
it fails and leaves the container as it is. -/
def Appends {T σ : Type} (Shows : σ → List T → Prop) (limit : Nat)
    (apply : Growth T → Mutating TpmError σ Unit) : Prop :=
  ∀ call container values, Shows container values →
    (values.length + call.input.length ≤ limit ∧ ∃ container',
      (apply call).Ends container (.ok ()) container' ∧
        Shows container' (values ++ call.input)) ∨
    ∃ e, (apply call).Ends container (.error e) container

section
variable {T σ : Type} {Shows : σ → List T → Prop} {limit : Nat}
  {apply : Growth T → Mutating TpmError σ Unit}

/-- Calls append what they accept to what the container has shown before. -/
theorem Appends.runCalls (appends : Appends Shows limit apply) (calls : List (Growth T))
    {container : σ} {values : List T} (shows : Shows container values)
    (bounded : values.length ≤ limit) :
    ∃ results container', runCalls apply calls container = some (results, container') ∧
      results.length = calls.length ∧ Shows container' (values ++ accepted calls results) ∧
      (values ++ accepted calls results).length ≤ limit := by
  induction calls generalizing container values with
  | nil =>
      have nothing : values ++ accepted [] [] = values := List.append_nil values
      refine ⟨[], container, rfl, rfl, ?_, ?_⟩
      · rw [nothing]
        exact shows
      · rw [nothing]
        exact bounded
  | cons call calls ih =>
      rcases appends call container values shows with ⟨fits, next, ends, shown⟩ | ⟨e, ends⟩
      · have within : (values ++ call.input).length ≤ limit := by
          rw [List.length_append]
          exact fits
        obtain ⟨results, container', run, count, rest, le⟩ := ih shown within
        rw [List.append_assoc] at rest le
        exact ⟨.ok () :: results, container', runCalls_cons ends run, congrArg (· + 1) count,
          rest, le⟩
      · obtain ⟨results, container', run, count, rest, le⟩ := ih shows bounded
        exact ⟨.error e :: results, container', runCalls_cons ends run, congrArg (· + 1) count,
          rest, le⟩

/-- A container whose calls append keeps what it accepts. -/
theorem Appends.keepsAccepted (appends : Appends Shows limit apply) {start : σ}
    (empty : Shows start []) {deref : σ → Option (List T)}
    (exposes : ∀ container values, Shows container values → deref container = some values) :
    KeepsAccepted apply deref start limit := by
  intro calls
  obtain ⟨results, container, run, count, shows, le⟩ :=
    appends.runCalls calls empty (Nat.zero_le limit)
  rw [List.nil_append] at shows le
  refine ⟨results, container, run, count, exposes _ _ shows, le, ?_⟩
  intro call
  rcases appends call container _ shows with ⟨-, next, ends, -⟩ | ⟨e, ends⟩
  · exact ⟨_, next, ends, fun e failed => by cases failed⟩
  · exact ⟨_, container, ends, fun _ _ => rfl⟩

end

/-- The stored container ends a call as the container it stands for does: where that one accepts, it
shows the new contents, and where that one refuses, it fails and stays as it is. -/
def Follows {σ A : Type} (Shows : σ → A → Prop) (program : Mutating TpmError σ Unit) (s : σ) :
    TpmResult A → Prop
  | .ok a => ∃ s', program.Ends s (.ok ()) s' ∧ Shows s' a
  | .error _ => ∃ e, program.Ends s (.error e) s

/-- `u16::try_from(usize)`, with the caller's error. -/
def u16TryFrom (value : Nat) (e : TpmError) : TpmResult UInt16 :=
  if value ≤ u16Max then .ok (UInt16.ofNat value) else .error e

section
variable {σ : Type} {lhs rhs value : Nat}

theorem ends_checkedAdd (counted : lhs + rhs ≤ usizeMax) (e : TpmError) (s : σ) :
    (result (okOr (checkedAdd? lhs rhs) e)).Ends s (.ok (lhs + rhs)) s := by
  rw [checkedAdd?, if_pos counted]
  exact ends_result _ _

theorem ends_checkedAdd_overflow (overflows : ¬ lhs + rhs ≤ usizeMax) (e : TpmError) (s : σ) :
    (result (okOr (checkedAdd? lhs rhs) e)).Ends s (.error e) s := by
  rw [checkedAdd?, if_neg overflows]
  exact ends_result _ _

theorem ends_u16TryFrom (narrow : value ≤ u16Max) (e : TpmError) (s : σ) :
    (result (u16TryFrom value e)).Ends s (.ok (UInt16.ofNat value)) s := by
  rw [u16TryFrom, if_pos narrow]
  exact ends_result _ _

theorem ends_u16TryFrom_wide (wide : ¬ value ≤ u16Max) (e : TpmError) (s : σ) :
    (result (u16TryFrom value e)).Ends s (.error e) s := by
  rw [u16TryFrom, if_neg wide]
  exact ends_result _ _

end

namespace Storage

/-- A fixed-capacity list as it is stored. -/
structure TpmList (T : Type) (CAPACITY : Nat) where
  items : Cells T CAPACITY
  len : Nat

namespace TpmList

variable {T : Type} {CAPACITY : Nat}

/-- An empty list. -/
def new : TpmList T CAPACITY := ⟨.uninit, 0⟩

/-- Appends an element to the back of the list. -/
def tryPush (item : T) : Mutating TpmError (TpmList T CAPACITY) Unit := do
  let self ← get
  if self.len ≥ CAPACITY then
    throw (.tooManyItems 0 CAPACITY (self.len + 1))
  modify? fun self => (self.items.write? self.len item).map ({ self with items := · })
  modify fun self => { self with len := self.len + 1 }

/-- Appends a slice of elements to the back of the list. -/
def tryExtendFromSlice (slice : List T) : Mutating TpmError (TpmList T CAPACITY) Unit := do
  let self ← get
  let newLen ← result (okOr (checkedAdd? self.len slice.length)
    (.tooManyItems 0 CAPACITY usizeMax))
  if newLen > CAPACITY then
    throw (.tooManyItems 0 CAPACITY newLen)
  modify? fun self =>
    (self.items.writeRange? self.len newLen slice).map ({ self with items := · })
  modify fun self => { self with len := newLen }

/-- The slice view. -/
def deref (self : TpmList T CAPACITY) : Option (List T) := self.items.view? self.len

def apply : Growth T → Mutating TpmError (TpmList T CAPACITY) Unit
  | .tryPush item => tryPush item
  | .tryExtendFromSlice slice => tryExtendFromSlice slice

/-- The list shows these items: they are what it holds, and `len` counts them. -/
def Shows (self : TpmList T CAPACITY) (items : List T) : Prop :=
  self.len = items.length ∧ self.items.Holds items

theorem new_shows : (new : TpmList T CAPACITY).Shows [] := ⟨rfl, Cells.uninit_holds⟩

theorem deref_of_shows {self : TpmList T CAPACITY} {items : List T} (shows : self.Shows items) :
    self.deref = some items :=
  Cells.view?_eq_some.mpr ⟨shows.1.symm, shows.2⟩

theorem tryPush_full {self : TpmList T CAPACITY} (full : CAPACITY ≤ self.len) (item : T) :
    (tryPush item).Ends self (.error (.tooManyItems 0 CAPACITY (self.len + 1))) self := by
  unfold tryPush
  refine (ends_get self).bind ?_
  dsimp only
  rw [if_pos full]
  exact (ends_throw _ _).bind_error _

theorem tryPush_room {self : TpmList T CAPACITY} {items : List T} (shows : self.Shows items)
    (room : self.len < CAPACITY) (item : T) :
    ∃ self', (tryPush item).Ends self (.ok ()) self' ∧ self'.Shows (items ++ [item]) := by
  have inRange : items.length < CAPACITY := shows.1 ▸ room
  obtain ⟨cells, written, holds⟩ := shows.2.write inRange item
  refine ⟨⟨cells, self.len + 1⟩, ?_, ?_, holds⟩
  · unfold tryPush
    refine (ends_get self).bind ?_
    dsimp only
    rw [if_neg (Nat.not_le.mpr room)]
    have changed : (self.items.write? self.len item).map ({ self with items := · })
        = some ⟨cells, self.len⟩ := by
      rw [shows.1, written]
      rfl
    exact (ends_modify? changed).bind (ends_modify _ _)
  · rw [shows.1, List.length_append, List.length_singleton]

/-- A slice that does not fit is refused, and one that makes the count overflow too. -/
theorem tryExtendFromSlice_full {self : TpmList T CAPACITY} {slice : List T}
    (full : ¬ (self.len + slice.length ≤ usizeMax ∧ self.len + slice.length ≤ CAPACITY)) :
    ∃ e, (tryExtendFromSlice slice).Ends self (.error e) self := by
  unfold tryExtendFromSlice
  by_cases counted : self.len + slice.length ≤ usizeMax
  · have exceeds : self.len + slice.length > CAPACITY := by omega
    refine ⟨.tooManyItems 0 CAPACITY (self.len + slice.length),
      (ends_get self).bind ((ends_checkedAdd counted _ _).bind ?_)⟩
    dsimp only
    rw [if_pos exceeds]
    exact (ends_throw _ _).bind_error _
  · exact ⟨_, (ends_get self).bind ((ends_checkedAdd_overflow counted _ _).bind_error _)⟩

theorem tryExtendFromSlice_room {self : TpmList T CAPACITY} {items slice : List T}
    (shows : self.Shows items) (counted : self.len + slice.length ≤ usizeMax)
    (room : self.len + slice.length ≤ CAPACITY) :
    ∃ self', (tryExtendFromSlice slice).Ends self (.ok ()) self' ∧
      self'.Shows (items ++ slice) := by
  have inRange : items.length + slice.length ≤ CAPACITY := shows.1 ▸ room
  obtain ⟨cells, written, holds⟩ := shows.2.writeRange inRange
  refine ⟨⟨cells, self.len + slice.length⟩, ?_, ?_, holds⟩
  · unfold tryExtendFromSlice
    refine (ends_get self).bind ((ends_checkedAdd counted _ _).bind ?_)
    dsimp only
    rw [if_neg (Nat.not_lt.mpr room)]
    have changed : (self.items.writeRange? self.len (self.len + slice.length) slice).map
        ({ self with items := · }) = some ⟨cells, self.len⟩ := by
      rw [shows.1, written]
      rfl
    exact (ends_modify? changed).bind (ends_modify _ _)
  · rw [shows.1, List.length_append]

/-- The stored list is a `TpmList`. -/
theorem tryPush_follows {self : TpmList T CAPACITY} {list : Tpm2.TpmList T CAPACITY}
    (shows : self.Shows list.items) (item : T) :
    Follows (fun self list => Shows self list.items) (tryPush item) self (list.tryPush item) := by
  unfold Tpm2.TpmList.tryPush
  split
  next full => exact ⟨_, tryPush_full (shows.1 ▸ full) item⟩
  next room => exact tryPush_room shows (shows.1 ▸ Nat.not_le.mp room) item

theorem tryExtendFromSlice_follows {self : TpmList T CAPACITY} {list : Tpm2.TpmList T CAPACITY}
    (counted : CAPACITY ≤ usizeMax) (shows : self.Shows list.items) (slice : List T) :
    Follows (fun self list => Shows self list.items) (tryExtendFromSlice slice) self
      (list.tryExtendFromSlice slice) := by
  have len := shows.1
  unfold Tpm2.TpmList.tryExtendFromSlice
  dsimp only
  split
  next full => exact tryExtendFromSlice_full (by omega)
  next room => exact tryExtendFromSlice_room shows (by omega) (by omega)

theorem apply_appends :
    Appends Shows CAPACITY (apply : _ → Mutating _ (TpmList T CAPACITY) _) := by
  intro call self items shows
  cases call with
  | tryPush item =>
      by_cases room : self.len < CAPACITY
      · obtain ⟨self', ends, shown⟩ := tryPush_room shows room item
        exact .inl ⟨shows.1 ▸ room, self', ends, shown⟩
      · exact .inr ⟨_, tryPush_full (Nat.not_lt.mp room) item⟩
  | tryExtendFromSlice slice =>
      by_cases room : self.len + slice.length ≤ usizeMax ∧ self.len + slice.length ≤ CAPACITY
      · obtain ⟨self', ends, shown⟩ := tryExtendFromSlice_room shows room.1 room.2
        exact .inl ⟨shows.1 ▸ room.2, self', ends, shown⟩
      · exact .inr (tryExtendFromSlice_full room)

theorem keepsAccepted :
    KeepsAccepted apply deref (new : TpmList T CAPACITY) CAPACITY :=
  apply_appends.keepsAccepted new_shows fun _ _ => deref_of_shows

end TpmList

/-- A buffer in the TPM2B wire format as it is stored. -/
structure TpmBuffer (CAPACITY : Nat) where
  size : UInt16
  data : Cells UInt8 CAPACITY

namespace TpmBuffer

variable {CAPACITY : Nat}

/-- An empty buffer. -/
def new : TpmBuffer CAPACITY := ⟨0, .uninit⟩

/-- Appends a byte to the buffer. -/
def tryPush (byte : UInt8) : Mutating TpmError (TpmBuffer CAPACITY) Unit := do
  let self ← get
  if self.size.toNat ≥ CAPACITY ∨ self.size = 0xffff then
    throw (.bufferOverflow self.size.toNat 1 (CAPACITY - self.size.toNat))
  modify? fun self => (self.data.write? self.size.toNat byte).map ({ self with data := · })
  modify fun self => { self with size := self.size + 1 }

/-- Appends a slice of bytes to the buffer. -/
def tryExtendFromSlice (slice : Bytes) : Mutating TpmError (TpmBuffer CAPACITY) Unit := do
  let self ← get
  let currentLen := self.size.toNat
  let newLen ← result (okOr (checkedAdd? currentLen slice.length)
    (.bufferOverflow currentLen slice.length (CAPACITY - currentLen)))
  if newLen > CAPACITY then
    throw (.bufferOverflow currentLen slice.length (CAPACITY - currentLen))
  let size ← result (u16TryFrom newLen
    (.bufferOverflow currentLen slice.length (u16Max - currentLen)))
  modify fun self => { self with size := size }
  modify? fun self =>
    (self.data.writeRange? currentLen newLen slice).map ({ self with data := · })

/-- The slice view. -/
def deref (self : TpmBuffer CAPACITY) : Option Bytes := self.data.view? self.size.toNat

def apply : Growth UInt8 → Mutating TpmError (TpmBuffer CAPACITY) Unit
  | .tryPush byte => tryPush byte
  | .tryExtendFromSlice slice => tryExtendFromSlice slice

/-- The buffer shows these bytes: they are what it holds, and `size` counts them. -/
def Shows (self : TpmBuffer CAPACITY) (bytes : Bytes) : Prop :=
  self.size.toNat = bytes.length ∧ self.data.Holds bytes

theorem new_shows : (new : TpmBuffer CAPACITY).Shows [] := ⟨rfl, Cells.uninit_holds⟩

theorem deref_of_shows {self : TpmBuffer CAPACITY} {bytes : Bytes} (shows : self.Shows bytes) :
    self.deref = some bytes :=
  Cells.view?_eq_some.mpr ⟨shows.1.symm, shows.2⟩

theorem size_eq_max {self : TpmBuffer CAPACITY} :
    self.size = 0xffff ↔ self.size.toNat = u16Max := by
  rw [← UInt16.toNat_inj]
  exact Iff.rfl

theorem tryPush_full {self : TpmBuffer CAPACITY} (full : min CAPACITY u16Max ≤ self.size.toNat)
    (byte : UInt8) :
    (tryPush byte).Ends self
      (.error (.bufferOverflow self.size.toNat 1 (CAPACITY - self.size.toNat))) self := by
  have bound := self.size.toNat_lt
  have refused : self.size.toNat ≥ CAPACITY ∨ self.size = 0xffff := by
    rw [size_eq_max, u16Max] at *
    omega
  unfold tryPush
  refine (ends_get self).bind ?_
  dsimp only
  rw [if_pos refused]
  exact (ends_throw _ _).bind_error _

theorem tryPush_room {self : TpmBuffer CAPACITY} {bytes : Bytes} (shows : self.Shows bytes)
    (room : self.size.toNat < min CAPACITY u16Max) (byte : UInt8) :
    ∃ self', (tryPush byte).Ends self (.ok ()) self' ∧ self'.Shows (bytes ++ [byte]) := by
  have inRange : bytes.length < CAPACITY := by
    rw [← shows.1]
    omega
  obtain ⟨cells, written, holds⟩ := shows.2.write inRange byte
  refine ⟨⟨self.size + 1, cells⟩, ?_, ?_, holds⟩
  · have taken : ¬ (self.size.toNat ≥ CAPACITY ∨ self.size = 0xffff) := by
      rw [size_eq_max]
      omega
    unfold tryPush
    refine (ends_get self).bind ?_
    dsimp only
    rw [if_neg taken]
    have changed : (self.data.write? self.size.toNat byte).map ({ self with data := · })
        = some ⟨self.size, cells⟩ := by
      rw [shows.1, written]
      rfl
    exact (ends_modify? changed).bind (ends_modify _ _)
  · rw [u16Max] at room
    rw [UInt16.toNat_add, List.length_append, List.length_singleton, ← shows.1]
    exact Nat.mod_eq_of_lt (by show self.size.toNat + 1 < 2 ^ 16; omega)

theorem tryExtendFromSlice_full {self : TpmBuffer CAPACITY} {slice : Bytes}
    (full : min CAPACITY u16Max < self.size.toNat + slice.length) :
    ∃ e, (tryExtendFromSlice slice).Ends self (.error e) self := by
  unfold tryExtendFromSlice
  by_cases counted : self.size.toNat + slice.length ≤ usizeMax
  · by_cases exceeds : self.size.toNat + slice.length > CAPACITY
    · refine ⟨.bufferOverflow self.size.toNat slice.length (CAPACITY - self.size.toNat),
        (ends_get self).bind ((ends_checkedAdd counted _ _).bind ?_)⟩
      dsimp only
      rw [if_pos exceeds]
      exact (ends_throw _ _).bind_error _
    · have wide : ¬ self.size.toNat + slice.length ≤ u16Max := by omega
      refine ⟨.bufferOverflow self.size.toNat slice.length (u16Max - self.size.toNat),
        (ends_get self).bind ((ends_checkedAdd counted _ _).bind ?_)⟩
      dsimp only
      rw [if_neg exceeds]
      exact (ends_u16TryFrom_wide wide _ _).bind_error _
  · exact ⟨_, (ends_get self).bind ((ends_checkedAdd_overflow counted _ _).bind_error _)⟩

theorem tryExtendFromSlice_room {self : TpmBuffer CAPACITY} {bytes slice : Bytes}
    (shows : self.Shows bytes) (room : self.size.toNat + slice.length ≤ min CAPACITY u16Max) :
    ∃ self', (tryExtendFromSlice slice).Ends self (.ok ()) self' ∧
      self'.Shows (bytes ++ slice) := by
  have inRange : bytes.length + slice.length ≤ CAPACITY := by
    rw [← shows.1]
    omega
  have narrow : self.size.toNat + slice.length ≤ u16Max := by omega
  have counted : self.size.toNat + slice.length ≤ usizeMax := by
    rw [u16Max] at narrow
    rw [usizeMax]
    omega
  obtain ⟨cells, written, holds⟩ := shows.2.writeRange inRange
  refine ⟨⟨UInt16.ofNat (self.size.toNat + slice.length), cells⟩, ?_, ?_, holds⟩
  · unfold tryExtendFromSlice
    refine (ends_get self).bind ((ends_checkedAdd counted _ _).bind ?_)
    have within : ¬ self.size.toNat + slice.length > CAPACITY := by omega
    dsimp only
    rw [if_neg within]
    refine (ends_u16TryFrom narrow _ _).bind ((ends_modify _ _).bind (ends_modify? ?_))
    rw [shows.1, written]
    rfl
  · rw [u16Max] at narrow
    rw [UInt16.toNat_ofNat_of_lt' (by rw [UInt16.size]; omega), List.length_append, ← shows.1]

/-- The stored buffer is a `TpmBuffer`. -/
theorem tryPush_follows {self : TpmBuffer CAPACITY} {buffer : Tpm2.TpmBuffer CAPACITY}
    (shows : self.Shows buffer.bytes) (byte : UInt8) :
    Follows (fun self buffer => Shows self buffer.bytes) (tryPush byte) self
      (buffer.tryPush byte) := by
  have size := shows.1
  have le := buffer.length_le_u16
  unfold Tpm2.TpmBuffer.tryPush Tpm2.TpmBuffer.size
  split
  next full => exact ⟨_, tryPush_full (by omega) byte⟩
  next room => exact tryPush_room shows (by omega) byte

theorem tryExtendFromSlice_follows {self : TpmBuffer CAPACITY} {buffer : Tpm2.TpmBuffer CAPACITY}
    (shows : self.Shows buffer.bytes) (slice : Bytes) :
    Follows (fun self buffer => Shows self buffer.bytes) (tryExtendFromSlice slice) self
      (buffer.tryExtendFromSlice slice) := by
  have size := shows.1
  unfold Tpm2.TpmBuffer.tryExtendFromSlice Tpm2.TpmBuffer.size
  dsimp only
  split
  next full => exact tryExtendFromSlice_full (by omega)
  next within =>
      split
      next wide => exact tryExtendFromSlice_full (by omega)
      next narrow => exact tryExtendFromSlice_room shows (by omega)

theorem apply_appends :
    Appends Shows (min CAPACITY u16Max) (apply : _ → Mutating _ (TpmBuffer CAPACITY) _) := by
  intro call self bytes shows
  cases call with
  | tryPush byte =>
      by_cases room : self.size.toNat < min CAPACITY u16Max
      · obtain ⟨self', ends, shown⟩ := tryPush_room shows room byte
        exact .inl ⟨shows.1 ▸ room, self', ends, shown⟩
      · exact .inr ⟨_, tryPush_full (Nat.not_lt.mp room) byte⟩
  | tryExtendFromSlice slice =>
      by_cases room : self.size.toNat + slice.length ≤ min CAPACITY u16Max
      · obtain ⟨self', ends, shown⟩ := tryExtendFromSlice_room shows room
        exact .inl ⟨shows.1 ▸ room, self', ends, shown⟩
      · exact .inr (tryExtendFromSlice_full (Nat.not_le.mp room))

theorem keepsAccepted :
    KeepsAccepted apply deref (new : TpmBuffer CAPACITY) (min CAPACITY u16Max) :=
  apply_appends.keepsAccepted new_shows fun _ _ => deref_of_shows

end TpmBuffer

/-- The containers keep exactly what they accept, for every capacity: a list never gets longer than
its capacity, a buffer neither than its capacity nor than 65535 bytes. -/
theorem containers_keep_accepted (T : Type) (CAPACITY : Nat) :
    KeepsAccepted (TpmList.apply : Growth T → _) TpmList.deref
        (TpmList.new : TpmList T CAPACITY) CAPACITY ∧
      KeepsAccepted TpmBuffer.apply TpmBuffer.deref (TpmBuffer.new : TpmBuffer CAPACITY)
        (min CAPACITY u16Max) :=
  ⟨TpmList.keepsAccepted, TpmBuffer.keepsAccepted⟩

end Storage
end Tpm2
