import Tpm2.Protocol.Basic.Buffer

/-! Lists of a fixed capacity behind a 32-bit count. -/

namespace Tpm2

open ByteCodec

def tpmlCountLen : Nat := 4

/-- A list in the TPML wire format. -/
structure TpmList (T : Type) (CAPACITY : Nat) where
  items : List T
  length_le : items.length ≤ CAPACITY

namespace TpmList

variable {T : Type} {CAPACITY : Nat}

@[ext] theorem ext {v w : TpmList T CAPACITY} (h : v.items = w.items) : v = w := by
  cases v
  cases w
  simp_all

instance [DecidableEq T] : DecidableEq (TpmList T CAPACITY) := fun v w =>
  decidable_of_iff (v.items = w.items) ⟨ext, congrArg items⟩

/-- An empty list. -/
def new : TpmList T CAPACITY := ⟨[], Nat.zero_le _⟩

instance : Inhabited (TpmList T CAPACITY) := ⟨new⟩

/-- Appends an element. -/
def tryPush (list : TpmList T CAPACITY) (item : T) : TpmResult (TpmList T CAPACITY) :=
  if full : CAPACITY ≤ list.items.length then
    .error (.tooManyItems 0 CAPACITY (list.items.length + 1))
  else
    .ok ⟨list.items ++ [item], by simp; omega⟩

/-- Appends a slice of elements. -/
def tryExtendFromSlice (list : TpmList T CAPACITY) (slice : List T) :
    TpmResult (TpmList T CAPACITY) :=
  let newLen := list.items.length + slice.length
  if exceeds : newLen > CAPACITY then
    .error (.tooManyItems 0 CAPACITY newLen)
  else
    .ok ⟨list.items ++ slice, by simp [newLen] at exceeds ⊢; omega⟩

theorem tryPush_eq_ok {list result : TpmList T CAPACITY} {item : T} :
    list.tryPush item = .ok result ↔
      list.items.length < CAPACITY ∧ result.items = list.items ++ [item] := by
  unfold tryPush
  split
  · simp
    omega
  · rw [Except.ok.injEq]
    constructor
    · rintro rfl
      exact ⟨by omega, rfl⟩
    · rintro ⟨-, items⟩
      exact ext items.symm

instance [TpmSized T] : TpmSized (TpmList T CAPACITY) :=
  ⟨4 + SIZE T * CAPACITY, fun v => 4 + (v.items.map len).sum⟩

/-- `for item in list { item.marshal(writer)?; }` -/
def marshalItems [TpmMarshal T] : List T → TpmWriter → TpmResult TpmWriter
  | [], writer => .ok writer
  | item :: items, writer => do
      let writer ← marshal item writer
      marshalItems items writer

instance [TpmMarshal T] : TpmMarshal (TpmList T CAPACITY) where
  marshal v writer := do
    let len ← TpmUint32.tryFrom v.items.length (.integerTooLarge 0 (tpmValue v.items.length))
    let writer ← marshal len writer
    marshalItems v.items writer

/-- The loop of `unmarshal`: reads `count` more items into `list`. -/
def unmarshalItems [TpmUnmarshal T] :
    Nat → TpmList T CAPACITY → Bytes → TpmResult (TpmList T CAPACITY × Bytes)
  | 0, list, cursor => .ok (list, cursor)
  | count + 1, list, cursor => do
      let (item, tail) ← unmarshal cursor
      let list ← list.tryPush item
      unmarshalItems count list tail

instance [TpmUnmarshal T] : TpmUnmarshal (TpmList T CAPACITY) where
  unmarshal buffer := do
    let (count, cursor) ← (unmarshal buffer : TpmResult (TpmUint32 × Bytes))
    let count := count.value.toNat
    if count > CAPACITY then
      throw (.tooManyItems 0 CAPACITY count)
    unmarshalItems count new cursor

/-- `Tpml::validate_header`: the declared count, where it is within the capacity. -/
def validateHeader (CAPACITY : Nat) (buf : Bytes) : TpmResult Nat := do
  if buf.length < tpmlCountLen then
    throw (.unexpectedEnd 0 tpmlCountLen buf.length)
  let itemCount := ofBytes (buf.take 4)
  if itemCount > CAPACITY then
    throw (.tooManyItems 0 CAPACITY itemCount)
  return itemCount

/-- The loop of `cast_prefix_field`: steps over `count` more items and returns the number of bytes
consumed. -/
def castItems (T : Type) [TpmField T] : Nat → Nat → Bytes → TpmResult Nat
  | 0, consumed, _ => .ok consumed
  | count + 1, consumed, cursor => do
      let before := cursor.length
      let (_, tail) ← castPrefixField (α := T) cursor
      if before < tail.length then
        throw (.integerTooLarge consumed (tpmValue tail.length))
      let itemLen := before - tail.length
      castItems T count (consumed + itemLen) tail

instance [TpmField T] : TpmField (TpmList T CAPACITY) where
  View := Bytes
  castPrefixField buf := do
    let count ← validateHeader CAPACITY buf
    let consumed ← castItems T count tpmlCountLen (buf.drop tpmlCountLen)
    return (buf.take consumed, buf.drop consumed)

instance [TpmSpec T] : TpmSpec (TpmList T CAPACITY) where
  Writable v := v.items.length ≤ u32Max ∧ ∀ item ∈ v.items, Writable item
  WellFormed v := v.items.length ≤ u32Max ∧ ∀ item ∈ v.items, WellFormed item
  maxLen := 4 + maxLen T * CAPACITY

theorem marshalItems_eq_writeMany [TpmMarshal T] (items : List T) :
    marshalItems items = writeMany marshal items := by
  induction items with
  | nil => rfl
  | cons item items ih =>
      funext writer
      rw [marshalItems, writeMany, ih]

/-- The loop appends what reading `count` items in a row returns. -/
theorem unmarshalItems_eq_ok [TpmUnmarshal T] {count : Nat} {list result : TpmList T CAPACITY}
    {b r : Bytes} (room : list.items.length + count ≤ CAPACITY) :
    unmarshalItems count list b = .ok (result, r) ↔
      ∃ items, readMany unmarshal count b = .ok (items, r) ∧
        result.items = list.items ++ items := by
  induction count generalizing list b with
  | zero =>
      simp only [unmarshalItems, readMany, Except.ok.injEq, Prod.mk.injEq]
      constructor
      · rintro ⟨rfl, rfl⟩
        exact ⟨[], ⟨rfl, rfl⟩, by simp⟩
      · rintro ⟨_, ⟨rfl, rfl⟩, items⟩
        exact ⟨ext (by simpa using items.symm), rfl⟩
  | succ count ih =>
      simp only [unmarshalItems, bind_eq_ok, Prod.exists, readMany_succ_eq_ok]
      constructor
      · rintro ⟨item, m, first, list', pushed, others⟩
        obtain ⟨-, items'⟩ := tryPush_eq_ok.mp pushed
        obtain ⟨rest, read, appended⟩ := (ih (by simp [items']; omega)).mp others
        exact ⟨_, ⟨item, m, rest, first, read, rfl⟩, by simp [appended, items']⟩
      · rintro ⟨_, ⟨item, m, rest, first, read, rfl⟩, appended⟩
        have free : list.items.length < CAPACITY := by omega
        refine ⟨item, m, first, ⟨list.items ++ [item], by simp; omega⟩,
          tryPush_eq_ok.mpr ⟨free, rfl⟩, (ih (by simp; omega)).mpr ⟨rest, read, ?_⟩⟩
        simpa using appended

/-- Unmarshalling reads a count within the capacity and that many items. -/
theorem unmarshal_eq_ok [TpmUnmarshal T] {b r : Bytes} {v : TpmList T CAPACITY} :
    unmarshal b = .ok (v, r) ↔
      seqRead TpmUint32.readCount (readMany unmarshal) b = .ok ((v.items.length, v.items), r) := by
  have length_read {count : Nat} {b r : Bytes} {items : List T}
      (read : readMany unmarshal count b = .ok (items, r)) : items.length = count := by
    induction count generalizing b items with
    | zero => cases read; rfl
    | succ count ih =>
        obtain ⟨item, m, rest, -, others, rfl⟩ := readMany_succ_eq_ok.mp read
        rw [List.length_cons, ih others]
  simp only [seqRead_eq_ok, TpmUint32.readCount, unmarshal, bind_eq_ok, Prod.exists]
  constructor
  · rintro ⟨n, m, head, ok⟩
    split at ok
    · cases ok
    · obtain ⟨items, read, appended⟩ := (unmarshalItems_eq_ok (by simp [new]; omega)).mp ok
      obtain rfl : v.items = items := by simpa [new] using appended
      rw [length_read read]
      exact ⟨m, ⟨n, m, head, rfl⟩, read⟩
  · rintro ⟨m, ⟨n, m', head, count⟩, read⟩
    rw [Except.ok.injEq, Prod.mk.injEq] at count
    obtain ⟨count, rfl⟩ := count
    have within : ¬ v.items.length > CAPACITY := Nat.not_lt.mpr v.length_le
    refine ⟨n, m', head, ?_⟩
    rw [count]
    simp only [within, if_false]
    exact (unmarshalItems_eq_ok (by simpa [new] using v.length_le)).mpr ⟨_, read, rfl⟩

instance [TpmSized T] [TpmMarshal T] [TpmUnmarshal T] [TpmSpec T] [LawfulWire T] :
    LawfulWire (TpmList T CAPACITY) where
  codec := by
    have law := ((TpmUint32.count_lawful fun n _ => .integerTooLarge 0 (tpmValue n)).seq
      fun count => (codec (α := T)).many count).iso (f := fun v : TpmList T CAPACITY =>
        (v.items.length, v.items)) (fun _ _ _ => unmarshal_eq_ok)
    refine (law.congr_write (fun v => ?_) fun _ => rfl).congr_prop (fun v => Iff.rfl) fun v => ?_
    · funext writer
      simp only [marshal, marshalItems_eq_writeMany, bind_assoc]
    · exact and_congr_right fun _ => (and_iff_right rfl).symm
  len_le v := by
    have items (items : List T) : (items.map len).sum ≤ maxLen T * items.length := by
      induction items with
      | nil => simp
      | cons item items ih =>
          have := len_le item
          rw [List.map_cons, List.sum_cons, List.length_cons, Nat.mul_succ]
          omega
    exact Nat.add_le_add_left
      (Nat.le_trans (items v.items) (Nat.mul_le_mul_left _ v.length_le)) 4
  maxLen_le := Nat.add_le_add_left (Nat.mul_le_mul_right _ maxLen_le) 4

theorem readCount_eq_ok {b m : Bytes} {n : Nat} :
    TpmUint32.readCount b = .ok (n, m) ↔ 4 ≤ b.length ∧ n = ofBytes (b.take 4) ∧ m = b.drop 4 := by
  have toNat (v : TpmUint32) : v.value.toNat = ofBytes v.bytes := by
    have lt := ofBytes_lt v.bytes
    rw [v.length_bytes] at lt
    exact UInt32.toNat_ofNat_of_lt' lt
  simp only [TpmUint32.readCount, TpmInt.unmarshal_eq_castPrefix, bind_eq_ok, Prod.exists,
    TpmInt.castPrefix_eq_ok, Except.ok.injEq, Prod.mk.injEq, toNat]
  constructor
  · rintro ⟨v, m, rfl, rfl, rfl⟩
    simp [List.take_left' v.length_bytes, List.drop_left' v.length_bytes, v.length_bytes]
  · rintro ⟨enough, rfl, rfl⟩
    exact ⟨⟨b.take 4, by simp; omega⟩, b.drop 4, (List.take_append_drop 4 b).symm, rfl, rfl⟩

theorem validateHeader_eq_ok {b : Bytes} {n : Nat} :
    validateHeader CAPACITY b = .ok n ↔ (∃ m, TpmUint32.readCount b = .ok (n, m)) ∧
      n ≤ CAPACITY := by
  simp only [readCount_eq_ok, validateHeader, tpmlCountLen, bind, Except.bind, pure, Except.pure]
  by_cases short : b.length < 4
  · have few : ¬ 4 ≤ b.length := by omega
    simp [short, few]
  by_cases exceeds : ofBytes (b.take 4) > CAPACITY
  · simp [short, exceeds]
    omega
  · simp [short, exceeds, eq_comm]
    omega

/-- The borrowed loop consumes what reading `count` items in a row does. -/
theorem castItems_eq_ok [TpmSized T] [TpmMarshal T] [TpmUnmarshal T] [TpmSpec T] [LawfulWire T]
    [TpmField T] [LawfulView T] {count consumed total : Nat} {b : Bytes} :
    castItems T count consumed b = .ok total ↔ ∃ items r,
      readMany (unmarshal : Bytes → TpmResult (T × Bytes)) count b = .ok (items, r) ∧
        total = consumed + (b.length - r.length) ∧ r.length ≤ b.length := by
  induction count generalizing consumed b with
  | zero => simp [castItems, readMany, eq_comm]
  | succ count ih =>
      simp only [castItems, bind_eq_ok, Prod.exists, readMany_succ_eq_ok]
      constructor
      · rintro ⟨view, m, cast, others⟩
        obtain ⟨item, read⟩ := (sameExtent b m).mp ⟨view, cast⟩
        obtain ⟨p, rfl⟩ := codec.read_suffix read
        split at others
        · cases others
        · obtain ⟨items, r, reads, rfl, shorter⟩ := ih.mp others
          refine ⟨_, r, ⟨item, m, items, read, reads, rfl⟩, ?_, ?_⟩ <;>
            simp only [List.length_append] <;> omega
      · rintro ⟨_, r, ⟨item, m, items, read, reads, rfl⟩, rfl, shorter⟩
        obtain ⟨view, cast⟩ := (sameExtent b m).mpr ⟨item, read⟩
        obtain ⟨p, rfl⟩ := codec.read_suffix read
        have shorter' : r.length ≤ m.length := by
          obtain ⟨-, q, rfl, -⟩ := codec.many_read_ok reads
          simp
        refine ⟨view, m, cast, ?_⟩
        have forward : ¬ (p ++ m).length < m.length := by simp
        simp only [forward, if_false]
        refine ih.mpr ⟨items, r, reads, ?_, shorter'⟩
        simp only [List.length_append]
        omega

instance [TpmSized T] [TpmMarshal T] [TpmUnmarshal T] [TpmSpec T] [LawfulWire T] [TpmField T]
    [LawfulView T] : LawfulView (TpmList T CAPACITY) where
  sameExtent b r := by
    change (∃ view, (do
      let count ← validateHeader CAPACITY b
      let consumed ← castItems T count tpmlCountLen (b.drop tpmlCountLen)
      return (b.take consumed, b.drop consumed)) = (.ok (view, r) : TpmResult (Bytes × Bytes))) ↔ _
    simp only [bind_eq_ok, validateHeader_eq_ok, castItems_eq_ok, readCount_eq_ok, pure,
      Except.pure, Except.ok.injEq, Prod.mk.injEq, unmarshal_eq_ok, seqRead_eq_ok, tpmlCountLen]
    have rest {items : List T} {count : Nat} {r : Bytes}
        (reads : readMany unmarshal count (b.drop 4) = .ok (items, r)) :
        b.drop (4 + ((b.drop 4).length - r.length)) = r := by
      obtain ⟨-, q, split, -⟩ := codec.many_read_ok reads
      rw [← List.drop_drop, split]
      simp
    constructor
    · rintro ⟨view, count, ⟨⟨m, enough, counted, rfl⟩, bound⟩, total, ⟨items, r', reads, rfl, -⟩,
        -, rfl⟩
      obtain ⟨⟨rfl, -⟩, -⟩ := codec.many_read_ok reads
      exact ⟨⟨items, bound⟩, b.drop 4, ⟨enough, counted, rfl⟩, (rest reads).symm ▸ reads⟩
    · rintro ⟨v, m, ⟨enough, counted, rfl⟩, reads⟩
      obtain ⟨-, q, split, -⟩ := codec.many_read_ok reads
      exact ⟨_, _, ⟨⟨_, enough, counted, rfl⟩, v.length_le⟩, _,
        ⟨v.items, r, reads, rfl, by simp [split]⟩, rfl, rest reads⟩

instance [TpmWire T] : TpmWire (TpmList T CAPACITY) := .infer
instance [TpmWire T] [TpmViewed T] : TpmViewed (TpmList T CAPACITY) := .infer

end TpmList
end Tpm2
