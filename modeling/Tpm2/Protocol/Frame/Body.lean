import Tpm2.Protocol.Data.Struct

/-! Command and response bodies: a fixed number of handles and a list of parameters. -/

namespace Tpm2

open ByteCodec

/-- A command or response type of `tpm_struct!`: its code, the number of its handles and the types
of its parameters. -/
structure TpmBodyType where
  CC : TpmCc
  HANDLES : Nat
  Parameters : Type
  [fields : TpmWireFields Parameters]

attribute [instance] TpmBodyType.fields

/-- `[TpmHandle; N]`. -/
structure TpmHandles (N : Nat) where
  items : List TpmHandle
  length_items : items.length = N
  deriving DecidableEq

/-- A command or response value: its handle area and its parameter area. -/
structure TpmBody (C : TpmBodyType) where
  handles : TpmHandles C.HANDLES
  parameters : C.Parameters

/-- Reads `N` handles in a row. -/
def TpmHandles.read : (N : Nat) → Bytes → TpmResult (TpmHandles N × Bytes)
  | 0, buffer => .ok (⟨[], rfl⟩, buffer)
  | N + 1, buffer => do
      let (handle, buffer) ← (unmarshal buffer : TpmResult (TpmHandle × Bytes))
      let (handles, buffer) ← TpmHandles.read N buffer
      return (⟨handle :: handles.items, congrArg (· + 1) handles.length_items⟩, buffer)

@[ext] theorem TpmHandles.ext {N : Nat} {v w : TpmHandles N} (h : v.items = w.items) : v = w := by
  cases v
  cases w
  simp_all

theorem TpmHandles.read_eq_ok {N : Nat} {b r : Bytes} {v : TpmHandles N} :
    TpmHandles.read N b = .ok (v, r) ↔ readMany unmarshal N b = .ok (v.items, r) := by
  induction N generalizing b r with
  | zero =>
      have none : v.items = [] := List.length_eq_zero_iff.mp v.length_items
      simp [TpmHandles.read, readMany, TpmHandles.ext_iff, none]
  | succ N ih =>
      simp only [TpmHandles.read, readMany_succ_eq_ok, bind_eq_ok, Prod.exists, pure, Except.pure,
        Except.ok.injEq, Prod.mk.injEq, TpmHandles.ext_iff]
      constructor
      · rintro ⟨handle, m, first, handles, r', others, same, rfl⟩
        exact ⟨handle, m, handles.items, first, ih.mp others, same.symm⟩
      · rintro ⟨handle, m, rest, first, others, same⟩
        have length : rest.length = N := by
          have := v.length_items
          rw [same, List.length_cons] at this
          omega
        exact ⟨handle, m, first, ⟨rest, length⟩, r, ih.mpr others, same.symm, rfl⟩

/-- Rejects leftover bytes after an exact unmarshal. -/
def ensureConsumed (buffer : Bytes) : TpmResult Unit :=
  if buffer.isEmpty then .ok () else .error (.trailingData 0 buffer.length)

@[simp] theorem ensureConsumed_eq_ok {b : Bytes} : ensureConsumed b = .ok () ↔ b = [] := by
  cases b <;> simp [ensureConsumed]

/-- Reads exactly `N` handles and rejects leftover bytes. -/
def unmarshalHandleArea (N : Nat) (buffer : Bytes) : TpmResult (TpmHandles N) := do
  let (handles, buffer) ← TpmHandles.read N buffer
  ensureConsumed buffer
  return handles

namespace TpmBody

variable {C : TpmBodyType} (body : TpmBody C)

/-- `TpmSized::len`. -/
def len : Nat := body.handles.items.length * SIZE TpmHandle + TpmSized.len body.parameters

def marshalHandles : TpmWriter → TpmResult TpmWriter := writeMany marshal body.handles.items

def marshalParameters : TpmWriter → TpmResult TpmWriter := marshal body.parameters

/-- `TpmMarshal::marshal`: the handles, then the parameters. -/
def marshalBody (writer : TpmWriter) : TpmResult TpmWriter := do
  let writer ← body.marshalHandles writer
  body.marshalParameters writer

/-- Reads the handle area and the parameter area into an owned body. -/
def unmarshalBody (C : TpmBodyType) (handles parameters : Bytes) : TpmResult (TpmBody C) := do
  let handles ← unmarshalHandleArea C.HANDLES handles
  let (fields, rest) ← unmarshalFields parameters.length parameters
  ensureConsumed rest
  return ⟨handles, fields⟩

/-- Every payload of the parameters matches its tag, at every depth. -/
def WellFormed : Prop := TpmSpec.WellFormed body.parameters

theorem len_eq : body.len = C.HANDLES * 4 + TpmSized.len body.parameters := by
  rw [len, body.handles.length_items]
  rfl

theorem handles_lawful (N : Nat) :
    LawfulCodec (fun handles : TpmHandles N => writeMany marshal handles.items)
      (TpmHandles.read N) (fun _ => N * 4) (fun _ => True) (fun _ => True) := by
  refine (((codec (α := TpmHandle)).many N).iso (f := TpmHandles.items)
    fun _ _ _ => TpmHandles.read_eq_ok).congr_write (fun _ => rfl) (fun handles => ?_)
      |>.congr_prop (fun _ => ?_) fun handles => ?_
  · have sum (l : List TpmHandle) : (l.map TpmSized.len).sum = l.length * 4 := by
      induction l with
      | nil => rfl
      | cons head rest ih =>
          rw [List.map_cons, List.sum_cons, ih, List.length_cons]
          change 4 + _ = _
          omega
    rw [sum, handles.length_items]
  · exact iff_of_true trivial fun _ _ => trivial
  · exact iff_of_true trivial ⟨handles.length_items, fun _ _ => trivial⟩

theorem marshalHandles_emits :
    ∃ p, p.length = C.HANDLES * 4 ∧ Emits body.marshalHandles p :=
  (handles_lawful C.HANDLES).emits (v := body.handles) trivial

variable {body}

theorem marshalParameters_emits (wf : body.WellFormed) :
    ∃ p, p.length = TpmSized.len body.parameters ∧ Emits body.marshalParameters p :=
  (LawfulFields.codec 0).emits_wellFormed wf

/-- The two areas that marshalling emits are read back as the body. -/
theorem unmarshalBody_emitted (wf : body.WellFormed) {p q : Bytes}
    (emitsp : Emits body.marshalHandles p) (emitsq : Emits body.marshalParameters q) :
    unmarshalBody C p q = .ok body := by
  have handles := (handles_lawful C.HANDLES).read_emitted (v := body.handles) trivial emitsp []
  have parameters := (LawfulFields.codec q.length).read_emitted wf emitsq []
  rw [List.append_nil] at handles parameters
  refine bind_eq_ok.mpr ⟨body.handles, ?_, bind_eq_ok.mpr ⟨_, parameters, rfl⟩⟩
  exact bind_eq_ok.mpr ⟨_, handles, rfl⟩

end TpmBody
end Tpm2
