import Tpm2.Protocol.DataType
import Tpm2.Protocol.Frame.Value

/-! Whether the declared maximum sizes bound every value, for all sized types of the protocol. -/

namespace Tpm2

open ByteCodec

/-- `TpmSized::SIZE` of a command or response type. -/
protected def TpmBody.SIZE (C : TpmBodyType) : Nat := C.HANDLES * SIZE TpmHandle + SIZE C.Parameters

/-- `TpmSized::len` of an owned command. -/
protected def TpmCommandValue.len : TpmCommandValue → Nat := TpmCommandValue.elim TpmBody.len

protected def TpmCommandValue.SIZE : Nat := tpmMaxCommandSize

/-- An owned response of any row of the dispatch table. -/
structure TpmResponseValue where
  row : Fin tpmDispatch.length
  response : TpmBody (tpmDispatch.get row).2

protected def TpmResponseValue.len (value : TpmResponseValue) : Nat := value.response.len

protected def TpmResponseValue.SIZE : Nat := tpmMaxCommandSize

/-- A type of the protocol that implements `TpmSized`: a data type, a union, a command or response
type, or one of the enumerations of all commands or responses. -/
inductive SizedType
  | data {viewed : Bool} (t : DataType viewed)
  | union (u : UnionType)
  | body (C : TpmBodyType)
  | commandValue
  | responseValue

namespace SizedType

def Carrier : SizedType → Type
  | data t => t.Carrier
  | union u => u.Carrier
  | body C => TpmBody C
  | commandValue => TpmCommandValue
  | responseValue => TpmResponseValue

/-- The declared maximum size. -/
def size : SizedType → Nat
  | data t => SIZE t.Carrier
  | union u => SIZE u.Carrier
  | body C => TpmBody.SIZE C
  | commandValue => TpmCommandValue.SIZE
  | responseValue => TpmResponseValue.SIZE

/-- The exact size of a value. -/
def length : (t : SizedType) → t.Carrier → Nat
  | data t, v => TpmSized.len (α := t.Carrier) v
  | union u, v => TpmSized.len (α := u.Carrier) v
  | body _, v => TpmBody.len v
  | commandValue, v => TpmCommandValue.len v
  | responseValue, v => TpmResponseValue.len v

end SizedType

/-- The most bytes that a body of this type has. -/
def TpmBodyType.maxLen (C : TpmBodyType) : Nat := C.HANDLES * 4 + TpmSpec.maxLen C.Parameters

theorem TpmBody.len_le {C : TpmBodyType} (body : TpmBody C) : body.len ≤ C.maxLen := by
  rw [body.len_eq, TpmBodyType.maxLen]
  exact Nat.add_le_add_left (LawfulFields.len_le _) _

theorem TpmBody.len_le_size {C : TpmBodyType} (body : TpmBody C) : body.len ≤ TpmBody.SIZE C := by
  refine Nat.le_trans (TpmBody.len_le body) ?_
  exact Nat.add_le_add_left LawfulFields.maxLen_le _

/-- The row of the dispatch table of the commands that load contexts. -/
def contextLoadRow : Fin tpmDispatch.length := ⟨63, by decide +kernel⟩

def contextSaveRow : Fin tpmDispatch.length := ⟨64, by decide +kernel⟩

def TpmCommandValue.contextLoad (cmd : TpmBody TpmContextLoadCommand) : TpmCommandValue :=
  .other contextLoadRow (by decide) cmd

def TpmResponseValue.contextSave (response : TpmBody TpmContextSaveResponse) : TpmResponseValue :=
  ⟨contextSaveRow, response⟩

theorem maxLen_command_le : ∀ row : Fin tpmDispatch.length, row ≠ contextLoadRow →
    (tpmDispatch.get row).1.maxLen ≤ tpmMaxCommandSize := by
  decide +kernel

theorem maxLen_response_le : ∀ row : Fin tpmDispatch.length, row ≠ contextSaveRow →
    (tpmDispatch.get row).2.maxLen ≤ tpmMaxCommandSize := by
  decide +kernel

/-- The eighteen bytes around the blob of a context. -/
theorem TpmsContext.len_eq (context : TpmsContext) :
    TpmSized.len context = 18 + context.contextBlob.bytes.length := by
  show 8 + (4 + (4 + ((2 + context.contextBlob.bytes.length) + 0))) = _
  omega

theorem TpmCommandValue.len_contextLoad (cmd : TpmBody TpmContextLoadCommand) :
    (contextLoad cmd).len = 18 + cmd.parameters.1.contextBlob.bytes.length := by
  rw [← TpmsContext.len_eq]
  show cmd.len = _
  rw [cmd.len_eq]
  show 0 * 4 + (_ + 0) = _
  omega

theorem TpmResponseValue.len_contextSave (response : TpmBody TpmContextSaveResponse) :
    (contextSave response).len = 18 + response.parameters.1.contextBlob.bytes.length := by
  rw [← TpmsContext.len_eq]
  show response.len = _
  rw [response.len_eq]
  show 0 * 4 + (_ + 0) = _
  omega

namespace SizedType

/-- Of all values, only a command that loads or a response that saves a context is too long, if the
blob of the context has more than 4078 bytes. -/
def Oversized : (t : SizedType) → t.Carrier → Prop
  | commandValue, value => ∃ cmd, value = TpmCommandValue.contextLoad cmd ∧
      4078 < cmd.parameters.1.contextBlob.bytes.length
  | responseValue, value => ∃ response, value = TpmResponseValue.contextSave response ∧
      4078 < response.parameters.1.contextBlob.bytes.length
  | _, _ => False

theorem contextLoad_le_iff (cmd : TpmBody TpmContextLoadCommand) :
    (TpmCommandValue.contextLoad cmd).len ≤ TpmCommandValue.SIZE ↔
      ¬ commandValue.Oversized (TpmCommandValue.contextLoad cmd) := by
  rw [TpmCommandValue.len_contextLoad, show TpmCommandValue.SIZE = 4096 from rfl]
  constructor
  · rintro fits ⟨_, same, large⟩
    cases same
    omega
  · intro small
    have := mt (fun large => ⟨cmd, rfl, large⟩) small
    omega

theorem contextSave_le_iff (response : TpmBody TpmContextSaveResponse) :
    (TpmResponseValue.contextSave response).len ≤ TpmResponseValue.SIZE ↔
      ¬ responseValue.Oversized (TpmResponseValue.contextSave response) := by
  rw [TpmResponseValue.len_contextSave, show TpmResponseValue.SIZE = 4096 from rfl]
  constructor
  · rintro fits ⟨_, same, large⟩
    cases same
    omega
  · intro small
    have := mt (fun large => ⟨response, rfl, large⟩) small
    omega

theorem commandValue_le_iff (value : TpmCommandValue) :
    value.len ≤ TpmCommandValue.SIZE ↔ ¬ commandValue.Oversized value := by
  have short {C : TpmBodyType} (small : C.maxLen ≤ tpmMaxCommandSize) (cmd : TpmBody C) :
      cmd.len ≤ TpmCommandValue.SIZE := Nat.le_trans cmd.len_le small
  cases value with
  | other row unnamed cmd =>
      by_cases loads : row = contextLoadRow
      · subst loads
        exact contextLoad_le_iff cmd
      · refine iff_of_true (short (maxLen_command_le row loads) cmd) ?_
        rintro ⟨other, same, -⟩
        cases same
        exact loads rfl
  | _ cmd =>
      refine iff_of_true (short (by decide +kernel) cmd) ?_
      rintro ⟨other, same, -⟩
      cases same

theorem responseValue_le_iff (value : TpmResponseValue) :
    value.len ≤ TpmResponseValue.SIZE ↔ ¬ responseValue.Oversized value := by
  obtain ⟨row, response⟩ := value
  by_cases saves : row = contextSaveRow
  · subst saves
    exact contextSave_le_iff response
  · refine iff_of_true (Nat.le_trans response.len_le (maxLen_response_le row saves)) ?_
    rintro ⟨other, same, -⟩
    cases same
    exact saves rfl

/-- The declared maximum size bounds every value of every sized type but the contexts that are too
long for their enumeration. -/
theorem length_le_size_iff (t : SizedType) (value : t.Carrier) :
    t.length value ≤ t.size ↔ ¬ t.Oversized value := by
  cases t with
  | data t => exact iff_of_true (len_le_size (α := t.Carrier) value) not_false
  | union u =>
      have law : LawfulTagged u.Carrier u.Tag := inferInstance
      exact iff_of_true (Nat.le_trans (law.len_tagged_le value) law.maxLen_tagged_le) not_false
  | body C => exact iff_of_true value.len_le_size not_false
  | commandValue => exact commandValue_le_iff value
  | responseValue => exact responseValue_le_iff value

/-- A saved context with the largest blob that fits its buffer. -/
def fullContext : TpmsContext :=
  ⟨.new 1, .new 0x80000000, .owner, ⟨List.replicate 4096 0, by rw [List.length_replicate], by
    rw [List.length_replicate]; decide⟩⟩

/-- The command that loads it has 4114 bytes, and the declared maximum is 4096. -/
theorem not_length_le_size_fullContext :
    ¬ commandValue.length (TpmCommandValue.contextLoad ⟨⟨[], rfl⟩, fullContext, ()⟩) ≤
        commandValue.size ∧
      ¬ responseValue.length (TpmResponseValue.contextSave ⟨⟨[], rfl⟩, fullContext, ()⟩) ≤
        responseValue.size := by
  have large : 4078 < fullContext.contextBlob.bytes.length := by
    show 4078 < (List.replicate 4096 0).length
    rw [List.length_replicate]
    decide
  exact ⟨(commandValue_le_iff _).not.mpr (not_not.mpr ⟨_, rfl, large⟩),
    (responseValue_le_iff _).not.mpr (not_not.mpr ⟨_, rfl, large⟩)⟩

end SizedType

end Tpm2
