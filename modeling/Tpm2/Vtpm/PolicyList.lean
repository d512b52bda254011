import Tpm2.Vtpm.Policy

/-! Stored policy steps: a step reports the parts that it is made from, and a list of steps is read
back from its bytes. -/

namespace Tpm2

open ByteCodec

theorem readBody_eq_ok {α : Type} {read : Bytes → TpmResult (α × Bytes)} {body : Bytes}
    {value : α} : readBody read body = .ok value ↔ read body = .ok (value, []) := by
  simp only [readBody, bind_eq_ok, mapError_eq_ok, Prod.exists]
  constructor
  · rintro ⟨found, rest, ok, used⟩
    cases rest with
    | nil =>
        cases used
        exact ok
    | cons head tail => cases used
  · intro ok
    exact ⟨value, [], ok, rfl⟩

/-- The body of a step is what writing it emits, where every encoding fits in a command. -/
theorem marshaledBody_eq {α : Type} [TpmSized α] [TpmMarshal α] [TpmUnmarshal α] [TpmSpec α]
    [LawfulWire α] (small : maxLen α ≤ tpmMaxCommandSize) {v : α} {p : Bytes}
    (emits : Emits (marshal v) p) : marshaledBody v = p := by
  have fits : p.length ≤ tpmMaxCommandSize := by
    rw [codec.length_emitted emits]
    exact Nat.le_trans (len_le v) small
  obtain ⟨writer, marshalled, written⟩ := emits.written fits
  rw [marshaledBody, marshalled]
  exact written

/-- A body that can be read is as long as the value, as it is not empty. -/
theorem length_marshaledBody {α : Type} [TpmSized α] [TpmMarshal α] [TpmUnmarshal α] [TpmSpec α]
    [LawfulWire α] {v w : α} (refuses : (unmarshal (α := α) []).toOption.isNone)
    (read : unmarshal (marshaledBody v) = .ok (w, [])) : (marshaledBody v).length = len v := by
  unfold marshaledBody at read ⊢
  split at read
  next writer ok =>
    obtain ⟨p, length, emits⟩ := codec.emits (codec.writable_of_ok ok)
    obtain ⟨fits, rfl⟩ := emits.of_ok ok
    rw [Cursor.push_written fits, Cursor.zeros_written, List.nil_append, length]
  next =>
    rw [read] at refuses
    cases refuses

section
variable {S α β γ : Type} [TpmWire α] [TpmWire β] [TpmWire γ] {first : S → α} {second : S → β}
  {third : S → γ} {make : α → β → γ → S}

/-- A structure of three fields, written and read one after another. -/
theorem threeFields_codec (make_fields : ∀ v, make (first v) (second v) (third v) = v)
    (fields_make : ∀ a b c, (first (make a b c), second (make a b c), third (make a b c)) =
      (a, b, c)) :
    LawfulCodec
      (fun v writer => do
        let writer ← marshal (first v) writer
        let writer ← marshal (second v) writer
        marshal (third v) writer)
      (fun buffer => do
        let (a, remainder) ← unmarshal buffer
        let (b, remainder) ← unmarshal remainder
        let (c, remainder) ← unmarshal remainder
        return (make a b c, remainder))
      (fun v => len (first v) + len (second v) + len (third v))
      (fun v => Writable (first v) ∧ Writable (second v) ∧ Writable (third v))
      (fun v => WellFormed (first v) ∧ WellFormed (second v) ∧ WellFormed (third v)) := by
  have parts := LawfulCodec.seq (codec (α := α)) fun _ =>
    LawfulCodec.seq (codec (α := β)) fun _ => codec (α := γ)
  refine (parts.iso (f := fun v => (first v, second v, third v)) ?_).congr_write (fun _ => rfl)
    fun _ => Nat.add_assoc ..
  intro b v r
  simp only [seqRead_eq_ok, bind_eq_ok, Prod.exists, pure, Except.pure, Except.ok.injEq,
    Prod.mk.injEq]
  constructor
  · rintro ⟨a, b₁, read₁, b, b₂, read₂, c, r, read₃, rfl, rfl⟩
    have same := fields_make a b c
    simp only [Prod.mk.injEq] at same
    rw [same.1, same.2.1, same.2.2]
    exact ⟨b₁, read₁, b₂, read₂, read₃⟩
  · rintro ⟨b₁, read₁, b₂, read₂, read₃⟩
    exact ⟨_, b₁, read₁, _, b₂, read₂, _, r, read₃, make_fields v, rfl⟩

end

namespace VtpmPolicyAuthorizeCommand

instance : TpmSpec VtpmPolicyAuthorizeCommand where
  Writable v := Writable v.keySign ∧ Writable v.policyRef ∧ Writable v.policySignature
  WellFormed v := WellFormed v.keySign ∧ WellFormed v.policyRef ∧ WellFormed v.policySignature
  maxLen := maxLen Tpm2bPublic + maxLen Tpm2bDigest + maxLen TpmtSignature

instance : LawfulWire VtpmPolicyAuthorizeCommand where
  codec := threeFields_codec (fun _ => rfl) fun _ _ _ => rfl
  len_le _ := Nat.add_le_add (Nat.add_le_add (len_le _) (len_le _)) (len_le _)
  maxLen_le := Nat.add_le_add (Nat.add_le_add maxLen_le maxLen_le) maxLen_le

theorem fits_command : maxLen VtpmPolicyAuthorizeCommand ≤ tpmMaxCommandSize := by
  decide +kernel

end VtpmPolicyAuthorizeCommand

namespace VtpmPolicySecretCommand

instance : TpmSpec VtpmPolicySecretCommand where
  Writable v := Writable v.objectHandleHint ∧ Writable v.objectName ∧ Writable v.policyRef
  WellFormed v := WellFormed v.objectHandleHint ∧ WellFormed v.objectName ∧ WellFormed v.policyRef
  maxLen := maxLen TpmHandle + maxLen Tpm2bName + maxLen Tpm2bDigest

instance : LawfulWire VtpmPolicySecretCommand where
  codec := threeFields_codec (fun _ => rfl) fun _ _ _ => rfl
  len_le _ := Nat.add_le_add (Nat.add_le_add (len_le _) (len_le _)) (len_le _)
  maxLen_le := Nat.add_le_add (Nat.add_le_add maxLen_le maxLen_le) maxLen_le

theorem fits_command : maxLen VtpmPolicySecretCommand ≤ tpmMaxCommandSize := by
  decide +kernel

/-- Every value of the type can be written and read back. -/
theorem wellFormed (v : VtpmPolicySecretCommand) : WellFormed v := ⟨trivial, trivial, trivial⟩

end VtpmPolicySecretCommand

/-- The policy commands without parameters that are stored. -/
def plainCommands : List TpmBodyType :=
  [TpmPolicyAuthValueCommand, TpmPolicyPasswordCommand, TpmPolicyGetDigestCommand,
   TpmPolicyRestartCommand, TpmPolicyPhysicalPresenceCommand]

/-- The policy commands whose parameters are stored as they are. -/
def copiedCommands : List TpmBodyType :=
  [TpmPolicyPcrCommand, TpmPolicyOrCommand, TpmPolicyCommandCodeCommand, TpmPolicyCpHashCommand,
   TpmPolicyNameHashCommand, TpmPolicyTemplateCommand, TpmPolicyNvWrittenCommand,
   TpmPolicyCounterTimerCommand]

/-- `body` is read as these fields and nothing else. -/
def ReadsFields (F : Type) [TpmUnmarshalFields F] (body : Bytes) : Prop :=
  ∃ fields : F, unmarshalFields body.length body = .ok (fields, [])

section
variable {α β γ : Type} [TpmWire α] [TpmWire β] [TpmWire γ] {start : Nat} {body r : Bytes}

theorem unmarshalFields_one {fields : α × Unit} :
    unmarshalFields start body = .ok (fields, r) ↔ unmarshal body = .ok (fields.1, r) := by
  rw [unmarshalFields_cons_eq_ok, seqRead_eq_ok]
  constructor
  · rintro ⟨m, read, rest⟩
    cases rest
    exact read
  · intro read
    exact ⟨r, read, rfl⟩

theorem unmarshalFields_two {fields : α × β × Unit} :
    unmarshalFields start body = .ok (fields, r) ↔
      seqRead unmarshal (fun _ => unmarshal) body = .ok ((fields.1, fields.2.1), r) := by
  rw [unmarshalFields_cons_eq_ok, seqRead_eq_ok, seqRead_eq_ok]
  simp only [unmarshalFields_one]

theorem unmarshalFields_three {fields : α × β × γ × Unit} :
    unmarshalFields start body = .ok (fields, r) ↔
      seqRead unmarshal (fun _ => seqRead unmarshal fun _ => unmarshal) body =
        .ok ((fields.1, fields.2.1, fields.2.2.1), r) := by
  rw [unmarshalFields_cons_eq_ok, seqRead_eq_ok, seqRead_eq_ok]
  simp only [unmarshalFields_two]

theorem readsFields_nil : ReadsFields Unit body ↔ body = [] := by
  constructor
  · rintro ⟨fields, read⟩
    cases read
    rfl
  · rintro rfl
    exact ⟨(), rfl⟩

end

section
variable {α : Type} {cc : TpmCc} {body : Bytes} {step : VtpmPolicyCommand}

theorem plainFromParts_eq_ok :
    (if !body.isEmpty then throw .invalidPolicy else return .default ⟨cc, body⟩ :
      Except VtpmError VtpmPolicyCommand) = .ok step ↔
      ReadsFields Unit body ∧ step = .default ⟨cc, body⟩ := by
  rw [readsFields_nil]
  cases body with
  | nil => simp [pure, Except.pure, eq_comm]
  | cons head tail => simp [throw, throwThe, MonadExceptOf.throw]

theorem defaultFromParts_eq_ok {F : Type} [TpmUnmarshalFields F]
    {check : Bytes → TpmResult (α × Bytes)} (value : F → α) (fields : α → F)
    (reads : ∀ v, unmarshalFields body.length body = .ok (v, []) ↔ check body = .ok (value v, []))
    (value_fields : ∀ a, value (fields a) = a) :
    defaultFromParts cc body check = .ok step ↔
      ReadsFields F body ∧ step = .default ⟨cc, body⟩ := by
  simp only [defaultFromParts, bind_eq_ok, readBody_eq_ok, pure, Except.pure, Except.ok.injEq]
  constructor
  · rintro ⟨a, read, rfl⟩
    refine ⟨⟨fields a, (reads _).mpr ?_⟩, rfl⟩
    rwa [value_fields]
  · rintro ⟨⟨v, read⟩, rfl⟩
    exact ⟨value v, (reads v).mp read, rfl⟩

end

/-- A step of one of the plain or copied kinds is its code and its body, which holds the
parameters. -/
theorem fromParts_default {C : TpmBodyType} (mem : C ∈ plainCommands ++ copiedCommands)
    {body : Bytes} {step : VtpmPolicyCommand} :
    vtpmPolicyCommandFromParts C.CC body = .ok step ↔
      ReadsFields C.Parameters body ∧ step = .default ⟨C.CC, body⟩ := by
  have one {α : Type} [TpmWire α] {cc : TpmCc} :
      defaultFromParts cc body (unmarshal (α := α)) = .ok step ↔
        ReadsFields (α × Unit) body ∧ step = .default ⟨cc, body⟩ :=
    defaultFromParts_eq_ok Prod.fst (·, ()) (fun _ => unmarshalFields_one) fun _ => rfl
  simp only [plainCommands, copiedCommands, List.cons_append, List.nil_append, List.mem_cons,
    List.not_mem_nil, or_false] at mem
  rcases mem with rfl | rfl | rfl | rfl | rfl | rfl | rfl | rfl | rfl | rfl | rfl | rfl | rfl
  · exact plainFromParts_eq_ok
  · exact plainFromParts_eq_ok
  · exact plainFromParts_eq_ok
  · exact plainFromParts_eq_ok
  · exact plainFromParts_eq_ok
  · exact defaultFromParts_eq_ok (fun v => (v.1, v.2.1)) (fun a => (a.1, a.2, ()))
      (fun _ => unmarshalFields_two) fun _ => rfl
  · exact one
  · exact one
  · exact one
  · exact one
  · exact one
  · exact one
  · exact defaultFromParts_eq_ok (fun v => (v.1, v.2.1, v.2.2.1))
      (fun a => (a.1, a.2.1, a.2.2, ())) (fun _ => unmarshalFields_three) fun _ => rfl

theorem fromParts_authorize {body : Bytes} {step : VtpmPolicyCommand} :
    vtpmPolicyCommandFromParts .policyAuthorize body = .ok step ↔
      ∃ command, unmarshal body = .ok (command, []) ∧ step = .authorize command := by
  show (readBody unmarshal body >>= fun command => .ok (.authorize command)) = .ok step ↔ _
  simp only [bind_eq_ok, readBody_eq_ok, Except.ok.injEq, eq_comm (a := step)]

theorem fromParts_secret {body : Bytes} {step : VtpmPolicyCommand} :
    vtpmPolicyCommandFromParts .policySecret body = .ok step ↔
      ∃ command, unmarshal body = .ok (command, []) ∧ step = .secret command := by
  show (readBody unmarshal body >>= fun command => .ok (.secret command)) = .ok step ↔ _
  simp only [bind_eq_ok, readBody_eq_ok, Except.ok.injEq, eq_comm (a := step)]

/-- The codes that a step can have. -/
def storedCodes : List TpmCc :=
  (plainCommands ++ copiedCommands).map TpmBodyType.CC ++ [.policyAuthorize, .policySecret]

theorem mem_storedCodes {cc : TpmCc} {body : Bytes} {step : VtpmPolicyCommand}
    (ok : vtpmPolicyCommandFromParts cc body = .ok step) : cc ∈ storedCodes := by
  unfold vtpmPolicyCommandFromParts at ok
  split at ok
  all_goals first | decide | cases ok

/-- What the parts of a step can be. -/
theorem fromParts_cases {cc : TpmCc} {body : Bytes} {step : VtpmPolicyCommand}
    (ok : vtpmPolicyCommandFromParts cc body = .ok step) :
    (∃ C ∈ plainCommands ++ copiedCommands, C.CC = cc ∧ ReadsFields C.Parameters body ∧
      step = .default ⟨cc, body⟩) ∨
    (cc = .policyAuthorize ∧ ∃ command, unmarshal body = .ok (command, []) ∧
      step = .authorize command) ∨
    (cc = .policySecret ∧ ∃ command, unmarshal body = .ok (command, []) ∧
      step = .secret command) := by
  have mem := mem_storedCodes ok
  simp only [storedCodes, List.mem_append, List.mem_cons, List.not_mem_nil, or_false] at mem
  rcases mem with code | rfl | rfl
  · obtain ⟨C, listed, rfl⟩ := List.mem_map.mp code
    exact .inl ⟨C, listed, rfl, (fromParts_default listed).mp ok⟩
  · exact .inr (.inl ⟨rfl, fromParts_authorize.mp ok⟩)
  · exact .inr (.inr ⟨rfl, fromParts_secret.mp ok⟩)

/-- A command that is rebuilt from the fields that its body holds has that body as its
parameters. -/
theorem rebuilt_parameters {C : TpmBodyType} {α : Type} {read : Bytes → TpmResult (α × Bytes)}
    {body : Bytes} (value : C.Parameters → α) (make : α → TpmCommandValue)
    (reads : ReadsFields C.Parameters body)
    (same : ∀ v : C.Parameters, unmarshalFields body.length body = .ok (v, []) →
      read body = .ok (value v, []))
    (code : ∀ a, (make a).cc = C.CC)
    (marshals : ∀ v : C.Parameters, (make (value v)).marshalParameters = marshal v) :
    ∃ command, (do return make (← readBody read body)) = (.ok command : Except VtpmError _) ∧
      command.cc = C.CC ∧ Emits command.marshalParameters body := by
  obtain ⟨v, holds⟩ := reads
  obtain ⟨-, p, split, emits⟩ := (LawfulFields.codec body.length).read_ok holds
  rw [List.append_nil] at split
  refine ⟨make (value v), ?_, code _, ?_⟩
  · exact bind_eq_ok.mpr ⟨value v, readBody_eq_ok.mpr (same v holds), rfl⟩
  · rw [marshals, split]
    exact emits

theorem toCommand_default {C : TpmBodyType} (mem : C ∈ plainCommands ++ copiedCommands)
    {body : Bytes} (reads : ReadsFields C.Parameters body) :
    ∃ command, (VtpmPolicyDefaultCommand.mk C.CC body).toCommand = .ok command ∧
      command.cc = C.CC ∧ Emits command.marshalParameters body := by
  simp only [plainCommands, copiedCommands, List.cons_append, List.nil_append, List.mem_cons,
    List.not_mem_nil, or_false] at mem
  rcases mem with rfl | rfl | rfl | rfl | rfl | rfl | rfl | rfl | rfl | rfl | rfl | rfl | rfl
  iterate 5
    · rw [readsFields_nil.mp reads]
      exact ⟨_, rfl, rfl, Emits.nil⟩
  · exact rebuilt_parameters (C := TpmPolicyPcrCommand) (fun v => (v.1, v.2.1))
      (fun a => .policyPcr ⟨zeroHandle, a.1, a.2, ()⟩) reads (fun _ => unmarshalFields_two.mp)
      (fun _ => rfl) fun _ => rfl
  · exact rebuilt_parameters (C := TpmPolicyOrCommand) Prod.fst
      (fun a => .policyOr ⟨zeroHandle, a, ()⟩) reads (fun _ => unmarshalFields_one.mp)
      (fun _ => rfl) fun _ => rfl
  · exact rebuilt_parameters (C := TpmPolicyCommandCodeCommand) Prod.fst
      (fun a => .policyCommandCode ⟨zeroHandle, a, ()⟩) reads (fun _ => unmarshalFields_one.mp)
      (fun _ => rfl) fun _ => rfl
  · exact rebuilt_parameters (C := TpmPolicyCpHashCommand) Prod.fst
      (fun a => .policyCpHash ⟨zeroHandle, a, ()⟩) reads (fun _ => unmarshalFields_one.mp)
      (fun _ => rfl) fun _ => rfl
  · exact rebuilt_parameters (C := TpmPolicyNameHashCommand) Prod.fst
      (fun a => .policyNameHash ⟨zeroHandle, a, ()⟩) reads (fun _ => unmarshalFields_one.mp)
      (fun _ => rfl) fun _ => rfl
  · exact rebuilt_parameters (C := TpmPolicyTemplateCommand) Prod.fst
      (fun a => .policyTemplate ⟨zeroHandle, a, ()⟩) reads (fun _ => unmarshalFields_one.mp)
      (fun _ => rfl) fun _ => rfl
  · exact rebuilt_parameters (C := TpmPolicyNvWrittenCommand) Prod.fst
      (fun a => .policyNvWritten ⟨zeroHandle, a, ()⟩) reads (fun _ => unmarshalFields_one.mp)
      (fun _ => rfl) fun _ => rfl
  · exact rebuilt_parameters (C := TpmPolicyCounterTimerCommand) (fun v => (v.1, v.2.1, v.2.2.1))
      (fun a => .policyCounterTimer ⟨zeroHandle, a.1, a.2.1, a.2.2, ()⟩) reads
      (fun _ => unmarshalFields_three.mp) (fun _ => rfl) fun _ => rfl

/-- What a step that is made from a code and a body says of them. -/
structure VtpmPolicyCommand.Faithful (step : VtpmPolicyCommand) (cc : TpmCc) (body : Bytes) :
    Prop where
  cc_eq : step.cc = cc
  body_eq : step.body = body
  len_eq : step.len = 8 + body.length
  parameters : cc ≠ .policyAuthorize → cc ≠ .policySecret → ∃ command,
    step.toCommand = .ok command ∧ command.cc = cc ∧ Emits command.marshalParameters body
  secret : cc = .policySecret → ∃ (parts : VtpmPolicySecretCommand)
    (command : TpmBody TpmPolicySecretCommand), unmarshal body = .ok (parts, []) ∧
      step.toCommand = .ok (.policySecret command) ∧
      command.handles.get 0 = parts.objectHandleHint ∧
      command.parameters = (.new, .new, parts.policyRef, .new 0, ())

theorem faithful_default {C : TpmBodyType} (mem : C ∈ plainCommands ++ copiedCommands)
    {body : Bytes} (reads : ReadsFields C.Parameters body) :
    (VtpmPolicyCommand.default ⟨C.CC, body⟩).Faithful C.CC body where
  cc_eq := rfl
  body_eq := rfl
  len_eq := rfl
  parameters _ _ := toCommand_default mem reads
  secret same := by
    have other : ∀ cc ∈ (plainCommands ++ copiedCommands).map TpmBodyType.CC,
        cc ≠ .policySecret := by decide
    exact (other _ (List.mem_map_of_mem mem) same).elim

/-- What is read to the end is what writing the value emits. -/
theorem body_of_read {α : Type} [TpmSized α] [TpmMarshal α] [TpmUnmarshal α] [TpmSpec α]
    [LawfulWire α] (small : maxLen α ≤ tpmMaxCommandSize) {body : Bytes} {v : α}
    (read : unmarshal body = .ok (v, [])) :
    marshaledBody v = body ∧ len v = body.length ∧ body.length ≤ tpmMaxCommandSize := by
  obtain ⟨-, p, split, emits⟩ := codec.read_ok read
  rw [List.append_nil] at split
  subst split
  have length := codec.length_emitted emits
  refine ⟨marshaledBody_eq small emits, length.symm, ?_⟩
  rw [length]
  exact Nat.le_trans (len_le v) small

theorem faithful_of_fromParts {cc : TpmCc} {body : Bytes} {step : VtpmPolicyCommand}
    (ok : vtpmPolicyCommandFromParts cc body = .ok step) : step.Faithful cc body := by
  rcases fromParts_cases ok with ⟨C, listed, rfl, reads, rfl⟩ | ⟨rfl, command, read, rfl⟩ |
    ⟨rfl, command, read, rfl⟩
  · exact faithful_default listed reads
  · obtain ⟨written, length, -⟩ := body_of_read VtpmPolicyAuthorizeCommand.fits_command read
    exact {
      cc_eq := rfl
      body_eq := written
      len_eq := congrArg (8 + ·) length
      parameters := fun other => (other rfl).elim
      secret := nofun }
  · obtain ⟨written, length, -⟩ := body_of_read VtpmPolicySecretCommand.fits_command read
    exact {
      cc_eq := rfl
      body_eq := written
      len_eq := congrArg (8 + ·) length
      parameters := fun _ other => (other rfl).elim
      secret := fun _ => ⟨command, _, read, rfl, rfl, rfl⟩ }

/-- A step that some code and body make. -/
def VtpmPolicyCommand.Stored (step : VtpmPolicyCommand) : Prop :=
  ∃ cc body, vtpmPolicyCommandFromParts cc body = .ok step

namespace VtpmPolicyCommand.Stored

variable {step : VtpmPolicyCommand} (stored : step.Stored)
include stored

/-- A step is made again from the parts that it reports. -/
theorem fromParts : vtpmPolicyCommandFromParts step.cc step.body = .ok step := by
  obtain ⟨cc, body, ok⟩ := stored
  have faithful := faithful_of_fromParts ok
  rw [faithful.cc_eq, faithful.body_eq]
  exact ok

theorem length_body : step.body.length ≤ u32Max := by
  have small : tpmMaxCommandSize ≤ u32Max := by decide
  refine Nat.le_trans ?_ small
  rcases fromParts_cases stored.fromParts with ⟨C, listed, -, ⟨fields, read⟩, -⟩ |
    ⟨-, command, read, -⟩ | ⟨-, command, read, -⟩
  · obtain ⟨-, p, split, emits⟩ := (LawfulFields.codec step.body.length).read_ok read
    rw [List.append_nil] at split
    have bound : ∀ C ∈ plainCommands ++ copiedCommands,
        TpmSpec.maxLen C.Parameters ≤ tpmMaxCommandSize := by decide +kernel
    have le : TpmSized.len fields ≤ TpmSpec.maxLen C.Parameters := LawfulFields.len_le fields
    have length := (LawfulFields.codec step.body.length).length_emitted emits
    rw [← split] at length
    rw [length]
    exact Nat.le_trans le (bound C listed)
  · exact (body_of_read VtpmPolicyAuthorizeCommand.fits_command read).2.2
  · exact (body_of_read VtpmPolicySecretCommand.fits_command read).2.2

end VtpmPolicyCommand.Stored

/-- The bytes of a command code. -/
def codeBytes (cc : TpmCc) : Bytes := (.new (TpmEnum.value cc) : TpmUint32).bytes

/-- The bytes of a 32-bit count. -/
def countBytes (count : Nat) : Bytes := (.new (UInt32.ofNat count) : TpmUint32).bytes

/-- The bytes of a step in a list: its code and its body behind the length. -/
def VtpmPolicyCommand.record (step : VtpmPolicyCommand) : Bytes :=
  codeBytes step.cc ++ (countBytes step.body.length ++ step.body)

@[simp] theorem length_countBytes (count : Nat) : (countBytes count).length = 4 :=
  codec.length_emitted (α := TpmUint32) (TpmWriter.writeBytes_emits _)

theorem VtpmPolicyCommand.length_record (step : VtpmPolicyCommand) :
    step.record.length = 8 + step.body.length := by
  have code : (codeBytes step.cc).length = 4 :=
    codec.length_emitted (α := TpmUint32) (TpmWriter.writeBytes_emits _)
  rw [record, List.length_append, List.length_append, code, length_countBytes]
  omega

theorem unmarshal_countBytes {count : Nat} (small : count ≤ u32Max) (r : Bytes) :
    ∃ word, (unmarshal (countBytes count ++ r) : TpmResult (TpmUint32 × Bytes)) = .ok (word, r) ∧
      word.value.toNat = count := by
  refine ⟨_, codec.read_emitted (α := TpmUint32) trivial (TpmWriter.writeBytes_emits _) r, ?_⟩
  rw [TpmInt.value_new]
  rw [u32Max] at small
  exact UInt32.toNat_ofNat_of_lt' (by rw [UInt32.size]; omega)

theorem tryFrom_count {count : Nat} (small : count ≤ u32Max) (e : TpmError)
    (f : TpmError → VtpmError) :
    (TpmUint32.tryFrom count e).mapError f = .ok (.new (UInt32.ofNat count)) := by
  rw [TpmUint32.tryFrom, if_pos small]
  rfl

theorem marshalPolicies_emits {steps : List VtpmPolicyCommand}
    (small : ∀ step ∈ steps, step.body.length ≤ u32Max) :
    Emits (marshalPolicies steps) (steps.flatMap VtpmPolicyCommand.record) := by
  induction steps with
  | nil => exact Emits.nil
  | cons step steps ih =>
      have count := tryFrom_count (small step List.mem_cons_self)
      have code : Emits (fun writer => (marshal step.cc writer).mapError VtpmError.marshal)
          (codeBytes step.cc) :=
        (TpmWriter.writeBytes_emits _).mapError _
      have size : Emits (fun writer =>
          (marshal (.new (UInt32.ofNat step.body.length) : TpmUint32) writer).mapError
            VtpmError.marshal) (countBytes step.body.length) :=
        (TpmWriter.writeBytes_emits _).mapError _
      have bytes : Emits (fun writer => (TpmWriter.writeBytes step.body writer).mapError
          VtpmError.marshal) step.body := (TpmWriter.writeBytes_emits _).mapError _
      have rest := ih fun step later => small step (List.mem_cons_of_mem _ later)
      have all := code.bind (size.bind (bytes.bind rest))
      rw [List.flatMap_cons, VtpmPolicyCommand.record]
      simp only [List.append_assoc]
      refine Eq.mp (congrArg (Emits · _) ?_) all
      funext writer
      simp only [marshalPolicies, count]
      rfl

theorem unmarshalPolicies_records {steps : List VtpmPolicyCommand}
    (stored : ∀ step ∈ steps, step.Stored) (r : Bytes) :
    unmarshalPolicies steps.length (steps.flatMap VtpmPolicyCommand.record ++ r) =
      .ok (steps, r) := by
  induction steps with
  | nil => rfl
  | cons step steps ih =>
      have first := stored step List.mem_cons_self
      have rest := ih fun step later => stored step (List.mem_cons_of_mem _ later)
      generalize tail : steps.flatMap VtpmPolicyCommand.record ++ r = b at rest
      have split : (step :: steps).flatMap VtpmPolicyCommand.record ++ r =
          codeBytes step.cc ++
            (countBytes step.body.length ++ (step.body ++ b)) := by
        rw [List.flatMap_cons, VtpmPolicyCommand.record, ← tail]
        simp only [List.append_assoc]
      have code : unmarshal (α := TpmCc) (codeBytes step.cc ++
          (countBytes step.body.length ++ (step.body ++ b))) =
            .ok (step.cc, countBytes step.body.length ++ (step.body ++ b)) :=
        codec.read_emitted (α := TpmCc) trivial (TpmWriter.writeBytes_emits _) _
      obtain ⟨word, size, length⟩ := unmarshal_countBytes first.length_body (step.body ++ b)
      have enough : ¬ (step.body ++ b).length < step.body.length := by
        rw [List.length_append]
        omega
      have parts := first.fromParts
      rw [split, List.length_cons, unmarshalPolicies, code]
      simp only [Except.mapError, bind, Except.bind, size, length, enough, if_false,
        List.take_left, List.drop_left, parts, rest]
      rfl

/-- The bytes of a list of steps: their number and their records. -/
def policyListBytes (steps : List VtpmPolicyCommand) : Bytes :=
  countBytes steps.length ++ steps.flatMap VtpmPolicyCommand.record

theorem marshalPolicyList_emits {steps : List VtpmPolicyCommand}
    (few : steps.length ≤ maxPolicyCount) (small : ∀ step ∈ steps, step.body.length ≤ u32Max) :
    Emits (vtpmMarshalPolicyList steps) (policyListBytes steps) := by
  have counted : steps.length ≤ u32Max := Nat.le_trans few (by decide)
  have count : Emits (fun writer => (marshal (.new (UInt32.ofNat steps.length) : TpmUint32)
      writer).mapError VtpmError.marshal) (countBytes steps.length) :=
    (TpmWriter.writeBytes_emits _).mapError _
  have all := count.bind (marshalPolicies_emits small)
  refine Eq.mp (congrArg (Emits · _) ?_) all
  funext writer
  simp only [vtpmMarshalPolicyList, tryFrom_count counted]
  rfl

theorem unmarshalPolicyList_records {steps : List VtpmPolicyCommand}
    (few : steps.length ≤ maxPolicyCount) (stored : ∀ step ∈ steps, step.Stored) (r : Bytes) :
    vtpmUnmarshalPolicyList (policyListBytes steps ++ r) = .ok (steps, r) := by
  obtain ⟨word, size, length⟩ := unmarshal_countBytes (Nat.le_trans few (by decide))
    (steps.flatMap VtpmPolicyCommand.record ++ r)
  have within : ¬ steps.length > maxPolicyCount := Nat.not_lt.mpr few
  rw [policyListBytes, List.append_assoc, vtpmUnmarshalPolicyList, size]
  simp only [Except.mapError, bind, Except.bind, length, within, if_false]
  exact unmarshalPolicies_records stored r

/-- The steps that are read from a list are made from their parts. -/
theorem unmarshalPolicies_ok {count : Nat} {b r : Bytes} {steps : List VtpmPolicyCommand}
    (ok : unmarshalPolicies count b = .ok (steps, r)) :
    steps.length = count ∧ ∀ step ∈ steps, step.Stored := by
  induction count generalizing b steps with
  | zero =>
      cases ok
      exact ⟨rfl, by simp⟩
  | succ count ih =>
      obtain ⟨⟨cc, tail⟩, -, ok⟩ := bind_eq_ok.mp ok
      obtain ⟨⟨word, tail⟩, -, ok⟩ := bind_eq_ok.mp ok
      dsimp only at ok
      split at ok
      · cases ok
      obtain ⟨step, made, ok⟩ := bind_eq_ok.mp ok
      obtain ⟨⟨rest, tail⟩, read, ok⟩ := bind_eq_ok.mp ok
      cases ok
      obtain ⟨length, stored⟩ := ih read
      exact ⟨congrArg (· + 1) length, List.forall_mem_cons.mpr ⟨⟨cc, _, made⟩, stored⟩⟩

theorem unmarshalPolicyList_ok {b r : Bytes} {steps : List VtpmPolicyCommand}
    (ok : vtpmUnmarshalPolicyList b = .ok (steps, r)) :
    steps.length ≤ maxPolicyCount ∧ ∀ step ∈ steps, step.Stored := by
  obtain ⟨⟨word, tail⟩, -, ok⟩ := bind_eq_ok.mp ok
  dsimp only at ok
  split at ok
  · cases ok
  next few =>
    obtain ⟨length, stored⟩ := unmarshalPolicies_ok ok
    exact ⟨length ▸ Nat.not_lt.mp few, stored⟩

/-- Stored steps report the parts that they are made from and rebuild the command of these parts;
a list of at most sixteen of them is read back from its bytes, before any others. -/
theorem policySteps_faithful :
    (∀ cc body step, vtpmPolicyCommandFromParts cc body = .ok step → step.Faithful cc body) ∧
      ∀ steps : List VtpmPolicyCommand, steps.length ≤ 16 → (∀ step ∈ steps, step.Stored) →
        ∃ p, Emits (vtpmMarshalPolicyList steps) p ∧
          ∀ r, vtpmUnmarshalPolicyList (p ++ r) = .ok (steps, r) :=
  ⟨fun _ _ _ => faithful_of_fromParts, fun steps few stored =>
    ⟨policyListBytes steps,
      marshalPolicyList_emits few fun step mem => (stored step mem).length_body,
      unmarshalPolicyList_records few stored⟩⟩

/-- The step that asks for an index that has been written. -/
def nvWrittenStep : VtpmPolicyCommand := .default ⟨.policyNvWritten, [1]⟩

/-- The step that asks for the authorization of the owner. -/
def ownerSecretStep : VtpmPolicyCommand :=
  .secret ⟨.new 0x40000001, ⟨[0x40, 0, 0, 1], by decide, by decide⟩, .new⟩

def ownerSecretBody : Bytes := [0x40, 0, 0, 1, 0, 4, 0x40, 0, 0, 1, 0, 0]

/-- Steps with no body, with a checked one and with parsed parts. -/
def mixedSteps : List VtpmPolicyCommand :=
  [nvWrittenStep, .default ⟨.policyPhysicalPresence, []⟩, ownerSecretStep]

theorem policySteps_faithful_mixedSteps :
    ownerSecretStep.Faithful .policySecret ownerSecretBody ∧
      ∃ p, Emits (vtpmMarshalPolicyList mixedSteps) p ∧
        ∀ r, vtpmUnmarshalPolicyList (p ++ r) = .ok (mixedSteps, r) := by
  have nvWritten : vtpmPolicyCommandFromParts .policyNvWritten [1] = .ok nvWrittenStep := by
    decide +kernel
  have presence : vtpmPolicyCommandFromParts .policyPhysicalPresence [] =
      .ok (.default ⟨.policyPhysicalPresence, []⟩) := rfl
  have secret : vtpmPolicyCommandFromParts .policySecret ownerSecretBody =
      .ok ownerSecretStep := by
    decide +kernel
  refine ⟨policySteps_faithful.1 _ _ _ secret, policySteps_faithful.2 _ (by decide) ?_⟩
  intro step mem
  simp only [mixedSteps, List.mem_cons, List.not_mem_nil, or_false] at mem
  obtain rfl | rfl | rfl := mem
  · exact ⟨_, _, nvWritten⟩
  · exact ⟨_, _, presence⟩
  · exact ⟨_, _, secret⟩

end Tpm2
