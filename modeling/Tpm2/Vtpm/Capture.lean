import Tpm2.Protocol.Frame.Command
import Tpm2.Vtpm.PolicyList

/-! Policy steps that are taken from live commands: which of them can be read back. -/

namespace Tpm2

open ByteCodec

/-- `TpmCommandView::cast`: the code that the selected view stands for. -/
def castCommandView (command : TpmCommand) : TpmResult TpmCc := do
  command.validate
  let cc ← command.cc
  if tpmDispatchTable.any fun dispatch => dispatch.cc = cc then
    return cc
  else
    throw (.invalidCc 6 (TpmIntBytes.asU64 (TpmEnum.value cc)))

def vtpmMarshalCommandParameters (command : TpmCommand) : Except VtpmError Bytes :=
  command.parameters.mapError .unmarshal

def vtpmPolicySecretFromCommand (command : TpmCommand) (objectName : Tpm2bName) :
    Except VtpmError VtpmPolicyCommand := do
  let inner ← (command.unmarshal TpmPolicySecretCommand).mapError .unmarshal
  let (_, _, policyRef, _) := inner.parameters
  return .secret ⟨inner.handles.get ⟨0, Nat.two_pos⟩, objectName, policyRef⟩

/-- Constructs a `VtpmPolicyCommand` from a typed TPM policy command. -/
def vtpmPolicyCommandFrom (command : TpmCommand) (objectName : Tpm2bName) :
    Except VtpmError VtpmPolicyCommand := do
  let view ← (castCommandView command).mapError .unmarshal
  match view with
  | .policyPcr | .policyOr | .policyCommandCode | .policyCpHash | .policyNameHash
  | .policyTemplate | .policyNvWritten | .policyCounterTimer =>
      let buf ← vtpmMarshalCommandParameters command
      return .default ⟨view, buf⟩
  | .policySecret => vtpmPolicySecretFromCommand command objectName
  | .policyAuthValue | .policyPassword | .policyGetDigest | .policyRestart
  | .policyPhysicalPresence => return .default ⟨view, []⟩
  | _ => throw (.invalidCc view)

/-- A valid frame of a command whose parameters are copied decodes as that command. -/
def ParametersDecode (command : TpmCommand) : Prop :=
  command.validate = .ok () → ∀ C ∈ copiedCommands, command.cc = .ok C.CC →
    ∃ body, command.unmarshal C = .ok body

/-- Any bytes of the right number are handles. -/
theorem read_handles {N : Nat} {b : Bytes} (length : b.length = N * 4) :
    ∃ handles, unmarshalHandleArea N b = .ok handles := by
  suffices reads : ∃ handles, TpmHandles.read N b = .ok (handles, []) by
    obtain ⟨handles, read⟩ := reads
    exact ⟨handles, bind_eq_ok.mpr ⟨_, read, rfl⟩⟩
  induction N generalizing b with
  | zero =>
      obtain rfl := List.length_eq_zero_iff.mp (by omega)
      exact ⟨⟨[], rfl⟩, rfl⟩
  | succ N ih =>
      have first : (b.take 4).length = 4 := by
        rw [List.length_take]
        omega
      obtain ⟨handles, rest⟩ := ih (b := b.drop 4) (by rw [List.length_drop]; omega)
      have handle : (unmarshal b : TpmResult (TpmHandle × Bytes)) =
          .ok (⟨b.take 4, first⟩, b.drop 4) := by
        rw [TpmInt.unmarshal_eq_castPrefix, TpmInt.castPrefix_eq_ok]
        exact (List.take_append_drop 4 b).symm
      exact ⟨_, bind_eq_ok.mpr ⟨_, handle, bind_eq_ok.mpr ⟨_, rest, rfl⟩⟩⟩

section
variable {command : TpmCommand} {objectName : Tpm2bName} {step : VtpmPolicyCommand}

/-- The checks of the frame are all that the selection of a view makes. -/
theorem castCommandView_eq_ok {cc : TpmCc} :
    castCommandView command = .ok cc ↔ command.validate = .ok () ∧ command.cc = .ok cc := by
  simp only [castCommandView, bind_eq_ok]
  constructor
  · rintro ⟨_, valid, found, code, entry⟩
    split at entry
    · cases entry
      exact ⟨valid, code⟩
    · cases entry
  · rintro ⟨valid, code⟩
    obtain ⟨_, envelope, -⟩ := bind_eq_ok.mp valid
    obtain ⟨frame, same⟩ := exists_commandFrame envelope
    have framed := TpmCommand.cc_frame same
    rw [code] at framed
    have listed : (tpmDispatchTable.any fun dispatch => dispatch.cc = cc) = true := by
      apply List.any_eq_true.mpr
      exact ⟨frame.dispatch, frame.dispatch_mem, by simpa using (Except.ok.inj framed).symm⟩
    refine ⟨(), valid, cc, code, ?_⟩
    rw [if_pos listed]
    rfl

/-- The parameters of a copied command become the body of its step. -/
theorem captured_copied {C : TpmBodyType} (listed : C ∈ copiedCommands) {parameters : Bytes}
    (view : castCommandView command = .ok C.CC) (area : command.parameters = .ok parameters) :
    vtpmPolicyCommandFrom command objectName = .ok (.default ⟨C.CC, parameters⟩) := by
  simp only [copiedCommands, List.mem_cons, List.not_mem_nil, or_false] at listed
  rw [vtpmPolicyCommandFrom, view]
  rcases listed with rfl | rfl | rfl | rfl | rfl | rfl | rfl | rfl
  all_goals
    show (vtpmMarshalCommandParameters command >>= _) = _
    rw [vtpmMarshalCommandParameters, area]
    rfl

/-- What a step that is taken from a command can be. -/
theorem captured_cases (ok : vtpmPolicyCommandFrom command objectName = .ok step) :
    ∃ cc, castCommandView command = .ok cc ∧
      ((∃ C ∈ copiedCommands, C.CC = cc) ∨
        (cc = .policySecret ∧ vtpmPolicySecretFromCommand command objectName = .ok step) ∨
        ∃ C ∈ plainCommands, C.CC = cc ∧ step = .default ⟨cc, []⟩) := by
  obtain ⟨cc, view, kind⟩ := bind_eq_ok.mp ok
  refine ⟨cc, mapError_eq_ok.mp view, ?_⟩
  have copied (mem : cc ∈ copiedCommands.map TpmBodyType.CC) : ∃ C ∈ copiedCommands, C.CC = cc :=
    List.mem_map.mp mem
  have plain (mem : cc ∈ plainCommands.map TpmBodyType.CC)
      (made : step = .default ⟨cc, []⟩) : ∃ C ∈ plainCommands, C.CC = cc ∧
        step = .default ⟨cc, []⟩ := by
    obtain ⟨C, listed, code⟩ := List.mem_map.mp mem
    exact ⟨C, listed, code, made⟩
  split at kind
  case h_9 => exact .inr (.inl ⟨rfl, kind⟩)
  case h_15 => cases kind
  all_goals first
    | exact .inl (copied (by decide))
    | exact .inr (.inr (plain (by decide) (Except.ok.inj kind).symm))

theorem handles_copied : ∀ dispatch ∈ tpmDispatchTable, ∀ C ∈ copiedCommands,
    dispatch.cc = C.CC → dispatch.handles = C.HANDLES := by
  decide +kernel

/-- A valid frame is decoded where its parameters are. -/
theorem unmarshal_copied {C : TpmBodyType} (listed : C ∈ copiedCommands)
    (valid : command.validate = .ok ()) (code : command.cc = .ok C.CC) {parameters : Bytes}
    (area : command.parameters = .ok parameters) :
    (∃ body, command.unmarshal C = .ok body) ↔ ReadsFields C.Parameters parameters := by
  obtain ⟨_, envelope, -⟩ := bind_eq_ok.mp valid
  obtain ⟨frame, same⟩ := exists_commandFrame envelope
  have framed := TpmCommand.cc_frame same
  rw [code] at framed
  have count := handles_copied frame.dispatch frame.dispatch_mem C listed
    (Except.ok.inj framed).symm
  have length : frame.handles.length = C.HANDLES * 4 := by rw [frame.length_handles, count]
  obtain ⟨handles, readHandles⟩ := read_handles length
  constructor
  · rintro ⟨body, ok⟩
    obtain ⟨_, -, ok⟩ := bind_eq_ok.mp ok
    obtain ⟨cc, coded, ok⟩ := bind_eq_ok.mp ok
    rw [code] at coded
    cases coded
    rw [if_neg (by simp)] at ok
    obtain ⟨_, -, ok⟩ := bind_eq_ok.mp ok
    obtain ⟨fieldBytes, found, ok⟩ := bind_eq_ok.mp ok
    rw [area] at found
    cases found
    obtain ⟨_, -, ok⟩ := bind_eq_ok.mp ok
    obtain ⟨⟨fields, rest⟩, read, ok⟩ := bind_eq_ok.mp ok
    obtain ⟨_, consumed, -⟩ := bind_eq_ok.mp ok
    obtain rfl := ensureConsumed_eq_ok.mp consumed
    exact ⟨fields, read⟩
  · rintro ⟨fields, read⟩
    have decoded : TpmBody.unmarshalBody C frame.handles parameters = .ok ⟨handles, fields⟩ :=
      bind_eq_ok.mpr ⟨_, readHandles, bind_eq_ok.mpr ⟨_, read, rfl⟩⟩
    refine ⟨⟨handles, fields⟩, ?_⟩
    rw [TpmCommand.unmarshal, valid, code, TpmCommand.handles_frame same, area]
    simp only [bind, Except.bind, ne_eq, not_true_eq_false, if_false]
    exact decoded

/-- What a step of `PolicySecret` reports as its body is read as the step. -/
theorem unmarshal_secretBody (secret : VtpmPolicySecretCommand) :
    unmarshal (marshaledBody secret) = .ok (secret, []) := by
  obtain ⟨p, -, emits⟩ := codec.emits_wellFormed secret.wellFormed
  have read := codec.read_emitted secret.wellFormed emits []
  rw [List.append_nil] at read
  rw [marshaledBody_eq VtpmPolicySecretCommand.fits_command emits]
  exact read

/-- A step of `PolicySecret` is read back from its own body. -/
theorem readable_secret (secret : VtpmPolicySecretCommand) :
    vtpmPolicyCommandFromParts .policySecret (marshaledBody secret) = .ok (.secret secret) :=
  fromParts_secret.mpr ⟨secret, unmarshal_secretBody secret, rfl⟩

theorem readable_plain {C : TpmBodyType} (listed : C ∈ plainCommands) :
    vtpmPolicyCommandFromParts C.CC [] = .ok (.default ⟨C.CC, []⟩) := by
  refine (fromParts_default (List.mem_append_left _ listed)).mpr ⟨?_, rfl⟩
  simp only [plainCommands, List.mem_cons, List.not_mem_nil, or_false] at listed
  rcases listed with rfl | rfl | rfl | rfl | rfl <;> exact readsFields_nil.mpr rfl

/-- Every step that is taken from a command can be read back, if the parameters of the command
decode where they are copied. -/
theorem captured_readable_iff (command : TpmCommand) (objectName : Tpm2bName) :
    (∀ step, vtpmPolicyCommandFrom command objectName = .ok step →
      vtpmPolicyCommandFromParts step.cc step.body = .ok step) ↔ ParametersDecode command := by
  constructor
  · intro readable valid C listed code
    obtain ⟨_, envelope, -⟩ := bind_eq_ok.mp valid
    obtain ⟨frame, same⟩ := exists_commandFrame envelope
    obtain ⟨-, area, -⟩ := TpmCommand.areas_frame same
    have view := castCommandView_eq_ok.mpr ⟨valid, code⟩
    have read := readable _ (captured_copied listed view area)
    have reads := ((fromParts_default (List.mem_append_right _ listed)).mp read).1
    exact (unmarshal_copied listed valid code area).mpr reads
  · intro decodes step ok
    obtain ⟨cc, view, kind⟩ := captured_cases ok
    obtain ⟨valid, code⟩ := castCommandView_eq_ok.mp view
    rcases kind with ⟨C, listed, rfl⟩ | ⟨-, secret⟩ | ⟨C, listed, rfl, rfl⟩
    · obtain ⟨_, envelope, -⟩ := bind_eq_ok.mp valid
      obtain ⟨frame, same⟩ := exists_commandFrame envelope
      obtain ⟨-, area, -⟩ := TpmCommand.areas_frame same
      rw [captured_copied listed view area] at ok
      cases ok
      have reads := (unmarshal_copied listed valid code area).mp (decodes valid C listed code)
      exact (fromParts_default (List.mem_append_right _ listed)).mpr ⟨reads, rfl⟩
    · obtain ⟨inner, -, made⟩ := bind_eq_ok.mp secret
      obtain ⟨parts, rfl⟩ : ∃ parts, step = .secret parts := ⟨_, (Except.ok.inj made).symm⟩
      exact readable_secret parts
    · exact readable_plain listed

end

/-- A `PolicyNvWritten` frame whose parameter is neither zero nor one. -/
def ambiguousNvWritten : TpmCommand where
  bytes := [0x80, 0x01, 0, 0, 0, 15, 0, 0, 0x01, 0x8f, 0x03, 0, 0, 0, 2]
  header := by decide

theorem not_captured_readable :
    ¬ ∀ command objectName step, vtpmPolicyCommandFrom command objectName = .ok step →
      vtpmPolicyCommandFromParts step.cc step.body = .ok step := by
  intro readable
  have captured : vtpmPolicyCommandFrom ambiguousNvWritten .new =
      .ok (.default ⟨.policyNvWritten, [2]⟩) := by
    decide +kernel
  have read := readable _ _ _ captured
  revert read
  decide +kernel

end Tpm2
