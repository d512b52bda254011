import Tpm2.Vtpm.Key
import Tpm2.Vtpm.PolicyList

/-! The record of a key: what `load` accepts of what `save` writes. -/

namespace Tpm2

open ByteCodec

namespace VtpmPolicyCommand

/-- `PartialEq`: equal codes and bodies. -/
def Same (step step' : VtpmPolicyCommand) : Prop := step.cc = step'.cc ∧ step.body = step'.body

/-- The code and the body of the step make a step. -/
def Accepted (step : VtpmPolicyCommand) : Prop :=
  ∃ loaded, vtpmPolicyCommandFromParts step.cc step.body = .ok loaded

theorem record_same {step step' : VtpmPolicyCommand} (same : step.Same step') :
    step.record = step'.record := by
  rw [record, record, same.1, same.2]

theorem Accepted.length_body {step : VtpmPolicyCommand} (accepted : step.Accepted) :
    step.body.length ≤ u32Max := by
  obtain ⟨loaded, made⟩ := accepted
  rw [← (faithful_of_fromParts made).body_eq]
  exact Stored.length_body ⟨_, _, made⟩

/-- The code and the body of an accepted step are as long as it says. -/
theorem Accepted.len_eq {step : VtpmPolicyCommand} (accepted : step.Accepted) :
    step.len = 8 + step.body.length := by
  obtain ⟨loaded, made⟩ := accepted
  cases step with
  | default command => rfl
  | authorize command =>
      obtain ⟨parts, read, -⟩ := fromParts_authorize.mp made
      have refuses : (unmarshal (α := VtpmPolicyAuthorizeCommand) []).toOption.isNone := by
        decide +kernel
      have length : (marshaledBody command).length = TpmSized.len command :=
        length_marshaledBody refuses read
      exact congrArg (8 + ·) length.symm
  | secret command =>
      obtain ⟨parts, read, -⟩ := fromParts_secret.mp made
      have refuses : (unmarshal (α := VtpmPolicySecretCommand) []).toOption.isNone := by
        decide +kernel
      have length : (marshaledBody command).length = TpmSized.len command :=
        length_marshaledBody refuses read
      exact congrArg (8 + ·) length.symm

theorem length_policyListBytes {steps : List VtpmPolicyCommand}
    (accepted : ∀ step ∈ steps, step.Accepted) :
    (policyListBytes steps).length = 4 + (steps.map len).sum := by
  rw [policyListBytes, List.length_append, length_countBytes]
  congr 1
  induction steps with
  | nil => rfl
  | cons step steps ih =>
      obtain ⟨first, rest⟩ := List.forall_mem_cons.mp accepted
      rw [List.flatMap_cons, List.length_append, ih rest, List.map_cons, List.sum_cons,
        length_record, first.len_eq]

theorem accepted_of_same {steps steps' : List VtpmPolicyCommand}
    (same : List.Forall₂ Same steps steps') (accepted : ∀ step ∈ steps', step.Accepted) :
    ∀ step ∈ steps, step.Accepted := by
  induction same with
  | nil => exact accepted
  | cons first _ ih =>
      obtain ⟨own, accepted⟩ := List.forall_mem_cons.mp accepted
      obtain ⟨loaded, made⟩ := own
      exact List.forall_mem_cons.mpr ⟨⟨loaded, by rw [first.1, first.2, made]⟩, ih accepted⟩

/-- The steps that are read back for accepted ones. -/
theorem exists_stored {steps : List VtpmPolicyCommand} (accepted : ∀ step ∈ steps, step.Accepted) :
    ∃ loaded, List.Forall₂ Same steps loaded ∧ ∀ step ∈ loaded, step.Stored := by
  induction steps with
  | nil => exact ⟨[], .nil, by simp⟩
  | cons step steps ih =>
      obtain ⟨⟨first, made⟩, accepted⟩ := List.forall_mem_cons.mp accepted
      obtain ⟨rest, same, stored⟩ := ih accepted
      have faithful := faithful_of_fromParts made
      exact ⟨first :: rest, .cons ⟨faithful.cc_eq.symm, faithful.body_eq.symm⟩ same,
        List.forall_mem_cons.mpr ⟨⟨_, _, made⟩, stored⟩⟩

theorem policyListBytes_same {steps loaded : List VtpmPolicyCommand}
    (same : List.Forall₂ Same steps loaded) : policyListBytes steps = policyListBytes loaded := by
  have records : steps.flatMap record = loaded.flatMap record := by
    induction same with
    | nil => rfl
    | cons first _ ih => rw [List.flatMap_cons, List.flatMap_cons, record_same first, ih]
  rw [policyListBytes, policyListBytes, records, same.length_eq]

end VtpmPolicyCommand

namespace VtpmKey

/-- The keys have the same fields, and policies of equal steps. -/
structure Same (key key' : VtpmKey) : Prop where
  version : key'.version = key.version
  handle : key'.handle = key.handle
  pub : key'.public = key.public
  parent : key'.parent = key.parent
  context : key'.context = key.context
  policy : List.Forall₂ VtpmPolicyCommand.Same key.policy key'.policy

/-- The parts of the key can be read: both public areas are what reading one gives, and the policy
has few steps, all of which are accepted. -/
structure Readable (key : VtpmKey) : Prop where
  pub : WellFormed key.public
  parent : WellFormed key.parent
  few : key.policy.length ≤ maxPolicyCount
  accepted : ∀ step ∈ key.policy, step.Accepted

/-- What `save` does not check of a record: that its parts can be read, and that it is small. -/
structure Loadable (key : VtpmKey) : Prop extends Readable key where
  small : key.serializedLen ≤ maxRecordSize

/-- The record of a readable key fills its buffer, and is read back as the key, with steps equal to
those of its policy. -/
theorem Readable.record {key : VtpmKey} (current : key.version = .new Tpm2.version)
    (readable : key.Readable) : ∃ bytes, key.record = .ok bytes ∧
      bytes.length = key.serializedLen ∧
      ∃ loaded, decode bytes key.handle.value = .ok loaded ∧ key.Same loaded := by
  have context : WellFormed key.context := ⟨trivial, trivial, trivial, trivial, trivial⟩
  obtain ⟨p₁, l₁, e₁⟩ := codec.emits_wellFormed (v := key.version) trivial
  obtain ⟨p₂, l₂, e₂⟩ := codec.emits_wellFormed (v := key.handle) trivial
  obtain ⟨p₃, l₃, e₃⟩ := codec.emits_wellFormed readable.pub
  obtain ⟨p₄, l₄, e₄⟩ := codec.emits_wellFormed readable.parent
  obtain ⟨p₅, l₅, e₅⟩ := codec.emits_wellFormed context
  have e₆ := marshalPolicyList_emits readable.few fun step mem =>
    (readable.accepted step mem).length_body
  have l₆ := VtpmPolicyCommand.length_policyListBytes readable.accepted
  have all := (e₁.mapError VtpmError.marshal).bind ((e₂.mapError VtpmError.marshal).bind
    ((e₃.mapError VtpmError.marshal).bind ((e₄.mapError VtpmError.marshal).bind
      ((e₅.mapError VtpmError.marshal).bind e₆))))
  have length : (p₁ ++ (p₂ ++ (p₃ ++ (p₄ ++ (p₅ ++ policyListBytes key.policy))))).length =
      key.serializedLen := by
    simp only [List.length_append, l₁, l₂, l₃, l₄, l₅, l₆, serializedLen]
    omega
  have room : (p₁ ++ (p₂ ++ (p₃ ++ (p₄ ++ (p₅ ++ policyListBytes key.policy))))).length ≤
      (Cursor.zeros key.serializedLen).room := by
    rw [length, Cursor.zeros_room]
  have written := Cursor.push_written room
  rw [Cursor.zeros_written, List.nil_append] at written
  have saved : key.record =
      .ok (p₁ ++ (p₂ ++ (p₃ ++ (p₄ ++ (p₅ ++ policyListBytes key.policy))))) := by
    rw [← written]
    obtain ⟨w₁, ok₁, rest⟩ := bind_eq_ok.mp (all.ok room)
    obtain ⟨w₂, ok₂, rest⟩ := bind_eq_ok.mp rest
    obtain ⟨w₃, ok₃, rest⟩ := bind_eq_ok.mp rest
    obtain ⟨w₄, ok₄, rest⟩ := bind_eq_ok.mp rest
    obtain ⟨w₅, ok₅, ok₆⟩ := bind_eq_ok.mp rest
    exact bind_eq_ok.mpr ⟨w₁, ok₁, bind_eq_ok.mpr ⟨w₂, ok₂, bind_eq_ok.mpr ⟨w₃, ok₃,
      bind_eq_ok.mpr ⟨w₄, ok₄, bind_eq_ok.mpr ⟨w₅, ok₅, bind_eq_ok.mpr ⟨_, ok₆, rfl⟩⟩⟩⟩⟩⟩
  obtain ⟨loaded, same, stored⟩ := VtpmPolicyCommand.exists_stored readable.accepted
  have few : loaded.length ≤ maxPolicyCount := same.length_eq ▸ readable.few
  have r₆ := unmarshalPolicyList_records few stored []
  rw [← VtpmPolicyCommand.policyListBytes_same same, List.append_nil] at r₆
  refine ⟨_, saved, length, ⟨key.version, key.handle, key.public, key.parent, key.context, loaded⟩,
    ?_, rfl, rfl, rfl, rfl, rfl, same⟩
  have r₁ := codec.read_emitted (v := key.version) trivial e₁
  have r₂ := codec.read_emitted (v := key.handle) trivial e₂
  have r₃ := codec.read_emitted readable.pub e₃
  have r₄ := codec.read_emitted readable.parent e₄
  have r₅ := codec.read_emitted context e₅
  have now : key.version.value = Tpm2.version := by rw [current, TpmInt.value_new]
  simp only [decode, Except.mapError, bind, Except.bind, r₁, r₂, r₃, r₄, r₅, r₆, now, ne_eq,
    not_true, if_false]
  rfl

/-- What is read from a record has readable parts. -/
theorem readable_of_decode {bytes : Bytes} {v : UInt32} {key : VtpmKey}
    (ok : decode bytes v = .ok key) : key.Readable := by
  obtain ⟨⟨version, tail⟩, -, ok⟩ := bind_eq_ok.mp ok
  dsimp only at ok
  split at ok
  · cases ok
  obtain ⟨⟨handle, tail⟩, -, ok⟩ := bind_eq_ok.mp ok
  dsimp only at ok
  split at ok
  · cases ok
  obtain ⟨⟨pub, tail⟩, readPub, ok⟩ := bind_eq_ok.mp ok
  obtain ⟨⟨parent, tail⟩, readParent, ok⟩ := bind_eq_ok.mp ok
  obtain ⟨⟨context, tail⟩, -, ok⟩ := bind_eq_ok.mp ok
  obtain ⟨⟨policy, tail⟩, readPolicy, ok⟩ := bind_eq_ok.mp ok
  dsimp only at ok
  split at ok
  · cases ok
  · cases ok
    obtain ⟨few, stored⟩ := unmarshalPolicyList_ok readPolicy
    exact ⟨(codec.read_ok (mapError_eq_ok.mp readPub)).1,
      (codec.read_ok (mapError_eq_ok.mp readParent)).1, few,
      fun step mem => ⟨step, (stored step mem).fromParts⟩⟩

theorem Same.readable {key key' : VtpmKey} (same : key.Same key') (readable : key'.Readable) :
    key.Readable where
  pub := same.pub ▸ readable.pub
  parent := same.parent ▸ readable.parent
  few := same.policy.length_eq ▸ readable.few
  accepted := VtpmPolicyCommand.accepted_of_same same.policy readable.accepted

/-- A record that was written is loaded as its key exactly when the key is loadable. -/
theorem loads_iff {key : VtpmKey} {bytes : Bytes} (current : key.version = .new Tpm2.version)
    (saved : key.record = .ok bytes) :
    (bytes.length ≤ maxRecordSize ∧
      ∃ loaded, decode bytes key.handle.value = .ok loaded ∧ key.Same loaded) ↔ key.Loadable := by
  constructor
  · rintro ⟨small, loaded, decodes, same⟩
    have readable := same.readable (readable_of_decode decodes)
    obtain ⟨bytes', saved', length, -⟩ := readable.record current
    rw [saved] at saved'
    obtain rfl := Except.ok.inj saved'
    exact ⟨readable, length ▸ small⟩
  · intro loadable
    obtain ⟨bytes', saved', length, reads⟩ := loadable.toReadable.record current
    rw [saved] at saved'
    obtain rfl := Except.ok.inj saved'
    exact ⟨length ▸ loadable.small, reads⟩

end VtpmKey
end Tpm2
