import Tpm2.Protocol.Frame.RoundTrip

/-! Successful and rejected responses: which of them a typed response is obtained from. -/

namespace Tpm2

open ByteCodec

/-- The outcome of borrowed response dispatch. -/
inductive TpmResponseOutcome
  | dispatched (response : TpmResponse)
  | rejected (rc : TpmRc)

/-- `TpmResponseView::cast`. -/
def castResponseView (cc : TpmCc) (response : TpmResponse) : TpmResult TpmResponseOutcome := do
  let rc ← response.rc
  if rc ≠ .fmt0 .success then
    return .rejected rc
  response.validate cc
  if tpmDispatchTable.any fun dispatch => dispatch.cc = cc then
    return .dispatched response
  else
    throw (.invalidCc 0 (TpmIntBytes.asU64 (TpmEnum.value cc)))

/-- A type without handles and parameters. -/
def TpmBodyType.Empty (R : TpmBodyType) : Prop := R.HANDLES = 0 ∧ SIZE R.Parameters = 0

/-- A header and nothing else: what an error response is. -/
def TpmResponse.Bare (response : TpmResponse) : Prop :=
  response.tag = .ok .noSessions ∧ response.bytes.length = tpmHeaderSize

/-- Only an empty parameter list is read from no bytes. -/
theorem unmarshalFields_nil : ∀ row ∈ tpmDispatch,
    (unmarshalFields (F := row.2.Parameters) 0 []).isOk = decide (SIZE row.2.Parameters = 0) := by
  decide +kernel

theorem unmarshalBody_nil {row : TpmBodyType × TpmBodyType} (mem : row ∈ tpmDispatch) :
    (∃ body, TpmBody.unmarshalBody row.2 [] [] = .ok body) ↔ row.2.Empty := by
  have table := unmarshalFields_nil row mem
  constructor
  · rintro ⟨body, ok⟩
    obtain ⟨handles, area, ok⟩ := bind_eq_ok.mp ok
    obtain ⟨⟨fields, rest⟩, read, -⟩ := bind_eq_ok.mp ok
    obtain ⟨⟨items, left⟩, readHandles, -⟩ := bind_eq_ok.mp area
    constructor
    · have law := TpmBody.handles_lawful row.2.HANDLES
      obtain ⟨-, p, split, emits⟩ := law.read_ok readHandles
      have length := law.length_emitted emits
      rw [(List.append_eq_nil_iff.mp split.symm).1, List.length_nil] at length
      omega
    · rw [List.length_nil] at read
      rw [read] at table
      exact decide_eq_true_iff.mp table.symm
  · rintro ⟨noHandles, noParameters⟩
    rw [decide_eq_true noParameters] at table
    cases read : unmarshalFields (F := row.2.Parameters) 0 [] with
    | error e =>
        rw [read] at table
        cases table
    | ok result =>
        obtain ⟨fields, rest⟩ := result
        obtain ⟨p, split⟩ := (LawfulFields.codec 0).read_suffix read
        obtain ⟨-, rfl⟩ := List.append_eq_nil_iff.mp split.symm
        refine ⟨⟨⟨[], noHandles.symm⟩, fields⟩, ?_⟩
        have handles : TpmHandles.read row.2.HANDLES [] = .ok (⟨[], noHandles.symm⟩, []) := by
          apply TpmHandles.read_eq_ok.mpr
          simp only [noHandles]
          rfl
        refine bind_eq_ok.mpr ⟨_, bind_eq_ok.mpr ⟨_, handles, rfl⟩, ?_⟩
        exact bind_eq_ok.mpr ⟨_, read, rfl⟩

namespace TpmResponse

/-- An error response is read as a type without handles and parameters, if it is a bare header. -/
theorem unmarshal_rejected {row : TpmBodyType × TpmBodyType} (mem : row ∈ tpmDispatch)
    {b : Bytes} {response : TpmResponse} (ok : cast b = .ok response)
    (rejected : response.rc ≠ .ok (.fmt0 .success)) :
    (∃ body, response.unmarshal row.2 = .ok body) ↔ response.Bare ∧ row.2.Empty := by
  obtain ⟨envelope, rfl⟩ := cast_eq_ok.mp ok
  obtain ⟨frame, same⟩ := exists_responseFrame envelope
  have dispatched := dispatchFor_response mem
  have few : row.2.HANDLES ≤ 3 :=
    (dispatch_handles_le _ (dispatchFor_eq_ok.mp dispatched).1).2
  have area : handleAreaSize row.2.HANDLES tpmHeaderSize = .ok (row.2.HANDLES * 4) :=
    (handleAreaSize_eq_ok few).mpr rfl
  have bare : response.Bare ↔ frame.tag = .noSessions ∧ frame.body = [] := by
    rw [Bare, tag_frame same, length_frame same, tpmHeaderSize, ← List.length_eq_zero_iff]
    simp
  have success : frame.rc ≠ .fmt0 .success := by
    rwa [rc_frame same, ne_eq, Except.ok.injEq] at rejected
  constructor
  · rintro ⟨body, read⟩
    obtain ⟨_, valid, rest⟩ := bind_eq_ok.mp read
    obtain ⟨⟨handles, parameters⟩, parts, fields⟩ := bind_eq_ok.mp rest
    have answers := (validate_frame same dispatched).mp valid
    simp only [ResponseFrame.Answers, success, not_false_eq_true, true_and, false_and, or_false,
      ne_eq] at answers
    refine ⟨bare.mpr answers, (unmarshalBody_nil mem).mp ?_⟩
    simp only [bodyParts, area, body_frame same, tag_frame same, answers, bind, Except.bind,
      List.take_nil, List.drop_nil] at parts
    split at parts
    · cases parts
    · cases parts
      exact ⟨body, fields⟩
  · rintro ⟨header, empty⟩
    obtain ⟨tag, body⟩ := bare.mp header
    obtain ⟨fields, read⟩ := (unmarshalBody_nil mem).mpr empty
    have valid : response.validate row.2.CC = .ok () :=
      (validate_frame same dispatched).mpr (.inl ⟨success, tag, body⟩)
    have length : ([] : Bytes).length = row.2.HANDLES * 4 := by
      rw [empty.1]
      rfl
    have split : frame.body =
        [] ++ if frame.tag = .sessions then prefixed 4 [] ++ ([] : Bytes) else [] := by
      rw [body, tag]
      rfl
    have parts : response.bodyParts row.2 = .ok ([], []) :=
      bodyParts_frame same few length (Nat.pow_pos (by decide)) split
    exact ⟨fields, bind_eq_ok.mpr ⟨(), valid, bind_eq_ok.mpr ⟨_, parts, read⟩⟩⟩

/-- A typed response is obtained from successful responses only, but for a type without handles and
parameters, which a bare error response is read as. -/
theorem unmarshal_success_iff {row : TpmBodyType × TpmBodyType} (mem : row ∈ tpmDispatch)
    {b : Bytes} {response : TpmResponse} (ok : cast b = .ok response) :
    ((∃ body, response.unmarshal row.2 = .ok body) → response.rc = .ok (.fmt0 .success)) ↔
      response.rc = .ok (.fmt0 .success) ∨ ¬ (response.Bare ∧ row.2.Empty) := by
  by_cases success : response.rc = .ok (.fmt0 .success)
  · simp only [success, implies_true, true_or]
  · simp only [success, imp_false, false_or]
    exact not_congr (unmarshal_rejected mem ok success)

/-- A bare header with `TPM_RC_INITIALIZE`. -/
def rejectedBytes : Bytes := [0x80, 0x01, 0, 0, 0, 10, 0, 0, 0x01, 0x00]

theorem cast_rejected : ∃ response, cast rejectedBytes = .ok response ∧
    response.rc = .ok (.fmt0 .initializeRc) ∧ response.Bare := by
  have valid : validateEnvelope rejectedBytes = .ok () := by decide +kernel
  have coded : responseCode rejectedBytes = .ok (.fmt0 .initializeRc) := by decide +kernel
  have tagged : (⟨rejectedBytes, by decide⟩ : TpmResponse).tag = .ok .noSessions := by
    decide +kernel
  exact ⟨⟨rejectedBytes, by decide⟩, cast_eq_ok.mpr ⟨valid, rfl⟩, coded, tagged, rfl⟩

/-- A response with random bytes is not obtained from it. -/
theorem unmarshal_success_getRandom : ∃ response, cast rejectedBytes = .ok response ∧
    ((∃ body, response.unmarshal TpmGetRandomResponse = .ok body) →
      response.rc = .ok (.fmt0 .success)) := by
  obtain ⟨response, ok, -⟩ := cast_rejected
  have mem : (TpmGetRandomCommand, TpmGetRandomResponse) ∈ tpmDispatch := tpmDispatch_mem rfl
  refine ⟨response, ok, (unmarshal_success_iff mem ok).mpr (.inr ?_)⟩
  rintro ⟨-, -, empty⟩
  revert empty
  decide

/-- An answer to `TPM2_FlushContext` is. -/
theorem unmarshal_success_fails : ¬ ∀ row ∈ tpmDispatch, ∀ b response body,
    cast b = .ok response → response.unmarshal row.2 = .ok body →
      response.rc = .ok (.fmt0 .success) := by
  intro claim
  obtain ⟨response, ok, coded, bare⟩ := cast_rejected
  have mem : (TpmFlushContextCommand, TpmFlushContextResponse) ∈ tpmDispatch := tpmDispatch_mem rfl
  have rejected : response.rc ≠ .ok (.fmt0 .success) := by
    rw [coded]
    decide
  obtain ⟨body, read⟩ := (unmarshal_rejected mem ok rejected).mpr ⟨bare, rfl, by decide⟩
  exact rejected (claim _ mem _ _ _ ok read)

end TpmResponse
end Tpm2
