import Tpm2.PolicyLanguage.Decompile
import Tpm2.PolicyLanguage.Print

/-! What a printed expression is read as, also where it was not parsed before. -/

namespace Tpm2

open ByteCodec Text

namespace Operator

/-- The operands that a chain takes over from its first operand. -/
def operands : Operator → TpmPolicyExpression → List TpmPolicyExpression
  | and, .and branches => branches
  | or, .or branches => branches
  | _, expression => [expression]

/-- What operands in a chain are combined to. -/
def regroup (operator : Operator) : List TpmPolicyExpression → TpmPolicyExpression
  | [] => operator.expression []
  | first :: others => others.foldl operator.combine first

theorem combine_eq (operator : Operator) (lhs rhs : TpmPolicyExpression) :
    operator.combine lhs rhs = operator.expression (operator.operands lhs ++ [rhs]) := by
  cases operator <;> cases lhs <;> rfl

/-- A chain of two operands or more takes over the operands of its first. -/
theorem regroup_cons (operator : Operator) (first : TpmPolicyExpression)
    {others : List TpmPolicyExpression} (nonempty : others ≠ []) :
    operator.regroup (first :: others) =
      operator.expression (operator.operands first ++ others) := by
  have extended (branches others : List TpmPolicyExpression) :
      others.foldl operator.combine (operator.expression branches) =
        operator.expression (branches ++ others) := by
    induction others generalizing branches with
    | nil => simp
    | cons other others ih => rw [List.foldl_cons, combine_expression, ih, List.append_assoc]; rfl
  cases others with
  | nil => exact absurd rfl nonempty
  | cons second others =>
      rw [regroup, List.foldl_cons, combine_eq, extended, List.append_assoc]
      rfl

end Operator

namespace TpmPolicyExpression

mutual

/-- Every leaf can be read once it is printed. -/
def Readable (context : TpmPolicyContext) : TpmPolicyExpression → Prop
  | pcr selections _ => selections.Readable context
  | secret authHandle _ => authHandle.Readable context
  | and branches => ReadableAll context branches
  | or branches => ReadableAll context branches
  | handle value => ∃ ht : TpmHt, TpmEnum.value ht = (value.value >>> 24).toUInt8

def ReadableAll (context : TpmPolicyContext) : List TpmPolicyExpression → Prop
  | [] => True
  | branch :: branches => branch.Readable context ∧ ReadableAll context branches

end

/-- The expression is read as `reread` once it is printed. -/
def Rereads (hex : Hex) (context : TpmPolicyContext) (expression reread : TpmPolicyExpression) :
    Prop :=
  (expression.printed hex).built hex context = .ok reread

section
variable {hex : Hex} {context : TpmPolicyContext}

theorem rereads_iff_parse {expression reread : TpmPolicyExpression}
    (branched : expression.Branched) :
    expression.Rereads hex context reread ↔
      parse hex context (expression.toString hex) = .ok reread := by
  rw [parse_toString branched, Rereads]

theorem rereads_pcr {selections : TpmlPcrSelection} {digest : Option Tpm2bDigest}
    {reread : TpmPolicyExpression} :
    (pcr selections digest).Rereads hex context reread ↔
      selections.Readable context ∧ ∃ resized, selections.Resized context resized ∧
        reread = .pcr resized digest := by
  show parsePcrText hex context ((tokenize _).flatMap Token.text) = _ ↔ _
  rw [flatMap_text_displayPcr, parsePcrText_displayPcr]

/-- An empty reference is dropped. -/
theorem rereads_secret {authHandle reread : TpmPolicyExpression} {copyRef : Option Tpm2bDigest} :
    (secret authHandle copyRef).Rereads hex context reread ↔
      ∃ object, authHandle.Rereads hex context object ∧
        reread = secret object (copyRef.filter fun reference => !reference.bytes.isEmpty) := by
  have reference : Phrase.builtCopyRef hex (copyRefText hex copyRef) =
      .ok (copyRef.filter fun reference => !reference.bytes.isEmpty) := by
    cases copyRef with
    | none => rfl
    | some digest =>
        refine parseCopyRef_eq_ok.mpr ⟨_, rfl, hex.digits_encode _, ?_, ?_⟩
        · rw [hex.decode_encode, getD_reference_filter]
          rfl
        · cases empty : digest.bytes.isEmpty with
          | true => simp [Option.filter, empty]
          | false =>
              simp only [Option.filter, empty, Bool.not_false, if_true]
              rintro ⟨⟩
              cases empty
  rw [Rereads, printed, Phrase.built, Phrase.built_top, reference]
  constructor
  · intro ok
    obtain ⟨object, read, ok⟩ := bind_eq_ok.mp ok
    cases ok
    exact ⟨object, mapError_eq_ok.mp read, rfl⟩
  · rintro ⟨object, read, rfl⟩
    exact bind_eq_ok.mpr ⟨object, mapError_eq_ok.mpr read, rfl⟩

theorem rereads_handle {value : TpmHandle} {reread : TpmPolicyExpression} :
    (handle value).Rereads hex context reread ↔
      (handle value).Readable context ∧ reread = handle value :=
  parseLiteral_displayHandle

theorem foldlM_builtWith_eq_ok {operator : Operator} {branches : List TpmPolicyExpression}
    {lhs reread : TpmPolicyExpression} :
    (branches.map (printed hex)).foldlM (operator.builtWith hex context) lhs = .ok reread ↔
      ∃ rereads, List.Forall₂ (Rereads hex context) branches rereads ∧
        reread = rereads.foldl operator.combine lhs := by
  induction branches generalizing lhs with
  | nil => simp [pure, Except.pure, eq_comm]
  | cons branch branches ih =>
      simp only [List.map_cons, List.foldlM_cons, bind_eq_ok, ih, List.forall₂_cons_left_iff]
      constructor
      · rintro ⟨next, added, rereads, others, rfl⟩
        obtain ⟨rhs, read, added⟩ := bind_eq_ok.mp added
        cases added
        exact ⟨rhs :: rereads, ⟨rhs, rereads, read, others, rfl⟩, rfl⟩
      · rintro ⟨_, ⟨rhs, rereads, read, others, rfl⟩, rfl⟩
        exact ⟨_, bind_eq_ok.mpr ⟨rhs, read, rfl⟩, rereads, others, rfl⟩

/-- The operands of a chain are read one by one, and regrouped. -/
theorem rereads_chain {operator : Operator} {branches : List TpmPolicyExpression}
    {reread : TpmPolicyExpression} (nonempty : branches ≠ []) :
    (operator.expression branches).Rereads hex context reread ↔
      ∃ rereads, List.Forall₂ (Rereads hex context) branches rereads ∧
        reread = operator.regroup rereads := by
  obtain ⟨first, others, rfl⟩ := List.exists_cons_of_ne_nil nonempty
  rw [Rereads, printed_expression, List.map_cons, Operator.built_print]
  simp only [bind_eq_ok, foldlM_builtWith_eq_ok, List.forall₂_cons_left_iff]
  constructor
  · rintro ⟨lhs, read, rereads, others, rfl⟩
    exact ⟨lhs :: rereads, ⟨lhs, rereads, read, others, rfl⟩, rfl⟩
  · rintro ⟨_, ⟨lhs, rereads, read, others, rfl⟩, rfl⟩
    exact ⟨lhs, read, rereads, others, rfl⟩

theorem exists_rereads_chain (operator : Operator) {branches : List TpmPolicyExpression}
    (nonempty : branches ≠ []) :
    (∃ reread, (operator.expression branches).Rereads hex context reread) ↔
      ∃ rereads, List.Forall₂ (Rereads hex context) branches rereads := by
  simp only [rereads_chain nonempty]
  constructor
  · rintro ⟨_, rereads, related, -⟩
    exact ⟨rereads, related⟩
  · rintro ⟨rereads, related⟩
    exact ⟨_, rereads, related, rfl⟩

theorem ne_nil_of_two_le {branches : List TpmPolicyExpression} (two : 2 ≤ branches.length) :
    branches ≠ [] := by
  rintro rfl
  simp at two

/-- The first operand of a chain that is read, and the others. -/
theorem rereads_branches (operator : Operator) {branches : List TpmPolicyExpression}
    {reread : TpmPolicyExpression} (two : 2 ≤ branches.length)
    (rereads : (operator.expression branches).Rereads hex context reread) :
    ∃ first others, List.Forall₂ (Rereads hex context) branches (first :: others) ∧ others ≠ [] ∧
      reread = operator.regroup (first :: others) := by
  obtain ⟨all, related, rfl⟩ := (rereads_chain (ne_nil_of_two_le two)).mp rereads
  have length := related.length_eq
  obtain _ | ⟨first, _ | ⟨second, others⟩⟩ := all
  · simp only [List.length_nil] at length
    omega
  · simp only [List.length_singleton] at length
    omega
  · exact ⟨first, second :: others, related, by simp, rfl⟩

mutual

/-- An expression can be read once it is printed if and only if its leaves can. -/
theorem exists_rereads_iff {expression : TpmPolicyExpression} (branched : expression.Branched) :
    (∃ reread, expression.Rereads hex context reread) ↔ expression.Readable context := by
  cases expression with
  | pcr selections digest =>
      simp only [rereads_pcr, Readable]
      constructor
      · rintro ⟨_, readable, -⟩
        exact readable
      · intro readable
        obtain ⟨resized, resizes⟩ := readable.exists_resized
        exact ⟨_, readable, resized, resizes, rfl⟩
  | secret authHandle copyRef =>
      have object : authHandle.Branched := branched
      rw [Readable, ← exists_rereads_iff object]
      simp only [rereads_secret]
      constructor
      · rintro ⟨_, object, read, -⟩
        exact ⟨object, read⟩
      · rintro ⟨object, read⟩
        exact ⟨_, object, read, rfl⟩
  | handle value => simp [rereads_handle]
  | and branches =>
      rw [Readable, ← exists_rereadsAll_iff branched.2]
      exact exists_rereads_chain .and (ne_nil_of_two_le branched.1)
  | or branches =>
      rw [Readable, ← exists_rereadsAll_iff branched.2]
      exact exists_rereads_chain .or (ne_nil_of_two_le branched.1)

theorem exists_rereadsAll_iff {branches : List TpmPolicyExpression}
    (branched : BranchedAll branches) :
    (∃ rereads, List.Forall₂ (Rereads hex context) branches rereads) ↔
      ReadableAll context branches := by
  cases branches with
  | nil => simp [ReadableAll]
  | cons branch branches =>
      rw [ReadableAll, ← exists_rereads_iff branched.1, ← exists_rereadsAll_iff branched.2]
      constructor
      · rintro ⟨_, related⟩
        cases related with
        | cons first others => exact ⟨⟨_, first⟩, _, others⟩
      · rintro ⟨⟨reread, first⟩, rereads, others⟩
        exact ⟨reread :: rereads, .cons first others⟩

end

end

end TpmPolicyExpression
end Tpm2
