import Tpm2.PolicyLanguage.Binding

/-! Decompiling a compiled policy: the commands tell the expression up to its normal form. -/

namespace Tpm2

open ByteCodec

namespace TpmPolicyExpression

section
variable (crypto : Libcrypto) (session : TpmPolicySession) (context : TpmPolicyContext)

mutual

/-- The conjuncts of an expression in normal form: a conjunction gives those of its branches, and
everything else is one conjunct. A `Pcr` leaf carries the digest that it resolves to, and an empty
reference of a `Secret` leaf is dropped. -/
def conjuncts : TpmPolicyExpression → List TpmPolicyExpression
  | and branches => conjunctsOfBranches branches
  | or branches => [or (normalBranches branches)]
  | pcr selections digest =>
      [pcr selections (resolvePcrDigest crypto session context selections digest).toOption]
  | secret authHandle copyRef =>
      [secret authHandle (copyRef.filter fun reference => !reference.bytes.isEmpty)]
  | handle object => [handle object]

def conjunctsOfBranches : List TpmPolicyExpression → List TpmPolicyExpression
  | [] => []
  | branch :: branches => conjuncts branch ++ conjunctsOfBranches branches

/-- The normal forms of the branches of an `Or`. -/
def normalBranches : List TpmPolicyExpression → List TpmPolicyExpression
  | [] => []
  | branch :: branches => buildAndBranch (conjuncts branch) :: normalBranches branches

end

/-- Nested conjunctions are flattened, and a conjunction of one expression is that expression. -/
def normalForm (expression : TpmPolicyExpression) : TpmPolicyExpression :=
  buildAndBranch (conjuncts crypto session context expression)

end

section
variable {crypto : Libcrypto} {alg : TpmHash} {context : TpmPolicyContext} {c d : Compilation}
  {g : Tpm2bDigest} {session : TpmPolicySession}

/-- A `Pcr` leaf resolves to the same digest in every session of one algorithm. -/
theorem resolvePcrDigest_same {other : TpmPolicySession} (ready : session.Ready crypto alg)
    (ready' : other.Ready crypto alg) (selections : TpmlPcrSelection)
    (digest : Option Tpm2bDigest) : resolvePcrDigest crypto session context selections digest =
      resolvePcrDigest crypto other context selections digest := by
  have hashAlg := ready.hashAlg.trans ready'.hashAlg.symm
  cases digest with
  | some digest => rfl
  | none => simp only [resolvePcrDigest, TpmPolicySession.hashChunks, hashAlg]

/-- How a reference comes out of a command. -/
theorem reference_filter (copyRef : Option Tpm2bDigest) :
    (if (copyRef.getD .new).bytes.isEmpty then none else some (copyRef.getD .new)) =
      copyRef.filter fun reference => !reference.bytes.isEmpty := by
  cases copyRef with
  | none => rfl
  | some reference => cases empty : reference.bytes.isEmpty <;> simp [Option.filter, empty]

/-- A reference that is dropped was the default one. -/
theorem getD_reference_filter (copyRef : Option Tpm2bDigest) :
    (copyRef.filter fun reference => !reference.bytes.isEmpty).getD .new = copyRef.getD .new := by
  rw [← reference_filter]
  split
  next empty => exact TpmBuffer.ext (List.isEmpty_iff.mp empty).symm
  next => rfl

/-- The commands `commands` add the conjuncts `expressions` to the innermost branch, whatever is
open around it. -/
def Decompiles (commands : List TpmCommandValue) (expressions : List TpmPolicyExpression) : Prop :=
  ∀ branch stack, commands.foldlM fromCommand (branch :: stack) =
    .ok ((branch ++ expressions) :: stack)

/-- The commands `commands` open branches with the conjuncts `opened`, in order. -/
def OpensBranches (commands : List TpmCommandValue) (opened : List (List TpmPolicyExpression)) :
    Prop :=
  ∀ branch stack, commands.foldlM fromCommand (branch :: stack) =
    .ok (opened.reverse ++ branch :: stack)

/-- What a compilation has emitted, between two states of it. -/
def Emitted (c d : Compilation) (commands : List TpmCommandValue) : Prop :=
  d.commandList = c.commandList ++ commands.map fun command => (command, .new)

theorem Emitted.nil (c : Compilation) : Emitted c c [] := by simp [Emitted]

theorem Emitted.push (c : Compilation) (session : TpmPolicySession) (command : TpmCommandValue) :
    Emitted c { c.push command with softwareSession := session } [command] := rfl

theorem Emitted.trans {e : Compilation} {commands commands' : List TpmCommandValue}
    (first : Emitted c d commands) (second : Emitted d e commands') :
    Emitted c e (commands ++ commands') := by
  rw [Emitted, second, first, List.append_assoc, List.map_append]

theorem foldlM_append_ok {commands commands' : List TpmCommandValue}
    {stack stack' : List (List TpmPolicyExpression)}
    (ok : commands.foldlM fromCommand stack = .ok stack') :
    (commands ++ commands').foldlM fromCommand stack = commands'.foldlM fromCommand stack' := by
  rw [List.foldlM_append, ok]
  rfl

theorem Decompiles.nil : Decompiles [] [] := by
  intro branch stack
  rw [List.append_nil]
  rfl

theorem Decompiles.append {commands commands' : List TpmCommandValue}
    {expressions expressions' : List TpmPolicyExpression} (first : Decompiles commands expressions)
    (second : Decompiles commands' expressions') :
    Decompiles (commands ++ commands') (expressions ++ expressions') := by
  intro branch stack
  rw [foldlM_append_ok (first branch stack), second, List.append_assoc]

theorem OpensBranches.nil : OpensBranches [] [] := fun _ _ => rfl

/-- A restart opens a branch, which the commands behind it fill. -/
theorem OpensBranches.cons {commands commands' : List TpmCommandValue}
    {expressions : List TpmPolicyExpression} {opened : List (List TpmPolicyExpression)}
    {restart : TpmBody TpmPolicyRestartCommand} (first : Decompiles commands expressions)
    (second : OpensBranches commands' opened) :
    OpensBranches ((.policyRestart restart :: commands) ++ commands') (expressions :: opened) := by
  intro branch stack
  have opens : (TpmCommandValue.policyRestart restart :: commands).foldlM fromCommand
      (branch :: stack) = .ok (expressions :: branch :: stack) := by
    rw [List.foldlM_cons]
    exact first [] (branch :: stack)
  rw [foldlM_append_ok opens, second, List.reverse_cons, List.append_assoc]
  rfl

/-- An `Or` command closes the branches in front of it. -/
theorem OpensBranches.close {commands : List TpmCommandValue}
    {opened : List (List TpmPolicyExpression)} {list : TpmlDigest}
    (opens : OpensBranches commands opened) (count : list.items.length = opened.length) :
    Decompiles (commands ++ [.policyOr ⟨.one (.new 0), list, ()⟩])
      [or (opened.map buildAndBranch)] := by
  intro branch stack
  rw [foldlM_append_ok (opens branch stack), List.foldlM_cons]
  have enough : ¬ (opened.reverse ++ branch :: stack).length < list.items.length := by
    rw [List.length_append, List.length_reverse, count]
    omega
  have nonempty : (opened.reverse ++ branch :: stack).isEmpty = false := by simp
  have taken : (opened.reverse ++ branch :: stack).take list.items.length = opened.reverse := by
    rw [count, ← List.length_reverse, List.take_left]
  have dropped : (opened.reverse ++ branch :: stack).drop list.items.length = branch :: stack := by
    rw [count, ← List.length_reverse, List.drop_left]
  simp only [fromCommand, nonempty, enough, taken, dropped, List.reverse_reverse, pushToBranch,
    Bool.false_eq_true, if_false]
  rfl

mutual

/-- What a compilation emits tells the conjuncts of its expression. -/
theorem compileWalk_decompiles {expression : TpmPolicyExpression} {c d : Compilation}
    {g : Tpm2bDigest} (ready : session.Ready crypto alg)
    (readyc : c.softwareSession.Ready crypto alg)
    (ok : expression.compileWalk crypto context c = .ok (g, d)) : ∃ commands,
      Emitted c d commands ∧ Decompiles commands (expression.conjuncts crypto session context) := by
  cases expression with
  | pcr selections digest =>
      obtain ⟨pcrDigest, next, resolved, -, -, rfl, rfl⟩ := compileWalkPcr_eq_ok.mp ok
      rw [resolvePcrDigest_same readyc ready] at resolved
      refine ⟨_, .push c next _, fun branch stack => ?_⟩
      rw [conjuncts, resolved]
      rfl
  | secret authHandle copyRef =>
      obtain ⟨object, name, next, rfl, -, -, rfl, rfl⟩ := compileWalkSecret_eq_ok.mp ok
      refine ⟨_, .push c next _, fun branch stack => ?_⟩
      rw [conjuncts, ← reference_filter]
      rfl
  | handle object => cases ok
  | and branches =>
      obtain ⟨e, walked, ok⟩ := bind_eq_ok.mp ok
      cases ok
      exact compileWalkBranches_decompiles ready readyc walked
  | or branches =>
      obtain ⟨⟨list, e⟩, walked, ok⟩ := bind_eq_ok.mp ok
      obtain ⟨next, -, ok⟩ := bind_eq_ok.mp ok
      cases ok
      obtain ⟨commands, opened, emitted, count, normal, opens⟩ :=
        compileWalkOr_decompiles ready readyc walked
      refine ⟨_, emitted.trans (.push e next _), ?_⟩
      rw [conjuncts, ← normal]
      exact opens.close (count.trans (Nat.zero_add _))

theorem compileWalkBranches_decompiles {branches : List TpmPolicyExpression} {c d : Compilation}
    (ready : session.Ready crypto alg) (readyc : c.softwareSession.Ready crypto alg)
    (ok : compileWalkBranches crypto context branches c = .ok d) : ∃ commands,
      Emitted c d commands ∧
        Decompiles commands (conjunctsOfBranches crypto session context branches) := by
  cases branches with
  | nil =>
      cases ok
      exact ⟨[], .nil c, .nil⟩
  | cons branch branches =>
      obtain ⟨⟨digest, e⟩, walked, others⟩ := bind_eq_ok.mp ok
      obtain ⟨commands, emitted, decompiles⟩ := compileWalk_decompiles ready readyc walked
      obtain ⟨commands', emitted', decompiles'⟩ :=
        compileWalkBranches_decompiles ready (compileWalk_ready readyc walked).1 others
      exact ⟨_, emitted.trans emitted', decompiles.append decompiles'⟩

theorem compileWalkOr_decompiles {branches : List TpmPolicyExpression} {list list' : TpmlDigest}
    {c d : Compilation} (ready : session.Ready crypto alg)
    (readyc : c.softwareSession.Ready crypto alg)
    (ok : compileWalkOr crypto context branches list c = .ok (list', d)) : ∃ commands opened,
      Emitted c d commands ∧ list'.items.length = list.items.length + opened.length ∧
        opened.map buildAndBranch = normalBranches crypto session context branches ∧
        OpensBranches commands opened := by
  cases branches with
  | nil =>
      cases ok
      exact ⟨[], [], .nil c, rfl, rfl, .nil⟩
  | cons branch branches =>
      obtain ⟨next, digest, e, pushed, restarted, walked, push, others⟩ :=
        compileWalkOr_cons_eq_ok.mp ok
      have started : next.Ready crypto alg := readyc.policyRestart restarted
      obtain ⟨commands, emitted, decompiles⟩ := compileWalk_decompiles ready started walked
      obtain ⟨commands', opened, emitted', count, normal, opens⟩ :=
        compileWalkOr_decompiles ready (compileWalk_ready started walked).1 others
      refine ⟨_, _ :: opened, ((Emitted.push c next _).trans emitted).trans emitted', ?_, ?_,
        .cons decompiles opens⟩
      · rw [count, (TpmList.tryPush_eq_ok.mp push).2]
        simp only [List.length_append, List.length_cons, List.length_nil]
        omega
      · rw [List.map_cons, normal, normalBranches]

end

theorem compileWalkBranches_singleton {expression : TpmPolicyExpression}
    (ok : expression.compileWalk crypto context c = .ok (g, d)) :
    compileWalkBranches crypto context [expression] c = .ok d :=
  bind_eq_ok.mpr ⟨(g, d), ok, rfl⟩

/-- A list of expressions compiles as the one that it is wrapped into. -/
theorem compileWalk_buildAndBranch {expressions : List TpmPolicyExpression}
    (readyc : c.softwareSession.Ready crypto alg)
    (ok : compileWalkBranches crypto context expressions c = .ok d) :
    (buildAndBranch expressions).compileWalk crypto context c =
      .ok (d.softwareSession.digest, d) := by
  unfold buildAndBranch
  split
  next expression =>
    obtain ⟨⟨digest, e⟩, walked, others⟩ := bind_eq_ok.mp ok
    cases others
    rw [walked, (compileWalk_ready readyc walked).2]
  next => exact bind_eq_ok.mpr ⟨d, ok, rfl⟩

mutual

/-- The conjuncts of an expression compile as it does. -/
theorem compileWalkBranches_conjuncts {expression : TpmPolicyExpression} {c d : Compilation}
    {g : Tpm2bDigest} (ready : session.Ready crypto alg)
    (readyc : c.softwareSession.Ready crypto alg)
    (ok : expression.compileWalk crypto context c = .ok (g, d)) :
    compileWalkBranches crypto context (expression.conjuncts crypto session context) c =
      .ok d := by
  cases expression with
  | pcr selections digest =>
      obtain ⟨pcrDigest, next, resolved, size, applied, rfl, rfl⟩ := compileWalkPcr_eq_ok.mp ok
      rw [resolvePcrDigest_same readyc ready] at resolved
      rw [conjuncts, resolved]
      refine compileWalkBranches_singleton (g := next.digest) ?_
      exact compileWalkPcr_eq_ok.mpr ⟨pcrDigest, next, rfl, size, applied, rfl, rfl⟩
  | secret authHandle copyRef =>
      refine compileWalkBranches_singleton (g := g) ?_
      rw [compileWalk, compileWalkSecret_eq_ok, getD_reference_filter]
      exact compileWalkSecret_eq_ok.mp ok
  | handle object => cases ok
  | and branches =>
      obtain ⟨e, walked, ok⟩ := bind_eq_ok.mp ok
      cases ok
      exact compileWalkBranches_conjunctsOfBranches ready readyc walked
  | or branches =>
      obtain ⟨⟨list, e⟩, walked, ok⟩ := bind_eq_ok.mp ok
      refine compileWalkBranches_singleton (g := g) (bind_eq_ok.mpr ⟨(list, e), ?_, ok⟩)
      exact compileWalkOr_normalBranches ready readyc walked

theorem compileWalkBranches_conjunctsOfBranches {branches : List TpmPolicyExpression}
    {c d : Compilation} (ready : session.Ready crypto alg)
    (readyc : c.softwareSession.Ready crypto alg)
    (ok : compileWalkBranches crypto context branches c = .ok d) :
    compileWalkBranches crypto context (conjunctsOfBranches crypto session context branches) c =
      .ok d := by
  cases branches with
  | nil => exact ok
  | cons branch branches =>
      obtain ⟨⟨digest, e⟩, walked, others⟩ := bind_eq_ok.mp ok
      rw [conjunctsOfBranches, compileWalkBranches_append,
        compileWalkBranches_conjuncts ready readyc walked]
      exact compileWalkBranches_conjunctsOfBranches ready (compileWalk_ready readyc walked).1 others

theorem compileWalkOr_normalBranches {branches : List TpmPolicyExpression}
    {list list' : TpmlDigest} {c d : Compilation} (ready : session.Ready crypto alg)
    (readyc : c.softwareSession.Ready crypto alg)
    (ok : compileWalkOr crypto context branches list c = .ok (list', d)) :
    compileWalkOr crypto context (normalBranches crypto session context branches) list c =
      .ok (list', d) := by
  cases branches with
  | nil => exact ok
  | cons branch branches =>
      obtain ⟨next, digest, e, pushed, restarted, walked, push, others⟩ :=
        compileWalkOr_cons_eq_ok.mp ok
      have started : next.Ready crypto alg := readyc.policyRestart restarted
      obtain ⟨readye, rfl⟩ := compileWalk_ready started walked
      refine compileWalkOr_cons_eq_ok.mpr ⟨next, _, e, pushed, restarted, ?_, push,
        compileWalkOr_normalBranches ready readye others⟩
      exact compileWalk_buildAndBranch started (compileWalkBranches_conjuncts ready started walked)

end

end

/-- Decompiling what a compilation emits gives the normal form of its expression, which compiles to
the same commands and the same digest. -/
theorem fromCommands_compile {crypto : Libcrypto} {sessionHashAlg : TpmAlgId}
    {context : TpmPolicyContext} {expression : TpmPolicyExpression} {policy : TpmCompiledPolicy}
    (ok : expression.compile crypto sessionHashAlg context = .ok policy) :
    ∃ session, TpmPolicySession.new crypto sessionHashAlg = .ok session ∧
      fromCommands (policy.commands.map Prod.fst) =
        .ok (expression.normalForm crypto session context) ∧
      (expression.normalForm crypto session context).compile crypto sessionHashAlg context =
        .ok policy := by
  obtain ⟨session, opened, rest⟩ := bind_eq_ok.mp ok
  obtain ⟨⟨digest, d⟩, walked, returned⟩ := bind_eq_ok.mp rest
  cases returned
  obtain ⟨alg, valid, -⟩ := bind_eq_ok.mp opened
  have ready := TpmPolicySession.new_ready (mapError_eq_ok.mp valid) opened
  obtain ⟨commands, emitted, decompiles⟩ := compileWalk_decompiles ready ready walked
  have compiled := compileWalk_buildAndBranch ready
    (compileWalkBranches_conjuncts ready ready walked)
  refine ⟨session, opened, ?_, bind_eq_ok.mpr ⟨session, opened, bind_eq_ok.mpr ⟨_, compiled, ?_⟩⟩⟩
  · have listed : d.commandList.map Prod.fst = commands := by
      rw [emitted]
      simp [Function.comp_def]
    rw [listed]
    exact bind_eq_ok.mpr ⟨_, decompiles [] [], rfl⟩
  · rw [← (compileWalk_ready ready walked).2]
    rfl

theorem fromCommands_compile_sample : ∃ policy session,
    compileSample (and [sampleOr, samplePcr 1]) = .ok policy ∧
      fromCommands (policy.commands.map Prod.fst) =
        .ok ((and [sampleOr, samplePcr 1]).normalForm sampleCrypto session sampleContext) ∧
      compileSample ((and [sampleOr, samplePcr 1]).normalForm sampleCrypto session sampleContext) =
        .ok policy := by
  obtain ⟨⟨policy, ok⟩, -⟩ := samples_hash 1 (by simp) (and [sampleOr, samplePcr 1]) (by simp)
  obtain ⟨session, -, decompiled, compiled⟩ := fromCommands_compile ok
  exact ⟨policy, session, ok, decompiled, compiled⟩

end TpmPolicyExpression
end Tpm2
