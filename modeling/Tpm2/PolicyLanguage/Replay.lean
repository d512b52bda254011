import Tpm2.PolicyLanguage.Decompile

/-! Replaying a compiled policy: the policy session of a TPM reaches the compiled digest. -/

namespace Tpm2

open ByteCodec

/-- What a policy session of a TPM computes with: its hash algorithm, the size of a digest of it,
and the names of the TPM's objects. -/
structure TpmReplay where
  hash : Bytes → Option Bytes
  size : Nat
  name : TpmHandle → Option Bytes

namespace TpmReplay

/-- The digest that a session starts from. -/
def zero (tpm : TpmReplay) : Bytes := List.replicate tpm.size 0

/-- The digest of a session after one more command, or none when the TPM rejects it. -/
def step (tpm : TpmReplay) (digest : Bytes) : TpmCommandValue → Option Bytes
  | .policyPcr cmd => do
      let (pcrDigest, pcrs, ()) := cmd.parameters
      let pcrsBytes ← (encode pcrs).toOption
      tpm.hash (digest ++ ccBytes .policyPcr ++ pcrsBytes ++ pcrDigest.bytes)
  | .policySecret cmd => do
      let (_, _, policyRef, _, ()) := cmd.parameters
      let name ← tpm.name (cmd.handles.get ⟨0, Nat.two_pos⟩)
      let first ← tpm.hash (digest ++ ccBytes .policySecret ++ name)
      tpm.hash (first ++ policyRef.bytes)
  | .policyRestart _ => some tpm.zero
  | .policyOr cmd =>
      let (pHashList, ()) := cmd.parameters
      if (pHashList.items.map TpmBuffer.bytes).contains digest then
        tpm.hash (tpm.zero ++ ccBytes .policyOr ++ pHashList.items.flatMap TpmBuffer.bytes)
      else
        none
  | _ => none

/-- The digest of a fresh session after all of `commands`. -/
def replay (tpm : TpmReplay) (commands : List TpmCommandValue) : Option Bytes :=
  commands.foldlM tpm.step tpm.zero

/-- The TPM that holds the objects of a context. A permanent handle is its own name. -/
def of (crypto : Libcrypto) (alg : TpmHash) (context : TpmPolicyContext) : TpmReplay where
  hash data := (crypto.hash alg data).toOption
  size := crypto.size alg
  name handle :=
    if (handle.value >>> 24).toUInt8 = 0x40 then
      some (TpmIntBytes.toBeBytes handle.value)
    else
      (context.names.lookup handle).map TpmBuffer.bytes

theorem zero_of (crypto : Libcrypto) (alg : TpmHash) (context : TpmPolicyContext) :
    (of crypto alg context).zero = List.replicate (crypto.size alg) 0 := rfl

theorem step_hash {crypto : Libcrypto} {alg : TpmHash} (context : TpmPolicyContext)
    {session : TpmPolicySession} {chunks : List Bytes} {digest : Tpm2bDigest}
    (ready : session.Ready crypto alg) (ok : session.hashChunks crypto chunks = .ok digest) :
    (of crypto alg context).hash chunks.flatten = some digest.bytes := by
  have hashed := TpmPolicySession.hashChunks_eq_ok.mp ok
  rw [ready.hashAlg] at hashed
  show (crypto.hash alg chunks.flatten).toOption = some digest.bytes
  rw [hashed]
  rfl

/-- The name that a compilation resolves is the one that the TPM knows. -/
theorem name_of_resolveAuthName {crypto : Libcrypto} {alg : TpmHash} {context : TpmPolicyContext}
    {object : TpmHandle} {name : Tpm2bName} (ok : resolveAuthName context object = .ok name) :
    (of crypto alg context).name object = some name.bytes := by
  obtain ⟨ht, typed, ok⟩ := bind_eq_ok.mp ok
  have type := TpmEnum.tryFrom_eq_ok.mp (mapError_eq_ok.mp typed)
  have listed (other : ht ≠ .permanent) (known : context.names.lookup object = some name) :
      (of crypto alg context).name object = some name.bytes := by
    have notPermanent : (object.value >>> 24).toUInt8 ≠ 0x40 := by
      intro permanent
      rw [type] at permanent
      exact other (TpmEnum.value_injective permanent)
    simp only [of, if_neg notPermanent, known, Option.map_some]
  cases ht with
  | persistent | transient =>
      apply listed (by decide)
      dsimp only at ok
      split at ok
      next found known =>
        cases ok
        exact known
      next => cases ok
  | permanent =>
      obtain ⟨rh, known, ok⟩ := bind_eq_ok.mp ok
      have value := TpmEnum.tryFrom_eq_ok.mp (mapError_eq_ok.mp known)
      have named : (of crypto alg context).name object =
          some (TpmIntBytes.toBeBytes (TpmEnum.value rh)) := by
        rw [← value]
        exact if_pos type
      rw [named]
      cases rh with
      | owner | endorsement | platform | lockout =>
          exact congrArg some (TpmBuffer.tryFrom_eq_ok.mp (mapError_eq_ok.mp ok)).2.2.symm
      | _ => cases ok
  | _ => cases ok

section
variable {crypto : Libcrypto} {alg : TpmHash} {context : TpmPolicyContext}
  {session next : TpmPolicySession}

theorem step_policyPcr {cmd : TpmBody TpmPolicyPcrCommand} (ready : session.Ready crypto alg)
    (ok : session.policyPcr crypto cmd = .ok next) :
    (of crypto alg context).step session.digest.bytes (.policyPcr cmd) =
      some next.digest.bytes := by
  obtain ⟨pcrsBytes, digest, encoded, hashed, rfl⟩ := TpmPolicySession.policyPcr_eq_ok.mp ok
  have extended := step_hash context ready hashed
  show ((encode cmd.parameters.2.1).toOption >>= fun pcrsBytes =>
    (of crypto alg context).hash _) = _
  rw [encoded]
  simpa [List.append_assoc, Except.toOption] using extended

theorem step_policySecret {cmd : TpmBody TpmPolicySecretCommand} {name : Tpm2bName}
    (ready : session.Ready crypto alg)
    (named : (of crypto alg context).name (cmd.handles.get 0) = some name.bytes)
    (ok : session.policySecret crypto name cmd.parameters.2.2.1 = .ok next) :
    (of crypto alg context).step session.digest.bytes (.policySecret cmd) =
      some next.digest.bytes := by
  obtain ⟨first, digest, hashedFirst, hashed, rfl⟩ := TpmPolicySession.policySecret_eq_ok.mp ok
  have extendedFirst := step_hash context ready hashedFirst
  have extended := step_hash context ready hashed
  simp only [List.flatten_cons, List.flatten_nil, List.append_nil] at extendedFirst extended
  have known : (of crypto alg context).name (cmd.handles.get ⟨0, Nat.two_pos⟩) =
    some name.bytes := named
  simp only [step, known, List.append_assoc, Option.bind_eq_bind, Option.bind_some, extendedFirst,
    extended]

theorem step_policyRestart {cmd : TpmBody TpmPolicyRestartCommand} (digest : Bytes)
    (ready : session.Ready crypto alg) (ok : session.policyRestart = .ok next) :
    (of crypto alg context).step digest (.policyRestart cmd) = some next.digest.bytes := by
  obtain ⟨zero, zeroed, ok⟩ := bind_eq_ok.mp ok
  cases ok
  rw [step, zero_of, TpmPolicySession.zeroDigest_eq_ok zeroed, ready.digestSize]

/-- A disjunction is accepted after any of its branches. -/
theorem step_policyOr {cmd : TpmBody TpmPolicyOrCommand} (ready : session.Ready crypto alg)
    (listed : session.digest ∈ cmd.parameters.1.items)
    (ok : session.policyOr crypto cmd = .ok next) :
    (of crypto alg context).step session.digest.bytes (.policyOr cmd) =
      some next.digest.bytes := by
  obtain ⟨zero, digest, zeroed, hashed, rfl⟩ := TpmPolicySession.policyOr_eq_ok.mp ok
  have extended := step_hash context ready hashed
  rw [TpmPolicySession.zeroDigest_eq_ok zeroed, ready.digestSize] at extended
  have accepted : (cmd.parameters.1.items.map TpmBuffer.bytes).contains session.digest.bytes :=
    List.contains_iff_mem.mpr (List.mem_map_of_mem listed)
  simp only [step, if_pos accepted, zero_of]
  simpa [List.append_assoc] using extended

end
end TpmReplay

namespace TpmPolicyExpression

mutual

/-- The branches of each `Or` of an expression, inner ones first. -/
def disjunctions : TpmPolicyExpression → List (List TpmPolicyExpression)
  | and branches => disjunctionsOfBranches branches
  | or branches => disjunctionsOfBranches branches ++ [branches]
  | secret authHandle _ => disjunctions authHandle
  | _ => []

def disjunctionsOfBranches : List TpmPolicyExpression → List (List TpmPolicyExpression)
  | [] => []
  | branch :: branches => disjunctions branch ++ disjunctionsOfBranches branches

end

/-- The list of a `PolicyOR` command. -/
def policyOrList : TpmCommandValue → Option TpmlDigest
  | .policyOr cmd => some cmd.parameters.1
  | _ => none

section
variable (crypto : Libcrypto) (sessionHashAlg : TpmAlgId) (context : TpmPolicyContext)

/-- The digests of `branches`, each compiled on its own. -/
def BranchDigests (digests : List Tpm2bDigest) (branches : List TpmPolicyExpression) : Prop :=
  List.Forall₂ (fun digest branch => ∃ policy,
    branch.compile crypto sessionHashAlg context = .ok policy ∧ policy.digest = digest)
    digests branches

/-- The `PolicyOR` commands among `commands` list the digests of `disjunctions`. -/
def ListsBranches (commands : List TpmCommandValue)
    (disjunctions : List (List TpmPolicyExpression)) : Prop :=
  List.Forall₂ (fun list branches => BranchDigests crypto sessionHashAlg context
    (TpmList.items list) branches) (commands.filterMap policyOrList) disjunctions

/-- Between two states of a compilation a TPM's session follows the software session, and its
disjunctions list the digests of their branches. -/
def Replays (alg : TpmHash) (c d : Compilation) (disjunctions : List (List TpmPolicyExpression)) :
    Prop :=
  ∃ commands, Emitted c d commands ∧
    commands.foldlM (TpmReplay.of crypto alg context).step c.softwareSession.digest.bytes =
      some d.softwareSession.digest.bytes ∧
    ListsBranches crypto sessionHashAlg context commands disjunctions

end

section
variable {crypto : Libcrypto} {sessionHashAlg : TpmAlgId} {context : TpmPolicyContext}
  {alg : TpmHash} {session : TpmPolicySession} {c d e : Compilation}

theorem Replays.refl (c : Compilation) : Replays crypto sessionHashAlg context alg c c [] :=
  ⟨[], .nil c, rfl, .nil⟩

theorem Replays.push {command : TpmCommandValue} {next : TpmPolicySession}
    {disjunctions : List (List TpmPolicyExpression)}
    (step : (TpmReplay.of crypto alg context).step c.softwareSession.digest.bytes command =
      some next.digest.bytes)
    (lists : ListsBranches crypto sessionHashAlg context [command] disjunctions) :
    Replays crypto sessionHashAlg context alg c { c.push command with softwareSession := next }
      disjunctions := by
  refine ⟨[command], .push c next command, ?_, lists⟩
  rw [List.foldlM_cons, step]
  rfl

theorem Replays.trans {disjunctions disjunctions' : List (List TpmPolicyExpression)}
    (first : Replays crypto sessionHashAlg context alg c d disjunctions)
    (second : Replays crypto sessionHashAlg context alg d e disjunctions') :
    Replays crypto sessionHashAlg context alg c e (disjunctions ++ disjunctions') := by
  obtain ⟨commands, emitted, replayed, lists⟩ := first
  obtain ⟨commands', emitted', replayed', lists'⟩ := second
  refine ⟨commands ++ commands', emitted.trans emitted', ?_, ?_⟩
  · rw [List.foldlM_append, replayed]
    exact replayed'
  · rw [ListsBranches, List.filterMap_append]
    exact List.rel_append lists lists'

/-- A walk from a fresh session is a compilation. -/
theorem compile_of_compileWalk {expression : TpmPolicyExpression} {g : Tpm2bDigest}
    (opened : TpmPolicySession.new crypto sessionHashAlg = .ok c.softwareSession)
    (ok : expression.compileWalk crypto context c = .ok (g, d)) : ∃ policy,
      expression.compile crypto sessionHashAlg context = .ok policy ∧ policy.digest = g := by
  rw [eq_behind c, compileWalk_behind] at ok
  obtain ⟨e, walked, -⟩ := of_compiledBehind_eq_ok _ ok
  refine ⟨⟨e.commandList, g⟩, bind_eq_ok.mpr ⟨c.softwareSession, opened, ?_⟩, rfl⟩
  exact bind_eq_ok.mpr ⟨(g, e), walked, rfl⟩

/-- A restarted session is a fresh one. -/
theorem policyRestart_eq_new {next : TpmPolicySession}
    (valid : TpmHash.tryFrom sessionHashAlg = .ok alg) (ready : session.Ready crypto alg)
    (ok : session.policyRestart = .ok next) :
    TpmPolicySession.new crypto sessionHashAlg = .ok next := by
  obtain ⟨zero, zeroed, ok⟩ := bind_eq_ok.mp ok
  cases ok
  rw [ready.digestSize] at zeroed
  refine bind_eq_ok.mpr ⟨alg, mapError_eq_ok.mpr valid, bind_eq_ok.mpr ⟨zero, zeroed, ?_⟩⟩
  rw [ready.hashAlg, ready.digestSize]
  rfl

mutual

/-- A TPM follows a compilation: its session has the digest of the software session behind every
subtree, and no command of it is rejected. -/
theorem compileWalk_replays {expression : TpmPolicyExpression} {c d : Compilation}
    {g : Tpm2bDigest} (valid : TpmHash.tryFrom sessionHashAlg = .ok alg)
    (branched : ∀ branches ∈ expression.disjunctions, branches ≠ [])
    (ready : c.softwareSession.Ready crypto alg)
    (ok : expression.compileWalk crypto context c = .ok (g, d)) :
    Replays crypto sessionHashAlg context alg c d expression.disjunctions := by
  cases expression with
  | pcr selections digest =>
      obtain ⟨pcrDigest, next, -, -, applied, -, rfl⟩ := compileWalkPcr_eq_ok.mp ok
      exact .push (TpmReplay.step_policyPcr ready applied) .nil
  | secret authHandle copyRef =>
      obtain ⟨object, name, next, rfl, named, applied, -, rfl⟩ := compileWalkSecret_eq_ok.mp ok
      refine .push ?_ .nil
      exact TpmReplay.step_policySecret ready (TpmReplay.name_of_resolveAuthName named) applied
  | handle object => cases ok
  | and branches =>
      obtain ⟨e, walked, ok⟩ := bind_eq_ok.mp ok
      cases ok
      exact compileWalkBranches_replays valid branched ready walked
  | or branches =>
      obtain ⟨⟨list, e⟩, walked, ok⟩ := bind_eq_ok.mp ok
      obtain ⟨next, applied, ok⟩ := bind_eq_ok.mp ok
      cases ok
      rw [disjunctions, List.forall_mem_append] at branched
      obtain ⟨digests, items, replays, last, lists⟩ :=
        compileWalkOr_replays valid branched.1 ready walked
      have listed : e.softwareSession.digest ∈ list.items := by
        rw [items]
        exact List.mem_append_right _ (last (branched.2 branches (by simp)))
      refine replays.trans (.push (TpmReplay.step_policyOr (compileWalkOr_ready ready walked)
        listed applied) (.cons ?_ .nil))
      show BranchDigests crypto sessionHashAlg context list.items branches
      rw [items]
      exact lists

theorem compileWalkBranches_replays {branches : List TpmPolicyExpression} {c d : Compilation}
    (valid : TpmHash.tryFrom sessionHashAlg = .ok alg)
    (branched : ∀ inner ∈ disjunctionsOfBranches branches, inner ≠ [])
    (ready : c.softwareSession.Ready crypto alg)
    (ok : compileWalkBranches crypto context branches c = .ok d) :
    Replays crypto sessionHashAlg context alg c d (disjunctionsOfBranches branches) := by
  cases branches with
  | nil =>
      cases ok
      exact .refl c
  | cons branch branches =>
      obtain ⟨⟨digest, e⟩, walked, others⟩ := bind_eq_ok.mp ok
      rw [disjunctionsOfBranches, List.forall_mem_append] at branched
      exact (compileWalk_replays valid branched.1 ready walked).trans
        (compileWalkBranches_replays valid branched.2 (compileWalk_ready ready walked).1 others)

theorem compileWalkOr_replays {branches : List TpmPolicyExpression} {list list' : TpmlDigest}
    {c d : Compilation} (valid : TpmHash.tryFrom sessionHashAlg = .ok alg)
    (branched : ∀ inner ∈ disjunctionsOfBranches branches, inner ≠ [])
    (ready : c.softwareSession.Ready crypto alg)
    (ok : compileWalkOr crypto context branches list c = .ok (list', d)) :
    ∃ digests, list'.items = list.items ++ digests ∧
      Replays crypto sessionHashAlg context alg c d (disjunctionsOfBranches branches) ∧
      (branches ≠ [] → d.softwareSession.digest ∈ digests) ∧
      BranchDigests crypto sessionHashAlg context digests branches := by
  cases branches with
  | nil =>
      cases ok
      exact ⟨[], (List.append_nil _).symm, .refl c, fun nonempty => (nonempty rfl).elim, .nil⟩
  | cons branch branches =>
      obtain ⟨next, digest, e, pushed, restarted, walked, push, others⟩ :=
        compileWalkOr_cons_eq_ok.mp ok
      rw [disjunctionsOfBranches, List.forall_mem_append] at branched
      have started : next.Ready crypto alg := ready.policyRestart restarted
      obtain ⟨readye, digested⟩ := compileWalk_ready started walked
      have restart : Replays crypto sessionHashAlg context alg c
          { c.push (.policyRestart ⟨.one (.new 0), ()⟩) with softwareSession := next } [] :=
        .push (TpmReplay.step_policyRestart _ ready restarted) .nil
      have first := compileWalk_replays valid branched.1 started walked
      obtain ⟨digests, items, replays, last, lists⟩ :=
        compileWalkOr_replays valid branched.2 readye others
      refine ⟨digest :: digests, ?_, (restart.trans first).trans replays, fun _ => ?_,
        .cons ?_ lists⟩
      · rw [items, (TpmList.tryPush_eq_ok.mp push).2, List.append_assoc]
        rfl
      · -- the session stands at the digest of the last branch
        cases branches with
        | nil =>
            cases others
            rw [digested]
            exact List.mem_cons_self
        | cons => exact List.mem_cons_of_mem _ (last (List.cons_ne_nil _ _))
      · exact compile_of_compileWalk (policyRestart_eq_new valid ready restarted) walked

end

end

theorem map_fst_of_emitted {list : List (TpmCommandValue × TpmAuthCommands)}
    {commands : List TpmCommandValue}
    (emitted : list = commands.map fun command => (command, .new)) :
    list.map Prod.fst = commands := by
  rw [emitted]
  simp [Function.comp_def]

/-- A TPM follows a whole compilation, from a fresh session to the policy digest. -/
theorem compile_replays {crypto : Libcrypto} {sessionHashAlg : TpmAlgId} {alg : TpmHash}
    {context : TpmPolicyContext} {expression : TpmPolicyExpression} {policy : TpmCompiledPolicy}
    (valid : TpmHash.tryFrom sessionHashAlg = .ok alg)
    (branched : ∀ branches ∈ expression.disjunctions, branches ≠ [])
    (ok : expression.compile crypto sessionHashAlg context = .ok policy) : ∃ commands,
      policy.commands = commands.map (fun command => (command, .new)) ∧
      (TpmReplay.of crypto alg context).replay commands = some policy.digest.bytes ∧
      ListsBranches crypto sessionHashAlg context commands expression.disjunctions := by
  obtain ⟨session, opened, rest⟩ := bind_eq_ok.mp ok
  obtain ⟨⟨digest, d⟩, walked, returned⟩ := bind_eq_ok.mp rest
  cases returned
  have ready := TpmPolicySession.new_ready valid opened
  have fresh : session.digest.bytes = (TpmReplay.of crypto alg context).zero := by
    obtain ⟨hashAlg, -, rest⟩ := bind_eq_ok.mp opened
    obtain ⟨zero, zeroed, created⟩ := bind_eq_ok.mp rest
    cases created
    rw [TpmReplay.zero_of, TpmPolicySession.zeroDigest_eq_ok zeroed, ← ready.digestSize]
  have replays : Replays crypto sessionHashAlg context alg ⟨[], session⟩ d
    expression.disjunctions :=
    compileWalk_replays valid branched ready walked
  obtain ⟨commands, emitted, replayed, lists⟩ := replays
  refine ⟨commands, emitted, ?_, lists⟩
  rw [(compileWalk_ready (c := ⟨[], session⟩) ready walked).2, TpmReplay.replay, ← fresh]
  exact replayed

/-- Replayed from a fresh session, the commands of a compiled policy are all accepted and reach the
policy digest, and each `PolicyOR` lists the digests of its branches in order. -/
theorem replay_compile {crypto : Libcrypto} {sessionHashAlg : TpmAlgId} {alg : TpmHash}
    {context : TpmPolicyContext} {expression : TpmPolicyExpression} {policy : TpmCompiledPolicy}
    (valid : TpmHash.tryFrom sessionHashAlg = .ok alg)
    (branched : ∀ branches ∈ expression.disjunctions, branches ≠ [])
    (ok : expression.compile crypto sessionHashAlg context = .ok policy) :
    (TpmReplay.of crypto alg context).replay (policy.commands.map Prod.fst) =
      some policy.digest.bytes ∧
    ListsBranches crypto sessionHashAlg context (policy.commands.map Prod.fst)
      expression.disjunctions := by
  obtain ⟨commands, emitted, replayed, lists⟩ := compile_replays valid branched ok
  rw [map_fst_of_emitted emitted]
  exact ⟨replayed, lists⟩

theorem replay_compile_sample : ∃ policy,
    compileSample (and [sampleOr, samplePcr 1]) = .ok policy ∧
      (TpmReplay.of sampleCrypto .sha256 sampleContext).replay (policy.commands.map Prod.fst) =
        some policy.digest.bytes ∧
      ListsBranches sampleCrypto .sha256 sampleContext (policy.commands.map Prod.fst)
        (and [sampleOr, samplePcr 1]).disjunctions := by
  obtain ⟨⟨policy, ok⟩, -⟩ := samples_hash 1 (by simp) (and [sampleOr, samplePcr 1]) (by simp)
  have branched : ∀ branches ∈ (and [sampleOr, samplePcr 1]).disjunctions, branches ≠ [] := by
    simp [disjunctions, disjunctionsOfBranches, sampleOr, samplePcr]
  exact ⟨policy, ok, replay_compile rfl branched ok⟩

end TpmPolicyExpression
end Tpm2
