import Tpm2.PolicyLanguage.Replay

/-! The commands of a compiled policy, one by one, and what stays of a policy when the handles of
its objects change. -/

namespace Tpm2

open ByteCodec

/-- The object of a `PolicySecret` command. -/
def secretObject : TpmCommandValue → Option TpmHandle
  | .policySecret cmd => some (cmd.handles.get ⟨0, Nat.two_pos⟩)
  | _ => none

namespace TpmPolicyExpression

mutual

/-- The objects of the `Secret` leaves of an expression. -/
def secretObjects : TpmPolicyExpression → List TpmHandle
  | and branches => secretObjectsOfBranches branches
  | or branches => secretObjectsOfBranches branches
  | secret (handle object) _ => [object]
  | _ => []

def secretObjectsOfBranches : List TpmPolicyExpression → List TpmHandle
  | [] => []
  | branch :: branches => secretObjects branch ++ secretObjectsOfBranches branches

end

/-- A command as a compilation writes it. The handle of the session is left open. -/
inductive Compiled (context : TpmPolicyContext) : TpmCommandValue → Prop
  | pcr (pcrDigest : Tpm2bDigest) (pcrs : TpmlPcrSelection) :
      Compiled context (.policyPcr ⟨.one (.new 0), pcrDigest, pcrs, ()⟩)
  | secret {object : TpmHandle} {name : Tpm2bName} (policyRef : Tpm2bDigest)
      (named : resolveAuthName context object = .ok name) :
      Compiled context (.policySecret ⟨.two object (.new 0), .new, .new, policyRef, .new 0, ()⟩)
  | restart : Compiled context (.policyRestart ⟨.one (.new 0), ()⟩)
  | or (list : TpmlDigest) : Compiled context (.policyOr ⟨.one (.new 0), list, ()⟩)

/-- What the commands of an expression are: the objects of its `Secret` leaves in order, and one
list for each `Or`, with a digest for each branch. -/
structure Shape (context : TpmPolicyContext) (commands : List TpmCommandValue)
    (objects : List TpmHandle) (disjunctions : List (List TpmPolicyExpression)) : Prop where
  compiled : ∀ command ∈ commands, Compiled context command
  objects : commands.filterMap secretObject = objects
  counts : (commands.filterMap policyOrList).map (fun list => list.items.length) =
    disjunctions.map List.length

/-- Between two states of a compilation commands of this shape are emitted. -/
def Shaped (context : TpmPolicyContext) (c d : Compilation) (objects : List TpmHandle)
    (disjunctions : List (List TpmPolicyExpression)) : Prop :=
  ∃ commands, Emitted c d commands ∧ Shape context commands objects disjunctions

section
variable {crypto : Libcrypto} {context : TpmPolicyContext} {c d e : Compilation}
  {objects objects' : List TpmHandle} {disjunctions disjunctions' : List (List TpmPolicyExpression)}

theorem Shaped.refl (c : Compilation) : Shaped context c c [] [] :=
  ⟨[], .nil c, by simp, rfl, rfl⟩

theorem Shaped.push {command : TpmCommandValue} (next : TpmPolicySession)
    (compiled : Compiled context command)
    (objects_eq : [command].filterMap secretObject = objects)
    (counts : ([command].filterMap policyOrList).map (fun list => list.items.length) =
      disjunctions.map List.length) :
    Shaped context c { c.push command with softwareSession := next } objects disjunctions := by
  refine ⟨[command], .push c next command, ?_, objects_eq, counts⟩
  intro other mem
  exact List.mem_singleton.mp mem ▸ compiled

theorem Shaped.trans (first : Shaped context c d objects disjunctions)
    (second : Shaped context d e objects' disjunctions') :
    Shaped context c e (objects ++ objects') (disjunctions ++ disjunctions') := by
  obtain ⟨commands, emitted, shape⟩ := first
  obtain ⟨commands', emitted', shape'⟩ := second
  refine ⟨commands ++ commands', emitted.trans emitted', ?_, ?_, ?_⟩
  · exact List.forall_mem_append.mpr ⟨shape.compiled, shape'.compiled⟩
  · rw [List.filterMap_append, shape.objects, shape'.objects]
  · rw [List.filterMap_append, List.map_append, List.map_append, shape.counts, shape'.counts]

mutual

theorem compileWalk_shaped {expression : TpmPolicyExpression} {c d : Compilation} {g : Tpm2bDigest}
    (ok : expression.compileWalk crypto context c = .ok (g, d)) :
    Shaped context c d expression.secretObjects expression.disjunctions := by
  cases expression with
  | pcr selections digest =>
      obtain ⟨pcrDigest, next, -, -, -, -, rfl⟩ := compileWalkPcr_eq_ok.mp ok
      exact .push next (.pcr pcrDigest selections) rfl rfl
  | secret authHandle copyRef =>
      obtain ⟨object, name, next, rfl, named, -, -, rfl⟩ := compileWalkSecret_eq_ok.mp ok
      exact .push next (.secret _ named) rfl rfl
  | handle object => cases ok
  | and branches =>
      obtain ⟨e, walked, ok⟩ := bind_eq_ok.mp ok
      cases ok
      exact compileWalkBranches_shaped walked
  | or branches =>
      obtain ⟨⟨list, e⟩, walked, ok⟩ := bind_eq_ok.mp ok
      obtain ⟨next, -, ok⟩ := bind_eq_ok.mp ok
      cases ok
      obtain ⟨count, shaped⟩ := compileWalkOr_shaped walked
      have closed : Shaped context e _ [] [branches] :=
        .push next (.or list) rfl (congrArg (fun n => [n]) (count.trans (Nat.zero_add _)))
      have whole := shaped.trans closed
      rw [List.append_nil] at whole
      exact whole

theorem compileWalkBranches_shaped {branches : List TpmPolicyExpression} {c d : Compilation}
    (ok : compileWalkBranches crypto context branches c = .ok d) :
    Shaped context c d (secretObjectsOfBranches branches) (disjunctionsOfBranches branches) := by
  cases branches with
  | nil =>
      cases ok
      exact .refl c
  | cons branch branches =>
      obtain ⟨⟨digest, e⟩, walked, others⟩ := bind_eq_ok.mp ok
      exact (compileWalk_shaped walked).trans (compileWalkBranches_shaped others)

theorem compileWalkOr_shaped {branches : List TpmPolicyExpression} {list list' : TpmlDigest}
    {c d : Compilation}
    (ok : compileWalkOr crypto context branches list c = .ok (list', d)) :
    list'.items.length = list.items.length + branches.length ∧
      Shaped context c d (secretObjectsOfBranches branches) (disjunctionsOfBranches branches) := by
  cases branches with
  | nil =>
      cases ok
      exact ⟨rfl, .refl c⟩
  | cons branch branches =>
      obtain ⟨next, digest, e, pushed, -, walked, push, others⟩ := compileWalkOr_cons_eq_ok.mp ok
      obtain ⟨count, shaped⟩ := compileWalkOr_shaped others
      have restart : Shaped context c
          { c.push (.policyRestart ⟨.one (.new 0), ()⟩) with softwareSession := next } [] [] :=
        .push next .restart rfl rfl
      refine ⟨?_, (restart.trans (compileWalk_shaped walked)).trans shaped⟩
      rw [count, (TpmList.tryPush_eq_ok.mp push).2]
      simp only [List.length_append, List.length_cons, List.length_nil]
      omega

end

/-- The commands of a compiled policy. -/
theorem compile_shaped {sessionHashAlg : TpmAlgId} {expression : TpmPolicyExpression}
    {policy : TpmCompiledPolicy}
    (ok : expression.compile crypto sessionHashAlg context = .ok policy) : ∃ commands,
      policy.commands = commands.map (fun command => (command, .new)) ∧
      Shape context commands expression.secretObjects expression.disjunctions := by
  obtain ⟨session, opened, rest⟩ := bind_eq_ok.mp ok
  obtain ⟨⟨digest, d⟩, walked, returned⟩ := bind_eq_ok.mp rest
  cases returned
  exact compileWalk_shaped walked

end
end TpmPolicyExpression

namespace TpmReplay

variable {tpm tpm' : TpmReplay} {commands commands' : List TpmCommandValue}

/-- A replay that ends with a digest accepts each of its commands. -/
theorem step_of_foldlM {digest last : Bytes} {command : TpmCommandValue}
    (ran : commands.foldlM tpm.step digest = some last) (mem : command ∈ commands) :
    ∃ before behind, tpm.step before command = some behind := by
  induction commands generalizing digest with
  | nil => cases mem
  | cons first commands ih =>
      rw [List.foldlM_cons] at ran
      obtain ⟨next, stepped, rest⟩ := Option.bind_eq_some_iff.mp ran
      rcases List.mem_cons.mp mem with rfl | mem
      · exact ⟨digest, next, stepped⟩
      · exact ih rest mem

/-- Where a policy is replayed to its end, each of its disjunctions has a branch. -/
theorem branched_of_replay {context : TpmPolicyContext} {objects : List TpmHandle} {last : Bytes}
    {disjunctions : List (List TpmPolicyExpression)}
    (shape : TpmPolicyExpression.Shape context commands objects disjunctions)
    (ran : tpm.replay commands = some last) : ∀ branches ∈ disjunctions, branches ≠ [] := by
  rintro branches mem rfl
  have zero : 0 ∈ disjunctions.map List.length := List.mem_map.mpr ⟨[], mem, rfl⟩
  rw [← shape.counts] at zero
  obtain ⟨list, listed, empty⟩ := List.mem_map.mp zero
  obtain ⟨command, among, lists⟩ := List.mem_filterMap.mp listed
  obtain ⟨before, behind, stepped⟩ := step_of_foldlM ran among
  cases shape.compiled command among with
  | or list' =>
      cases lists
      have none : list'.items = [] := List.length_eq_zero_iff.mp empty
      simp [step, none] at stepped
  | _ => cases lists

/-- The same command, but for the handle of the object of a `PolicySecret`: it may be another one of
an object with the same name. -/
inductive Rehandled (tpm tpm' : TpmReplay) : TpmCommandValue → TpmCommandValue → Prop
  | same {command : TpmCommandValue} (other : secretObject command = none) :
      Rehandled tpm tpm' command command
  | secret {object object' session : TpmHandle} {parameters : TpmPolicySecretCommand.Parameters}
      (named : tpm'.name object' = tpm.name object) :
      Rehandled tpm tpm' (.policySecret ⟨.two object session, parameters⟩)
        (.policySecret ⟨.two object' session, parameters⟩)

/-- Objects of commands that correspond have the same name. -/
theorem Rehandled.name_eq {command command' : TpmCommandValue}
    (same : Rehandled tpm tpm' command command') {object : TpmHandle}
    (needs : secretObject command = some object) :
    ∃ object', secretObject command' = some object' ∧ tpm'.name object' = tpm.name object := by
  cases same with
  | same other => cases other.symm.trans needs
  | secret named =>
      cases needs
      exact ⟨_, rfl, named⟩

theorem step_rehandled {command command' : TpmCommandValue} (hash : tpm'.hash = tpm.hash)
    (size : tpm'.size = tpm.size) (same : Rehandled tpm tpm' command command') (digest : Bytes) :
    tpm'.step digest command' = tpm.step digest command := by
  have zero : tpm'.zero = tpm.zero := congrArg (fun n => List.replicate n (0 : UInt8)) size
  cases same with
  | same other =>
      cases command with
      | policySecret cmd => cases other
      | _ => simp only [step, hash, zero]
  | secret named =>
      simp only [step, hash, TpmHandles.get_two, named]

/-- With its objects under other handles, a policy reaches the same digest. -/
theorem replay_rehandled (hash : tpm'.hash = tpm.hash) (size : tpm'.size = tpm.size)
    (same : List.Forall₂ (Rehandled tpm tpm') commands commands') :
    tpm'.replay commands' = tpm.replay commands := by
  have zero : tpm'.zero = tpm.zero := congrArg (fun n => List.replicate n (0 : UInt8)) size
  have fold (digest : Bytes) :
      commands'.foldlM tpm'.step digest = commands.foldlM tpm.step digest := by
    induction same generalizing digest with
    | nil => rfl
    | cons first _ ih =>
        rw [List.foldlM_cons, List.foldlM_cons, step_rehandled hash size first]
        exact bind_congr ih
  rw [replay, replay, zero]
  exact fold tpm.zero

end TpmReplay
end Tpm2
