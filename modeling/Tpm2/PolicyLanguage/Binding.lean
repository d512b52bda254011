import Tpm2.PolicyLanguage.Expression

/-! What a policy digest binds: how a change of one leaf travels through a compilation. -/

namespace Tpm2

open ByteCodec

namespace TpmPolicyExpression

mutual

/-- Compiling the expression starts the session over: an `Or` does, and so does an `And` with such a
branch. -/
def restarts : TpmPolicyExpression → Bool
  | or _ => true
  | and branches => anyRestarts branches
  | _ => false

def anyRestarts : List TpmPolicyExpression → Bool
  | [] => false
  | branch :: branches => branch.restarts || anyRestarts branches

end

/-- A tree with one subtree left open. -/
inductive Hole
  | here
  | secret (authHandle : Hole) (copyRef : Option Tpm2bDigest)
  | and (before : List TpmPolicyExpression) (branch : Hole) (after : List TpmPolicyExpression)
  | or (before : List TpmPolicyExpression) (branch : Hole) (after : List TpmPolicyExpression)

namespace Hole

/-- The tree with `expression` where it was left open. -/
def plug (expression : TpmPolicyExpression) : Hole → TpmPolicyExpression
  | here => expression
  | secret authHandle copyRef => .secret (authHandle.plug expression) copyRef
  | and before branch after => .and (before ++ branch.plug expression :: after)
  | or before branch after => .or (before ++ branch.plug expression :: after)

/-- A later branch of an `And` around the hole starts the session over. -/
def shadowed : Hole → Bool
  | here => false
  | secret authHandle _ => authHandle.shadowed
  | and _ branch after => branch.shadowed || anyRestarts after
  | or _ branch _ => branch.shadowed

end Hole
end TpmPolicyExpression

/-- The same compilation with `commands` ahead of its own. -/
def Compilation.behind (commands : List (TpmCommandValue × TpmAuthCommands)) (c : Compilation) :
    Compilation :=
  { c with commandList := commands ++ c.commandList }

@[simp] theorem Compilation.push_behind (commands : List (TpmCommandValue × TpmAuthCommands))
    (c : Compilation) (cmd : TpmCommandValue) :
    (c.behind commands).push cmd = (c.push cmd).behind commands := by
  simp [behind, push, List.append_assoc]

/-- A result behind `commands`. -/
def compiledBehind {α : Type} (commands : List (TpmCommandValue × TpmAuthCommands))
    (result : Except TpmPolicyError (α × Compilation)) : Except TpmPolicyError (α × Compilation) :=
  result.map fun (value, c) => (value, c.behind commands)

@[simp] theorem Compilation.session_behind (commands : List (TpmCommandValue × TpmAuthCommands))
    (c : Compilation) : (c.behind commands).softwareSession = c.softwareSession := rfl

namespace TpmPolicyExpression

section
variable {crypto : Libcrypto} {context : TpmPolicyContext}
  (commands : List (TpmCommandValue × TpmAuthCommands))

theorem compiledBehind_bind {α β : Type} (x : Except TpmPolicyError (α × Compilation))
    (f : α × Compilation → Except TpmPolicyError (β × Compilation))
    (g : α × Compilation → Except TpmPolicyError (β × Compilation))
    (commute : ∀ a c, g (a, c.behind commands) = compiledBehind commands (f (a, c))) :
    (compiledBehind commands x >>= g) = compiledBehind commands (x >>= f) := by
  cases x with
  | error e => rfl
  | ok result => exact commute result.1 result.2

theorem compileWalkPcr_behind (selections : TpmlPcrSelection) (digest : Option Tpm2bDigest)
    (c : Compilation) :
    compileWalkPcr crypto context selections digest (c.behind commands) =
      compiledBehind commands (compileWalkPcr crypto context selections digest c) := by
  unfold compileWalkPcr
  rw [Compilation.session_behind]
  cases resolvePcrDigest crypto c.softwareSession context selections digest with
  | error e => rfl
  | ok pcrDigest =>
      dsimp only [bind, Except.bind]
      split
      · rfl
      · rw [Compilation.push_behind]
        dsimp only [pure, Except.pure]
        cases c.softwareSession.policyPcr crypto _ <;> rfl

theorem compileWalkSecret_behind (authHandle : TpmPolicyExpression) (copyRef : Option Tpm2bDigest)
    (c : Compilation) :
    compileWalkSecret crypto context authHandle copyRef (c.behind commands) =
      compiledBehind commands (compileWalkSecret crypto context authHandle copyRef c) := by
  unfold compileWalkSecret
  rw [Compilation.session_behind]
  cases authHandle with
  | handle object =>
      dsimp only
      cases resolveAuthName context object with
      | error e => rfl
      | ok name =>
          rw [Compilation.push_behind]
          dsimp only [bind, Except.bind]
          cases c.softwareSession.policySecret crypto name _ <;> rfl
  | _ => rfl

mutual

/-- Compiling does not look at the commands that came before. -/
theorem compileWalk_behind (expression : TpmPolicyExpression) (c : Compilation) :
    expression.compileWalk crypto context (c.behind commands) =
      compiledBehind commands (expression.compileWalk crypto context c) := by
  cases expression with
  | pcr selections digest => exact compileWalkPcr_behind commands selections digest c
  | secret authHandle copyRef => exact compileWalkSecret_behind commands authHandle copyRef c
  | handle object => rfl
  | and branches =>
      simp only [compileWalk, compileWalkBranches_behind]
      cases compileWalkBranches crypto context branches c <;> rfl
  | or branches =>
      simp only [compileWalk, compileWalkOr_behind]
      refine compiledBehind_bind commands _ _ _ fun digestList c => ?_
      dsimp only
      rw [Compilation.session_behind, Compilation.push_behind]
      cases c.softwareSession.policyOr crypto _ <;> rfl

theorem compileWalkBranches_behind (branches : List TpmPolicyExpression) (c : Compilation) :
    compileWalkBranches crypto context branches (c.behind commands) =
      (compileWalkBranches crypto context branches c).map (.behind commands) := by
  cases branches with
  | nil => rfl
  | cons branch branches =>
      simp only [compileWalkBranches, compileWalk_behind]
      cases branch.compileWalk crypto context c with
      | error e => rfl
      | ok result => exact compileWalkBranches_behind branches result.2

theorem compileWalkOr_behind (branches : List TpmPolicyExpression) (digestList : TpmlDigest)
    (c : Compilation) :
    compileWalkOr crypto context branches digestList (c.behind commands) =
      compiledBehind commands (compileWalkOr crypto context branches digestList c) := by
  cases branches with
  | nil => rfl
  | cons branch branches =>
      simp only [compileWalkOr, Compilation.session_behind, Compilation.push_behind]
      cases c.softwareSession.policyRestart with
      | error e => rfl
      | ok session =>
          dsimp only [bind, Except.bind]
          have first := compileWalk_behind branch
            { c.push (.policyRestart ⟨.one (.new 0), ()⟩) with softwareSession := session }
          rw [Compilation.behind] at first
          dsimp only at first
          rw [Compilation.behind, first]
          cases branch.compileWalk crypto context _ with
          | error e => rfl
          | ok result =>
              dsimp only [compiledBehind, Except.map]
              cases digestList.tryPush result.1 with
              | error e => rfl
              | ok digestList => exact compileWalkOr_behind branches digestList result.2

end

theorem of_compiledBehind_eq_ok {α : Type} {x : Except TpmPolicyError (α × Compilation)} {value : α}
    {d : Compilation} (ok : compiledBehind commands x = .ok (value, d)) :
    ∃ d', x = .ok (value, d') ∧ d = d'.behind commands := by
  cases x with
  | error e => cases ok
  | ok result =>
      cases ok
      exact ⟨result.2, rfl, rfl⟩

end

theorem eq_behind (c : Compilation) : c = Compilation.behind c.commandList
    ⟨[], c.softwareSession⟩ := by
  simp [Compilation.behind]

section
variable {crypto : Libcrypto} {context : TpmPolicyContext} {c c' d d' : Compilation}
  {g g' : Tpm2bDigest}

/-- From equal sessions a compilation reaches equal sessions. -/
theorem compileWalk_same {expression : TpmPolicyExpression}
    (same : c.softwareSession = c'.softwareSession)
    (ok : expression.compileWalk crypto context c = .ok (g, d))
    (ok' : expression.compileWalk crypto context c' = .ok (g', d')) :
    g = g' ∧ d.softwareSession = d'.softwareSession := by
  rw [eq_behind c, compileWalk_behind] at ok
  rw [eq_behind c', compileWalk_behind, ← same] at ok'
  obtain ⟨e, first, rfl⟩ := of_compiledBehind_eq_ok _ ok
  obtain ⟨e', second, rfl⟩ := of_compiledBehind_eq_ok _ ok'
  rw [first] at second
  cases second
  exact ⟨rfl, rfl⟩

theorem compileWalkBranches_same {branches : List TpmPolicyExpression}
    (same : c.softwareSession = c'.softwareSession)
    (ok : compileWalkBranches crypto context branches c = .ok d)
    (ok' : compileWalkBranches crypto context branches c' = .ok d') :
    d.softwareSession = d'.softwareSession := by
  have walk : (and branches).compileWalk crypto context c = .ok (d.softwareSession.digest, d) :=
    bind_eq_ok.mpr ⟨d, ok, rfl⟩
  have walk' : (and branches).compileWalk crypto context c' = .ok (d'.softwareSession.digest, d') :=
    bind_eq_ok.mpr ⟨d', ok', rfl⟩
  exact (compileWalk_same same walk walk').2

end

section
variable {crypto : Libcrypto} {alg : TpmHash} {context : TpmPolicyContext} {c d : Compilation}
  {g : Tpm2bDigest}

theorem compileWalkPcr_eq_ok {selections : TpmlPcrSelection} {digest : Option Tpm2bDigest} :
    compileWalkPcr crypto context selections digest c = .ok (g, d) ↔ ∃ pcrDigest session,
      resolvePcrDigest crypto c.softwareSession context selections digest = .ok pcrDigest ∧
      pcrDigest.bytes.length = c.softwareSession.digestSize ∧
      c.softwareSession.policyPcr crypto ⟨.one (.new 0), pcrDigest, selections, ()⟩ = .ok session ∧
      g = session.digest ∧
      d = { c.push (.policyPcr ⟨.one (.new 0), pcrDigest, selections, ()⟩) with
        softwareSession := session } := by
  unfold compileWalkPcr
  simp only [bind_eq_ok]
  constructor
  · rintro ⟨pcrDigest, resolved, ok⟩
    split at ok
    · cases ok
    next size =>
      obtain ⟨session, applied, ok⟩ := bind_eq_ok.mp ok
      cases ok
      exact ⟨pcrDigest, session, resolved, not_not.mp size, applied, rfl, rfl⟩
  · rintro ⟨pcrDigest, session, resolved, size, applied, rfl, rfl⟩
    refine ⟨pcrDigest, resolved, ?_⟩
    rw [if_neg (not_not.mpr size)]
    exact bind_eq_ok.mpr ⟨session, applied, rfl⟩

theorem compileWalkSecret_eq_ok {authHandle : TpmPolicyExpression} {copyRef : Option Tpm2bDigest} :
    compileWalkSecret crypto context authHandle copyRef c = .ok (g, d) ↔ ∃ object name session,
      authHandle = .handle object ∧ resolveAuthName context object = .ok name ∧
      c.softwareSession.policySecret crypto name (copyRef.getD .new) = .ok session ∧
      g = session.digest ∧
      d = { c.push (.policySecret ⟨.two object (.new 0), .new, .new, copyRef.getD .new, .new 0, ()⟩)
        with softwareSession := session } := by
  unfold compileWalkSecret
  constructor
  · intro ok
    cases authHandle with
    | handle object =>
        obtain ⟨name, named, ok⟩ := bind_eq_ok.mp ok
        obtain ⟨session, applied, ok⟩ := bind_eq_ok.mp ok
        cases ok
        exact ⟨object, name, session, rfl, named, applied, rfl, rfl⟩
    | _ => cases ok
  · rintro ⟨object, name, session, rfl, named, applied, rfl, rfl⟩
    exact bind_eq_ok.mpr ⟨name, named, bind_eq_ok.mpr ⟨session, applied, rfl⟩⟩

theorem compileWalkOr_cons_eq_ok {branch : TpmPolicyExpression}
    {branches : List TpmPolicyExpression} {list list' : TpmlDigest} :
    compileWalkOr crypto context (branch :: branches) list c = .ok (list', d) ↔
      ∃ session digest c' pushed, c.softwareSession.policyRestart = .ok session ∧
        branch.compileWalk crypto context
          { c.push (.policyRestart ⟨.one (.new 0), ()⟩) with softwareSession := session } =
            .ok (digest, c') ∧
        list.tryPush digest = .ok pushed ∧
        compileWalkOr crypto context branches pushed c' = .ok (list', d) := by
  simp only [compileWalkOr, bind_eq_ok, Prod.exists, mapError_eq_ok]
  constructor
  · rintro ⟨session, restarted, digest, c', walked, pushed, push, others⟩
    exact ⟨session, digest, c', pushed, restarted, walked, push, others⟩
  · rintro ⟨session, digest, c', pushed, restarted, walked, push, others⟩
    exact ⟨session, restarted, digest, c', walked, pushed, push, others⟩

mutual

/-- A compilation keeps the session ready, and returns its digest. -/
theorem compileWalk_ready {expression : TpmPolicyExpression} {c d : Compilation} {g : Tpm2bDigest}
    (ready : c.softwareSession.Ready crypto alg)
    (ok : expression.compileWalk crypto context c = .ok (g, d)) :
    d.softwareSession.Ready crypto alg ∧ g = d.softwareSession.digest := by
  cases expression with
  | pcr selections digest =>
      obtain ⟨pcrDigest, session, -, -, applied, rfl, rfl⟩ := compileWalkPcr_eq_ok.mp ok
      exact ⟨ready.policyPcr applied, rfl⟩
  | secret authHandle copyRef =>
      obtain ⟨object, name, session, -, -, applied, rfl, rfl⟩ := compileWalkSecret_eq_ok.mp ok
      exact ⟨ready.policySecret applied, rfl⟩
  | handle object => cases ok
  | and branches =>
      obtain ⟨e, walked, ok⟩ := bind_eq_ok.mp ok
      cases ok
      exact ⟨compileWalkBranches_ready ready walked, rfl⟩
  | or branches =>
      obtain ⟨⟨list, e⟩, walked, ok⟩ := bind_eq_ok.mp ok
      obtain ⟨session, applied, ok⟩ := bind_eq_ok.mp ok
      cases ok
      exact ⟨(compileWalkOr_ready ready walked).policyOr applied, rfl⟩

theorem compileWalkBranches_ready {branches : List TpmPolicyExpression} {c d : Compilation}
    (ready : c.softwareSession.Ready crypto alg)
    (ok : compileWalkBranches crypto context branches c = .ok d) :
    d.softwareSession.Ready crypto alg := by
  cases branches with
  | nil =>
      cases ok
      exact ready
  | cons branch branches =>
      obtain ⟨⟨digest, e⟩, walked, others⟩ := bind_eq_ok.mp ok
      exact compileWalkBranches_ready (compileWalk_ready ready walked).1 others

theorem compileWalkOr_ready {branches : List TpmPolicyExpression} {list list' : TpmlDigest}
    {c d : Compilation}
    (ready : c.softwareSession.Ready crypto alg)
    (ok : compileWalkOr crypto context branches list c = .ok (list', d)) :
    d.softwareSession.Ready crypto alg := by
  cases branches with
  | nil =>
      cases ok
      exact ready
  | cons branch branches =>
      obtain ⟨session, digest, e, pushed, restarted, walked, -, others⟩ :=
        compileWalkOr_cons_eq_ok.mp ok
      have started : session.Ready crypto alg := ready.policyRestart restarted
      exact compileWalkOr_ready (compileWalk_ready started walked).1 others

end

/-- The digests of the branches of an `Or` depend neither on the session before it nor on the list
they are added to. -/
theorem compileWalkOr_digests {branches : List TpmPolicyExpression}
    {list list' result result' : TpmlDigest} {c c' d d' : Compilation}
    (ready : c.softwareSession.Ready crypto alg) (ready' : c'.softwareSession.Ready crypto alg)
    (ok : compileWalkOr crypto context branches list c = .ok (result, d))
    (ok' : compileWalkOr crypto context branches list' c' = .ok (result', d')) :
    ∃ digests, result.items = list.items ++ digests ∧ result'.items = list'.items ++ digests ∧
      ∀ digest ∈ digests, digest.bytes.length = crypto.size alg := by
  induction branches generalizing list list' c c' with
  | nil =>
      cases ok
      cases ok'
      exact ⟨[], by simp⟩
  | cons branch branches ih =>
      obtain ⟨session, digest, e, pushed, restarted, walked, push, others⟩ :=
        compileWalkOr_cons_eq_ok.mp ok
      obtain ⟨session', digest', e', pushed', restarted', walked', push', others'⟩ :=
        compileWalkOr_cons_eq_ok.mp ok'
      have started : session.Ready crypto alg := ready.policyRestart restarted
      have same : session = session' := by
        rw [ready.policyRestart_eq ready', restarted'] at restarted
        exact (Except.ok.inj restarted).symm
      obtain ⟨rfl, sessions⟩ := compileWalk_same same walked walked'
      obtain ⟨readye, digested⟩ := compileWalk_ready started walked
      obtain ⟨-, items⟩ := TpmList.tryPush_eq_ok.mp push
      obtain ⟨-, items'⟩ := TpmList.tryPush_eq_ok.mp push'
      obtain ⟨digests, left, right, sizes⟩ := ih readye (sessions ▸ readye) others others'
      refine ⟨digest :: digests, by simp [left, items], by simp [right, items'], ?_⟩
      rw [List.forall_mem_cons]
      exact ⟨digested ▸ readye.length_digest, sizes⟩

/-- One digest is listed for each branch. -/
theorem length_compileWalkOr {branches : List TpmPolicyExpression} {list result : TpmlDigest}
    {c d : Compilation} (ok : compileWalkOr crypto context branches list c = .ok (result, d)) :
    result.items.length = list.items.length + branches.length := by
  induction branches generalizing list c with
  | nil =>
      cases ok
      rfl
  | cons branch branches ih =>
      obtain ⟨session, digest, e, pushed, -, -, push, others⟩ := compileWalkOr_cons_eq_ok.mp ok
      rw [ih others, (TpmList.tryPush_eq_ok.mp push).2]
      simp only [List.length_append, List.length_cons, List.length_nil]
      omega

theorem compileWalkOr_append {before after : List TpmPolicyExpression} {list : TpmlDigest}
    {c : Compilation} :
    compileWalkOr crypto context (before ++ after) list c =
      compileWalkOr crypto context before list c >>= fun (list, c) =>
        compileWalkOr crypto context after list c := by
  induction before generalizing list c with
  | nil => rfl
  | cons branch before ih => simp only [List.cons_append, compileWalkOr, ih, bind_assoc]

theorem compileWalkBranches_append {before after : List TpmPolicyExpression} {c : Compilation} :
    compileWalkBranches crypto context (before ++ after) c =
      compileWalkBranches crypto context before c >>= compileWalkBranches crypto context after := by
  induction before generalizing c with
  | nil => rfl
  | cons branch before ih => simp only [List.cons_append, compileWalkBranches, ih, bind_assoc]

/-- Two `Or`s that differ in one branch: both compile it from the same restarted session, and their
lists differ only in its digest. -/
theorem compileWalkOr_around {before after : List TpmPolicyExpression}
    {branch branch' : TpmPolicyExpression} {list list' result result' : TpmlDigest}
    {c c' d d' : Compilation} (ready : c.softwareSession.Ready crypto alg)
    (ready' : c'.softwareSession.Ready crypto alg)
    (ok : compileWalkOr crypto context (before ++ branch :: after) list c = .ok (result, d))
    (ok' : compileWalkOr crypto context (before ++ branch' :: after) list' c' = .ok (result', d')) :
    ∃ start start' digest digest' e e' digests digests',
      start.softwareSession.Ready crypto alg ∧ start.softwareSession = start'.softwareSession ∧
      branch.compileWalk crypto context start = .ok (digest, e) ∧
      branch'.compileWalk crypto context start' = .ok (digest', e') ∧
      result.items = list.items ++ digests ++ digest :: digests' ∧
      result'.items = list'.items ++ digests ++ digest' :: digests' ∧
      ∀ other ∈ digests ++ digests', other.bytes.length = crypto.size alg := by
  rw [compileWalkOr_append] at ok ok'
  obtain ⟨⟨list₁, c₁⟩, first, ok⟩ := bind_eq_ok.mp ok
  obtain ⟨⟨list₁', c₁'⟩, first', ok'⟩ := bind_eq_ok.mp ok'
  obtain ⟨session, digest, e, pushed, restarted, second, push, third⟩ :=
    compileWalkOr_cons_eq_ok.mp ok
  obtain ⟨session', digest', e', pushed', restarted', second', push', third'⟩ :=
    compileWalkOr_cons_eq_ok.mp ok'
  have ready₁ := compileWalkOr_ready ready first
  have ready₁' := compileWalkOr_ready ready' first'
  have sessions : session = session' := by
    rw [ready₁.policyRestart_eq ready₁', restarted'] at restarted
    exact (Except.ok.inj restarted).symm
  have started : session.Ready crypto alg := ready₁.policyRestart restarted
  have readye := (compileWalk_ready started second).1
  have readye' := (compileWalk_ready (sessions ▸ started) second').1
  obtain ⟨digests, left, left', sizes⟩ := compileWalkOr_digests ready ready' first first'
  obtain ⟨digests', right, right', sizes'⟩ := compileWalkOr_digests readye readye' third third'
  refine ⟨_, _, digest, digest', e, e', digests, digests', started, sessions, second, second',
    ?_, ?_, ?_⟩
  · rw [right, (TpmList.tryPush_eq_ok.mp push).2, left]
    simp
  · rw [right', (TpmList.tryPush_eq_ok.mp push').2, left']
    simp
  · intro other member
    exact (List.mem_append.mp member).elim (sizes other) (sizes' other)

/-- Two compilations of one `Or` reach the same session, whatever they start from. -/
theorem compileWalk_or_same {branches : List TpmPolicyExpression} {c c' d d' : Compilation}
    {g g' : Tpm2bDigest} (ready : c.softwareSession.Ready crypto alg)
    (ready' : c'.softwareSession.Ready crypto alg)
    (ok : (or branches).compileWalk crypto context c = .ok (g, d))
    (ok' : (or branches).compileWalk crypto context c' = .ok (g', d')) :
    d.softwareSession = d'.softwareSession := by
  obtain ⟨⟨list, e⟩, walked, ok⟩ := bind_eq_ok.mp ok
  obtain ⟨session, applied, ok⟩ := bind_eq_ok.mp ok
  obtain ⟨⟨list', e'⟩, walked', ok'⟩ := bind_eq_ok.mp ok'
  obtain ⟨session', applied', ok'⟩ := bind_eq_ok.mp ok'
  cases ok
  cases ok'
  obtain ⟨digests, left, right, -⟩ := compileWalkOr_digests ready ready' walked walked'
  obtain rfl : list = list' := TpmList.ext (left.trans right.symm)
  have readye := compileWalkOr_ready ready walked
  have readye' := compileWalkOr_ready ready' walked'
  rw [readye.policyOr_eq readye', applied'] at applied
  exact (Except.ok.inj applied).symm

end

section
variable {crypto : Libcrypto} {alg : TpmHash} {context : TpmPolicyContext}
  (free : HashChain.CollisionFree (crypto.hash alg))
include free

/-- How two sessions compare after one more step that both take: they agree if the step starts the
session over, and differ if they did before and it does not. -/
def Follows (restarts : Bool) (before before' after after' : TpmPolicySession) : Prop :=
  if restarts then after = after' else before.digest ≠ before'.digest → after.digest ≠ after'.digest

/-- A digest extended by PCRs tells the digest before it, the PCRs and their digest. -/
theorem policyPcr_inj {session session' next next' : TpmPolicySession}
    {cmd cmd' : TpmBody TpmPolicyPcrCommand} (ready : session.Ready crypto alg)
    (ready' : session'.Ready crypto alg) (ok : session.policyPcr crypto cmd = .ok next)
    (ok' : session'.policyPcr crypto cmd' = .ok next') (same : next.digest = next'.digest) :
    session.digest = session'.digest ∧ cmd.parameters.2.1 = cmd'.parameters.2.1 ∧
      cmd.parameters.1 = cmd'.parameters.1 := by
  obtain ⟨pcrs, digest, encoded, hashed, rfl⟩ := TpmPolicySession.policyPcr_eq_ok.mp ok
  obtain ⟨pcrs', digest', encoded', hashed', rfl⟩ := TpmPolicySession.policyPcr_eq_ok.mp ok'
  obtain rfl : digest = digest' := same
  have lengths := ready.length_digest.trans ready'.length_digest.symm
  obtain ⟨before, rest⟩ := ready.hashChunks_inj free ready' lengths hashed hashed'
  simp only [List.flatten_cons, List.flatten_nil, List.append_nil, List.append_cancel_left_eq]
    at rest
  have wf (selections : TpmlPcrSelection) : WellFormed selections :=
    ⟨Nat.le_trans selections.length_le (by decide), fun _ _ => trivial⟩
  obtain ⟨selections, bytes⟩ := encode_append_inj (wf _) (wf _) encoded encoded' rest
  exact ⟨TpmBuffer.ext before, selections, TpmBuffer.ext bytes⟩

theorem policyPcr_separates {session session' next next' : TpmPolicySession}
    {cmd cmd' : TpmBody TpmPolicyPcrCommand} (ready : session.Ready crypto alg)
    (ready' : session'.Ready crypto alg) (ok : session.policyPcr crypto cmd = .ok next)
    (ok' : session'.policyPcr crypto cmd' = .ok next')
    (differ : session.digest ≠ session'.digest ∨ cmd.parameters.1 ≠ cmd'.parameters.1) :
    next.digest ≠ next'.digest := by
  intro same
  obtain ⟨before, -, digests⟩ := policyPcr_inj free ready ready' ok ok' same
  exact differ.elim (· before) (· digests)

theorem policySecret_separates {session session' next next' : TpmPolicySession} {name : Tpm2bName}
    {policyRef : Tpm2bNonce} (ready : session.Ready crypto alg)
    (ready' : session'.Ready crypto alg)
    (ok : session.policySecret crypto name policyRef = .ok next)
    (ok' : session'.policySecret crypto name policyRef = .ok next')
    (differ : session.digest ≠ session'.digest) : next.digest ≠ next'.digest := by
  obtain ⟨first, digest, hashedFirst, hashed, rfl⟩ := TpmPolicySession.policySecret_eq_ok.mp ok
  obtain ⟨first', digest', hashedFirst', hashed', rfl⟩ :=
    TpmPolicySession.policySecret_eq_ok.mp ok'
  rintro (rfl : digest = digest')
  have lengths : first.bytes.length = first'.bytes.length :=
    (ready.length_hashChunks hashedFirst).trans (ready'.length_hashChunks hashedFirst').symm
  obtain ⟨same, -⟩ := ready.hashChunks_inj free ready' lengths hashed hashed'
  obtain rfl := TpmBuffer.ext same
  have before := ready.length_digest.trans ready'.length_digest.symm
  obtain ⟨same, -⟩ := ready.hashChunks_inj free ready' before hashedFirst hashedFirst'
  exact differ (TpmBuffer.ext same)

/-- The digest of a disjunction tells the digests of its branches, joined. -/
theorem policyOr_inj {session session' next next' : TpmPolicySession}
    {cmd cmd' : TpmBody TpmPolicyOrCommand} (ready : session.Ready crypto alg)
    (ready' : session'.Ready crypto alg) (ok : session.policyOr crypto cmd = .ok next)
    (ok' : session'.policyOr crypto cmd' = .ok next') (same : next.digest = next'.digest) :
    (cmd.parameters.1.items.map TpmBuffer.bytes).flatten =
      (cmd'.parameters.1.items.map TpmBuffer.bytes).flatten := by
  obtain ⟨zero, digest, zeroed, hashed, rfl⟩ := TpmPolicySession.policyOr_eq_ok.mp ok
  obtain ⟨zero', digest', zeroed', hashed', rfl⟩ := TpmPolicySession.policyOr_eq_ok.mp ok'
  obtain rfl : digest = digest' := same
  have lengths : zero.bytes.length = zero'.bytes.length := by
    rw [TpmPolicySession.zeroDigest_eq_ok zeroed, TpmPolicySession.zeroDigest_eq_ok zeroed',
      List.length_replicate, List.length_replicate, ready.digestSize, ready'.digestSize]
  obtain ⟨-, rest⟩ := ready.hashChunks_inj free ready' lengths hashed hashed'
  simpa only [List.flatten_cons, List.flatten_nil, List.append_nil, List.append_cancel_left_eq,
    List.flatMap_def] using rest

/-- Different lists of equally many digests disjoin to different digests. -/
theorem policyOr_separates {session session' next next' : TpmPolicySession}
    {cmd cmd' : TpmBody TpmPolicyOrCommand} (ready : session.Ready crypto alg)
    (ready' : session'.Ready crypto alg) (ok : session.policyOr crypto cmd = .ok next)
    (ok' : session'.policyOr crypto cmd' = .ok next')
    (count : cmd.parameters.1.items.length = cmd'.parameters.1.items.length)
    (sizes : ∀ digest ∈ cmd.parameters.1.items, digest.bytes.length = crypto.size alg)
    (sizes' : ∀ digest ∈ cmd'.parameters.1.items, digest.bytes.length = crypto.size alg)
    (differ : cmd.parameters.1 ≠ cmd'.parameters.1) : next.digest ≠ next'.digest := by
  intro same
  have blocks := HashChain.flatten_inj (by simpa using count) (by simpa using sizes)
    (by simpa using sizes') (policyOr_inj free ready ready' ok ok' same)
  exact differ (TpmList.ext (List.map_injective_iff.mpr (fun _ _ => TpmBuffer.ext) blocks))

end

section
variable {crypto : Libcrypto} {alg : TpmHash} {context : TpmPolicyContext}

mutual

/-- Two compilations of one expression: it keeps different sessions different unless it starts them
over. -/
theorem compileWalk_follows {expression : TpmPolicyExpression} {c c' d d' : Compilation}
    {g g' : Tpm2bDigest} (free : HashChain.CollisionFree (crypto.hash alg))
      (ready : c.softwareSession.Ready crypto alg)
    (ready' : c'.softwareSession.Ready crypto alg)
    (ok : expression.compileWalk crypto context c = .ok (g, d))
    (ok' : expression.compileWalk crypto context c' = .ok (g', d')) :
    Follows expression.restarts c.softwareSession c'.softwareSession d.softwareSession
      d'.softwareSession := by
  cases expression with
  | pcr selections digest =>
      obtain ⟨pcrDigest, session, resolved, -, applied, -, rfl⟩ := compileWalkPcr_eq_ok.mp ok
      obtain ⟨pcrDigest', session', resolved', -, applied', -, rfl⟩ := compileWalkPcr_eq_ok.mp ok'
      exact fun differ => policyPcr_separates free ready ready' applied applied' (.inl differ)
  | secret authHandle copyRef =>
      obtain ⟨object, name, session, handle, named, applied, -, rfl⟩ :=
        compileWalkSecret_eq_ok.mp ok
      obtain ⟨object', name', session', handle', named', applied', -, rfl⟩ :=
        compileWalkSecret_eq_ok.mp ok'
      obtain rfl : object = object' := by
        rw [handle] at handle'
        exact TpmPolicyExpression.handle.inj handle'
      obtain rfl : name = name' := Except.ok.inj (named.symm.trans named')
      exact fun differ => policySecret_separates free ready ready' applied applied' differ
  | handle object => cases ok
  | and branches =>
      obtain ⟨e, walked, ok⟩ := bind_eq_ok.mp ok
      obtain ⟨e', walked', ok'⟩ := bind_eq_ok.mp ok'
      cases ok
      cases ok'
      exact compileWalkBranches_follows free ready ready' walked walked'
  | or branches => exact compileWalk_or_same ready ready' ok ok'

theorem compileWalkBranches_follows {branches : List TpmPolicyExpression} {c c' d d' : Compilation}
    (free : HashChain.CollisionFree (crypto.hash alg)) (ready : c.softwareSession.Ready crypto alg)
      (ready' : c'.softwareSession.Ready crypto alg)
    (ok : compileWalkBranches crypto context branches c = .ok d)
    (ok' : compileWalkBranches crypto context branches c' = .ok d') :
    Follows (anyRestarts branches) c.softwareSession c'.softwareSession d.softwareSession
      d'.softwareSession := by
  cases branches with
  | nil =>
      cases ok
      cases ok'
      exact id
  | cons branch branches =>
      obtain ⟨⟨digest, e⟩, walked, others⟩ := bind_eq_ok.mp ok
      obtain ⟨⟨digest', e'⟩, walked', others'⟩ := bind_eq_ok.mp ok'
      have first := compileWalk_follows free ready ready' walked walked'
      have readye := (compileWalk_ready ready walked).1
      have readye' := (compileWalk_ready ready' walked').1
      have rest := compileWalkBranches_follows free readye readye' others others'
      unfold Follows at first rest ⊢
      rw [anyRestarts]
      cases restarts : branch.restarts with
      | true =>
          rw [restarts] at first
          simpa using compileWalkBranches_same first others others'
      | false =>
          rw [restarts] at first
          rw [Bool.false_or]
          split at rest
          next again => rw [if_pos again]; exact rest
          next kept => rw [if_neg kept]; exact fun differ => rest (first differ)

end

/-- How two sessions compare: they agree, or their digests differ. -/
def Compare (agree : Bool) (session session' : TpmPolicySession) : Prop :=
  if agree then session = session' else session.digest ≠ session'.digest

theorem Compare.branches {agree : Bool} {branches : List TpmPolicyExpression}
    {c c' d d' : Compilation} (free : HashChain.CollisionFree (crypto.hash alg))
    (ready : c.softwareSession.Ready crypto alg) (ready' : c'.softwareSession.Ready crypto alg)
    (compare : Compare agree c.softwareSession c'.softwareSession)
    (ok : compileWalkBranches crypto context branches c = .ok d)
    (ok' : compileWalkBranches crypto context branches c' = .ok d') :
    Compare (agree || anyRestarts branches) d.softwareSession d'.softwareSession := by
  unfold Compare at compare ⊢
  cases agree with
  | true => exact compileWalkBranches_same compare ok ok'
  | false =>
      have follows := compileWalkBranches_follows free ready ready' ok ok'
      unfold Follows at follows
      rw [Bool.false_or]
      split at follows
      next again => rw [if_pos again]; exact follows
      next kept => rw [if_neg kept]; exact follows compare

/-- A change of the digest of one `Pcr` leaf changes the session's digest unless the leaf is
shadowed; then it changes nothing. -/
theorem compileWalk_plug {hole : Hole} {selections : TpmlPcrSelection}
    {digest digest' : Tpm2bDigest} (free : HashChain.CollisionFree (crypto.hash alg))
    (differ : digest ≠ digest') {c c' d d' : Compilation} {g g' : Tpm2bDigest}
    (ready : c.softwareSession.Ready crypto alg) (same : c.softwareSession = c'.softwareSession)
    (ok : (hole.plug (pcr selections digest)).compileWalk crypto context c = .ok (g, d))
    (ok' : (hole.plug (pcr selections digest')).compileWalk crypto context c' = .ok (g', d')) :
    Compare hole.shadowed d.softwareSession d'.softwareSession := by
  induction hole generalizing c c' d d' g g' with
  | here =>
      obtain ⟨pcrDigest, session, resolved, -, applied, -, rfl⟩ := compileWalkPcr_eq_ok.mp ok
      obtain ⟨pcrDigest', session', resolved', -, applied', -, rfl⟩ := compileWalkPcr_eq_ok.mp ok'
      cases resolved
      cases resolved'
      exact policyPcr_separates free ready (same ▸ ready) applied applied' (.inr differ)
  | secret authHandle copyRef ih =>
      obtain ⟨object, name, session, handle, -⟩ := compileWalkSecret_eq_ok.mp ok
      cases authHandle <;> cases handle
  | and before branch after ih =>
      obtain ⟨e, walked, ok⟩ := bind_eq_ok.mp ok
      obtain ⟨e', walked', ok'⟩ := bind_eq_ok.mp ok'
      cases ok
      cases ok'
      rw [compileWalkBranches_append] at walked walked'
      obtain ⟨c₁, first, walked⟩ := bind_eq_ok.mp walked
      obtain ⟨c₁', first', walked'⟩ := bind_eq_ok.mp walked'
      obtain ⟨⟨g₂, c₂⟩, second, third⟩ := bind_eq_ok.mp walked
      obtain ⟨⟨g₂', c₂'⟩, second', third'⟩ := bind_eq_ok.mp walked'
      have sessions := compileWalkBranches_same same first first'
      have ready₁ := compileWalkBranches_ready ready first
      have compare := ih ready₁ sessions second second'
      have ready₂ := (compileWalk_ready ready₁ second).1
      have ready₂' := (compileWalk_ready (sessions ▸ ready₁) second').1
      exact compare.branches free ready₂ ready₂' third third'
  | or before branch after ih =>
      obtain ⟨⟨list, e⟩, walked, ok⟩ := bind_eq_ok.mp ok
      obtain ⟨⟨list', e'⟩, walked', ok'⟩ := bind_eq_ok.mp ok'
      obtain ⟨session, applied, ok⟩ := bind_eq_ok.mp ok
      obtain ⟨session', applied', ok'⟩ := bind_eq_ok.mp ok'
      cases ok
      cases ok'
      have ready' : c'.softwareSession.Ready crypto alg := same ▸ ready
      have readye := compileWalkOr_ready ready walked
      have readye' := compileWalkOr_ready ready' walked'
      obtain ⟨start, start', digest₁, digest₁', c₁, c₁', digests, digests', started, sessions,
        second, second', items, items', sizes⟩ := compileWalkOr_around ready ready' walked walked'
      have compare := ih started sessions second second'
      obtain ⟨ready₁, rfl⟩ := compileWalk_ready started second
      obtain ⟨ready₁', rfl⟩ := compileWalk_ready (sessions ▸ started) second'
      rw [Hole.shadowed]
      unfold Compare at compare ⊢
      split at compare
      next agree =>
          rw [if_pos agree]
          rw [compare, ← items'] at items
          obtain rfl := TpmList.ext items
          rw [readye.policyOr_eq readye', applied'] at applied
          exact (Except.ok.inj applied).symm
      next kept =>
          rw [if_neg kept]
          refine policyOr_separates free readye readye' applied applied' ?_ ?_ ?_ ?_
          · simp [items, items']
          · simpa [items, ready₁.length_digest, or_imp, forall_and, TpmList.new] using sizes
          · simpa [items', ready₁'.length_digest, or_imp, forall_and, TpmList.new] using sizes
          · intro lists
            have equal := items.symm.trans ((congrArg TpmList.items lists).trans items')
            exact compare (by simpa using equal)

end

/-- The policy digest is the same when libcrypto is asked for the digests of `inputs` only: no other
input is hashed. -/
def HashesOnly (crypto : Libcrypto) (inputs : List Bytes) (sessionHashAlg : TpmAlgId)
    (context : TpmPolicyContext) (expression : TpmPolicyExpression) : Prop :=
  (expression.compile (crypto.only inputs) sessionHashAlg context).map TpmCompiledPolicy.digest =
    (expression.compile crypto sessionHashAlg context).map TpmCompiledPolicy.digest

instance (crypto : Libcrypto) (inputs : List Bytes) (sessionHashAlg : TpmAlgId)
    (context : TpmPolicyContext) (expression : TpmPolicyExpression) :
    Decidable (expression.HashesOnly crypto inputs sessionHashAlg context) :=
  inferInstanceAs (Decidable (_ = _))

theorem HashesOnly.restricted {crypto : Libcrypto} {inputs : List Bytes}
    {sessionHashAlg : TpmAlgId} {context : TpmPolicyContext} {expression : TpmPolicyExpression}
    {policy : TpmCompiledPolicy}
    (hashes : expression.HashesOnly crypto inputs sessionHashAlg context)
    (ok : expression.compile crypto sessionHashAlg context = .ok policy) :
    ∃ restricted, expression.compile (crypto.only inputs) sessionHashAlg context =
      .ok restricted ∧ restricted.digest = policy.digest := by
  rw [HashesOnly, ok] at hashes
  cases compiled : expression.compile (crypto.only inputs) sessionHashAlg context with
  | error e =>
      rw [compiled] at hashes
      cases hashes
  | ok restricted =>
      rw [compiled] at hashes
      exact ⟨restricted, rfl, Except.ok.inj hashes⟩

/-- Two trees that differ in the digest of one `Pcr` leaf have different policy digests exactly when
no later branch of an `And` around the leaf starts the session over. -/
theorem compile_binds_pcr {crypto : Libcrypto} {sessionHashAlg : TpmAlgId} {alg : TpmHash}
    {context : TpmPolicyContext} {hole : Hole} {selections : TpmlPcrSelection}
    {digest digest' : Tpm2bDigest} {inputs : List Bytes} {policy policy' : TpmCompiledPolicy}
    (valid : TpmHash.tryFrom sessionHashAlg = .ok alg)
    (free : crypto.CollisionFree alg inputs) (differ : digest ≠ digest')
    (ok : (hole.plug (pcr selections digest)).compile crypto sessionHashAlg context = .ok policy)
    (ok' : (hole.plug (pcr selections digest')).compile crypto sessionHashAlg context =
      .ok policy')
    (hashes : (hole.plug (pcr selections digest)).HashesOnly crypto inputs sessionHashAlg context)
    (hashes' : (hole.plug (pcr selections digest')).HashesOnly crypto inputs sessionHashAlg
      context) :
    policy.digest ≠ policy'.digest ↔ hole.shadowed = false := by
  obtain ⟨restricted, ok, digested⟩ := hashes.restricted ok
  obtain ⟨restricted', ok', digested'⟩ := hashes'.restricted ok'
  rw [← digested, ← digested']
  obtain ⟨session, created, ok⟩ := bind_eq_ok.mp ok
  obtain ⟨session', created', ok'⟩ := bind_eq_ok.mp ok'
  obtain ⟨⟨finalDigest, c⟩, walked, ok⟩ := bind_eq_ok.mp ok
  obtain ⟨⟨finalDigest', c'⟩, walked', ok'⟩ := bind_eq_ok.mp ok'
  cases ok
  cases ok'
  obtain rfl : session = session' := Except.ok.inj (created.symm.trans created')
  have ready := TpmPolicySession.new_ready valid created
  have compare := compileWalk_plug (Libcrypto.collisionFree_only.mpr free) differ ready rfl walked
    walked'
  obtain rfl := (compileWalk_ready (c := ⟨[], session⟩) ready walked).2
  obtain rfl := (compileWalk_ready (c := ⟨[], session⟩) ready walked').2
  unfold Compare at compare
  cases shadowed : hole.shadowed with
  | true => simp_all
  | false => simpa [shadowed] using compare

/-- SHA-256 of the inputs that the sample policies below hash. -/
def sampleDigests : List (Bytes × Nat) :=
  let zero := toBytes 32 0
  let pcr (value : UInt8) :=
    ccBytes .policyPcr ++ toBytes 10 0x1000b03010000 ++ List.replicate 32 value
  let secret (handle : Nat) := ccBytes .policySecret ++ toBytes 4 handle
  let owner := 0x0d84f55daf6e43ac97966e62c9bb989d3397777d25c5f749868055d65394f952
  let endorsement := 0x837197674484b3f81a90cc8d46a5d724fd52d76e06520b64f2a1da1b331469aa
  let either := 0x22c4594b0a2bfd97cde5d2407b4322deb79b452c597d085071aae34910253687
  [(zero ++ pcr 1, 0xd2c164c94b658f62dd1f8bf799642a2073b5c092923563495a70d69d6f59811c),
   (zero ++ pcr 2, 0x529e658bac60950db7435eeeaa3c2d8d16d83fc240690f2367bc4a167ea5afc0),
   (zero ++ secret 0x40000001, 0x478cf794da0e0531f4117344277d77d086259043f037b6d67f63b132a08bfc27),
   (toBytes 32 0x478cf794da0e0531f4117344277d77d086259043f037b6d67f63b132a08bfc27, owner),
   (zero ++ secret 0x4000000b, 0xb627b043d329fbeb7dfefbddee7d3d1f4391c9f6cbbd96a1bac6a99ae1775a3a),
   (toBytes 32 0xb627b043d329fbeb7dfefbddee7d3d1f4391c9f6cbbd96a1bac6a99ae1775a3a, endorsement),
   (zero ++ ccBytes .policyOr ++ toBytes 32 owner ++ toBytes 32 endorsement, either),
   (toBytes 32 either ++ pcr 1, 0x6da19ce81fa2259a819b1b3240734d3c14d013e0587f6d3173486fa6112d0864),
   (toBytes 32 either ++ pcr 2, 0xad4120c5360d7516ee127e66c5c935d7c54d0061c25425365febe7f5d088991c)]

def sampleInputs : List Bytes := sampleDigests.map Prod.fst

/-- Libcrypto, as far as the sample policies need it. -/
def sampleCrypto : Libcrypto where
  size
    | .sha1 => 20
    | .shake128 => 16
    | .sha256 | .sm3_256 | .sha3_256 | .shake256 => 32
    | .sha384 | .sha3_384 => 48
    | .sha512 | .sha3_512 => 64
  hash alg data := .ok (toBytes _ ((sampleDigests.lookup data).getD 0))
  length_hash ok := by
    cases ok
    exact length_toBytes ..

def sampleSelections : TpmlPcrSelection := ⟨[⟨.sha256, ⟨[1, 0, 0], by decide⟩⟩], by decide⟩

/-- `pcr(sha256:0:…)` with a digest of 32 bytes `value`. -/
def samplePcr (value : UInt8) : TpmPolicyExpression :=
  pcr sampleSelections (some ⟨List.replicate 32 value, by simp; decide, by simp [u16Max]⟩)

/-- `secret(40000001) or secret(4000000b)`. -/
def sampleOr : TpmPolicyExpression :=
  or [secret (handle (.new 0x40000001)) none, secret (handle (.new 0x4000000B)) none]

/-- A context without names and banks. -/
def sampleContext : TpmPolicyContext := ⟨∅, ∅, 0⟩

def compileSample (expression : TpmPolicyExpression) : Except TpmPolicyError TpmCompiledPolicy :=
  expression.compile sampleCrypto .sha256 sampleContext

theorem sampleCrypto_collisionFree : sampleCrypto.CollisionFree .sha256 sampleInputs := by
  have injective : ∀ x ∈ sampleInputs, ∀ y ∈ sampleInputs,
      sampleCrypto.hash .sha256 x = sampleCrypto.hash .sha256 y → x = y := by
    decide +kernel
  intro x memx y memy digest hx hy
  exact injective x memx y memy (hx.trans hy.symm)

theorem samples_hash : ∀ value ∈ [1, 2], ∀ expression ∈ [and [sampleOr, samplePcr value],
    and [samplePcr value, sampleOr]], (∃ policy, compileSample expression = .ok policy) ∧
      expression.HashesOnly sampleCrypto sampleInputs .sha256 sampleContext := by
  have compiles : ∀ value ∈ [1, 2], ∀ expression ∈ [and [sampleOr, samplePcr value],
      and [samplePcr value, sampleOr]], (compileSample expression).isOk ∧
        expression.HashesOnly sampleCrypto sampleInputs .sha256 sampleContext := by
    decide +kernel
  intro value memValue expression member
  obtain ⟨isOk, hashes⟩ := compiles value memValue expression member
  refine ⟨?_, hashes⟩
  cases compiled : compileSample expression with
  | error e =>
      rw [compiled] at isOk
      cases isOk
  | ok policy => exact ⟨policy, rfl⟩

/-- A PCR after an `Or` is bound. -/
theorem compile_binds_pcr_last : ∃ policy policy',
    compileSample (and [sampleOr, samplePcr 1]) = .ok policy ∧
      compileSample (and [sampleOr, samplePcr 2]) = .ok policy' ∧
        policy.digest ≠ policy'.digest := by
  obtain ⟨⟨policy, ok⟩, hashes⟩ := samples_hash 1 (by simp) (and [sampleOr, samplePcr 1]) (by simp)
  obtain ⟨⟨policy', ok'⟩, hashes'⟩ :=
    samples_hash 2 (by simp) (and [sampleOr, samplePcr 2]) (by simp)
  exact ⟨policy, policy', ok, ok', (@compile_binds_pcr _ _ _ _ (.and [sampleOr] .here [])
    _ _ _ _ _ _
    rfl sampleCrypto_collisionFree (by decide) ok ok' hashes hashes').mpr rfl⟩

/-- A PCR before an `Or` is not: two policies that ask for different values of it have the same
digest. -/
theorem compile_binds_pcr_fails : sampleCrypto.CollisionFree .sha256 sampleInputs ∧
    (and [samplePcr 1, sampleOr]).HashesOnly sampleCrypto sampleInputs .sha256 sampleContext ∧
    (and [samplePcr 2, sampleOr]).HashesOnly sampleCrypto sampleInputs .sha256 sampleContext ∧
    ∃ policy policy', compileSample (and [samplePcr 1, sampleOr]) = .ok policy ∧
      compileSample (and [samplePcr 2, sampleOr]) = .ok policy' ∧
      policy.digest = policy'.digest := by
  have same : (compileSample (and [samplePcr 1, sampleOr])).map TpmCompiledPolicy.digest =
      (compileSample (and [samplePcr 2, sampleOr])).map TpmCompiledPolicy.digest := by
    decide +kernel
  obtain ⟨⟨policy, ok⟩, hashes⟩ := samples_hash 1 (by simp) (and [samplePcr 1, sampleOr]) (by simp)
  obtain ⟨⟨policy', ok'⟩, hashes'⟩ :=
    samples_hash 2 (by simp) (and [samplePcr 2, sampleOr]) (by simp)
  rw [ok, ok'] at same
  exact ⟨sampleCrypto_collisionFree, hashes, hashes', policy, policy', ok, ok',
    Except.ok.inj same⟩

end TpmPolicyExpression
end Tpm2
