import Tpm2.Protocol.Frame.Grammar
import Tpm2.Sh.Evict
import Tpm2.Vtpm.Run

/-! The authorization of a key before and after it is made persistent: which policy commands are run
for it. -/

namespace Tpm2

open ByteCodec

open Device (TpmPolicySession TpmPolicySessionBuilder)

namespace TaskState

/-- No policy commands are run, and the cache and the authorizations stay as they are. -/
structure Quiet (s s' : TaskState) : Prop where
  policyRuns : s'.device.policyRuns = s.device.policyRuns
  cache : s'.cache = s.cache
  authMap : s'.authMap = s.authMap

variable {crypto : Libcrypto} {a b c s : TaskState} {handle : TpmHandle} {key : VtpmKey}

theorem Quiet.refl (s : TaskState) : Quiet s s := ⟨rfl, rfl, rfl⟩

theorem Quiet.trans (first : Quiet a b) (second : Quiet b c) : Quiet a c :=
  ⟨second.policyRuns.trans first.policyRuns, second.cache.trans first.cache,
    second.authMap.trans first.authMap⟩

theorem onDevice_quiet {ε α : Type} {x : Fallible ε TpmDevice α}
    (moves : Fallible.Moves TpmDevice.KeepsRuns x) : Fallible.Moves Quiet (onDevice x) := by
  intro s
  have kept := moves s.device
  rw [onDevice_run]
  cases ran : x.run s.device with
  | ok result device =>
      rw [ran] at kept
      exact ⟨kept, rfl, rfl⟩
  | error e device =>
      rw [ran] at kept
      exact ⟨kept, rfl, rfl⟩

theorem withDevice_quiet {α : Type} {x : Fallible TpmDeviceError TpmDevice α}
    (moves : Fallible.Moves TpmDevice.KeepsRuns x) : Fallible.Moves Quiet (withDevice x) :=
  .adaptExcept _ (onDevice_quiet moves)

theorem track_quiet (physHandle : TpmHandle) : Fallible.Moves Quiet (track physHandle) := by
  refine .bind .trans (.get .refl) fun task => ?_
  split
  · exact .bind .trans (.outcome (onDevice_quiet (TpmDevice.flushContext_keepsRuns _))) fun _ =>
      .throw .refl _
  · exact Fallible.moves_modify fun _ => ⟨rfl, rfl, rfl⟩

theorem loadKeyByHandle_quiet (target : TpmHandle) :
    Fallible.Moves Quiet (loadKeyByHandle target) := by
  refine .bind .trans (.get .refl) fun task => ?_
  split
  · exact .pure .refl _
  · split
    · exact .pure .refl _
    · refine .bind .trans (.get .refl) fun task => ?_
      split
      · exact .throw .refl _
      · exact .bind .trans (withDevice_quiet (TpmDevice.loadContext_keepsRuns _)) fun _ =>
          .bind .trans (track_quiet _) fun _ =>
            .bind .trans (Fallible.moves_modify fun _ => ⟨rfl, rfl, rfl⟩) fun _ => .pure .refl _

theorem loadKeyByName_quiet (name : Tpm2bName) : Fallible.Moves Quiet (loadKeyByName name) := by
  refine .bind .trans (.get .refl) fun task => ?_
  split
  · exact loadKeyByHandle_quiet _
  · exact .throw .refl _

theorem loadPolicySecret_quiet (vtpmCmd : VtpmPolicyCommand) :
    Fallible.Moves Quiet (loadPolicySecret vtpmCmd) := by
  refine .bind .trans (.ofExcept .refl _) fun (secret, rest) => ?_
  dsimp only
  split
  · exact .throw .refl _
  · refine .bind .trans ?_ fun _ => .bind .trans (.get .refl) fun task => ?_
    · unfold secretHandle
      split
      · exact .pure .refl _
      · exact loadKeyByName_quiet _
    · split
      · exact .bind .trans (.ofExcept .refl _) fun _ => .pure .refl _
      · exact .throw .refl _

theorem loadPolicySteps_quiet (policy : List VtpmPolicyCommand) :
    Fallible.Moves Quiet (loadPolicySteps policy) := by
  induction policy with
  | nil => exact .pure .refl _
  | cons vtpmCmd policy ih =>
      refine .bind .trans ?_ fun _ => .bind .trans ih fun _ => .pure .refl _
      unfold loadPolicyStep
      split
      · exact loadPolicySecret_quiet _
      · exact .bind .trans (.ofExcept .refl _) fun _ => .pure .refl _

/-- The policy commands that a program makes sessions run. -/
def policyRun {ε α : Type} (x : Fallible ε TaskState α) (s : TaskState) : List TpmCommandList :=
  (Fallible.after (x.run s)).device.policyRuns.drop s.device.policyRuns.length

theorem policyRun_of_quiet {ε α : Type} {x : Fallible ε TaskState α}
    (quiet : Quiet s (Fallible.after (x.run s))) : policyRun x s = [] := by
  rw [policyRun, quiet.policyRuns, List.drop_length]

/-- What comes before the policy of a key is run: its context is loaded, the steps are restored and
a session is opened. -/
def preparePolicy (crypto : Libcrypto) (handle : TpmHandle) (key : VtpmKey) :
    Fallible TaskError TaskState TpmCommandList := do
  let _ ← loadKeyByHandle handle
  let commands ← loadPolicySteps key.policy
  let _ ← withDevice (TpmPolicySessionBuilder.openSession crypto { authHash := key.public.nameAlg })
  return commands

theorem length_loadPolicySteps {policy : List VtpmPolicyCommand} {commands : TpmCommandList}
    {s' : TaskState} (ok : (loadPolicySteps policy).run s = .ok commands s') :
    commands.length = policy.length := by
  induction policy generalizing s commands with
  | nil =>
      cases ok
      rfl
  | cons vtpmCmd policy ih =>
      obtain ⟨command, _, -, ok⟩ := Fallible.run_bind_eq_ok.mp ok
      obtain ⟨rest, _, steps, returned⟩ := Fallible.run_bind_eq_ok.mp ok
      cases returned
      rw [List.length_cons, List.length_cons, ih steps]

/-- The commands are recorded where the session could be opened. -/
theorem policyRuns_runPolicy (crypto : Libcrypto) (nameAlg : TpmAlgId) (commands : TpmCommandList)
    (s : TaskState) :
    (Fallible.after ((runPolicy crypto nameAlg commands).run s)).device.policyRuns =
      match (withDevice (TpmPolicySessionBuilder.openSession crypto { authHash := nameAlg })).run s
        with
      | .error _ _ => s.device.policyRuns
      | .ok _ _ => s.device.policyRuns ++ [commands] := by
  have opening := withDevice_quiet (TpmPolicySessionBuilder.openSession_keepsRuns crypto
    { authHash := nameAlg }) s
  rw [runPolicy, EStateM.run_bind]
  cases opened : (withDevice (TpmPolicySessionBuilder.openSession crypto
      { authHash := nameAlg })).run s with
  | error e s' =>
      rw [opened] at opening
      exact opening.policyRuns
  | ok session s' =>
      rw [opened, Fallible.after_ok] at opening
      have recorded := session.policyRuns_run commands s'.device
      rw [opening.policyRuns] at recorded
      dsimp only
      rw [EStateM.run_bind, Fallible.run_outcome, onDevice_run]
      cases ran : (session.run commands).run s'.device with
      | ok _ device =>
          rw [ran] at recorded
          exact recorded
      | error e device =>
          rw [ran] at recorded
          have flushed : TpmDevice.KeepsRuns device (Fallible.after (session.flush.run device)) :=
            TpmDevice.flushContext_keepsRuns session.handle device
          dsimp only
          rw [EStateM.run_bind, Fallible.run_outcome, onDevice_run]
          cases ended : session.flush.run device with
          | ok _ device' | error _ device' =>
              rw [ended] at flushed
              exact Eq.trans flushed recorded

theorem length_preparePolicy {commands : TpmCommandList} {s' : TaskState}
    (ok : (preparePolicy crypto handle key).run s = .ok commands s') :
    commands.length = key.policy.length := by
  obtain ⟨_, _, -, ok⟩ := Fallible.run_bind_eq_ok.mp ok
  obtain ⟨restored, _, steps, ok⟩ := Fallible.run_bind_eq_ok.mp ok
  obtain ⟨_, _, -, returned⟩ := Fallible.run_bind_eq_ok.mp ok
  cases returned
  exact length_loadPolicySteps steps

theorem run_fetchPolicy (transient : handleHt handle.value = some .transient)
    (live : s.cache.findByHandle handle = some key) : (fetchPolicy handle).run s =
      match (loadKeyByHandle handle).run s with
      | .error e s' => .error e s'
      | .ok physHandle s' => .ok (physHandle, key.policy, key.public.nameAlg) s' := by
  have loading := loadKeyByHandle_quiet handle s
  rw [fetchPolicy, EStateM.run_bind]
  cases loaded : (loadKeyByHandle handle).run s with
  | error e s' => rfl
  | ok physHandle s' =>
      rw [loaded, Fallible.after_ok] at loading
      dsimp only
      rw [if_pos transient, EStateM.run_bind, EStateM.run_get]
      dsimp only
      rw [loading.cache, live]
      rfl

/-- A key without an authorization of its own: its policy is run once it is prepared. -/
theorem policyRun_resolveAuth (transient : handleHt handle.value = some .transient)
    (live : s.cache.findByHandle handle = some key) (noAuth : s.authMap.lookup handle = none) :
    policyRun (resolveAuth crypto handle) s = match (preparePolicy crypto handle key).run s with
      | .ok (command :: commands) _ => [command :: commands]
      | _ => [] := by
  have loading := loadKeyByHandle_quiet handle s
  rw [policyRun, resolveAuth, preparePolicy, EStateM.run_bind, EStateM.run_bind,
    run_fetchPolicy transient live]
  cases loaded : (loadKeyByHandle handle).run s with
  | error e s' =>
      rw [loaded, Fallible.after_error] at loading
      exact (congrArg (List.drop _) loading.policyRuns).trans List.drop_length
  | ok physHandle s' =>
      rw [loaded, Fallible.after_ok] at loading
      have steps := loadPolicySteps_quiet key.policy s'
      dsimp only
      rw [EStateM.run_bind, EStateM.run_get]
      dsimp only
      rw [loading.authMap, noAuth]
      dsimp only
      rw [EStateM.run_bind, EStateM.run_bind]
      cases stored : key.policy with
      | nil =>
          have restored : (loadPolicySteps []).run s' = .ok [] s' := rfl
          rw [restored]
          dsimp only
          rw [EStateM.run_bind]
          cases (withDevice (TpmPolicySessionBuilder.openSession crypto
              { authHash := key.public.nameAlg })).run s' <;>
            exact (congrArg (List.drop _) loading.policyRuns).trans List.drop_length
      | cons vtpmCmd policy =>
          rw [stored] at steps
          rw [loadPolicy, if_neg (by simp), EStateM.run_bind]
          cases restored : (loadPolicySteps (vtpmCmd :: policy)).run s' with
          | error e s'' =>
              rw [restored, Fallible.after_error] at steps
              exact (congrArg (List.drop _) (loading.trans steps).policyRuns).trans List.drop_length
          | ok commands s'' =>
              rw [restored, Fallible.after_ok] at steps
              have length := length_loadPolicySteps restored
              cases commands with
              | nil => cases length
              | cons command commands =>
                  have recorded := policyRuns_runPolicy crypto key.public.nameAlg
                    (command :: commands) s''
                  rw [(loading.trans steps).policyRuns] at recorded
                  dsimp only [EStateM.run_pure]
                  rw [Fallible.after_bind_pure, recorded, EStateM.run_bind]
                  cases (withDevice (TpmPolicySessionBuilder.openSession crypto
                      { authHash := key.public.nameAlg })).run s'' with
                  | error e _ => exact List.drop_length
                  | ok session _ => exact List.drop_left

/-- No policy is run for a persistent handle. -/
theorem policyRun_persistent (persistent : handleHt handle.value = some .persistent)
    (crypto : Libcrypto) (s : TaskState) : policyRun (resolveAuth crypto handle) s = [] := by
  suffices quiet : Fallible.Moves Quiet (resolveAuth crypto handle) from policyRun_of_quiet
    (quiet s)
  have other : ¬ handleHt handle.value = some .transient := by simp [persistent]
  unfold resolveAuth fetchPolicy
  simp only [if_neg other, bind_assoc, pure_bind]
  refine .bind .trans (loadKeyByHandle_quiet handle) fun _ =>
    .bind .trans (withDevice_quiet (TpmDevice.readPublic_keepsRuns _)) fun (_, _) =>
      .bind .trans (.get .refl) fun task => ?_
  dsimp only
  split
  · exact .pure .refl _
  · exact .pure .refl _

/-- Once a key has been evicted, no state of the task, with the old cache or a reopened one, has its
policy run for the persistent handle. So the policy commands are those of before exactly when the
key has no policy or the policy did not get to be run. -/
theorem evict_policyRun_iff {s₁ s₂ : TaskState} {evict : Evict}
    (live : s.cache.findByHandle (.new evict.input.value) = some key)
    (noAuth : s.authMap.lookup (.new evict.input.value) = none)
    (evicted : (evict.run crypto).run s = .ok () s₁) :
    policyRun (resolveAuth crypto (.new evict.output.value)) s₂ =
        policyRun (resolveAuth crypto (.new evict.input.value)) s ↔
      key.policy = [] ∨ ∀ commands s',
        (preparePolicy crypto (.new evict.input.value) key).run s ≠ .ok commands s' := by
  obtain ⟨transient, persistent⟩ := Evict.types_of_ok evicted
  rw [policyRun_persistent (by rwa [TpmInt.value_new]),
    policyRun_resolveAuth (by rwa [TpmInt.value_new]) live noAuth]
  cases prepared : (preparePolicy crypto (.new evict.input.value) key).run s with
  | error e s' => exact iff_of_true rfl (.inr nofun)
  | ok commands s' =>
      have length := length_preparePolicy prepared
      cases commands with
      | nil => exact iff_of_true rfl (.inl (List.length_eq_zero_iff.mp length.symm))
      | cons command commands =>
          refine iff_of_false nofun ?_
          rintro (none | fails)
          · rw [none] at length
            cases length
          · exact fails _ _ rfl

/-- The sample public area 1, and its name as name and as qualified name, as the TPM answers
them. -/
def sampleReadPublic : Bytes :=
  [0, 15] ++ toBytes 15 (256 * 0x8000b00000000000000100001 + 1) ++
    [0, 34] ++ VtpmCache.sampleName.bytes ++ [0, 34] ++ VtpmCache.sampleName.bytes

/-- The answer to a command with the code `cc`: a success of a TPM on which every handle is that of
the sample key 1. -/
def sampleAnswer (cc : Nat) : Bytes :=
  if cc = 0x120 then frameHeader 0x8002 19 0 ++ toBytes 4 0 ++ toBytes 5 0
  else if cc = 0x15e then frameHeader 0x8002 22 0 ++ toBytes 4 3 ++ [0, 1, 42] ++ toBytes 5 0
  else if cc = 0x161 then frameHeader 0x8001 14 0 ++ toBytes 4 0x80000000
  else if cc = 0x173 then frameHeader 0x8001 99 0 ++ sampleReadPublic
  else if cc = 0x176 then frameHeader 0x8001 16 0 ++ toBytes 4 0x03000000 ++ toBytes 2 0
  else if cc = 0x17a then frameHeader 0x8001 19 0 ++ toBytes 9 0x100000000
  else frameHeader 0x8001 10 0

/-- A transport that answers each command with `sampleAnswer`. -/
def sampleTransport (sent : List Bytes) : Exchange :=
  .response (sampleAnswer (numberAt (sent.getLastD []) 6 4))

/-- A task with a sample key 1 with the policy `policy`. -/
def policyTask (policy : List VtpmPolicyCommand) : TaskState :=
  sampleTask (VtpmCache.emptyCache.perform VtpmCache.sampleCrypto
    (.saveTransient VtpmCache.sampleContext (VtpmCache.samplePublic 1) VtpmCache.noParent
      (some policy))) sampleTransport

/-- Evicts the first transient key. -/
def sampleEvict : Evict := ⟨.new 0x80000000, .new 0x81000001⟩

/-- The task after `sampleEvict`. -/
def evictedTask (policy : List VtpmPolicyCommand) : TaskState :=
  Fallible.after ((sampleEvict.run VtpmCache.sampleCrypto).run (policyTask policy))

theorem evict_policyRun_iff_plain :
    policyRun (resolveAuth VtpmCache.sampleCrypto (.new 0x81000001)) (evictedTask []) =
      policyRun (resolveAuth VtpmCache.sampleCrypto (.new 0x80000000)) (policyTask []) := by
  have evicted : Fallible.value? ((sampleEvict.run VtpmCache.sampleCrypto).run (policyTask [])) =
      some () := by decide +kernel
  have plain : ((policyTask []).cache.findByHandle (.new 0x80000000)).map VtpmKey.policy =
      some [] := by decide +kernel
  obtain ⟨key, live, none⟩ := Option.map_eq_some_iff.mp plain
  have live : (policyTask []).cache.findByHandle (.new sampleEvict.input.value) = some key := live
  exact (evict_policyRun_iff live (by decide +kernel) (Fallible.value?_eq_some.mp evicted)).mpr
    (.inl none)

/-- A policy with one step is run before the eviction, and not after it, although the authorization
of the persistent handle is resolved. -/
theorem evict_policyRun_fails : ¬ ∀ crypto evict s s₁ s₂ key resolved,
    s.cache.findByHandle (.new evict.input.value) = some key →
    s.authMap.lookup (.new evict.input.value) = none →
    (Evict.run crypto evict).run s = .ok () s₁ →
    (resolveAuth crypto (.new evict.output.value)).run s₁ = .ok resolved s₂ →
      policyRun (resolveAuth crypto (.new evict.output.value)) s₁ =
        policyRun (resolveAuth crypto (.new evict.input.value)) s := by
  intro claim
  let policy : List VtpmPolicyCommand := [.default ⟨.policyAuthValue, []⟩]
  have evicted : Fallible.value? ((sampleEvict.run VtpmCache.sampleCrypto).run
    (policyTask policy)) =
      some () := by decide +kernel
  have before : (policyRun (resolveAuth VtpmCache.sampleCrypto (.new 0x80000000))
      (policyTask policy)).length = 1 := by decide +kernel
  have after : (policyRun (resolveAuth VtpmCache.sampleCrypto (.new 0x81000001))
      (evictedTask policy)).length = 0 := by decide +kernel
  have live : ((policyTask policy).cache.findByHandle (.new 0x80000000)).isSome := by
    decide +kernel
  have resolves : (Fallible.value? ((resolveAuth VtpmCache.sampleCrypto (.new 0x81000001)).run
      (evictedTask policy))).isSome := by decide +kernel
  obtain ⟨key, live⟩ := Option.isSome_iff_exists.mp live
  obtain ⟨resolved, resolves⟩ := Option.isSome_iff_exists.mp resolves
  have same := congrArg List.length (claim _ sampleEvict _ _ _ key resolved live
    (by decide +kernel) (Fallible.value?_eq_some.mp evicted) (Fallible.value?_eq_some.mp resolves))
  exact absurd (after.symm.trans (same.trans before)) (by decide)

end TaskState
end Tpm2
