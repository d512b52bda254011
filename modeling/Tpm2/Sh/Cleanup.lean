import Tpm2.Sh.Authorization
import Tpm2.Sh.Command.Accounted
import Tpm2.TpmKey.RoundTrip

/-! What the program flushes: when it ends, a `FlushContext` has been sent for every handle that an
answer has given it, but for the object that `evict` has made persistent. -/

namespace Tpm2

open ByteCodec

namespace TaskState

/-- Nothing is loaded, opened or outstanding, and `start` has been sent. -/
structure Fresh (start : List Bytes) (task : TaskState) : Prop where
  sent : start <+: task.device.sent
  outstanding : task.device.outstanding = []
  tracked : task.Tracked
  phys : task.physHandles = ∅
  sessions : task.sessions = ∅

/-- A tracked object is all that is outstanding. -/
structure Holds (start : List Bytes) (phandle : TpmHandle) (task : TaskState) : Prop where
  sent : start <+: task.device.sent
  outstanding : task.device.outstanding = [phandle]
  phys : task.physHandles = AList.insert phandle () ∅
  sessions : task.sessions = ∅

/-- An object that has been made persistent and is not tracked is all that is outstanding. -/
structure Released (start : List Bytes) (phandle persistent : TpmHandle) (task : TaskState) :
    Prop where
  persisted : task.device.Persisted start phandle persistent
  outstanding : task.device.outstanding = [phandle]
  phys : phandle ∉ task.physHandles
  sessions : task.sessions = ∅

variable {s t : TaskState} {phandle : TpmHandle} {start : List Bytes}

theorem Fresh.accounted (fresh : s.Fresh start) : s.Accounted ∅ where
  keyed key session found := by
    rw [fresh.sessions, AList.lookup_empty] at found
    cases found
  held handle outstanding := by
    rw [fresh.outstanding] at outstanding
    cases outstanding

theorem Fresh.lookup_virt (fresh : s.Fresh start) (vhandle : UInt32) :
    s.virtHandles.lookup vhandle = none := by
  rw [Option.eq_none_iff_forall_ne_some]
  intro phandle found
  have tracked := fresh.tracked.tracked vhandle phandle found
  rw [fresh.phys] at tracked
  exact AList.notMem_empty phandle tracked

theorem fresh_initial {device : TpmDevice} (sent : start <+: device.sent)
    (clean : device.outstanding = []) (cache : VtpmCache) (authMap : HashMap TpmHandle Auth) :
    (initial device cache authMap).Fresh start :=
  ⟨sent, clean, initial_tracked device cache authMap, rfl, rfl⟩

theorem Fresh.validated (fresh : s.Fresh start) (crypto : Libcrypto) :
    (Fallible.after ((validatePersistentHandles crypto).run s)).Fresh start := by
  have steady := keepsSteady_validatePersistentHandles crypto s
  have tracked : KeepsTracked (validatePersistentHandles crypto) :=
    keepsTracked_get.bind fun _ => keepsTracked_validateEntries crypto _
  exact ⟨fresh.sent.trans steady.device.sent,
    steady.device.outstanding.trans fresh.outstanding, tracked s fresh.tracked,
    steady.phys.trans fresh.phys, steady.sessions.trans fresh.sessions⟩

theorem Holds.accounted (holds : s.Holds start phandle) : s.Accounted ∅ where
  keyed key session found := by
    rw [holds.sessions, AList.lookup_empty] at found
    cases found
  held handle outstanding := by
    rw [holds.outstanding, List.mem_singleton] at outstanding
    rw [holds.phys, outstanding]
    exact .inl ((AList.mem_insert _).mpr (.inl rfl))

theorem Holds.steady (holds : s.Holds start phandle) (steady : Steady s t) :
    t.Holds start phandle where
  sent := holds.sent.trans steady.device.sent
  outstanding := steady.device.outstanding.trans holds.outstanding
  phys := steady.phys.trans holds.phys
  sessions := steady.sessions.trans holds.sessions

/-- A key that is loaded first is all that is outstanding, and it is tracked. -/
theorem Fresh.loadKeyByHandle (fresh : s.Fresh start) {target : TpmHandle}
    (other : handleHt target.value ≠ some .persistent) :
    (∃ e t, (TaskState.loadKeyByHandle target).run s = .error e t ∧ t.Accounted ∅) ∨
    ∃ phandle t, (TaskState.loadKeyByHandle target).run s = .ok phandle t ∧
      t.Holds start phandle := by
  rw [TaskState.loadKeyByHandle, EStateM.run_bind, EStateM.run_get]
  dsimp only
  rw [fresh.lookup_virt]
  dsimp only
  rw [if_neg other, EStateM.run_bind, EStateM.run_get]
  dsimp only
  cases s.cache.findByHandle target with
  | none => exact .inl ⟨_, _, rfl, fresh.accounted⟩
  | some key =>
      dsimp only
      rw [EStateM.run_bind, withDevice_run]
      rcases TpmDevice.loadContext_outstanding key.context s.device with
        ⟨e, device, ran, quiet⟩ | ⟨phandle, device, ran, gains⟩
      · rw [ran]
        exact .inl ⟨_, _, rfl, fresh.accounted.steady (.of_quiet quiet rfl rfl)⟩
      · rw [ran]
        dsimp only
        have untracked : phandle ∉ ({ s with device } : TaskState).physHandles := by
          show phandle ∉ s.physHandles
          rw [fresh.phys]
          exact AList.notMem_empty phandle
        rw [EStateM.run_bind, run_track, if_neg untracked]
        have outstanding := gains.outstanding
        rw [fresh.outstanding] at outstanding
        exact .inr ⟨phandle, _, rfl, fresh.sent.trans gains.sent, outstanding,
          congrArg (AList.insert phandle ()) fresh.phys, fresh.sessions⟩

/-- Where an object is made persistent, its command has been sent and accepted. -/
theorem persisted_evictControl {crypto : Libcrypto} {object persistent : TpmHandle}
    (sent : start <+: s.device.sent)
    (ok : (evictControl crypto object persistent).run s = .ok () t) :
    t.device.Persisted start object persistent := by
  obtain ⟨_, _, got, ok⟩ := Fallible.run_bind_eq_ok.mp ok
  cases got
  obtain ⟨response, u, executed, ok⟩ := Fallible.run_bind_eq_ok.mp ok
  obtain ⟨body, _, required, ok⟩ := Fallible.run_bind_eq_ok.mp ok
  obtain ⟨read, rfl⟩ := Fallible.run_ofExcept_eq_ok.mp required
  cases ok
  obtain ⟨sessions, s₁, authorized, transmitted⟩ := Fallible.run_bind_eq_ok.mp executed
  have steady : Steady s (Fallible.after (.ok sessions s₁ : EStateM.Result TaskError _ _)) :=
    authorized ▸ keepsSteady_authCommands crypto _ s
  rw [withDevice_run] at transmitted
  split at transmitted
  next response' device ran =>
    cases transmitted
    obtain ⟨frame, answer, prepared, answers, heard, rfl⟩ := TpmDevice.transmit_eq_ok ran
    have accepted : TpmDevice.answerBody TpmEvictControlCommand TpmEvictControlResponse answer =
        .ok body := by
      rw [TpmDevice.answerBody, heard]
      exact mapError_eq_ok.mpr (mapError_eq_ok.mp read)
    exact ⟨s₁.device.sent, frame, sent.trans steady.device.sent, List.prefix_refl _,
      ⟨_, sessions, prepared⟩, answer, body, answers, accepted⟩
  · cases transmitted

/-- An object is released only where everything before has succeeded. -/
theorem Holds.release (holds : s.Holds start phandle) {persistent : TpmHandle}
    {x : Fallible TaskError TaskState Unit} (keeps : KeepsSteady x)
    (persists : ∀ {t}, x.run s = .ok () t → t.device.Persisted start phandle persistent) :
    (∃ e t, (x >>= fun _ => modify fun task => task.untrack phandle).run s = .error e t ∧
      t.Accounted ∅) ∨
    ∃ t, (x >>= fun _ => modify fun task => task.untrack phandle).run s = .ok () t ∧
      t.Released start phandle persistent := by
  have steady := keeps s
  rw [EStateM.run_bind]
  cases ran : x.run s with
  | error e t =>
      rw [ran] at steady
      exact .inl ⟨e, t, rfl, (holds.steady steady).accounted⟩
  | ok _ t =>
      rw [ran] at steady
      obtain ⟨-, outstanding, -, sessions⟩ := holds.steady steady
      have erased : phandle ∉ t.physHandles.erase phandle := fun tracked =>
        (AList.mem_erase.mp tracked).1 rfl
      have persisted := persists ran
      exact .inr ⟨_, rfl, persisted, outstanding, erased, sessions⟩

/-- A key that is made persistent stays loaded, and is no longer tracked; one that is not made
persistent is still tracked. -/
theorem Fresh.evict (fresh : s.Fresh start) (crypto : Libcrypto) (evict : Evict) :
    (∃ e t, (evict.run crypto).run s = .error e t ∧ t.Accounted ∅) ∨
    ∃ phandle t, (evict.run crypto).run s = .ok () t ∧
      t.Released start phandle (.new evict.output.value) := by
  unfold Evict.run
  rw [EStateM.run_bind]
  cases evict.input.requireValue with
  | error e => exact .inl ⟨_, _, rfl, fresh.accounted⟩
  | ok inputHandle =>
      rw [Fallible.run_ofExcept_ok]
      dsimp only
      split
      · exact .inl ⟨_, _, rfl, fresh.accounted⟩
      next transient =>
        rw [EStateM.run_bind]
        cases concrete : evict.output.requireValue with
        | error e => exact .inl ⟨_, _, rfl, fresh.accounted⟩
        | ok outputHandle =>
            rw [Fallible.run_ofExcept_ok, Handle.value_of_requireValue concrete]
            dsimp only
            split
            · exact .inl ⟨_, _, rfl, fresh.accounted⟩
            have other : handleHt (TpmInt.new inputHandle : TpmHandle).value ≠
                some .persistent := by
              rw [TpmInt.value_new, not_not.mp transient]
              decide
            rw [Evict.runOn, EStateM.run_bind]
            rcases fresh.loadKeyByHandle other with
              ⟨e, t, ran, accounted⟩ | ⟨phandle, t, ran, holds⟩
            · rw [ran]
              exact .inl ⟨e, t, rfl, accounted⟩
            · rw [ran]
              dsimp only
              rw [EStateM.run_bind, EStateM.run_get]
              dsimp only
              cases t.cache.findByHandle (.new inputHandle) with
              | none => exact .inl ⟨_, _, rfl, holds.accounted⟩
              | some key =>
                  have filed := (keepsSteady_onCache (VtpmCache.savePersistent crypto
                    (.new outputHandle) key.public key.parent (some key.policy))).bind fun _ =>
                      keepsSteady_removeEntry (.new inputHandle)
                  have ended := holds.release ((keepsSteady_evictControl crypto phandle
                    (.new outputHandle)).bind fun _ => filed) fun ok => by
                      obtain ⟨_, u, evicted, ok⟩ := Fallible.run_bind_eq_ok.mp ok
                      have steady := filed u
                      rw [ok] at steady
                      exact (persisted_evictControl holds.sent evicted).later
                        steady.device.transport steady.device.sent
                  simp only [bind_assoc] at ended
                  rcases ended with failed | ⟨u, ran, released⟩
                  · exact .inl failed
                  · exact .inr ⟨phandle, u, ran, released⟩

theorem flushHandles_later (handles : List TpmHandle) (device : TpmDevice) :
    (flushHandles handles device).transport = device.transport ∧
      device.sent <+: (flushHandles handles device).sent := by
  induction handles generalizing device with
  | nil => exact ⟨rfl, List.prefix_refl _⟩
  | cons handle handles ih =>
      rw [flushHandles, TpmDevice.after_flushContext]
      obtain ⟨transport, sent⟩ := ih (device.afterSending (TpmDevice.flushFrame handle))
      exact ⟨transport, (List.prefix_append _ _).trans sent⟩

/-- What is released is all that is left when the task is dropped. -/
theorem Released.drop {persistent : TpmHandle} (released : s.Released start phandle persistent) :
    s.drop.device.outstanding = [phandle] ∧
      s.drop.device.Persisted start phandle persistent := by
  have kept : phandle ∉ s.physHandles ∧
      phandle ∉ s.sessions.values.map Device.TpmPolicySession.handle := by
    refine ⟨released.phys, ?_⟩
    rw [released.sessions]
    exact List.not_mem_nil
  constructor
  · rw [drop_outstanding, released.outstanding]
    exact List.filter_cons_of_pos (decide_eq_true kept)
  · obtain ⟨transport, sent⟩ := flushHandles_later s.physHandles.keys s.device
    obtain ⟨transport', sent'⟩ := flushHandles_later
      (s.sessions.values.map Device.TpmPolicySession.handle)
      (flushHandles s.physHandles.keys s.device)
    exact released.persisted.later (transport'.trans transport) (sent.trans sent')

theorem Accounted.drop_nil (accounted : s.Accounted ∅) : s.drop.device.outstanding = [] :=
  List.eq_nil_iff_forall_not_mem.mpr fun handle left => accounted.drop handle left

end TaskState

namespace World

/-- The device can be opened, and `P` holds of it. -/
def Opens (world : World) (P : TpmDevice → Prop) : Prop :=
  ∃ device, world.deviceFile = .ok device ∧ P device

/-- The device can be opened. No `FlushContext` has been sent for these handles of it, and one for
every other handle that it was given in an answer that can be read. -/
abbrev Leaves (world : World) (handles : List TpmHandle) : Prop :=
  world.Opens fun device => device.outstanding = handles

/-- The task of a command has the device, unless it needs none. -/
theorem deviceFor_eq {world : World} {device : TpmDevice} {command : Command}
    (opened : world.deviceFile = .ok device) (remote : command.isLocal = false) :
    world.deviceFor command = device := by
  unfold World.deviceFor
  rw [if_neg (by rw [remote]; decide), opened]
  rfl

theorem Leaves.deviceFor {world : World} (clean : world.Leaves []) (command : Command) :
    (world.deviceFor command).outstanding = [] := by
  obtain ⟨device, opened, outstanding⟩ := clean
  cases isLocal : command.isLocal with
  | true =>
      unfold World.deviceFor
      rw [if_pos isLocal]
      rfl
  | false => rwa [deviceFor_eq opened isLocal]

/-- What a task leaves is what it leaves of its own device. -/
theorem Leaves.close {world : World} (clean : world.Leaves []) (command : Command) {shell : Shell}
    (ended : shell.task.drop.device.outstanding = []) : (world.close command shell).Leaves [] := by
  unfold World.close
  cases isLocal : command.isLocal with
  | true => exact clean
  | false => exact ⟨_, rfl, ended⟩

section
variable {E α : Type} (P : TpmDevice → Prop)

/-- What holds of the device before the program holds of it behind. -/
abbrev KeepsOpen (x : Fallible (CommandError E) World α) : Prop :=
  Fallible.Moves (fun s t => s.Opens P → t.Opens P) x

theorem openDevice_keepsOpen
    (stays : ∀ {device device'}, P device → TpmDevice.Quiet device device' → P device') :
    KeepsOpen P (openDevice (E := E)) := by
  rintro world ⟨device, opened, holds⟩
  show (Fallible.after (openDevice (E := E) world)).Opens P
  have quiet := fetchPersistentNames_quiet device
  unfold openDevice
  rw [opened]
  dsimp only
  cases ran : fetchPersistentNames.run device with
  | ok nameMap device' | error e device' =>
      rw [ran] at quiet
      exact ⟨device', rfl, stays holds quiet⟩

theorem openCache_keepsOpen (crypto : Libcrypto) (nameMap : HashMap TpmHandle Tpm2bName) :
    KeepsOpen P (openCache (E := E) crypto nameMap) := by
  refine Fallible.Moves.adaptExcept _ ?_
  intro world opens
  rw [Fallible.run_part]
  split <;> exact opens

end

variable (libs : Libraries) (rounds : Nat)

section
variable {P : TpmDevice → Prop}
  (stays : ∀ {device device'}, P device → TpmDevice.Quiet device device' → P device')
  {Q : EStateM.Result (CommandError libs.rasn.Asn1Error) World Unit → Prop}
  (fails : ∀ e world, world.Opens P → Q (.error e world))
include fails

/-- A program behind one that keeps what holds of the device. -/
theorem ends_bind {α : Type} {x : Fallible (CommandError libs.rasn.Asn1Error) World α}
    {next : α → Fallible (CommandError libs.rasn.Asn1Error) World Unit} (keeps : KeepsOpen P x)
    (ends : ∀ a world, world.Opens P → Q ((next a).run world)) {world : World}
    (opens : world.Opens P) : Q ((x >>= next).run world) := by
  have kept := keeps world opens
  rw [EStateM.run_bind]
  cases ran : x.run world with
  | error e world' =>
      rw [ran] at kept
      exact fails e world' kept
  | ok a world' =>
      rw [ran] at kept
      exact ends a world' kept

include stays

/-- The program ends as its task does, or fails before. -/
theorem executeCli_ends {cli : TopLevel} (ends : ∀ command cache authMap world,
      cli.command = some command → world.Opens P →
        Q ((runTask libs rounds command cache authMap).run world)) {world : World}
    (opens : world.Opens P) : Q ((executeCli libs rounds cli).run world) := by
  unfold executeCli
  cases given : cli.command with
  | none => exact fails _ _ opens
  | some command =>
      refine ends_bind libs fails (.ofExcept (fun _ => id) _) (fun _ world opens => ?_) opens
      have behind (nameMap : HashMap TpmHandle Tpm2bName) (world : World)
          (opens : world.Opens P) : Q ((openCache libs.crypto nameMap >>= fun cache =>
            runWith libs rounds command cli.authEntries cache).run world) := by
        refine ends_bind libs fails (openCache_keepsOpen P libs.crypto nameMap)
          (fun cache world opens => ?_) opens
        refine ends_bind libs fails (.get fun _ => id) (fun found world opens => ?_) opens
        split
        · exact fails _ _ opens
        · exact fails _ _ opens
        · exact ends command cache _ world given opens
      dsimp only
      split
      · exact behind ∅ world opens
      · exact ends_bind libs fails (openDevice_keepsOpen P stays) behind opens

end

/-- A task that is dropped leaves the device clean, where its command keeps the handles accounted
for. -/
theorem runTask_keepsClean {command : Command} (cache : VtpmCache)
    (authMap : HashMap TpmHandle Auth)
    (keeps : ∀ isTty, Shell.KeepsAccounted (command.run libs rounds isTty)) :
    KeepsOpen (·.outstanding = []) (runTask libs rounds command cache authMap) := by
  intro world clean
  have performs : Shell.KeepsAccounted (perform libs rounds command world.isTty) := by
    unfold perform
    split
    · exact (Shell.keepsAccounted_onTask (TaskState.keepsSteady_validatePersistentHandles
        libs.crypto).accounted).bind fun _ => keeps _
    · exact keeps _
  have fresh := TaskState.fresh_initial (List.prefix_refl _) (Leaves.deviceFor clean command) cache
    authMap
  have accounted := performs
    ⟨TaskState.initial (world.deviceFor command) cache authMap, world.terminal⟩ ∅ fresh.accounted
  show (Fallible.after (runTask libs rounds command cache authMap world)).Leaves []
  unfold runTask
  dsimp only
  cases ran : (perform libs rounds command world.isTty).run
      ⟨TaskState.initial (world.deviceFor command) cache authMap, world.terminal⟩ with
  | ok _ shell | error _ shell =>
      rw [ran] at accounted
      exact Leaves.close clean command accounted.drop_nil

/-- When a command other than `evict` has ended, a `FlushContext` has been sent for every handle
that an answer has given, whatever the TPM answers. -/
theorem executeCli_leaves (cli : TopLevel) (other : ∀ cmd, cli.command ≠ some (.evict cmd))
    {world : World} (clean : world.Leaves []) :
    (Fallible.after ((executeCli libs rounds cli).run world)).Leaves [] := by
  have stays {device device' : TpmDevice} (clean : device.outstanding = [])
      (quiet : TpmDevice.Quiet device device') : device'.outstanding = [] :=
    quiet.outstanding.trans clean
  refine executeCli_ends libs rounds stays (Q := fun ended => (Fallible.after ended).Leaves [])
    (fun _ _ clean => clean) (fun command cache authMap world given clean => ?_) clean
  refine runTask_keepsClean libs rounds cache authMap (fun isTty => ?_) world clean
  exact Shell.keepsAccounted_run libs rounds
    (fun cmd evicts => other cmd (given.trans (congrArg some evicts))) isTty

/-- Libraries of which the samples need no more than the digests of the sample keys. -/
def sampleLibraries : Libraries where
  crypto := VtpmCache.sampleCrypto
  mac := ⟨fun _ _ _ => .error .crypto, fun ok => by cases ok⟩
  keys :=
    { privateKeyFromDer := fun _ => .error .crypto
      oaep := fun _ _ _ _ _ _ => .error .crypto
      degree := fun _ => .error .crypto
      order := fun _ => .error .crypto
      checkPoint := fun _ _ _ => .error .crypto
      mulGenerator := fun _ _ => .error .crypto
      derive := fun _ _ _ _ => .error .crypto }
  aesCfb _ _ _ _ := .error .crypto
  x509 _ := none
  hex := .lower
  rasn := TpmKeyFile.single TpmKeyFile.sampleAsn1 TpmKeyFile.sampleDer
  pem := ⟨fun _ _ => [], fun _ => none, fun _ => none⟩
  table _ _ := []
  addKey _ _ := .error Load.enodev

/-- A TPM that answers every command, and the file of the sample key 1. -/
def sampleWorld : World where
  deviceFile := .ok ⟨TaskState.sampleTransport, [], [], []⟩
  cacheDir := (VtpmCache.emptyCache.perform VtpmCache.sampleCrypto
    (.save 1 VtpmCache.noParent)).teardown.cacheDir
  terminal := ⟨fun _ => .error .notFound, fun _ => none, []⟩
  isTty := false
  envAuth := none

/-- The codes of the commands that the device was sent. -/
def sentCodes (world : World) : List Nat :=
  match world.deviceFile with
  | .ok device => device.sent.map (numberAt · 6 4)
  | .error _ => []

def sampleUnseal : TopLevel := ⟨[], some (.unseal ⟨.new 0x80000000, none⟩)⟩

/-- The sample key is loaded, unsealed and flushed. -/
theorem executeCli_leaves_unseal :
    (Fallible.after ((executeCli sampleLibraries 1 sampleUnseal).run sampleWorld)).sentCodes =
      [0x17a, 0x161, 0x15e, 0x165] ∧
    (Fallible.after ((executeCli sampleLibraries 1 sampleUnseal).run sampleWorld)).Leaves [] :=
  ⟨by decide +kernel, executeCli_leaves sampleLibraries 1 sampleUnseal
    (fun cmd same => by cases same) ⟨_, rfl, rfl⟩⟩

/-- Where `evict` succeeds, it has made an object persistent, and a `FlushContext` has been sent for
every other handle that an answer has given; where it fails, one has been sent for all of them. -/
theorem executeCli_evict {cli : TopLevel} {cmd : Evict} (evicts : cli.command = some (.evict cmd))
    {world : World} {device : TpmDevice} (opened : world.deviceFile = .ok device)
    (clean : device.outstanding = []) :
    (∃ e world', (executeCli libs rounds cli).run world = .error e world' ∧ world'.Leaves []) ∨
    ∃ phandle world' device', (executeCli libs rounds cli).run world = .ok () world' ∧
      world'.deviceFile = .ok device' ∧ device'.outstanding = [phandle] ∧
        device'.Persisted device.sent phandle (.new cmd.output.value) := by
  have stays {a b : TpmDevice} (before : a.outstanding = [] ∧ device.sent <+: a.sent)
      (quiet : TpmDevice.Quiet a b) : b.outstanding = [] ∧ device.sent <+: b.sent :=
    ⟨quiet.outstanding.trans before.1, before.2.trans quiet.sent⟩
  refine executeCli_ends libs rounds stays (Q := fun ended =>
    (∃ e world', ended = .error e world' ∧ world'.Leaves []) ∨
      ∃ phandle world' device', ended = .ok () world' ∧ world'.deviceFile = .ok device' ∧
        device'.outstanding = [phandle] ∧
          device'.Persisted device.sent phandle (.new cmd.output.value))
    (fun e world ⟨device, opened, clean, _⟩ => .inl ⟨e, world, rfl, device, opened, clean⟩)
    (fun command cache authMap world given opens => ?_) ⟨device, opened, clean, List.prefix_refl _⟩
  obtain rfl := Option.some.inj (given.symm.trans evicts)
  obtain ⟨device', opened, clean, sent⟩ := opens
  have started : world.deviceFor (.evict cmd) = device' := deviceFor_eq opened rfl
  rw [← started] at clean sent
  have fresh := TaskState.fresh_initial sent clean cache authMap
  have validated := fresh.validated libs.crypto
  have failed (e : CommandError libs.rasn.Asn1Error) {task : TaskState} (terminal : Terminal)
      (accounted : task.Accounted ∅) : ∃ e' world', EStateM.Result.error e
        (world.close (.evict cmd) ⟨task, terminal⟩) = (.error e' world' : EStateM.Result _ _ Unit) ∧
          world'.Leaves [] :=
    ⟨e, _, rfl, _, rfl, accounted.drop_nil⟩
  have performed : perform libs rounds (.evict cmd) world.isTty = (do
      Shell.onTask (TaskState.validatePersistentHandles libs.crypto)
      Shell.onTask (cmd.run libs.crypto)) := rfl
  show (∃ e world', runTask libs rounds (.evict cmd) cache authMap world = .error e world' ∧ _) ∨
    ∃ phandle world' device', runTask libs rounds (.evict cmd) cache authMap world =
      .ok () world' ∧ _
  unfold runTask
  dsimp only
  rw [performed, EStateM.run_bind, Shell.run_onTask]
  cases ran : (TaskState.validatePersistentHandles libs.crypto).run
      (TaskState.initial (world.deviceFor (.evict cmd)) cache authMap) with
  | error e task =>
      rw [ran] at validated
      exact .inl (failed _ _ validated.accounted)
  | ok _ task =>
      rw [ran] at validated
      have fresh : task.Fresh device.sent := validated
      dsimp only
      rw [Shell.run_onTask]
      dsimp only
      rcases fresh.evict libs.crypto cmd with
        ⟨e, task, ran, accounted⟩ | ⟨phandle, task, ran, released⟩
      · rw [ran]
        exact .inl (failed _ _ accounted)
      · rw [ran]
        exact .inr ⟨phandle, _, _, rfl, rfl, released.drop⟩

def sampleEvict : TopLevel := ⟨[], some (.evict TaskState.sampleEvict)⟩

/-- The sample key is loaded and made persistent. -/
theorem executeCli_evict_sample : ∃ phandle world' device',
    (executeCli sampleLibraries 1 sampleEvict).run sampleWorld = .ok () world' ∧
      world'.deviceFile = .ok device' ∧ device'.outstanding = [phandle] ∧
        device'.Persisted [] phandle (.new 0x81000001) := by
  have evicted : Fallible.value? ((executeCli sampleLibraries 1 sampleEvict).run sampleWorld) =
      some () := by decide +kernel
  have evicts : sampleEvict.command = some (.evict TaskState.sampleEvict) := rfl
  have opened : sampleWorld.deviceFile = .ok ⟨TaskState.sampleTransport, [], [], []⟩ := rfl
  rcases executeCli_evict sampleLibraries 1 evicts opened rfl with
    ⟨e, world', failed, -⟩ | succeeded
  · cases failed.symm.trans (Fallible.value?_eq_some.mp evicted)
  · exact succeeded

end World
end Tpm2
