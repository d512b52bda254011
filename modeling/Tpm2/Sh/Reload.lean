import Tpm2.Sh.Policy

/-! Loading the steps of a stored policy over an honest TPM. -/

namespace Tpm2

open ByteCodec
open HonestTpm (name_eq_some not_permanent session_name)

namespace TaskState

variable {crypto : Libcrypto} {tpm : HonestTpm crypto} {context : TpmPolicyContext}
  {s s' : TaskState}

/-- Every cached key stands under its own handle. -/
def Filed (cache : VtpmCache) : Prop :=
  ∀ v key, cache.contexts.lookup v = some key → key.handle.value = v

/-- What loading keys leaves of a state: objects only come, under transient handles, and a cached
key leads to the object that it led to, or to none. -/
structure Later (tpm : HonestTpm crypto) (s s' : TaskState) : Prop where
  cache : s'.cache = s.cache
  authMap : s'.authMap = s.authMap
  tracks : tpm.Tracks s'
  objects : ∀ handle pub, (tpm.objects s.device).object handle = some pub →
    (tpm.objects s'.device).object handle = some pub
  persistent : ∀ handle, IsPersistent handle.value →
    (tpm.objects s'.device).object handle = (tpm.objects s.device).object handle
  keyObject : ∀ key pub, s.cache.findByHandle key.handle = some key →
    tpm.keyObject s' key = some pub → tpm.keyObject s key = some pub

theorem Later.refl (tracks : tpm.Tracks s) : Later tpm s s :=
  ⟨rfl, rfl, tracks, fun _ _ held => held, fun _ _ => rfl, fun _ _ _ leads => leads⟩

theorem Later.trans {a b c : TaskState} (first : Later tpm a b) (second : Later tpm b c) :
    Later tpm a c where
  cache := second.cache.trans first.cache
  authMap := second.authMap.trans first.authMap
  tracks := second.tracks
  objects handle pub held := second.objects handle pub (first.objects handle pub held)
  persistent handle type := (second.persistent handle type).trans (first.persistent handle type)
  keyObject key pub live leads := by
    refine first.keyObject key pub live (second.keyObject key pub ?_ leads)
    rwa [first.cache]

section
variable {a b : TpmObjects} {handle other : TpmHandle} {pub area : TpmtPublic}

theorem ne_of_held (loads : a.Loads b handle pub) (held : a.object other = some area) :
    other ≠ handle := by
  rintro rfl
  cases loads.free.symm.trans held

theorem ne_of_persistent (loads : a.Loads b handle pub) (persistent : IsPersistent other.value) :
    other ≠ handle := by
  rintro rfl
  exact absurd (loads.transient.symm.trans persistent) (by decide)

end

/-- The state after the context of a key has been loaded. -/
def loadedKey (s : TaskState) (device : TpmDevice) (vhandle : UInt32) (handle : TpmHandle) :
    TaskState :=
  { s with
    device
    physHandles := s.physHandles.insert handle ()
    virtHandles := s.virtHandles.insert vhandle handle }

section
variable {key : VtpmKey} {device : TpmDevice} {handle : TpmHandle} {pub : TpmtPublic}

/-- The key itself leads to the object that has been loaded. -/
theorem keyObject_loadedKey_self
    (loads : (tpm.objects s.device).Loads (tpm.objects device) handle pub) :
    tpm.keyObject (s.loadedKey device key.handle.value handle) key = some pub := by
  have virt : (s.virtHandles.insert key.handle.value handle).lookup key.handle.value =
      some handle := AList.lookup_insert _
  simp only [HonestTpm.keyObject, loadedKey, virt]
  exact loads.holds

variable (tracks : tpm.Tracks s) (behind : tpm.Behind device)
  (loads : (tpm.objects s.device).Loads (tpm.objects device) handle pub)
include tracks loads

theorem fresh_of_loads : handle ∉ s.physHandles := by
  intro mem
  obtain ⟨area, held⟩ := tracks.loaded handle mem
  exact ne_of_held loads held rfl

/-- The object that another key leads to is the old one, unless its context was used up. -/
theorem keyObject_loadedKey {other : VtpmKey} (differs : other.handle.value ≠ key.handle.value) :
    (∀ area, tpm.keyObject (s.loadedKey device key.handle.value handle) other = some area →
      tpm.keyObject s other = some area) ∧
    ∀ area, tpm.keyObject s other = some area → area ≠ pub →
      tpm.keyObject (s.loadedKey device key.handle.value handle) other = some area := by
  have virt : (s.virtHandles.insert key.handle.value handle).lookup other.handle.value =
      s.virtHandles.lookup other.handle.value := AList.lookup_insert_ne differs
  simp only [HonestTpm.keyObject, loadedKey, virt]
  cases found : s.virtHandles.lookup other.handle.value with
  | some phandle =>
      obtain ⟨area, held⟩ := tracks.loaded phandle (tracks.tracked.tracked _ _ found)
      have same := loads.others phandle (ne_of_held loads held)
      dsimp only
      rw [same]
      exact ⟨fun _ held => held, fun _ held _ => held⟩
  | none =>
      dsimp only
      split
      next persistent =>
        have same := loads.others other.handle
          (ne_of_persistent loads (handleHt_eq_some.mp persistent))
        rw [same]
        exact ⟨fun _ held => held, fun _ held _ => held⟩
      next => exact ⟨loads.usable other.context, loads.kept other.context⟩

include behind

theorem tracks_loadedKey (vhandle : UInt32) : tpm.Tracks (s.loadedKey device vhandle handle) where
  behind := behind
  tracked := (tracks.tracked.insert_virt (fresh_of_loads tracks loads) vhandle).of_same rfl rfl
  loaded phandle mem := by
    rcases (AList.mem_insert _).mp mem with rfl | mem
    · exact ⟨pub, loads.holds⟩
    · obtain ⟨area, held⟩ := tracks.loaded phandle mem
      exact ⟨area, (loads.others phandle (ne_of_held loads held)).trans held⟩

theorem later_loadedKey
    (live : s.cache.findByHandle key.handle = some key) (led : tpm.keyObject s key = some pub) :
    Later tpm s (s.loadedKey device key.handle.value handle) where
  cache := rfl
  authMap := rfl
  tracks := tracks_loadedKey tracks behind loads key.handle.value
  objects other area held := (loads.others other (ne_of_held loads held)).trans held
  persistent other type := loads.others other (ne_of_persistent loads type)
  keyObject other area live' leads := by
    by_cases same : other.handle.value = key.handle.value
    · have found : s.cache.findByHandle key.handle = some other := by
        rw [VtpmCache.findByHandle, ← same]
        exact live'
      obtain rfl : key = other := Option.some.inj (live.symm.trans found)
      rw [keyObject_loadedKey_self loads] at leads
      rw [led, leads]
    · exact (keyObject_loadedKey tracks loads same).1 area leads

end

/-- What becomes of loading a key: it gives a handle of the object that the key leads to, or it
fails as the key leads to none. Loading a persistent key always gives its handle. -/
theorem loadKeyByHandle_spec (tracks : tpm.Tracks s) {key : VtpmKey}
    (live : s.cache.findByHandle key.handle = some key) :
    (∃ handle s', (loadKeyByHandle key.handle).run s = .ok handle s' ∧ Later tpm s s' ∧
      (tpm.objects s'.device).object handle = tpm.keyObject s key ∧
      (tpm.keyObject s key = none → IsPersistent handle.value) ∧
      ∀ other area, s.cache.findByHandle other.handle = some other →
        tpm.keyObject s other = some area → (tpm.keyObject s key = some area → other = key) →
        tpm.keyObject s' other = some area) ∨
    (∃ e s', (loadKeyByHandle key.handle).run s = .error e s') ∧ tpm.keyObject s key = none := by
  rw [loadKeyByHandle, EStateM.run_bind, EStateM.run_get]
  dsimp only
  cases virt : s.virtHandles.lookup key.handle.value with
  | some phandle =>
      have led : tpm.keyObject s key = (tpm.objects s.device).object phandle := by
        rw [HonestTpm.keyObject, virt]
      obtain ⟨area, held⟩ := tracks.loaded phandle (tracks.tracked.tracked _ _ virt)
      refine .inl ⟨phandle, s, rfl, .refl tracks, led.symm, fun absent => ?_,
        fun _ _ _ held _ => held⟩
      rw [led, held] at absent
      cases absent
  | none =>
      dsimp only
      by_cases persistent : handleHt key.handle.value = some .persistent
      · have led : tpm.keyObject s key = (tpm.objects s.device).object key.handle := by
          simp only [HonestTpm.keyObject, virt, persistent, if_true]
        rw [if_pos persistent, TpmInt.new_value]
        exact .inl ⟨key.handle, s, rfl, .refl tracks, led.symm,
          fun _ => handleHt_eq_some.mp persistent, fun _ _ _ held _ => held⟩
      · have led : tpm.keyObject s key = (tpm.objects s.device).saved key.context := by
          simp only [HonestTpm.keyObject, virt, persistent, if_false]
        rw [if_neg persistent, EStateM.run_bind, EStateM.run_get]
        dsimp only
        rw [live]
        dsimp only
        rw [EStateM.run_bind, withDevice_run]
        cases held : (tpm.objects s.device).saved key.context with
        | none =>
            obtain ⟨e, device, failed⟩ := tpm.loadContext_error tracks.behind held
            rw [failed]
            exact .inr ⟨⟨deviceErr e, _, rfl⟩, led.trans held⟩
        | some pub =>
            rw [held] at led
            obtain ⟨handle, device, loaded, behind, loads⟩ := tpm.loadContext_ok tracks.behind held
            have fresh := fresh_of_loads tracks loads
            have tracked : (track handle).run { s with device } =
                .ok () { s with device, physHandles := s.physHandles.insert handle () } := by
              rcases track_after handle { s with device } with ⟨present, -⟩ | ⟨-, ran⟩
              · exact absurd present fresh
              · exact ran
            rw [loaded]
            dsimp only
            rw [EStateM.run_bind, tracked]
            refine .inl ⟨handle, s.loadedKey device key.handle.value handle, rfl,
              later_loadedKey tracks behind loads live led, loads.holds.trans led.symm,
              fun absent => ?_, fun other area live' leads apart => ?_⟩
            · rw [led] at absent
              cases absent
            by_cases same : area = pub
            · subst same
              obtain rfl := apart led
              exact keyObject_loadedKey_self loads
            · refine (keyObject_loadedKey tracks loads fun handles => same ?_).2 area leads same
              have found : s.cache.findByHandle key.handle = some other := by
                rw [VtpmCache.findByHandle, ← handles]
                exact live'
              obtain rfl : key = other := Option.some.inj (live.symm.trans found)
              exact Option.some.inj (leads.symm.trans led)

/-- A task finds the object with a name: a cached key is filed under the name, and it leads to an
object that has it. -/
def Resolves (tpm : HonestTpm crypto) (s : TaskState) (name : Tpm2bName) : Prop :=
  ∃ key pub, s.cache.findByName name = some key ∧ tpm.keyObject s key = some pub ∧
    tpmMakeName crypto pub = .ok name

theorem live_of_findByName (filed : Filed s.cache) {name : Tpm2bName} {key : VtpmKey}
    (found : s.cache.findByName name = some key) : s.cache.findByHandle key.handle = some key := by
  obtain ⟨handle, -, live⟩ := Option.bind_eq_some_iff.mp found
  rw [VtpmCache.findByHandle, filed handle.value key live]
  exact live

theorem run_loadKeyByName {name : Tpm2bName} {key : VtpmKey}
    (found : s.cache.findByName name = some key) :
    (loadKeyByName name).run s = (loadKeyByHandle key.handle).run s := by
  rw [loadKeyByName, EStateM.run_bind, EStateM.run_get]
  dsimp only
  rw [found]
  dsimp only
  rw [TpmInt.new_value]

/-- What a task finds it can load, and it still finds all that it found. -/
theorem loadKeyByName_ok (tracks : tpm.Tracks s) (filed : Filed s.cache) {name : Tpm2bName}
    (resolves : Resolves tpm s name) : ∃ handle s',
      (loadKeyByName name).run s = .ok handle s' ∧ Later tpm s s' ∧
      tpm.name s'.device handle = some name ∧
      ∀ other, Resolves tpm s other → Resolves tpm s' other := by
  obtain ⟨key, pub, found, led, made⟩ := resolves
  have live := live_of_findByName filed found
  rcases loadKeyByHandle_spec tracks live with ⟨handle, s', ran, later, held, -, kept⟩ | ⟨-, none⟩
  · refine ⟨handle, s', (run_loadKeyByName found).trans ran, later,
      name_eq_some.mpr ⟨pub, held.trans led, made⟩, ?_⟩
    rintro other ⟨key', area, found', led', made'⟩
    refine ⟨key', area, by rwa [later.cache], ?_, made'⟩
    refine kept key' area (live_of_findByName filed found') led' fun same => ?_
    -- the context of another key is used up only if it holds the same object
    obtain rfl : pub = area := Option.some.inj (led.symm.trans same)
    obtain rfl : name = other := Except.ok.inj (made.symm.trans made')
    exact Option.some.inj (found'.symm.trans found)
  · rw [led] at none
    cases none

/-- An object that has come keeps its name. -/
theorem Later.name (later : Later tpm s s') {handle : TpmHandle} {name : Tpm2bName}
    (named : tpm.name s.device handle = some name) :
    tpm.name s'.device handle = some name ∧ ¬ IsPermanent handle.value := by
  obtain ⟨pub, held, made⟩ := name_eq_some.mp named
  have kept := later.objects handle pub held
  exact ⟨name_eq_some.mpr ⟨pub, kept, made⟩, not_permanent later.tracks.behind kept⟩

/-- Where a name was loaded and the handle has this name in the end, the task found the object. -/
theorem resolves_of_loadKeyByName (tracks : tpm.Tracks s) (filed : Filed s.cache)
    {alg : TpmHash} {name : Tpm2bName} {handle : TpmHandle}
    (ok : (loadKeyByName name).run s = .ok handle s') :
    Later tpm s s' ∧ ∀ last, Later tpm s' last →
      (tpm.session alg last.device).name handle = some name.bytes → Resolves tpm s name := by
  cases found : s.cache.findByName name with
  | none =>
      rw [loadKeyByName, EStateM.run_bind, EStateM.run_get] at ok
      dsimp only at ok
      rw [found] at ok
      cases ok
  | some key =>
      rw [run_loadKeyByName found] at ok
      rcases loadKeyByHandle_spec tracks (live_of_findByName filed found) with
        ⟨handle', t, ran, later, held, absent, -⟩ | ⟨⟨e, t, failed⟩, -⟩
      · rw [ok] at ran
        obtain ⟨rfl, rfl⟩ : handle = handle' ∧ s' = t := by simpa using ran
        refine ⟨later, fun last behind named => ?_⟩
        cases led : tpm.keyObject s key with
        | none =>
            have other : ¬ IsPermanent handle.value := fun permanent =>
              absurd (permanent.symm.trans (absent led)) (by decide)
            obtain ⟨area, held', -⟩ := name_eq_some.mp ((session_name other).mp named)
            -- nothing comes under a persistent handle
            rw [behind.persistent handle (absent led), held, led] at held'
            cases held'
        | some pub =>
            have kept := behind.objects handle pub (held.trans led)
            have other := not_permanent behind.tracks.behind kept
            obtain ⟨area, held', made⟩ := name_eq_some.mp ((session_name other).mp named)
            obtain rfl : pub = area := Option.some.inj (kept.symm.trans held')
            exact ⟨key, pub, found, led, made⟩
      · rw [ok] at failed
        cases failed

/-- The authorization that is configured for the key that is filed under a name. -/
def nameAuth (s : TaskState) (name : Tpm2bName) : Auth :=
  ((s.cache.findByName name).bind fun key => s.authMap.lookup key.handle).getD .default

/-- A password that fits is configured for the key that is filed under a name, or nothing. -/
def Authorizes (s : TaskState) (name : Tpm2bName) : Prop :=
  ∃ password, s.nameAuth name = .password password ∧ password.length ≤ maxDigestSize

theorem Later.nameAuth (later : Later tpm s s') (name : Tpm2bName) :
    s'.nameAuth name = s.nameAuth name := by
  rw [TaskState.nameAuth, TaskState.nameAuth, later.cache, later.authMap]

theorem secretAuth_eq {secret : VtpmPolicySecretCommand} (named : secret.objectName.bytes ≠ []) :
    s.secretAuth secret = s.nameAuth secret.objectName := by
  have nonempty : secret.objectName.bytes.isEmpty = false := by simpa using named
  rw [secretAuth, TaskState.nameAuth, nonempty]
  cases s.cache.findByName secret.objectName <;> rfl

theorem buildPasswordSession_isOk {password : Bytes} :
    (∃ command, buildPasswordSession password = .ok command) ↔
      password.length ≤ maxDigestSize := by
  constructor
  · rintro ⟨command, ok⟩
    obtain ⟨hmac, fits, -⟩ := bind_eq_ok.mp ok
    exact (TpmBuffer.tryFrom_eq_ok.mp (mapError_eq_ok.mp fits)).1
  · intro fits
    have small : password.length ≤ u16Max := Nat.le_trans fits (by decide)
    exact ⟨_, bind_eq_ok.mpr ⟨⟨password, fits, small⟩,
      mapError_eq_ok.mpr (TpmBuffer.tryFrom_eq_ok.mpr ⟨fits, small, rfl⟩), rfl⟩⟩

/-- When the step of a `PolicySecret` is loaded, and what it becomes. -/
theorem loadPolicyStep_secret {object : TpmHandle} {name : Tpm2bName} {policyRef : Tpm2bDigest}
    (named : name.bytes ≠ []) {loaded : TpmCommandValue × TpmAuthCommands} :
    (loadPolicyStep (.secret ⟨object, name, policyRef⟩)).run s = .ok loaded s' ↔
      ∃ handle password command, (loadKeyByName name).run s = .ok handle s' ∧
        s'.nameAuth name = .password password ∧ buildPasswordSession password = .ok command ∧
        (.policySecret ⟨.two handle (.new 0), .new, .new, policyRef, .new 0, ()⟩,
          ⟨[command], (by decide : 1 ≤ maxSessions)⟩) = loaded := by
  have read : unmarshal (marshaledBody (⟨object, name, policyRef⟩ : VtpmPolicySecretCommand)) =
      .ok ((⟨object, name, policyRef⟩ : VtpmPolicySecretCommand), []) := unmarshal_secretBody _
  have found : secretHandle ⟨object, name, policyRef⟩ = loadKeyByName name := by
    rw [secretHandle, if_neg (by simpa using named)]
  have code : (VtpmPolicyCommand.secret ⟨object, name, policyRef⟩).cc = .policySecret := rfl
  rw [loadPolicyStep, if_pos code, loadPolicySecret, VtpmPolicyCommand.body, read]
  simp only [Except.mapError, Fallible.run_bind_eq_ok, Fallible.run_ofExcept_eq_ok]
  have auth (t : TaskState) : t.secretAuth ⟨object, name, policyRef⟩ = t.nameAuth name :=
    secretAuth_eq named
  constructor
  · rintro ⟨_, _, ⟨same, rfl⟩, ok⟩
    cases same
    dsimp only at ok
    rw [if_neg (by simp), found] at ok
    obtain ⟨handle, t, loads, ok⟩ := Fallible.run_bind_eq_ok.mp ok
    rw [EStateM.run_bind, EStateM.run_get] at ok
    dsimp only at ok
    rw [auth] at ok
    cases configured : t.nameAuth name with
    | password password =>
        rw [configured] at ok
        obtain ⟨command, u, built, ok⟩ := Fallible.run_bind_eq_ok.mp ok
        obtain ⟨made, rfl⟩ := Fallible.run_ofExcept_eq_ok.mp built
        cases ok
        exact ⟨handle, password, command, loads, configured, made, rfl⟩
    | session vhandle =>
        rw [configured] at ok
        cases ok
  · rintro ⟨handle, password, command, loads, configured, built, rfl⟩
    refine ⟨_, s, ⟨rfl, rfl⟩, ?_⟩
    dsimp only
    rw [if_neg (by simp), found]
    refine Fallible.run_bind_eq_ok.mpr ⟨handle, s', loads, ?_⟩
    rw [EStateM.run_bind, EStateM.run_get]
    dsimp only
    rw [auth, configured]
    exact Fallible.run_bind_eq_ok.mpr
      ⟨command, s', Fallible.run_ofExcept_eq_ok.mpr ⟨built, rfl⟩, rfl⟩

/-- The step of any other command is loaded as it was. -/
theorem loadPolicyStep_plain {command : TpmCommandValue} {step : VtpmPolicyCommand}
    (code : step.cc ≠ .policySecret) (restored : step.toCommand = .ok command) :
    (loadPolicyStep step).run s = .ok (command, ⟨[], by decide⟩) s := by
  rw [loadPolicyStep, if_neg code, restored]
  rfl

end TaskState
end Tpm2
