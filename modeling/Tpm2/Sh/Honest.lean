import Tpm2.PolicyLanguage.Replay
import Tpm2.Sh.Tracking

/-! A TPM that answers truly about its objects, and where a task finds the objects of its keys. -/

namespace Tpm2

open ByteCodec

/-- The handle of a hierarchy, for one. -/
abbrev IsPermanent (handle : UInt32) : Prop := handleType handle = TpmEnum.value TpmHt.permanent

theorem handleHt_eq_some {handle : UInt32} {ht : TpmHt} :
    handleHt handle = some ht ↔ handleType handle = TpmEnum.value ht := by
  rw [handleHt, ← TpmEnum.tryFrom_eq_ok]
  cases TpmEnum.tryFrom (E := TpmHt) (handleType handle) <;> simp [Except.toOption]

/-- What a TPM holds. -/
structure TpmObjects where
  /-- The public area of the object that is loaded or persistent under a handle. -/
  object : TpmHandle → Option TpmtPublic
  /-- The public area of the object in a saved context that can be loaded. -/
  saved : TpmsContext → Option TpmtPublic

/-- From `a` to `b` an object with the area `pub` is loaded under a free handle. Contexts of other
objects can still be loaded then. -/
structure TpmObjects.Loads (a b : TpmObjects) (handle : TpmHandle) (pub : TpmtPublic) : Prop where
  transient : IsTransient handle.value
  free : a.object handle = none
  holds : b.object handle = some pub
  others : ∀ other, other ≠ handle → b.object other = a.object other
  usable : ∀ context area, b.saved context = some area → a.saved context = some area
  kept : ∀ context area, a.saved context = some area → area ≠ pub → b.saved context = some area

/-- A TPM with what it holds behind each device that leads to it. `ReadPublic` and `ContextLoad`
succeed exactly for what it holds, and tell the truth about it. -/
structure HonestTpm (crypto : Libcrypto) where
  /-- The device leads to this TPM. -/
  Behind : TpmDevice → Prop
  objects : TpmDevice → TpmObjects
  object_class : ∀ {device : TpmDevice} {handle : TpmHandle} {pub : TpmtPublic}, Behind device →
    (objects device).object handle = some pub → IsTransient handle.value ∨
      IsPersistent handle.value
  readPublic_ok : ∀ {device : TpmDevice} {handle : TpmHandle} {pub : TpmtPublic}, Behind device →
    (objects device).object handle = some pub → ∃ name device',
      (TpmDevice.readPublic handle).run device = .ok (pub, name) device' ∧
      tpmMakeName crypto pub = .ok name ∧ Behind device' ∧ objects device' = objects device
  readPublic_error : ∀ {device : TpmDevice} {handle : TpmHandle}, Behind device →
    (objects device).object handle = none → ∃ e device',
      (TpmDevice.readPublic handle).run device = .error e device'
  loadContext_ok : ∀ {device : TpmDevice} {context : TpmsContext} {pub : TpmtPublic},
    Behind device → (objects device).saved context = some pub → ∃ handle device',
      (TpmDevice.loadContext context).run device = .ok handle device' ∧ Behind device' ∧
      (objects device).Loads (objects device') handle pub
  loadContext_error : ∀ {device : TpmDevice} {context : TpmsContext}, Behind device →
    (objects device).saved context = none → ∃ e device',
      (TpmDevice.loadContext context).run device = .error e device'

namespace HonestTpm

variable {crypto : Libcrypto} (tpm : HonestTpm crypto)

/-- The name of the object under a handle. -/
def name (device : TpmDevice) (handle : TpmHandle) : Option Tpm2bName :=
  ((tpm.objects device).object handle).bind fun pub => (tpmMakeName crypto pub).toOption

/-- A policy session of the TPM. A permanent handle is its own name. -/
def session (alg : TpmHash) (device : TpmDevice) : TpmReplay where
  hash data := (crypto.hash alg data).toOption
  size := crypto.size alg
  name handle :=
    if (handle.value >>> 24).toUInt8 = 0x40 then
      some (TpmIntBytes.toBeBytes handle.value)
    else
      (tpm.name device handle).map TpmBuffer.bytes

/-- The true name of what a task means by a handle: of the cached key, if there is one, and else of
the object in the TPM. -/
def trueName (s : TaskState) (handle : TpmHandle) : Option Tpm2bName :=
  match s.cache.findByHandle handle with
  | some key => (tpmMakeName crypto key.public).toOption
  | none => tpm.name s.device handle

/-- The public area of the object that loading a cached key leads to: that of the physical handle of
the key, of its persistent handle, or else of its saved context. -/
def keyObject (s : TaskState) (key : VtpmKey) : Option TpmtPublic :=
  match s.virtHandles.lookup key.handle.value with
  | some phandle => (tpm.objects s.device).object phandle
  | none =>
      if handleHt key.handle.value = some .persistent then
        (tpm.objects s.device).object key.handle
      else
        (tpm.objects s.device).saved key.context

/-- What a task tracks is there: the device leads to the TPM, and every tracked handle is that of a
loaded object. -/
structure Tracks (s : TaskState) : Prop where
  behind : tpm.Behind s.device
  tracked : s.Tracked
  loaded : ∀ phandle ∈ s.physHandles, ∃ pub, (tpm.objects s.device).object phandle = some pub

variable {tpm}

theorem makeName_eq_some {pub : TpmtPublic} {name : Tpm2bName} :
    (tpmMakeName crypto pub).toOption = some name ↔ tpmMakeName crypto pub = .ok name := by
  cases tpmMakeName crypto pub <;> simp [Except.toOption]

theorem name_eq_some {device : TpmDevice} {handle : TpmHandle} {name : Tpm2bName} :
    tpm.name device handle = some name ↔ ∃ pub, (tpm.objects device).object handle = some pub ∧
      tpmMakeName crypto pub = .ok name := by
  rw [HonestTpm.name, Option.bind_eq_some_iff]
  exact exists_congr fun pub => and_congr_right fun _ => makeName_eq_some

/-- A true name is that of the cached key or of the object in the TPM. -/
theorem trueName_cases {s : TaskState} {handle : TpmHandle} {name : Tpm2bName}
    (named : tpm.trueName s handle = some name) :
    (∃ key, s.cache.findByHandle handle = some key ∧ tpmMakeName crypto key.public = .ok name) ∨
    (s.cache.findByHandle handle = none ∧ ∃ pub,
      (tpm.objects s.device).object handle = some pub ∧ tpmMakeName crypto pub = .ok name) := by
  rw [HonestTpm.trueName] at named
  split at named
  next key found => exact .inl ⟨key, found, makeName_eq_some.mp named⟩
  next missing => exact .inr ⟨missing, name_eq_some.mp named⟩

theorem trueName_ne_nil {s : TaskState} {handle : TpmHandle} {name : Tpm2bName}
    (named : tpm.trueName s handle = some name) : name.bytes ≠ [] := by
  rcases trueName_cases named with ⟨_, _, made⟩ | ⟨_, _, _, made⟩
  · exact tpmMakeName_ne_nil made
  · exact tpmMakeName_ne_nil made

/-- A handle that is not permanent has the name of its object. -/
theorem session_name {alg : TpmHash} {device : TpmDevice} {handle : TpmHandle} {name : Tpm2bName}
    (other : ¬ IsPermanent handle.value) :
    (tpm.session alg device).name handle = some name.bytes ↔
      tpm.name device handle = some name := by
  have typed : (handle.value >>> 24).toUInt8 ≠ 0x40 := other
  have named : (tpm.session alg device).name handle =
      (tpm.name device handle).map TpmBuffer.bytes := if_neg typed
  rw [named, Option.map_eq_some_iff]
  constructor
  · rintro ⟨found, named, same⟩
    rwa [← TpmBuffer.ext same]
  · intro named
    exact ⟨name, named, rfl⟩

theorem not_permanent {device : TpmDevice} {handle : TpmHandle} {pub : TpmtPublic}
    (behind : tpm.Behind device) (held : (tpm.objects device).object handle = some pub) :
    ¬ IsPermanent handle.value := by
  intro permanent
  rcases tpm.object_class behind held with transient | persistent
  · exact absurd (permanent.symm.trans transient) (by decide)
  · exact absurd (permanent.symm.trans persistent) (by decide)

end HonestTpm
end Tpm2
