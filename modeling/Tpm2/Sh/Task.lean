import Tpm2.Device.Session
import Tpm2.Vtpm.Cache

/-! The state of a task: a device, the key cache, and what the task has loaded and opened. -/

namespace Tpm2

open ByteCodec

open Device (TpmPolicySessionBuilder)

/-- The errors of a task. -/
inductive TaskError
  | device (e : TpmDeviceError)
  | invalidParentHandle
  | accessDenied
  | authenticationMissing
  | lockout
  | policyDenied
  | vtpm (e : VtpmError)
  | crypto (e : TpmCryptoError)
  | protocol (e : TpmError)
  | handleNotFound (handle : UInt32)
  | handleNameNotFound (name : Tpm2bName)
  | handleAlreadyTracked (handle : TpmHandle)
  | malformedData
  | invalidAuth
  | tooManyAuthSessions
  | passwordTooLong (bytes : Nat)
  | nonceFailed
  | nonceTooLong (bytes : Nat)
  | invalidHandle
  | handlePatternNotAllowed
  | unknownHandle (handle : UInt32)
  deriving DecidableEq

/-- Maps a `TpmDeviceError` to a user-facing error. -/
def deviceErr : TpmDeviceError → TaskError
  | .tpmRc rc =>
      match rc.base with
      | .handle | .referenceH0 | .type => .invalidParentHandle
      | .authFail => .accessDenied
      | .authMissing => .authenticationMissing
      | .lockout => .lockout
      | .policyFail => .policyDenied
      | _ => .device (.tpmRc rc)
  | other => .device other

/-- Returns the handle type encoded in the high octet of a handle. -/
def handleHt (handle : UInt32) : Option TpmHt := TpmEnum.tryFrom (handleType handle) |>.toOption

inductive Auth
  | password (password : Bytes)
  | session (vhandle : UInt32)
  deriving DecidableEq

/-- `Auth::default()`. -/
def Auth.default : Auth := .password []

/-- What a device answers when it is asked about a cached key. -/
inductive Answer
  | valid
  | renamed
  | stale
  | failed (e : TpmDeviceError)
  deriving DecidableEq

structure TaskState where
  device : TpmDevice
  cache : VtpmCache
  /-- Holds all temporary sessions, indexed by their virtual handle. -/
  sessions : HashMap TpmHandle Device.TpmPolicySession
  /-- Loaded virtual handles. -/
  virtHandles : HashMap UInt32 TpmHandle
  /-- Tracked physical handles. -/
  physHandles : HashSet TpmHandle
  /-- Authentication values indexed by handle. -/
  authMap : HashMap TpmHandle Auth
  /-- History: the cached keys that the device was asked about, with its answers. -/
  answers : List (UInt32 × Answer)

/-- The response codes for which `refreshKey` takes a context to be stale. -/
def IsStaleCode (rc : TpmRc) : Prop :=
  rc.base = .referenceH0 ∨ rc.base = .integrity ∨ rc.base = .hierarchy ∨ rc.base = .value ∨
    rc.base = .handle

instance (rc : TpmRc) : Decidable (IsStaleCode rc) := inferInstanceAs (Decidable (_ ∨ _))

/-- Loads a context and flushes it again; the result is `false` when the context is stale. -/
def refreshKey (context : TpmsContext) : Fallible TpmDeviceError TpmDevice Bool := do
  match ← Fallible.outcome (TpmDevice.loadContext context) with
  | .ok handle => do
      TpmDevice.flushContext handle
      return true
  | .error (.tpmRc rc) => if IsStaleCode rc then return false else throw (.tpmRc rc)
  | .error e => throw e

def buildPasswordSession (password : Bytes) : Except TaskError TpmsAuthCommand := do
  let hmac ← (TpmBuffer.tryFrom password).mapError fun _ => .passwordTooLong password.length
  return ⟨.new (TpmEnum.value TpmRh.pw), .new, ⟨0⟩, hmac⟩

namespace TaskState

/-- Runs a program on the device. -/
def onDevice {ε α : Type} (x : Fallible ε TpmDevice α) : Fallible ε TaskState α :=
  Fallible.part device (fun task device => { task with device }) x

theorem onDevice_run {ε α : Type} (x : Fallible ε TpmDevice α) (s : TaskState) :
    (onDevice x).run s = match x.run s.device with
      | .ok a device => .ok a { s with device }
      | .error e device => .error e { s with device } := by
  rw [onDevice, Fallible.run_part]
  cases x.run s.device <;> rfl

/-- Runs a program on the device and reports its errors to the user. -/
def withDevice {α : Type} (x : Fallible TpmDeviceError TpmDevice α) :
    Fallible TaskError TaskState α :=
  EStateM.adaptExcept deviceErr (onDevice x)

theorem withDevice_run {α : Type} (x : Fallible TpmDeviceError TpmDevice α) (s : TaskState) :
    (withDevice x).run s = match x.run s.device with
      | .ok a device => .ok a { s with device }
      | .error e device => .error (deviceErr e) { s with device } := by
  rw [withDevice, EStateM.run_adaptExcept, onDevice_run]
  cases x.run s.device <;> rfl

/-- Runs a program on the cache. -/
def onCache {α : Type} (x : Fallible VtpmError VtpmCache α) : Fallible TaskError TaskState α :=
  EStateM.adaptExcept .vtpm (Fallible.part cache (fun task cache => { task with cache }) x)

/-- Records an answer of the device in the history. -/
def note (task : TaskState) (vhandle : UInt32) (answer : Answer) : TaskState :=
  { task with answers := task.answers ++ [(vhandle, answer)] }

/-- Removes a session from the task's state and flushes it from the TPM. -/
def removeSession (vhandle : TpmHandle) : Fallible TaskError TaskState Unit := do
  match (← get).sessions.lookup vhandle with
  | none => throw (.handleNotFound vhandle.value)
  | some session => do
      modify fun task => { task with sessions := task.sessions.erase vhandle }
      withDevice session.flush

/-- Tracks a transient handle for automatic cleanup. -/
def track (physHandle : TpmHandle) : Fallible TaskError TaskState Unit := do
  if physHandle ∈ (← get).physHandles then
    let _ ← Fallible.outcome (φ := TaskError) (onDevice (TpmDevice.flushContext physHandle))
    throw (.handleAlreadyTracked physHandle)
  else
    modify fun task => { task with physHandles := task.physHandles.insert physHandle () }

/-- Returns the authorization for a handle, or the default empty password. -/
def authFor (task : TaskState) (handle : TpmHandle) : Auth :=
  (task.authMap.lookup handle).getD .default

/-- Removes a handle from the live handle tracking list. -/
def untrack (task : TaskState) (handle : TpmHandle) : TaskState :=
  { task with
    physHandles := task.physHandles.erase handle
    virtHandles := task.virtHandles.retain fun _ v => v ≠ handle }

/-- Loads a TPM context from a handle. -/
def loadKeyByHandle (target : TpmHandle) : Fallible TaskError TaskState TpmHandle := do
  match (← get).virtHandles.lookup target.value with
  | some phandle => return phandle
  | none =>
      if handleHt target.value = some .persistent then
        return .new target.value
      else
        match (← get).cache.findByHandle target with
        | none => throw (.handleNotFound target.value)
        | some key => do
            let loadedPhandle ← withDevice (TpmDevice.loadContext key.context)
            track loadedPhandle
            modify fun task =>
              { task with virtHandles := task.virtHandles.insert target.value loadedPhandle }
            return loadedPhandle

/-- Loads a TPM context from a `Tpm2bName`. -/
def loadKeyByName (name : Tpm2bName) : Fallible TaskError TaskState TpmHandle := do
  match (← get).cache.findByName name with
  | some key => loadKeyByHandle (.new key.handle.value)
  | none => throw (.handleNameNotFound name)

/-- Fetches the policy and the name algorithm for a handle. -/
def fetchPolicy (handle : TpmHandle) :
    Fallible TaskError TaskState (TpmHandle × List VtpmPolicyCommand × TpmAlgId) := do
  let physHandle ← loadKeyByHandle handle
  if handleHt handle.value = some .transient then
    match (← get).cache.findByHandle handle with
    | none => throw (.handleNotFound handle.value)
    | some key => return (physHandle, key.policy, key.public.nameAlg)
  else
    let («public», _) ← withDevice (TpmDevice.readPublic physHandle)
    return (physHandle, [], «public».nameAlg)

/-- The authorization of the object of a `PolicySecret` step. -/
def secretAuth (task : TaskState) (secret : VtpmPolicySecretCommand) : Auth :=
  let vhandle := if secret.objectName.bytes.isEmpty then none
    else (task.cache.findByName secret.objectName).map VtpmKey.handle
  ((vhandle.bind task.authMap.lookup).getD .default)

/-- The handle of the object of a `PolicySecret` step. -/
def secretHandle (secret : VtpmPolicySecretCommand) : Fallible TaskError TaskState TpmHandle :=
  if secret.objectName.bytes.isEmpty then return secret.objectHandleHint
  else loadKeyByName secret.objectName

def loadPolicySecret (vtpmCmd : VtpmPolicyCommand) :
    Fallible TaskError TaskState (TpmCommandValue × TpmAuthCommands) := do
  let (secret, rest) ← Fallible.ofExcept
    ((unmarshal (α := VtpmPolicySecretCommand) vtpmCmd.body).mapError .protocol)
  if !rest.isEmpty then
    throw .malformedData
  let liveHandle ← secretHandle secret
  let tpmCmd : TpmCommandValue := .policySecret
    ⟨.two liveHandle (.new 0), .new, .new, secret.policyRef, .new 0, ()⟩
  match (← get).secretAuth secret with
  | .password password => do
      let authCmd ← Fallible.ofExcept (buildPasswordSession password)
      return (tpmCmd, ⟨[authCmd], (by decide : 1 ≤ maxSessions)⟩)
  | .session _ => throw .invalidAuth

/-- One step of `loadPolicy`. -/
def loadPolicyStep (vtpmCmd : VtpmPolicyCommand) :
    Fallible TaskError TaskState (TpmCommandValue × TpmAuthCommands) := do
  if vtpmCmd.cc = .policySecret then
    loadPolicySecret vtpmCmd
  else
    let tpmCmd ← Fallible.ofExcept (vtpmCmd.toCommand.mapError .vtpm)
    return (tpmCmd, ⟨[], by decide⟩)

/-- The loop of `loadPolicy`. -/
def loadPolicySteps : List VtpmPolicyCommand → Fallible TaskError TaskState TpmCommandList
  | [] => return []
  | vtpmCmd :: policy => do
      let command ← loadPolicyStep vtpmCmd
      let commands ← loadPolicySteps policy
      return command :: commands

def loadPolicy (policy : List VtpmPolicyCommand) :
    Fallible TaskError TaskState (Option TpmCommandList) := do
  if policy.isEmpty then
    return none
  else
    return some (← loadPolicySteps policy)

/-- Opens a policy session and runs the commands in it. -/
def runPolicy (crypto : Libcrypto) (nameAlg : TpmAlgId) (commands : TpmCommandList) :
    Fallible TaskError TaskState Auth := do
  let session ← withDevice
    (TpmPolicySessionBuilder.openSession crypto { authHash := nameAlg })
  match ← Fallible.outcome (onDevice (session.run commands)) with
  | .error e => do
      let _ ← Fallible.outcome (φ := TaskError) (onDevice session.flush)
      throw (deviceErr e)
  | .ok () => do
      modify fun task => { task with sessions := task.sessions.insert session.handle session }
      return .session session.handle.value

/-- Resolves authorization for a given object. -/
def resolveAuth (crypto : Libcrypto) (handle : TpmHandle) :
    Fallible TaskError TaskState (TpmHandle × TpmAlgId × Auth) := do
  let (physHandle, policy, nameAlg) ← fetchPolicy handle
  match (← get).authMap.lookup handle with
  | some auth => return (physHandle, nameAlg, auth)
  | none =>
      match ← loadPolicy policy with
      | some (command :: commands) => do
          let auth ← runPolicy crypto nameAlg (command :: commands)
          return (physHandle, nameAlg, auth)
      | _ => return (physHandle, nameAlg, .default)

/-- A random nonce for a session with the hash algorithm `hashAlg`. -/
def sessionNonce (crypto : Libcrypto) (hashAlg : TpmAlgId) :
    Fallible TaskError TaskState Tpm2bNonce := do
  let hash ← Fallible.ofExcept ((TpmHash.tryFrom hashAlg).mapError .crypto)
  let nonceSize := crypto.size hash
  let nonceBytes ← onDevice TpmDevice.draw
  if nonceBytes.length ≠ nonceSize then
    throw .nonceFailed
  else
    Fallible.ofExcept ((TpmBuffer.tryFrom nonceBytes).mapError fun _ => .nonceTooLong nonceSize)

/-- The authorization command of one entry of the list of `execute`. -/
def authCommand (crypto : Libcrypto) : Auth → Fallible TaskError TaskState TpmsAuthCommand
  | .session vhandle => do
      match (← get).sessions.lookup (.new vhandle) with
      | none => throw (.handleNotFound vhandle)
      | some session => do
          let nonce ← sessionNonce crypto session.hashAlg
          return ⟨session.handle, nonce, session.attributes, .new⟩
  | .password password => Fallible.ofExcept (buildPasswordSession password)

/-- The loop of `execute` over the list of authorizations. -/
def authCommands (crypto : Libcrypto) :
    List Auth → Fallible TaskError TaskState (List TpmsAuthCommand)
  | [] => return []
  | auth :: authList => do
      let command ← authCommand crypto auth
      let commands ← authCommands crypto authList
      return command :: commands

/-- Executes a TPM command with full authorization session handling. -/
def execute (crypto : Libcrypto) {C : TpmBodyType} (command : TpmBody C) (authList : List Auth) :
    Fallible TaskError TaskState TpmResponse := do
  let sessions ← authCommands crypto authList
  withDevice (TpmDevice.transmit command sessions)

/-- Runs the `TPM2_Import` command to load a duplicate blob into the TPM. -/
def importKey (crypto : Libcrypto) (parentHandle : TpmHandle) («public» : Tpm2bPublic)
    (duplicate : Tpm2bPrivate) (inSymSeed : Tpm2bEncryptedSecret) (encryptionKey : Tpm2bData)
    (symmetricAlg : TpmtSymDefObject) (authList : List Auth) :
    Fallible TaskError TaskState Tpm2bPrivate := do
  let resp ← execute crypto (C := TpmImportCommand)
    ⟨.one parentHandle, (encryptionKey, «public», duplicate, inSymSeed, symmetricAlg, ())⟩ authList
  let importResp ← Fallible.ofExcept ((resp.unmarshal TpmImportResponse).mapError .protocol)
  return importResp.parameters.1

/-- Evicts a persistent object or makes a transient object persistent. -/
def evictControl (crypto : Libcrypto) (objectToEvict persistentHandle : TpmHandle) :
    Fallible TaskError TaskState Unit := do
  let authHandle : TpmHandle := .new <|
    if persistentHandle.value &&& 0x00FFFFFF ≤ 0x007FFFFF then TpmEnum.value TpmRh.owner
    else TpmEnum.value TpmRh.platform
  let auth := (← get).authFor authHandle
  let response ← execute crypto (C := TpmEvictControlCommand)
    ⟨.two authHandle objectToEvict, (persistentHandle, ())⟩ [auth]
  let _ ← Fallible.ofExcept ((response.unmarshal TpmEvictControlResponse).mapError .protocol)
  return

/-- Removes the entry of a persistent handle. -/
def removeEntry (vhandle : TpmHandle) : Fallible TaskError TaskState Unit := do
  let _ ← onCache (VtpmCache.remove vhandle)
  return

/-- The part of `validatePersistentHandles` for one handle. -/
def validateEntry (crypto : Libcrypto) (vhandle : TpmHandle) :
    Fallible TaskError TaskState Unit := do
  match (← get).cache.findByHandle vhandle with
  | none => return
  | some key =>
      match ← Fallible.outcome (onDevice (TpmDevice.readPublic vhandle)) with
      | .ok (_, nameOnTpm) => do
          let cachedName ← Fallible.ofExcept ((tpmMakeName crypto key.public).mapError .crypto)
          if cachedName ≠ nameOnTpm then
            modify fun task => task.note vhandle.value .renamed
            removeEntry vhandle
          else
            modify fun task => task.note vhandle.value .valid
      | .error e => do
          modify fun task => task.note vhandle.value (.failed e)
          removeEntry vhandle

/-- The loop of `validatePersistentHandles`. -/
def validateEntries (crypto : Libcrypto) : List TpmHandle → Fallible TaskError TaskState Unit
  | [] => return
  | vhandle :: vhandles => do
      validateEntry crypto vhandle
      validateEntries crypto vhandles

/-- Best-effort validation of persistent handles in the vTPM cache. -/
def validatePersistentHandles (crypto : Libcrypto) : Fallible TaskError TaskState Unit := do
  let vhandles := (← get).cache.contexts.keys.filter fun v => handleHt v = some .persistent
  validateEntries crypto (vhandles.map .new)

/-- The part of the first loop of `refreshCache` for one handle: returns the first error and the
handles to remove. -/
def refreshEntry (vhandle : UInt32) (firstError : Option TaskError)
    (handlesToRemove : List UInt32) :
    Fallible TaskError TaskState (Option TaskError × List UInt32) := do
  if handleHt vhandle = some .persistent then
    return (firstError, handlesToRemove)
  else
    match (← get).cache.findByHandle (.new vhandle) with
    | none => return (firstError, handlesToRemove)
    | some key =>
        match ← Fallible.outcome (onDevice (refreshKey key.context)) with
        | .ok true => do
            modify fun task => { task with cache := task.cache.markDirty vhandle }.note vhandle
              .valid
            return (firstError, handlesToRemove)
        | .ok false => do
            modify fun task => task.note vhandle .stale
            return (firstError, handlesToRemove ++ [vhandle])
        | .error e => do
            modify fun task => task.note vhandle (.failed e)
            return (firstError.or (some (deviceErr e)), handlesToRemove ++ [vhandle])

/-- The first loop of `refreshCache`. -/
def refreshEntries : List UInt32 → Option TaskError → List UInt32 →
    Fallible TaskError TaskState (Option TaskError × List UInt32)
  | [], firstError, handlesToRemove => return (firstError, handlesToRemove)
  | vhandle :: vhandles, firstError, handlesToRemove => do
      let (firstError, handlesToRemove) ← refreshEntry vhandle firstError handlesToRemove
      refreshEntries vhandles firstError handlesToRemove

/-- The second loop of `refreshCache`. -/
def removeEntries : List UInt32 → Option TaskError →
    Fallible TaskError TaskState (Option TaskError)
  | [], firstError => return firstError
  | vhandle :: vhandles, firstError => do
      match ← Fallible.outcome (removeEntry (.new vhandle)) with
      | .ok () => removeEntries vhandles firstError
      | .error e => removeEntries vhandles (firstError.or (some e))

/-- Refreshes the cache by checking validity of the keys. -/
def refreshCache : Fallible TaskError TaskState Unit := do
  let vhandles := (← get).cache.contexts.keys
  let (firstError, handlesToRemove) ← refreshEntries vhandles none []
  match ← removeEntries handlesToRemove firstError with
  | none => return
  | some e => throw e

/-- Flushes handles one after the other; a failure is only logged. -/
def flushHandles : List TpmHandle → TpmDevice → TpmDevice
  | [], device => device
  | handle :: handles, device =>
      flushHandles handles (Fallible.after ((TpmDevice.flushContext handle).run device))

/-- `Drop`: the tracked handles and then the sessions are flushed, and the cache is saved. -/
def drop (task : TaskState) : TaskState :=
  let device := flushHandles task.physHandles.keys task.device
  let device := flushHandles (task.sessions.values.map Device.TpmPolicySession.handle) device
  { task with device, physHandles := ∅, cache := Fallible.after (VtpmCache.flush.run task.cache) }

/-- A new task with a cache and a transport. -/
def sampleTask (cache : VtpmCache) (transport : List Bytes → Exchange) : TaskState :=
  ⟨⟨transport, [], [], []⟩, cache, ∅, ∅, ∅, ∅, []⟩

end TaskState
end Tpm2
