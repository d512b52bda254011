import Tpm2.Crypto.Name
import Tpm2.Vtpm.Key

/-! The cache of key contexts. -/

namespace Tpm2

open ByteCodec

def transientStart : UInt32 := 0x80000000
def transientEnd : UInt32 := 0x80FFFFFF
def transientCount : Nat := 0x01000000

/-- `(handle >> 24) as u8`. -/
def handleType (handle : UInt32) : UInt8 := (handle >>> 24).toUInt8

abbrev IsTransient (handle : UInt32) : Prop := handleType handle = TpmEnum.value TpmHt.transient
abbrev IsPersistent (handle : UInt32) : Prop := handleType handle = TpmEnum.value TpmHt.persistent

/-- Keys are cached under virtual handles. -/
structure VtpmCache where
  /-- Map from virtual handles to cached keys. -/
  contexts : HashMap UInt32 VtpmKey
  /-- Map from `Tpm2bName` to live handles. -/
  handles : HashMap Tpm2bName TpmHandle
  /-- Reverse index from virtual handles to the name they published in `handles`. -/
  names : HashMap UInt32 Tpm2bName
  /-- Set of virtual handles, which must be persisted. -/
  dirty : HashSet UInt32
  /-- Cache root directory. -/
  cacheDir : Directory
  /-- Next available virtual handle. -/
  nextVirtualHandle : UInt32

/-- The key under which the subtree search files a public area: its encoding. -/
def parentKeyBytes (pub : TpmtPublic) : Except VtpmError Bytes := do
  let writer ← (marshal pub (Cursor.zeros (len pub))).mapError .marshal
  return writer.buffer

/-- The last dot of a file name splits off its extension, unless the name starts with it. -/
def splitFileAtDot (name : Bytes) : Option (Bytes × Bytes) :=
  let dot : UInt8 := 46
  let after := (name.reverse.takeWhile (· ≠ dot)).reverse
  let before := name.take (name.length - after.length - 1)
  if name = [dot, dot] ∨ dot ∉ name ∨ before = [] then none else some (before, after)

/-- The value of a hexadecimal digit. -/
def hexValue (digit : UInt8) : Option Nat :=
  let d := digit.toNat
  if 48 ≤ d ∧ d ≤ 57 then some (d - 48)
  else if 65 ≤ d ∧ d ≤ 70 then some (d - 55)
  else if 97 ≤ d ∧ d ≤ 102 then some (d - 87)
  else none

/-- The digits of `u32::from_str_radix(_, 16)`, most significant first. -/
def fromHexDigits : Bytes → Nat → Option Nat
  | [], value => some value
  | digit :: digits, value => do
      let next := 16 * value + (← hexValue digit)
      if next ≤ u32Max then fromHexDigits digits next else none

/-- `u32::from_str_radix(_, 16)`: a sign `+` may stand before the digits. -/
def fromStrRadix16 (text : Bytes) : Option UInt32 :=
  let digits := if text.head? = some 43 then text.tail else text
  if digits = [] then none else (fromHexDigits digits 0).map UInt32.ofNat

/-- The virtual handle that the name of a record file stands for. -/
def recordHandle (name : Bytes) : Option UInt32 := do
  let (stem, extension) ← splitFileAtDot name
  if extension = ascii ['b', 'i', 'n'] then fromStrRadix16 stem else none

namespace VtpmCache

/-- Runs a program on the cache directory. -/
def onDir {α : Type} (x : Fallible VtpmError Directory α) : Fallible VtpmError VtpmCache α :=
  Fallible.part cacheDir (fun cache cacheDir => { cache with cacheDir }) x

/-- Retires the name published by `virtualHandle`. The `handles` entry is only dropped when it still
resolves to this handle. -/
def unpublishName (cache : VtpmCache) (virtualHandle : UInt32) : VtpmCache :=
  match cache.names.lookup virtualHandle with
  | none => cache
  | some name =>
      let cache := { cache with names := cache.names.erase virtualHandle }
      if (cache.handles.lookup name).map TpmInt.value = some virtualHandle then
        { cache with handles := cache.handles.erase name }
      else
        cache

/-- Publishes `name` as the lookup key for `virtualHandle`. -/
def publishName (cache : VtpmCache) (virtualHandle : UInt32) (name : Tpm2bName) : VtpmCache :=
  let cache := cache.unpublishName virtualHandle
  { cache with
    handles := cache.handles.insert name (.new virtualHandle)
    names := cache.names.insert virtualHandle name }

/-- Finds a VTPM key by its `Tpm2bName`. -/
def findByName (cache : VtpmCache) (targetName : Tpm2bName) : Option VtpmKey := do
  let handle ← cache.handles.lookup targetName
  cache.contexts.lookup handle.value

/-- Finds a VTPM key corresponding to a virtual handle. -/
def findByHandle (cache : VtpmCache) (handle : TpmHandle) : Option VtpmKey :=
  cache.contexts.lookup handle.value

/-- The loop of `fetchAncestors`, for at most `fuel` keys. -/
def fetchLoop (crypto : Libcrypto) (cache : VtpmCache) :
    Nat → TpmHandle → List TpmHandle → Option (Except VtpmError (List TpmHandle))
  | 0, _, _ => none
  | fuel + 1, current, chain =>
      match cache.findByHandle current with
      | none => some (.error (.handleNotFound current))
      | some key =>
          if key.parent.objectType = .null then
            some (.ok (current :: chain))
          else
            match cache.contexts.entries.find? fun entry => entry.2.public = key.parent with
            | some parent => fetchLoop crypto cache fuel (.new parent.1) (current :: chain)
            | none =>
                match tpmMakeName crypto key.parent with
                | .error _ => some (.error .operationFailed)
                | .ok parentName =>
                    match cache.handles.lookup parentName with
                    | some phandle => some (.ok (phandle :: current :: chain))
                    | none => some (.error .parentNotFound)

/-- Finds the ancestor chain for a given VTPM handle, from the root down to the target. The result
is `none` when the loop has not ended after `fuel` keys. -/
def fetchAncestors (crypto : Libcrypto) (cache : VtpmCache) (fuel : Nat)
    (targetHandle : TpmHandle) : Option (Except VtpmError (List TpmHandle)) :=
  if IsPersistent targetHandle.value ∧ targetHandle ∈ cache.handles.values then
    some (.ok [targetHandle])
  else
    fetchLoop crypto cache fuel targetHandle []

/-- Takes a context out of the maps, its name out of the index, and its dirty flag away. -/
def takeOut (cache : VtpmCache) (virtualHandle : UInt32) : VtpmCache :=
  let cache := { cache with contexts := cache.contexts.erase virtualHandle }
  let cache := cache.unpublishName virtualHandle
  { cache with dirty := cache.dirty.erase virtualHandle }

/-- Files the contexts by the encoding of their parent. -/
def parentToChildren : List (Sigma fun _ : UInt32 => VtpmKey) →
    HashMap Bytes (List (UInt32 × TpmtPublic)) →
      Except VtpmError (HashMap Bytes (List (UInt32 × TpmtPublic)))
  | [], children => return children
  | ⟨virtualHandle, key⟩ :: entries, children => do
      let bytes ← parentKeyBytes key.parent
      parentToChildren entries (children.push bytes (virtualHandle, key.public))

/-- Deletes the children that are still there. Returns the deleted handles with those of before, and
the queue of ancestors with the publics of the deleted children behind it. -/
def removeChildren : List (UInt32 × TpmtPublic) → List UInt32 → List TpmtPublic →
    Fallible VtpmError VtpmCache (List UInt32 × List TpmtPublic)
  | [], deleted, ancestors => return (deleted, ancestors)
  | (child, childPublic) :: children, deleted, ancestors => do
      match (← get).contexts.lookup child with
      | none => removeChildren children deleted ancestors
      | some context =>
          onDir context.delete
          modify fun cache => cache.takeOut child
          removeChildren children (deleted ++ [child]) (ancestors ++ [childPublic])

/-- Only the index changes when a name is retired. -/
theorem unpublishName_eq (cache : VtpmCache) (v : UInt32) :
    cache.unpublishName v = { cache with
      handles := (cache.unpublishName v).handles
      names := (cache.unpublishName v).names } := by
  unfold unpublishName
  split
  · rfl
  · dsimp only
    split <;> rfl

@[simp] theorem contexts_unpublishName (cache : VtpmCache) (v : UInt32) :
    (cache.unpublishName v).contexts = cache.contexts := by
  rw [unpublishName_eq]

@[simp] theorem dirty_unpublishName (cache : VtpmCache) (v : UInt32) :
    (cache.unpublishName v).dirty = cache.dirty := by
  rw [unpublishName_eq]

@[simp] theorem next_unpublishName (cache : VtpmCache) (v : UInt32) :
    (cache.unpublishName v).nextVirtualHandle = cache.nextVirtualHandle := by
  rw [unpublishName_eq]

@[simp] theorem cacheDir_unpublishName (cache : VtpmCache) (v : UInt32) :
    (cache.unpublishName v).cacheDir = cache.cacheDir := by
  rw [unpublishName_eq]

@[simp] theorem contexts_takeOut (cache : VtpmCache) (v : UInt32) :
    (cache.takeOut v).contexts = cache.contexts.erase v := by
  simp [takeOut]

/-- The same cache over another state of its directory. -/
def withDir (cache : VtpmCache) (cacheDir : Directory) : VtpmCache := { cache with cacheDir }

theorem onDir_run {α : Type} (x : Fallible VtpmError Directory α) (cache : VtpmCache) :
    (onDir x).run cache = match x.run cache.cacheDir with
      | .ok a dir => .ok a (cache.withDir dir)
      | .error e dir => .error e (cache.withDir dir) := by
  rw [onDir, Fallible.run_part]
  cases x.run cache.cacheDir <;> rfl

theorem removeChildren_nil (deleted : List UInt32) (ancestors : List TpmtPublic)
    (cache : VtpmCache) :
    (removeChildren [] deleted ancestors).run cache = .ok (deleted, ancestors) cache := rfl

theorem removeChildren_cons (child : UInt32 × TpmtPublic) (children : List (UInt32 × TpmtPublic))
    (deleted : List UInt32) (ancestors : List TpmtPublic) (cache : VtpmCache) :
    (removeChildren (child :: children) deleted ancestors).run cache =
      match cache.contexts.lookup child.1 with
      | none => (removeChildren children deleted ancestors).run cache
      | some context =>
          match context.delete.run cache.cacheDir with
          | .error e dir => .error e (cache.withDir dir)
          | .ok () dir => (removeChildren children (deleted ++ [child.1])
              (ancestors ++ [child.2])).run ((cache.withDir dir).takeOut child.1) := by
  rw [removeChildren, EStateM.run_bind, EStateM.run_get]
  dsimp only
  cases cache.contexts.lookup child.1 with
  | none => rfl
  | some context =>
      dsimp only
      rw [EStateM.run_bind, onDir_run]
      cases context.delete.run cache.cacheDir <;> rfl

theorem length_erase_contexts {contexts : HashMap UInt32 VtpmKey} {v : UInt32} {key : VtpmKey}
    (found : contexts.lookup v = some key) :
    (contexts.erase v).entries.length + 1 = contexts.entries.length := by
  have mem : v ∈ contexts.keys := AList.lookup_isSome.mp (by simp [found])
  have length := List.length_erase_of_mem mem
  have pos := List.length_pos_of_mem mem
  rw [← AList.keys_erase] at length
  simp only [AList.keys, List.keys, List.length_map] at length pos
  omega

/-- Every deleted child leaves the map of contexts and brings one more ancestor into the queue. -/
theorem removeChildren_length {children : List (UInt32 × TpmtPublic)}
    {deleted deleted' : List UInt32}
    {ancestors ancestors' : List TpmtPublic} {cache cache' : VtpmCache}
    (ok : (removeChildren children deleted ancestors).run cache =
      .ok (deleted', ancestors') cache') :
    cache'.contexts.entries.length + ancestors'.length =
      cache.contexts.entries.length + ancestors.length := by
  induction children generalizing deleted ancestors cache with
  | nil =>
      rw [removeChildren_nil] at ok
      cases ok
      rfl
  | cons child children ih =>
      rw [removeChildren_cons] at ok
      split at ok
      · exact ih ok
      next context found =>
        split at ok
        · cases ok
        next dir _ =>
          have length := length_erase_contexts found
          have rest := ih ok
          rw [contexts_takeOut, List.length_append, List.length_singleton] at rest
          change _ = ((cache.contexts.erase child.1).entries.length + _) at rest
          omega

/-- The loop of `removeSubtree` over the queue of ancestors. -/
def removeLoop (children : HashMap Bytes (List (UInt32 × TpmtPublic))) :
    List TpmtPublic → List UInt32 → VtpmCache → EStateM.Result VtpmError VtpmCache (List UInt32)
  | [], deleted, cache => .ok deleted cache
  | ancestor :: ancestors, deleted, cache =>
      match parentKeyBytes ancestor with
      | .error e => .error e cache
      | .ok bytes =>
          match _ : (removeChildren ((children.lookup bytes).getD []) deleted ancestors).run
              cache with
          | .error e cache => .error e cache
          | .ok (deleted, ancestors) cache => removeLoop children ancestors deleted cache
termination_by ancestors _ cache => cache.contexts.entries.length + ancestors.length
decreasing_by
  have := removeChildren_length ‹_›
  simp only [List.length_cons]
  omega

/-- Removes every context that descends from `firstPublic` by the encodings of the areas. -/
def removeSubtree (firstPublic : TpmtPublic) : Fallible VtpmError VtpmCache (List UInt32) := do
  let children ← Fallible.ofExcept (parentToChildren (← get).contexts.entries ∅)
  Fallible.ofRun (removeLoop children [firstPublic] [])

/-- Removes a context from the cache, with its descendants. -/
def remove (handle : TpmHandle) : Fallible VtpmError VtpmCache (List TpmHandle) := do
  let virtualHandle := handle.value
  match (← get).contexts.lookup virtualHandle with
  | none => return []
  | some key =>
      onDir key.delete
      modify fun cache => cache.takeOut virtualHandle
      let deletedChildren ← removeSubtree key.public
      return handle :: deletedChildren.map .new

def clearDirty (cache : VtpmCache) (virtualHandle : UInt32) : VtpmCache :=
  { cache with dirty := cache.dirty.erase virtualHandle }

/-- Saves the context of a dirty handle, if it is still there. -/
def saveContext (virtualHandle : UInt32) : Fallible VtpmError VtpmCache Unit := do
  match (← get).contexts.lookup virtualHandle with
  | some context =>
      onDir (context.save (binName virtualHandle))
      modify fun cache => cache.clearDirty virtualHandle
  | none => modify fun cache => cache.clearDirty virtualHandle

/-- The loop of `save` over the dirty handles. -/
def saveAll : List UInt32 → Fallible VtpmError VtpmCache Unit
  | [] => return
  | virtualHandle :: virtualHandles => do
      saveContext virtualHandle
      saveAll virtualHandles

def save : Fallible VtpmError VtpmCache Unit := do saveAll (← get).dirty.keys

/-- Flushes all dirty contexts to disk. -/
def flush : Fallible VtpmError VtpmCache Unit := save

/-- The name of a key, in the error of the cache. -/
def keyName (crypto : Libcrypto) (pub : TpmtPublic) : Except VtpmError Tpm2bName :=
  (tpmMakeName crypto pub).mapError fun _ => .operationFailed

/-- Puts a key into the map of contexts and its name into the index. -/
def insertKey (cache : VtpmCache) (virtualHandle : UInt32) (key : VtpmKey) (name : Tpm2bName) :
    VtpmCache :=
  { cache with contexts := cache.contexts.insert virtualHandle key }.publishName virtualHandle name

def markDirty (cache : VtpmCache) (virtualHandle : UInt32) : VtpmCache :=
  { cache with dirty := cache.dirty.insert virtualHandle () }

/-- The virtual handle after `virtualHandle`, in the range of transient handles. -/
def nextAfter (virtualHandle : UInt32) : UInt32 :=
  let next := virtualHandle + 1
  if next > transientEnd then transientStart else next

/-- The handle that the search of `saveTransient` tries in round `i`. -/
def candidate (cache : VtpmCache) (i : Nat) : UInt32 :=
  let virtualHandle := cache.nextVirtualHandle + UInt32.ofNat i
  if virtualHandle > transientEnd then
    transientStart + (virtualHandle - transientEnd - 1)
  else
    virtualHandle

/-- The search of `saveTransient` for a free handle: `n` rounds are left. -/
def vacantHandle (cache : VtpmCache) : (n : Nat) → Option UInt32
  | 0 => none
  | n + 1 =>
      let virtualHandle := cache.candidate (transientCount - (n + 1))
      if (cache.contexts.lookup virtualHandle).isNone then
        some virtualHandle
      else
        cache.vacantHandle n

/-- Saves a transient key to the cache under a free virtual handle. -/
def saveTransient (crypto : Libcrypto) (context : TpmsContext)
    («public» parentPublic : TpmtPublic) (policy : Option (List VtpmPolicyCommand)) :
    Fallible VtpmError VtpmCache TpmHandle := do
  match (← get).vacantHandle transientCount with
  | none => throw .noHandles
  | some virtualHandle =>
      let key : VtpmKey := ⟨.new version, .new virtualHandle, «public», parentPublic, context,
        policy.getD []⟩
      let name ← Fallible.ofExcept (keyName crypto key.public)
      modify fun cache => { (cache.insertKey virtualHandle key name).markDirty virtualHandle with
        nextVirtualHandle := nextAfter virtualHandle }
      return .new virtualHandle

/-- The context of a key that resides in the TPM's NVRAM. -/
def persistentContext : TpmsContext := ⟨.new 0, .new 0, .owner, .new⟩

/-- Caches metadata for a persistent key. -/
def savePersistent (crypto : Libcrypto) (handle : TpmHandle) («public» parentPublic : TpmtPublic)
    (policy : Option (List VtpmPolicyCommand)) : Fallible VtpmError VtpmCache Unit := do
  if ¬ IsPersistent handle.value then
    throw (.invalidHandleType (handleType handle.value))
  let key : VtpmKey := ⟨.new version, handle, «public», parentPublic, persistentContext,
    policy.getD []⟩
  let name ← Fallible.ofExcept (keyName crypto key.public)
  modify fun cache => (cache.insertKey handle.value key name).markDirty handle.value

/-- Removes a file that is of no use; a failure is only logged. -/
def discardFile (path : Bytes) : Fallible VtpmError VtpmCache Unit := do
  let _ ← Fallible.outcome (onDir (EStateM.adaptExcept .io (Directory.removeFile path)))
  return

/-- Loads the file of one directory entry. -/
def loadEntry (crypto : Libcrypto) (path : Bytes) : Fallible VtpmError VtpmCache Unit := do
  let some virtualHandle := recordHandle path | return
  let ht := handleType virtualHandle
  if ht = TpmEnum.value TpmHt.transient ∨ ht = TpmEnum.value TpmHt.persistent then
    let loaded ← Fallible.outcome (onDir (VtpmKey.load path virtualHandle))
    match loaded with
    | .ok key =>
        let name ← Fallible.ofExcept (keyName crypto key.public)
        modify fun cache => cache.insertKey virtualHandle key name
    -- self-heal: a record that fails to load is unusable, so it is removed
    | .error _ => discardFile path
  else if ht = TpmEnum.value TpmHt.hmacSession ∨ ht = TpmEnum.value TpmHt.policySession then
    discardFile path

def loadEntries (crypto : Libcrypto) : List Bytes → Fallible VtpmError VtpmCache Unit
  | [] => return
  | path :: paths => do
      loadEntry crypto path
      loadEntries crypto paths

def load (crypto : Libcrypto) : Fallible VtpmError VtpmCache Unit := do
  match ← Fallible.outcome (onDir (EStateM.adaptExcept .io Directory.readDir)) with
  | .ok paths => loadEntries crypto paths
  | .error (.io .notFound) => return
  | .error e => throw e

/-- The check of the handles that are supplied to `new`. -/
def checkHandles : List TpmHandle → Except VtpmError Unit
  | [] => return
  | handle :: handles =>
      if IsPersistent handle.value then
        checkHandles handles
      else
        throw (.invalidHandleType (handleType handle.value))

/-- The next virtual handle after the highest one in use, if that is not below it. -/
def skipUsed (cache : VtpmCache) : VtpmCache :=
  match cache.contexts.keys.max? with
  | none => cache
  | some maxHandle =>
      if maxHandle ≥ cache.nextVirtualHandle then
        { cache with nextVirtualHandle := nextAfter maxHandle }
      else
        cache

/-- Creates a new cache and loads existing contexts from disk. The `handles` map contains persistent
TPM handles indexed by their `Tpm2bName`. -/
def new (crypto : Libcrypto) (handles : HashMap Tpm2bName TpmHandle) :
    Fallible VtpmError Directory VtpmCache := do
  Fallible.ofExcept (checkHandles handles.values)
  EStateM.adaptExcept .io Directory.createDirAll
  let cache : VtpmCache := ⟨∅, handles, ∅, ∅, ← get, transientStart⟩
  match (load crypto).run cache with
  | .error e cache =>
      set cache.cacheDir
      throw e
  | .ok () cache =>
      set cache.cacheDir
      return cache.skipUsed

end VtpmCache
end Tpm2
