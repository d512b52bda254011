import Tpm2.Protocol.Data.Text
import Tpm2.Sh.Common

/-! The command that shows the objects of the TPM and the keys of the cache. -/

namespace Tpm2

open ByteCodec Text

/-- Lists active TPM objects or inspects a single handle. -/
structure Memory where
  handle : Option Handle
  /-- Do not use cache; show physical handles in transient range. -/
  noCache : Bool

namespace Memory

def hierarchyName : TpmRh → List Char
  | .owner => "owner".toList
  | .platform => "platform".toList
  | .endorsement => "endorsement".toList
  | .null => "null".toList
  | _ => "unknown".toList

def resolveHierarchyStr (rh : Option TpmRh) (handleVal : UInt32) : List Char :=
  match rh with
  | some h => hierarchyName h
  | none =>
      if handleVal ≥ 0x81800000 then "platform".toList
      else if handleVal ≥ 0x81000000 then "owner".toList
      else "unknown".toList

def formatAlgorithm («public» : TpmtPublic) : List Char :=
  match TpmPublicTemplate.ofPublic «public» with
  | .error _ => «public».objectType.debug
  | .ok t => t.toText.toOption.getD "unknown".toList

/-- The commands of a policy, unless one of its steps has none. -/
def policyCommands : List VtpmPolicyCommand → Except VtpmError (List TpmCommandValue)
  | [] => .ok []
  | vtpmCmd :: policy => do
      let cmd ← vtpmCmd.toCommand
      let commandList ← policyCommands policy
      return cmd :: commandList

def formatPolicy (hex : Hex) (policy : List VtpmPolicyCommand) : Option (List Char) := do
  if policy.isEmpty then
    none
  let commandList ← (policyCommands policy).toOption
  let expr ← (TpmPolicyExpression.fromCommands commandList).toOption
  return expr.display hex

/-- The handle of a parent among the objects with a name. -/
def parentText (crypto : Libcrypto) (nameToHandle : HashMap Tpm2bName (List Char))
    (parent : TpmtPublic) : List Char :=
  match tpmMakeName crypto parent with
  | .ok pname => (nameToHandle.lookup pname).getD "unknown".toList
  | .error _ => "error".toList

/-- The hash algorithm of the signature of a certificate. -/
def fetchHashAlg {E : Type} : SignatureNid → Except (CommandError E) TpmHash
  | .sha1WithRsaEncryption => .ok .sha1
  | .ecdsaWithSha256 | .sha256WithRsaEncryption => .ok .sha256
  | .ecdsaWithSha384 | .sha384WithRsaEncryption => .ok .sha384
  | .ecdsaWithSha512 | .sha512WithRsaEncryption => .ok .sha512
  | .other _ => .error .unsupportedHashAlgorithm

/-- The curve of a certificate. -/
def certificateCurve {E : Type} : Option Nid → Except (CommandError E) TpmEllipticCurve
  | some .x962Prime256v1 => .ok .nistP256
  | some .secp384r1 => .ok .nistP384
  | some .secp521r1 => .ok .nistP521
  | _ => .error .unsupportedKeyAlgorithm

variable (libs : Libraries)

/-- The name of the algorithm of a certificate. -/
def fetchAlgName {E : Type} (certDer : Bytes) : Except (CommandError E) (List Char) := do
  match libs.x509 certDer with
  | none => throw .invalidDerCertificate
  | some cert => do
      let sigAlg ← fetchHashAlg cert.signatureAlgorithm
      match cert.publicKey with
      | none => throw .invalidCertificate
      | some (.rsa none) => throw .invalidRsaParameters
      | some (.rsa (some size)) =>
          if size * 8 ≤ u16Max then
            return "rsa-".toList ++ Nat.toDigits 10 (size * 8) ++ ':' :: sigAlg.display
          else
            throw .tryFromInt
      | some (.ec none) => throw .invalidEccParameters
      | some (.ec (some curveNid)) => do
          let curve ← certificateCurve curveNid
          return "ecc-".toList ++ curve.display ++ ':' :: sigAlg.display
      | some .other => throw .unsupportedKeyAlgorithm

section
variable {E : Type}

/-- Builds a map from object name to handle string, covering persistent handles on the device and
all cached entries. -/
def buildNameToHandle :
    Fallible (CommandError E) Shell (HashMap Tpm2bName (List Char)) := do
  let persistent ← Shell.tryDevice fetchPersistentNames
  let nameToHandle : HashMap Tpm2bName (List Char) :=
    match persistent with
    | .error _ => ∅
    | .ok persistentMap => HashMap.extend ∅
        (persistentMap.entries.map fun entry => (entry.2, displayHandle entry.1))
  let keys := (← get).task.cache.contexts.entries
  return nameToHandle.extend <| keys.filterMap fun entry =>
    match tpmMakeName libs.crypto entry.2.public with
    | .ok name => some (name, displayHandle (.new entry.1))
    | .error _ => none

def resolveParentStr (parentPublic : TpmtPublic) (hierarchyStr : List Char) :
    Fallible (CommandError E) Shell (List Char) := do
  if parentPublic.objectType = .null then
    return hierarchyStr
  else
    let nameToHandle ← buildNameToHandle libs
    return parentText libs.crypto nameToHandle parentPublic

/-- What `inspectObject` shows: the public area, the hierarchy, the parent and the policy. -/
def describeObject (handle : Handle) (handleVal : UInt32) :
    Fallible (CommandError E) Shell (TpmtPublic × List Char × List Char × List Char) := do
  match (← get).task.cache.findByHandle (.new handleVal) with
  | some key => do
      let hierarchyStr := resolveHierarchyStr (some key.context.hierarchy) handleVal
      let parentStr ← resolveParentStr libs key.parent hierarchyStr
      let policyStr := (formatPolicy libs.hex key.policy).getD
        (libs.hex.encode key.public.authPolicy.bytes)
      return (key.public, hierarchyStr, parentStr, policyStr)
  | none => do
      match ← Shell.tryDevice (TpmDevice.readPublic (.new handleVal)) with
      | .ok («public», _) =>
          return («public», resolveHierarchyStr none handleVal, "unknown".toList,
            libs.hex.encode «public».authPolicy.bytes)
      | .error (.tpmRc rc) =>
          if rc.base = .handle ∨ rc.base = .referenceH0 then
            throw (.unknownHandle handle)
          else
            throw (.task (deviceErr (.tpmRc rc)))
      | .error e => throw (.task (deviceErr e))

def inspectObject (handle : Handle) (handleVal : UInt32) :
    Fallible (CommandError E) Shell Unit := do
  let («public», hierarchyStr, parentStr, policyStr) ← describeObject libs handle handleVal
  Shell.writeLine ("algorithm: ".toList ++ formatAlgorithm «public»)
  Shell.writeLine ("hierarchy: ".toList ++ hierarchyStr)
  Shell.writeLine ("parent: ".toList ++ parentStr)
  Shell.writeLine ("attributes: ".toList ++ displayHandle (.new «public».objectAttributes.bits))
  if !policyStr.isEmpty then
    Shell.writeLine ("policy: ".toList ++ policyStr)

/-- `readNvIndex`, with `rounds` requests at most. -/
def readNv (handle : UInt32) (rounds : Nat) : Fallible (CommandError E) Shell Bytes := do
  let read ← Shell.onTaskWith .nv (readNvIndex libs.crypto handle rounds)
  Shell.finished read

def inspectNvIndex (handle : UInt32) (rounds : Nat) : Fallible (CommandError E) Shell Unit := do
  let certBytes ← readNv libs handle rounds
  if certBytes.isEmpty then
    return
  else if (libs.x509 certBytes).isSome then
    Shell.writeLine (libs.pem.encode false ⟨"CERTIFICATE".toList, certBytes⟩)
  else
    Shell.writeLine (libs.hex.encode certBytes)

def inspectHandle (handle : Handle) (handleVal : UInt32) (rounds : Nat) :
    Fallible (CommandError E) Shell Unit :=
  if handleHt handleVal = some .nvIndex then inspectNvIndex libs handleVal rounds
  else inspectObject libs handle handleVal

/-- The rows of a table, one after the other. -/
def rowsOf {α : Type} (row : α → Fallible (CommandError E) Shell MemoryRow) :
    List α → Fallible (CommandError E) Shell (List MemoryRow)
  | [] => return []
  | item :: items => do
      let first ← row item
      let rows ← rowsOf row items
      return first :: rows

/-- The template of a public area, as a text. -/
def templateText («public» : TpmtPublic) : Except (CommandError E) (List Char) := do
  let template ← (TpmPublicTemplate.ofPublic «public»).mapError fun e => .task (.crypto e)
  template.toText.mapError .externalKey

/-- The text of the algorithm of an object of the TPM. -/
def deviceDetails (handle : TpmHandle) : Fallible (CommandError E) Shell (List Char) := do
  let («public», _) ← Shell.onDevice (TpmDevice.readPublic handle)
  Fallible.ofExcept (templateText «public»)

def persistentRow (handle : TpmHandle) : Fallible (CommandError E) Shell MemoryRow := do
  let details ← deviceDetails handle
  let hierarchy := if handle.value ≥ 0x81800000 then "platform".toList else "owner".toList
  return ⟨displayHandle handle, "persistent".toList, hierarchy ++ ':' :: details⟩

def fetchPersistentRows : Fallible (CommandError E) Shell (List MemoryRow) := do
  let handles ← Shell.onDevice (TpmDevice.fetchHandles .persistent)
  rowsOf persistentRow handles

def transientRow (handle : TpmHandle) : Fallible (CommandError E) Shell MemoryRow := do
  let details ← deviceDetails handle
  return ⟨displayHandle handle, "transient".toList, details⟩

def fetchDeviceTransientRows : Fallible (CommandError E) Shell (List MemoryRow) := do
  let handles ← Shell.onDevice (TpmDevice.fetchHandles .transient)
  rowsOf transientRow handles

/-- The text of the algorithm of a cached key. -/
def cachedDetails («public» : TpmtPublic) : Except (CommandError E) (List Char) :=
  match TpmPublicTemplate.ofPublic «public» with
  | .ok t => t.toText.mapError .externalKey
  | .error _ => ((TpmHash.tryFrom «public».objectType).map TpmHash.display).mapError
      fun e => .task (.crypto e)

def cachedRow (nameToHandle : HashMap Tpm2bName (List Char)) (key : VtpmKey) :
    Except (CommandError E) MemoryRow := do
  let parentStr :=
    if key.parent.objectType = .null then hierarchyName key.context.hierarchy
    else parentText libs.crypto nameToHandle key.parent
  let details ← cachedDetails key.public
  return ⟨displayHandle key.handle, "transient".toList, parentStr ++ ':' :: details⟩

def fetchCachedTransientRows : Fallible (CommandError E) Shell (List MemoryRow) := do
  Shell.onTask TaskState.refreshCache
  let nameToHandle ← buildNameToHandle libs
  let keys := (← get).task.cache.contexts.entries.filter fun entry =>
    handleHt entry.1 ≠ some .persistent
  rowsOf (fun entry => Fallible.ofExcept (cachedRow libs nameToHandle entry.2)) keys

def sessionRow (handle : TpmHandle) : MemoryRow :=
  ⟨displayHandle handle, "session".toList,
    if handleHt handle.value = some .hmacSession then "hmac".toList else "policy".toList⟩

/-- `LOADED_SESSION` is the class of HMAC sessions. -/
def fetchSessionRows : Fallible (CommandError E) Shell (List MemoryRow) := do
  let handles ← Shell.onDevice (TpmDevice.fetchHandles .hmacSession)
  return handles.map sessionRow

/-- `SAVED_SESSION` is the class of policy sessions. -/
def fetchSavedSessionRows : Fallible (CommandError E) Shell (List MemoryRow) := do
  let handles ← Shell.onDevice (TpmDevice.fetchHandles .policySession)
  return handles.map fun handle => ⟨displayHandle handle, "session".toList, "saved".toList⟩

/-- The algorithm of the certificate in an NV index, if one can be read there. -/
def fetchNvDetails (handle : UInt32) (rounds : Nat) :
    Fallible (CommandError E) Shell (List Char) := do
  match ← Fallible.outcome (φ := CommandError E)
    (Shell.onTaskWith (E := E) .nv (readNvIndex libs.crypto handle rounds)) with
  | .error _ => return []
  | .ok none => throw .unfinished
  | .ok (some certBytes) =>
      if certBytes.head? = some 0x30 then
        return (fetchAlgName (E := E) libs certBytes).toOption.getD []
      else
        return []

def nvRow (rounds : Nat) (handle : TpmHandle) : Fallible (CommandError E) Shell MemoryRow := do
  let details ← fetchNvDetails libs handle.value rounds
  return ⟨displayHandle handle, "nv-index".toList, details⟩

def fetchNvRows (rounds : Nat) : Fallible (CommandError E) Shell (List MemoryRow) := do
  let handles ← Shell.onDevice (TpmDevice.fetchHandles .nvIndex)
  rowsOf (nvRow libs rounds) handles

/-- Prints a table, unless it is empty. -/
def printTable (rows : List MemoryRow) (isTty : Bool) : Fallible (CommandError E) Shell Unit :=
  if rows.isEmpty then return else Shell.writeLine (libs.table rows isTty)

def listAllMemory (isTty noCache : Bool) (rounds : Nat) :
    Fallible (CommandError E) Shell Unit := do
  let persistent ← fetchPersistentRows
  let transient ← if noCache then fetchDeviceTransientRows else fetchCachedTransientRows libs
  let session ← fetchSessionRows
  let saved ← fetchSavedSessionRows
  let nv ← fetchNvRows libs rounds
  let rows := (persistent ++ transient ++ session ++ saved ++ nv).mergeSort
    fun a b => textLe a.handle b.handle
  printTable libs rows isTty

def run (memory : Memory) (isTty : Bool) (rounds : Nat) :
    Fallible (CommandError E) Shell Unit := do
  match memory.handle with
  | some handle => do
      let handleVal ← Shell.requireValue handle
      inspectHandle libs handle handleVal.value rounds
  | none => listAllMemory libs isTty memory.noCache rounds

end

end Memory
end Tpm2
