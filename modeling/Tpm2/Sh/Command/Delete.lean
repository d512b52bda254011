import Tpm2.Device.Capability
import Tpm2.PolicyLanguage.Display
import Tpm2.Sh.Shell

/-! The command that deletes objects of the TPM and keys of the cache. -/

namespace Tpm2

open ByteCodec Text

/-- Deletes active and cached objects. -/
structure Delete where
  handle : Handle

namespace Delete

/-- Deletes an object of a class of the TPM. -/
def deleteHandle (crypto : Libcrypto) («class» : TpmHt) (handle : TpmHandle) :
    Fallible TaskError TaskState Unit :=
  match «class» with
  | .hmacSession | .policySession => TaskState.withDevice (TpmDevice.flushContext handle)
  | .transient => do
      TaskState.withDevice (TpmDevice.flushContext handle)
      modify fun task => task.untrack handle
  | .persistent => TaskState.evictControl crypto handle handle
  | _ => return

section
variable {E : Type} (pattern : Handle)

/-- The loop of `deleteTpmHandles` over the objects of a class: whether one was not deleted. -/
def deleteHandles (crypto : Libcrypto) («class» : TpmHt) :
    List TpmHandle → Bool → Fallible (CommandError E) Shell Bool
  | [], failed => return failed
  | handle :: handles, failed =>
      if pattern.matches handle.value then do
        match ← Fallible.outcome (φ := CommandError E)
          (Shell.onTask (E := E) (deleteHandle crypto «class» handle)) with
        | .ok () => do
            Shell.writeLine (displayHandle handle)
            deleteHandles crypto «class» handles failed
        | .error _ => deleteHandles crypto «class» handles true
      else
        deleteHandles crypto «class» handles failed

/-- The loop of `deleteTpmHandles` over the classes; one whose objects are not known is left out. -/
def deleteClasses (crypto : Libcrypto) :
    List TpmHt → Bool → Fallible (CommandError E) Shell Bool
  | [], failed => return failed
  | «class» :: classes, failed => do
      match ← Fallible.outcome (φ := CommandError E)
        (Shell.onDevice (E := E) (TpmDevice.fetchHandles «class»)) with
      | .error _ => deleteClasses crypto classes failed
      | .ok handles => do
          let failed ← deleteHandles pattern crypto «class» handles failed
          deleteClasses crypto classes failed

/-- Deletes TPM objects matching a pattern across sessions, transient, and persistent handles. -/
def deleteTpmHandles (crypto : Libcrypto) : Fallible (CommandError E) Shell Unit := do
  let failed ← deleteClasses pattern crypto [.hmacSession, .policySession, .transient, .persistent]
    false
  if failed then
    throw .deleteFailed

/-- Prints handles, one a line. -/
def printHandles : List TpmHandle → Fallible (CommandError E) Shell Unit
  | [] => return
  | handle :: handles => do
      Shell.writeLine (displayHandle handle)
      printHandles handles

/-- The loop of `deleteVtpmHandles`: whether a key was not deleted. -/
def deleteKeys : List UInt32 → Bool → Fallible (CommandError E) Shell Bool
  | [], failed => return failed
  | vhandle :: vhandles, failed => do
      match ← Fallible.outcome (φ := CommandError E)
        (Shell.onTask (E := E) (TaskState.onCache (VtpmCache.remove (.new vhandle)))) with
      | .ok allDeletedHandles => do
          printHandles allDeletedHandles
          deleteKeys vhandles failed
      | .error _ => deleteKeys vhandles true

/-- Deletes vTPM objects matching the pattern. -/
def deleteVtpmHandles : Fallible (CommandError E) Shell Unit := do
  let matchedHandles := (← get).task.cache.contexts.keys.filter pattern.matches
  if matchedHandles.isEmpty then
    return
  let failed ← deleteKeys matchedHandles false
  if failed then
    throw .deleteFailed

/-- Both halves run, and the first error is reported. -/
def run (crypto : Libcrypto) (delete : Delete) : Fallible (CommandError E) Shell Unit := do
  let tpmResult ← Fallible.outcome (deleteTpmHandles (E := E) delete.handle crypto)
  let vtpmResult ← Fallible.outcome (deleteVtpmHandles (E := E) delete.handle)
  Fallible.ofExcept (tpmResult >>= fun _ => vtpmResult)

end

end Delete
end Tpm2
