import Tpm2.Sh.Handle
import Tpm2.Sh.Task

/-! The command that makes a transient key persistent. -/

namespace Tpm2

/-- Returns the concrete handle value, or an error if this is a pattern. -/
def Handle.requireValue (handle : Handle) : Except TaskError UInt32 :=
  if handle.mask = 0xFFFFFFFF then .ok handle.value else .error .handlePatternNotAllowed

theorem Handle.value_of_requireValue {handle : Handle} {value : UInt32}
    (ok : handle.requireValue = .ok value) : handle.value = value := by
  unfold requireValue at ok
  split at ok <;> cases ok
  rfl

/-- Create persistent object from transient object. -/
structure Evict where
  input : Handle
  output : Handle
  deriving DecidableEq

/-- The part of `run` on the device. -/
def Evict.runOn (crypto : Libcrypto) (inputHandle outputHandle : UInt32) :
    Fallible TaskError TaskState Unit := do
  let transientHandle ← TaskState.loadKeyByHandle (.new inputHandle)
  match (← get).cache.findByHandle (.new inputHandle) with
  | none => throw (.unknownHandle inputHandle)
  | some key => do
      TaskState.evictControl crypto transientHandle (.new outputHandle)
      TaskState.onCache (VtpmCache.savePersistent crypto (.new outputHandle) key.public key.parent
        (some key.policy))
      TaskState.removeEntry (.new inputHandle)
      modify fun task => task.untrack transientHandle

def Evict.run (crypto : Libcrypto) (evict : Evict) : Fallible TaskError TaskState Unit := do
  let inputHandle ← Fallible.ofExcept evict.input.requireValue
  if handleHt inputHandle ≠ some .transient then
    throw .invalidHandle
  let outputHandle ← Fallible.ofExcept evict.output.requireValue
  if handleHt outputHandle ≠ some .persistent then
    throw .invalidHandle
  runOn crypto inputHandle outputHandle

/-- The command moves transient handles to persistent ones. -/
theorem Evict.types_of_ok {crypto : Libcrypto} {evict : Evict} {s s' : TaskState}
    (ok : (evict.run crypto).run s = .ok () s') : handleHt evict.input.value = some .transient ∧
      handleHt evict.output.value = some .persistent := by
  obtain ⟨inputHandle, _, required, ok⟩ := Fallible.run_bind_eq_ok.mp ok
  obtain ⟨input, rfl⟩ := Fallible.run_ofExcept_eq_ok.mp required
  split at ok
  · cases ok
  next transient =>
    obtain ⟨outputHandle, _, required, ok⟩ := Fallible.run_bind_eq_ok.mp ok
    obtain ⟨output, rfl⟩ := Fallible.run_ofExcept_eq_ok.mp required
    split at ok
    · cases ok
    next persistent =>
      rw [Handle.value_of_requireValue input, Handle.value_of_requireValue output]
      exact ⟨not_not.mp transient, not_not.mp persistent⟩

end Tpm2
