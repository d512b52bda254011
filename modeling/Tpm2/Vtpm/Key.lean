import Tpm2.Vtpm.Policy

/-! The records of cached keys: how one is stored in a file of the cache directory. -/

namespace Tpm2

open ByteCodec

/-- `VERSION`. -/
def version : UInt32 := 0x00000002

/-- Maximum size of a serialized cache record. -/
def maxRecordSize : Nat := 16 * 1024

structure VtpmKey where
  version : TpmUint32
  handle : TpmHandle
  «public» : TpmtPublic
  parent : TpmtPublic
  context : TpmsContext
  policy : List VtpmPolicyCommand
  deriving DecidableEq

/-- The bytes of an ASCII text. -/
def ascii (text : List Char) : Bytes := text.map fun c => UInt8.ofNat c.toNat

/-- One lower-case hexadecimal digit. -/
def hexDigit (n : Nat) : UInt8 := UInt8.ofNat (if n < 10 then 48 + n else 87 + n)

/-- `format!("{virtual_handle:08x}")`. -/
def hex8 (virtualHandle : UInt32) : Bytes :=
  (List.range 8).map fun i => hexDigit (virtualHandle.toNat / 16 ^ (7 - i) % 16)

/-- `format!("{virtual_handle:08x}.bin")`. -/
def binName (virtualHandle : UInt32) : Bytes := hex8 virtualHandle ++ ascii ['.', 'b', 'i', 'n']

/-- `n.to_string()`. -/
def decimal (n : Nat) : Bytes := ascii (Nat.toDigits 10 n)

/-- `format!(".{file_name}.{}.tmp", process::id())`. -/
def tempName (fileName : Bytes) (processId : Nat) : Bytes :=
  ascii ['.'] ++ fileName ++ ascii ['.'] ++ decimal processId ++ ascii ['.', 't', 'm', 'p']

/-- Writes `bytes` to `path` atomically. -/
def writeAtomic (path bytes : Bytes) : Fallible IoError Directory Unit := do
  let tempPath := tempName path (← get).processId
  let writeResult ← Fallible.outcome do
    Directory.createFile tempPath
    Directory.writeAll tempPath bytes
    Directory.syncAll
  if let .error e := writeResult then
    let _ ← Fallible.outcome (φ := IoError) (Directory.removeFile tempPath)
    throw e
  let renamed ← Fallible.outcome (Directory.rename tempPath path)
  if let .error e := renamed then
    let _ ← Fallible.outcome (φ := IoError) (Directory.removeFile tempPath)
    throw e

namespace VtpmKey

/-- The checks and reads of `load` on the bytes of a file. -/
def decode (buffer : Bytes) (expectedHandle : UInt32) : Except VtpmError VtpmKey := do
  let (version, tail) ← (unmarshal (α := TpmUint32) buffer).mapError fun _ => .staleHandle
  if version.value ≠ Tpm2.version then
    throw .staleHandle
  let (handle, tail) ← (unmarshal (α := TpmHandle) tail).mapError .unmarshal
  if handle.value ≠ expectedHandle then
    throw .staleHandle
  let («public», tail) ← (unmarshal (α := TpmtPublic) tail).mapError .unmarshal
  let (parent, tail) ← (unmarshal (α := TpmtPublic) tail).mapError .unmarshal
  let (context, tail) ← (unmarshal (α := TpmsContext) tail).mapError .unmarshal
  let (policy, tail) ← vtpmUnmarshalPolicyList tail
  if !tail.isEmpty then
    throw (.unmarshal (.trailingData (buffer.length - tail.length) tail.length))
  return ⟨version, handle, «public», parent, context, policy⟩

def load (path : Bytes) (expectedHandle : UInt32) : Fallible VtpmError Directory VtpmKey := do
  let size ← EStateM.adaptExcept .io (Directory.metadataLen path)
  if size > maxRecordSize then
    throw (.recordTooLarge size)
  let buffer ← EStateM.adaptExcept .io (Directory.read path)
  Fallible.ofExcept (decode buffer expectedHandle)

/-- Returns the exact serialized length of this cache record. -/
def serializedLen (key : VtpmKey) : Nat :=
  len key.version + len key.handle + len key.public + len key.parent + len key.context + 4 +
    (key.policy.map VtpmPolicyCommand.len).sum

/-- The bytes of the record. -/
def record (key : VtpmKey) : Except VtpmError Bytes := do
  let writer := Cursor.zeros key.serializedLen
  let writer ← (marshal key.version writer).mapError .marshal
  let writer ← (marshal key.handle writer).mapError .marshal
  let writer ← (marshal key.public writer).mapError .marshal
  let writer ← (marshal key.parent writer).mapError .marshal
  let writer ← (marshal key.context writer).mapError .marshal
  let writer ← vtpmMarshalPolicyList key.policy writer
  return writer.written

def save (key : VtpmKey) (path : Bytes) : Fallible VtpmError Directory Unit := do
  let buf ← Fallible.ofExcept key.record
  EStateM.adaptExcept .io (writeAtomic path buf)

/-- Deletes the file of the record; it may be missing. -/
def delete (key : VtpmKey) : Fallible VtpmError Directory Unit := do
  let removed ← Fallible.outcome (Directory.removeFile (binName key.handle.value))
  match removed with
  | .ok () | .error .notFound => return
  | .error e => throw (.io e)

end VtpmKey
end Tpm2
