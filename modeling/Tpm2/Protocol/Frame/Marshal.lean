import Tpm2.Protocol.Frame.Dispatch

/-! Marshalling command and response frames: the sizes are computed before anything is written. -/

namespace Tpm2

open ByteCodec

/-- `TPM_HEADER_SIZE`: a tag, a size and a code. -/
def tpmHeaderSize : Nat := 10

/-- Computes the handle area size for a number of handles. -/
def handleAreaSize (handles offset : Nat) : TpmResult Nat :=
  okOr (checkedMul? handles 4) (.integerTooLarge offset (tpmValue handles))

/-- Splits a frame body length into its handle and parameter areas. -/
def bodyAreas {C : TpmBodyType} (frame : TpmBody C) (offset : Nat) : TpmResult (Nat × Nat) := do
  let handleAreaSize ← handleAreaSize C.HANDLES offset
  if frame.len < handleAreaSize then
    throw (.unexpectedEnd offset handleAreaSize frame.len)
  return (handleAreaSize, frame.len - handleAreaSize)

/-- Adds two lengths, reporting overflow at `offset`. -/
def checkedAdd (lhs rhs offset : Nat) : TpmResult Nat :=
  okOr (checkedAdd? lhs rhs) (.integerTooLarge offset (tpmValue lhs))

/-- Sums the wire lengths of an authorization area. -/
def sessionsLen {S : Type} [TpmSized S] (sessions : List S) (offset : Nat) : TpmResult Nat :=
  sessions.foldlM (fun total session => checkedAdd total (len session) offset) 0

/-- Rejects an authorization area larger than the wire format allows. -/
def checkSessionCount {S : Type} (sessions : List S) (offset : Nat) : TpmResult Unit :=
  if sessions.length > maxSessions then
    .error (.tooManyItems offset maxSessions sessions.length)
  else
    .ok ()

/-- The size of the authorization area of a command: a length word and the sessions. -/
def commandAuthSize (tag : TpmSt) (sessions : List TpmsAuthCommand) (offset : Nat) :
    TpmResult Nat :=
  if tag = .sessions then do
    checkedAdd 4 (← sessionsLen sessions offset) offset
  else
    .ok 0

/-- The size of a command frame and of its authorization area. -/
def commandSizes {C : TpmBodyType} (command : TpmBody C) (tag : TpmSt)
    (sessions : List TpmsAuthCommand) (offset : Nat) : TpmResult (TpmUint32 × Nat) := do
  let (handleAreaSize, paramAreaSize) ← bodyAreas command offset
  let authAreaSize ← commandAuthSize tag sessions offset
  let handlesAndAuth ← checkedAdd handleAreaSize authAreaSize offset
  let totalBodyLen ← checkedAdd handlesAndAuth paramAreaSize offset
  let commandSizeUsize ← checkedAdd tpmHeaderSize totalBodyLen offset
  let commandSize ← TpmUint32.tryFrom commandSizeUsize
    (.integerTooLarge offset (tpmValue commandSizeUsize))
  return (commandSize, authAreaSize)

/-- Writes the length word of the authorization area and the sessions. -/
def writeCommandAuth (tag : TpmSt) (sessions : List TpmsAuthCommand) (authAreaSize offset : Nat)
    (writer : TpmWriter) : TpmResult TpmWriter :=
  if tag = .sessions then do
    let sessionsLen ← TpmUint32.tryFrom (authAreaSize - 4)
      (.integerTooLarge offset (tpmValue authAreaSize))
    let writer ← marshal sessionsLen writer
    writeMany marshal sessions writer
  else
    .ok writer

/-- Marshals a TPM command into a writer. -/
def tpmMarshalCommand {C : TpmBodyType} (command : TpmBody C) (tag : TpmSt)
    (sessions : List TpmsAuthCommand) (writer : TpmWriter) : TpmResult TpmWriter := do
  let offset := writer.pos
  let invalidTag : TpmError := .invalidTag offset (TpmIntBytes.asU64 (TpmEnum.value tag))
  if tag ≠ .noSessions ∧ tag ≠ .sessions then
    throw invalidTag
  -- sessions with the `NoSessions` tag would be dropped
  if decide (tag = .sessions) = sessions.isEmpty then
    throw invalidTag
  checkSessionCount sessions offset
  let (commandSize, authAreaSize) ← commandSizes command tag sessions offset
  let writer ← marshal tag writer
  let writer ← marshal commandSize writer
  let writer ← marshal C.CC writer
  let writer ← command.marshalHandles writer
  let writer ← writeCommandAuth tag sessions authAreaSize offset writer
  command.marshalParameters writer

/-- The size of a response frame and of its parameter area. -/
def responseSizes {R : TpmBodyType} (response : TpmBody R) (tag : TpmSt)
    (sessions : List TpmsAuthResponse) (offset : Nat) : TpmResult (TpmUint32 × Nat) := do
  let (handleAreaSize, paramAreaSize) ← bodyAreas response offset
  let sessionsLen ← sessionsLen sessions offset
  let parameterAreaSizeFieldLen := if tag = .sessions then 4 else 0
  let handlesAndField ← checkedAdd handleAreaSize parameterAreaSizeFieldLen offset
  let withParameters ← checkedAdd handlesAndField paramAreaSize offset
  let totalBodyLen ← checkedAdd withParameters sessionsLen offset
  let responseSizeUsize ← checkedAdd tpmHeaderSize totalBodyLen offset
  let responseSize ← TpmUint32.tryFrom responseSizeUsize
    (.integerTooLarge offset (tpmValue responseSizeUsize))
  return (responseSize, paramAreaSize)

/-- Writes the length word of the parameter area of a response with sessions. -/
def writeParamsLen (tag : TpmSt) (paramAreaSize offset : Nat) (writer : TpmWriter) :
    TpmResult TpmWriter :=
  if tag = .sessions then do
    let paramsLen ← TpmUint32.tryFrom paramAreaSize
      (.integerTooLarge offset (tpmValue paramAreaSize))
    marshal paramsLen writer
  else
    .ok writer

def writeResponseAuth (tag : TpmSt) (sessions : List TpmsAuthResponse) (writer : TpmWriter) :
    TpmResult TpmWriter :=
  if tag = .sessions then writeMany marshal sessions writer else .ok writer

/-- Marshals the bare header of a response that is not successful. -/
def marshalErrorResponse (rc : TpmRc) (sessions : List TpmsAuthResponse) (writer : TpmWriter) :
    TpmResult TpmWriter := do
  -- an error response is a bare header, so any session would be dropped
  if !sessions.isEmpty then
    throw (.invalidTag writer.pos (TpmIntBytes.asU64 (TpmEnum.value TpmSt.sessions)))
  let writer ← marshal TpmSt.noSessions writer
  let writer ← marshal (TpmInt.new (UInt32.ofNat tpmHeaderSize) : TpmUint32) writer
  marshal rc writer

/-- Marshals a TPM response. -/
def tpmMarshalResponse {R : TpmBodyType} (response : TpmBody R) (rc : TpmRc)
    (sessions : List TpmsAuthResponse) (writer : TpmWriter) : TpmResult TpmWriter := do
  checkSessionCount sessions writer.pos
  if rc ≠ .fmt0 .success then
    marshalErrorResponse rc sessions writer
  else
    let tag : TpmSt := if sessions.isEmpty then .noSessions else .sessions
    let offset := writer.pos
    let (responseSize, paramAreaSize) ← responseSizes response tag sessions offset
    let writer ← marshal tag writer
    let writer ← marshal responseSize writer
    let writer ← marshal rc writer
    let writer ← response.marshalHandles writer
    let writer ← writeParamsLen tag paramAreaSize offset writer
    let writer ← response.marshalParameters writer
    writeResponseAuth tag sessions writer

end Tpm2
