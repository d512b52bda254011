import Tpm2.PolicyLanguage.Session

/-! Policy expressions, and their compilation to policy commands and a policy digest. -/

namespace Tpm2

open ByteCodec

/-- Compiled TPM policy command stream and resulting policy digest. -/
structure TpmCompiledPolicy where
  commands : List (TpmCommandValue × TpmAuthCommands)
  digest : Tpm2bDigest

/-- The abstract syntax tree of the policy language. -/
inductive TpmPolicyExpression
  | pcr (selections : TpmlPcrSelection) (digest : Option Tpm2bDigest)
  | secret (authHandle : TpmPolicyExpression) (copyRef : Option Tpm2bDigest)
  | and (branches : List TpmPolicyExpression)
  | or (branches : List TpmPolicyExpression)
  | handle (handle : TpmHandle)

/-- What a compilation mutates: the commands so far and the session. -/
structure Compilation where
  commandList : List (TpmCommandValue × TpmAuthCommands)
  softwareSession : TpmPolicySession

/-- `command_list.push((cmd, TpmAuthCommands::new()))`. -/
def Compilation.push (c : Compilation) (cmd : TpmCommandValue) : Compilation :=
  { c with commandList := c.commandList ++ [(cmd, .new)] }

/-- The PCR indices of the bits that are set in a bitmap, ascending. -/
def pcrIndices (pcrSelect : Bytes) : List UInt32 :=
  pcrSelect.zipIdx.flatMap fun (byte, byteIndex) =>
    (List.range 8).filterMap fun bitIndex =>
      if byte &&& (1 <<< UInt8.ofNat bitIndex) ≠ 0 then
        some (UInt32.ofNat (byteIndex * 8 + bitIndex))
      else
        none

/-- The values of the selected PCRs of one bank, in the order of their indices. -/
def selectedValues (context : TpmPolicyContext) (selection : TpmsPcrSelection) :
    Except TpmPolicyError Bytes := do
  let some bankPcrs := context.pcrs.lookup selection.hash | throw .pcrDigestMissing
  let values ← (pcrIndices selection.pcrSelect.data).mapM fun pcrIndex =>
    match bankPcrs.lookup pcrIndex with
    | some pcrValue => .ok pcrValue.bytes
    | none => .error .pcrDigestMissing
  return values.flatten

/-- The digest of a `Pcr` leaf: the one it names, or that of the values its context holds. -/
def resolvePcrDigest (crypto : Libcrypto) (session : TpmPolicySession)
    (context : TpmPolicyContext) (selections : TpmlPcrSelection) :
    Option Tpm2bDigest → Except TpmPolicyError Tpm2bDigest
  | some digest => .ok digest
  | none => do
      let pcrData ← selections.items.mapM (selectedValues context)
      session.hashChunks crypto [pcrData.flatten]

/-- The name of the object that a `Secret` leaf authorizes. -/
def resolveAuthName (context : TpmPolicyContext) (handle : TpmHandle) :
    Except TpmPolicyError Tpm2bName := do
  let hVal := handle.value
  let htByte := (hVal >>> 24).toUInt8
  let ht : TpmHt ← (TpmEnum.tryFrom htByte).mapError fun _ => .invalidHandleType htByte
  match ht with
  | .persistent | .transient =>
      match context.names.lookup handle with
      | some name => return name
      | none => throw .invalidExpression
  | .permanent =>
      let rh : TpmRh ← (TpmEnum.tryFrom hVal).mapError fun _ => .invalidHandleType htByte
      match rh with
      | .owner | .endorsement | .platform | .lockout =>
          (TpmBuffer.tryFrom (TpmIntBytes.toBeBytes (TpmEnum.value rh))).mapError
            fun _ => .invalidHandleType htByte
      | _ => throw (.invalidHandleType htByte)
  | _ => throw (.invalidHandleType htByte)

namespace TpmPolicyExpression

def compileWalkPcr (crypto : Libcrypto) (context : TpmPolicyContext)
    (selections : TpmlPcrSelection) (digest : Option Tpm2bDigest) (c : Compilation) :
    Except TpmPolicyError (Tpm2bDigest × Compilation) := do
  let pcrDigest ← resolvePcrDigest crypto c.softwareSession context selections digest
  if pcrDigest.bytes.length ≠ c.softwareSession.digestSize then
    throw .invalidPcrDigest
  let cmd : TpmBody TpmPolicyPcrCommand := ⟨.one (.new 0), pcrDigest, selections, ()⟩
  let session ← c.softwareSession.policyPcr crypto cmd
  return (session.digest, { c.push (.policyPcr cmd) with softwareSession := session })

def compileWalkSecret (crypto : Libcrypto) (context : TpmPolicyContext)
    (authHandle : TpmPolicyExpression) (copyRef : Option Tpm2bDigest) (c : Compilation) :
    Except TpmPolicyError (Tpm2bDigest × Compilation) := do
  let .handle object := authHandle | throw .invalidExpression
  let name ← resolveAuthName context object
  let policyRef := copyRef.getD .new
  let cmd : TpmBody TpmPolicySecretCommand :=
    ⟨.two object (.new 0), .new, .new, policyRef, .new 0, ()⟩
  let session ← c.softwareSession.policySecret crypto name policyRef
  return (session.digest, { c.push (.policySecret cmd) with softwareSession := session })

mutual

def compileWalk (crypto : Libcrypto) (context : TpmPolicyContext) :
    TpmPolicyExpression → Compilation → Except TpmPolicyError (Tpm2bDigest × Compilation)
  | and branches, c => do
      let c ← compileWalkBranches crypto context branches c
      return (c.softwareSession.digest, c)
  | or branches, c => do
      let (digestList, c) ← compileWalkOr crypto context branches .new c
      let cmd : TpmBody TpmPolicyOrCommand := ⟨.one (.new 0), digestList, ()⟩
      let session ← c.softwareSession.policyOr crypto cmd
      return (session.digest, { c.push (.policyOr cmd) with softwareSession := session })
  | pcr selections digest, c => compileWalkPcr crypto context selections digest c
  | secret authHandle copyRef, c => compileWalkSecret crypto context authHandle copyRef c
  | handle _, _ => throw .invalidExpression

/-- The loop over the branches of an `And`. -/
def compileWalkBranches (crypto : Libcrypto) (context : TpmPolicyContext) :
    List TpmPolicyExpression → Compilation → Except TpmPolicyError Compilation
  | [], c => .ok c
  | branch :: branches, c => do
      let (_, c) ← compileWalk crypto context branch c
      compileWalkBranches crypto context branches c

/-- The loop over the branches of an `Or`: each starts from a restarted session. -/
def compileWalkOr (crypto : Libcrypto) (context : TpmPolicyContext) :
    List TpmPolicyExpression → TpmlDigest → Compilation →
      Except TpmPolicyError (TpmlDigest × Compilation)
  | [], digestList, c => .ok (digestList, c)
  | branch :: branches, digestList, c => do
      let session ← c.softwareSession.policyRestart
      let restarted :=
        { c.push (.policyRestart ⟨.one (.new 0), ()⟩) with softwareSession := session }
      let (digest, c) ← compileWalk crypto context branch restarted
      let digestList ← (digestList.tryPush digest).mapError fun _ => .tooManyBranches
      compileWalkOr crypto context branches digestList c

end

/-- Compiles an expression to policy commands and the policy digest. -/
def compile (crypto : Libcrypto) (sessionHashAlg : TpmAlgId) (context : TpmPolicyContext)
    (expression : TpmPolicyExpression) : Except TpmPolicyError TpmCompiledPolicy := do
  let softwareSession ← TpmPolicySession.new crypto sessionHashAlg
  let (finalDigest, c) ← expression.compileWalk crypto context ⟨[], softwareSession⟩
  return ⟨c.commandList, finalDigest⟩

/-- Conditionally wraps a list of expressions in an `And`: a single one is returned as it is. -/
def buildAndBranch : List TpmPolicyExpression → TpmPolicyExpression
  | [expr] => expr
  | branch => and branch

/-- Adds an expression to the innermost branch. -/
def pushToBranch (expr : TpmPolicyExpression) :
    List (List TpmPolicyExpression) → Except TpmPolicyError (List (List TpmPolicyExpression))
  | [] => .error .commandStreamBranchUnderflow
  | branch :: stack => .ok ((branch ++ [expr]) :: stack)

/-- One step of `fromCommands` on the stack of open branches, innermost first. -/
def fromCommand (stack : List (List TpmPolicyExpression)) (command : TpmCommandValue) :
    Except TpmPolicyError (List (List TpmPolicyExpression)) :=
  if stack.isEmpty then
    .error .commandStreamBranchUnderflow
  else
    match command with
    | .policyRestart _ => .ok ([] :: stack)
    | .policyPcr cmd =>
        let (pcrDigest, pcrs, ()) := cmd.parameters
        pushToBranch (pcr pcrs pcrDigest) stack
    | .policySecret cmd =>
        let (_, _, policyRef, _, ()) := cmd.parameters
        let copyRef := if policyRef.bytes.isEmpty then none else some policyRef
        pushToBranch (secret (handle (cmd.handles.get 0)) copyRef) stack
    | .policyOr cmd =>
        let (pHashList, ()) := cmd.parameters
        let numBranches := pHashList.items.length
        if stack.length < numBranches then
          .error .commandStreamBranchUnderflow
        else
          pushToBranch (or ((stack.take numBranches).reverse.map buildAndBranch))
            (stack.drop numBranches)
    | _ => .error (.invalidCc command.cc)

/-- Reconstructs a policy expression from policy commands: the inverse of `compile`. -/
def fromCommands (commandList : List TpmCommandValue) :
    Except TpmPolicyError TpmPolicyExpression := do
  let stack ← commandList.foldlM fromCommand [[]]
  match stack with
  | [finalBranch] => return buildAndBranch finalBranch
  | _ => throw .commandStreamUnbalancedBranches

end TpmPolicyExpression
end Tpm2
