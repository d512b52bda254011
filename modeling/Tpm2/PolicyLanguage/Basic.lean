import Tpm2.Algorithm.HashMap
import Tpm2.Crypto.Hash

/-! Errors of the policy language, and the data that the execution of a policy needs. -/

namespace Tpm2

inductive TpmPolicyError
  | crypto (e : TpmCryptoError)
  | invalidCc (cc : TpmCc)
  | invalidExpression
  | invalidHandleType (ht : UInt8)
  | invalidToken (token : String)
  | invalidPcrDigest
  | invalidPcrDigestAlgorithm
  | invalidPcrSelection
  | marshal (e : TpmError)
  | commandStreamBranchUnderflow
  | commandStreamUnbalancedBranches
  | parenthesisMismatch
  | pcrBankNotAvailable (alg : TpmHash)
  | pcrCountMismatch
  | pcrDigestMissing
  | pcrDigestTooLarge
  | pcrIndexTooLarge
  | pcrSelectionTooLarge
  | tooManyBranches
  | trailingData
  | unexpectedEnd
  deriving DecidableEq

/-- Pre-resolved data needed for policy execution. -/
structure TpmPolicyContext where
  names : HashMap TpmHandle Tpm2bName
  pcrs : HashMap TpmAlgId (HashMap UInt32 Tpm2bDigest)
  pcrCount : Nat

/-- The loop of `new` over the banks, from the count of those before. -/
def countPcrs : List (HashMap UInt32 Tpm2bDigest) → Nat → Except TpmPolicyError Nat
  | [], pcrCount => .ok pcrCount
  | bank :: banks, pcrCount =>
      let pcrCount := if pcrCount = 0 then bank.entries.length else pcrCount
      if pcrCount ≠ bank.entries.length then
        .error .pcrCountMismatch
      else
        countPcrs banks pcrCount

def TpmPolicyContext.new (names : HashMap TpmHandle Tpm2bName)
    (pcrs : HashMap TpmAlgId (HashMap UInt32 Tpm2bDigest)) :
    Except TpmPolicyError TpmPolicyContext := do
  let pcrCount ← countPcrs pcrs.values 0
  return ⟨names, pcrs, pcrCount⟩

end Tpm2
