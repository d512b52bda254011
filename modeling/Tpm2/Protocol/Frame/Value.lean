import Tpm2.Protocol.Frame.Marshal
import Tpm2.Protocol.Frame.Wire

/-! Owned commands of any type. -/

namespace Tpm2

open ByteCodec

abbrev TpmAuthCommands := TpmList TpmsAuthCommand maxSessions

/-- The commands that have a variant of their own below: the policy commands that are compiled or
stored. -/
def namedCommands : List TpmCc :=
  [.policyAuthValue, .policyCommandCode, .policyCounterTimer, .policyCpHash, .policyGetDigest,
   .policyNameHash, .policyNvWritten, .policyOr, .policyPassword, .policyPcr,
   .policyPhysicalPresence, .policyRestart, .policySecret, .policyTemplate]

/-- An owned command of any row of the dispatch table. -/
inductive TpmCommandValue
  | policyAuthValue (cmd : TpmBody TpmPolicyAuthValueCommand)
  | policyCommandCode (cmd : TpmBody TpmPolicyCommandCodeCommand)
  | policyCounterTimer (cmd : TpmBody TpmPolicyCounterTimerCommand)
  | policyCpHash (cmd : TpmBody TpmPolicyCpHashCommand)
  | policyGetDigest (cmd : TpmBody TpmPolicyGetDigestCommand)
  | policyNameHash (cmd : TpmBody TpmPolicyNameHashCommand)
  | policyNvWritten (cmd : TpmBody TpmPolicyNvWrittenCommand)
  | policyOr (cmd : TpmBody TpmPolicyOrCommand)
  | policyPassword (cmd : TpmBody TpmPolicyPasswordCommand)
  | policyPcr (cmd : TpmBody TpmPolicyPcrCommand)
  | policyPhysicalPresence (cmd : TpmBody TpmPolicyPhysicalPresenceCommand)
  | policyRestart (cmd : TpmBody TpmPolicyRestartCommand)
  | policySecret (cmd : TpmBody TpmPolicySecretCommand)
  | policyTemplate (cmd : TpmBody TpmPolicyTemplateCommand)
  | other (row : Fin tpmDispatch.length) (unnamed : tpmDispatch[row].1.CC ∉ namedCommands)
      (cmd : TpmBody tpmDispatch[row].1)

namespace TpmCommandValue

/-- `match self { $( Self::$variant(c) => f(c), )* }` -/
def elim {α : Type} (f : {C : TpmBodyType} → TpmBody C → α) : TpmCommandValue → α
  | policyAuthValue cmd => f cmd
  | policyCommandCode cmd => f cmd
  | policyCounterTimer cmd => f cmd
  | policyCpHash cmd => f cmd
  | policyGetDigest cmd => f cmd
  | policyNameHash cmd => f cmd
  | policyNvWritten cmd => f cmd
  | policyOr cmd => f cmd
  | policyPassword cmd => f cmd
  | policyPcr cmd => f cmd
  | policyPhysicalPresence cmd => f cmd
  | policyRestart cmd => f cmd
  | policySecret cmd => f cmd
  | policyTemplate cmd => f cmd
  | other _ _ cmd => f cmd

def cc : TpmCommandValue → TpmCc := elim fun {C} _ => C.CC

def marshalParameters : TpmCommandValue → TpmWriter → TpmResult TpmWriter :=
  elim TpmBody.marshalParameters

/-- Marshals a command into a writer. -/
def marshalFrame (command : TpmCommandValue) (tag : TpmSt) (sessions : TpmAuthCommands) :
    TpmWriter → TpmResult TpmWriter :=
  command.elim fun cmd => tpmMarshalCommand cmd tag sessions.items

end TpmCommandValue

/-- `[handle]`. -/
def TpmHandles.one (handle : TpmHandle) : TpmHandles 1 := ⟨[handle], rfl⟩

/-- `handles[i]`. -/
def TpmHandles.get {N : Nat} (handles : TpmHandles N) (i : Fin N) : TpmHandle :=
  handles.items.get (i.cast handles.length_items.symm)

/-- `[first, second]`. -/
def TpmHandles.two (first second : TpmHandle) : TpmHandles 2 := ⟨[first, second], rfl⟩

@[simp] theorem TpmHandles.get_two (first second : TpmHandle) :
    (two first second).get ⟨0, Nat.two_pos⟩ = first := rfl

end Tpm2
