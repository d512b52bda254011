import Tpm2.Sh.Command.Algorithm
import Tpm2.Sh.Command.Delete
import Tpm2.Sh.Command.Import
import Tpm2.Sh.Command.Memory
import Tpm2.Sh.Tracking

/-! The program: it opens the device and the cache, runs one command and cleans up behind it. -/

namespace Tpm2

open ByteCodec Text Checked

inductive Command
  | algorithm
  | create (cmd : Create)
  | createPrimary (cmd : CreatePrimary)
  | delete (cmd : Delete)
  | evict (cmd : Evict)
  | «import» (cmd : Import)
  | load (cmd : Load)
  | memory (cmd : Memory)
  | pcrEvent (cmd : PcrEvent)
  | returnCode (cmd : ReturnCode)
  | resetLock
  | «seal» (cmd : Seal)
  | «unseal» (cmd : Unseal)

namespace Command

/-- Runs a command; the loops without a bound of their own have `rounds` rounds. -/
def run (libs : Libraries) (rounds : Nat) (isTty : Bool) :
    Command → Fallible (CommandError libs.rasn.Asn1Error) Shell Unit
  | algorithm => Algorithm.run
  | create cmd => cmd.run libs rounds
  | createPrimary cmd => cmd.run libs rounds
  | delete cmd => cmd.run libs.crypto
  | evict cmd => Shell.onTask (cmd.run libs.crypto)
  | «import» cmd => cmd.run libs rounds
  | load cmd => cmd.run libs
  | memory cmd => cmd.run libs isTty rounds
  | pcrEvent cmd => cmd.run libs
  | returnCode cmd => cmd.run libs
  | resetLock => ResetLock.run libs
  | «seal» cmd => cmd.run libs rounds
  | «unseal» cmd => cmd.run libs

/-- Validates command-line arguments before opening a TPM device. -/
def validate {E : Type} : Command → Except (CommandError E) Unit
  | «seal» cmd => cmd.validate
  | _ => .ok ()

/-- Whether the command can be run without a TPM device. -/
def isLocal : Command → Bool
  | load cmd => cmd.isLocal
  | returnCode _ => true
  | _ => false

end Command

/-- The loop of `parseAuthEntries`. -/
def parseEntries (hex : Hex) : List (List Char) → Checked AuthError (List (TpmHandle × Auth))
  | [] => return []
  | s :: strings => do
      let entry ← parseAuth hex s
      let entries ← parseEntries hex strings
      return entry :: entries

/-- Parses the authentication entries of one `--auth` argument. -/
def parseAuthEntries (hex : Hex) (s : List Char) :
    Checked AuthError (List (TpmHandle × Auth)) := do
  let entries ← parseEntries hex ((s.splitOn ',').filter fun entry => !(trim entry).isEmpty)
  if entries.isEmpty then
    throw .format
  else
    return entries

/-- The command line: the entries of each `--auth` argument, and the command. -/
structure TopLevel where
  auth : List (List (TpmHandle × Auth))
  command : Option Command

/-- Returns flattened authentication entries. -/
def TopLevel.authEntries (cli : TopLevel) : List (TpmHandle × Auth) := cli.auth.flatten

/-- What the program finds. -/
structure World where
  /-- The device behind the device file, or why it cannot be opened. -/
  deviceFile : Except TpmDeviceError TpmDevice
  cacheDir : Directory
  terminal : Terminal
  isTty : Bool
  /-- The value of `TPM2SH_AUTH`. -/
  envAuth : Option (List Char)

/-- The device of a task that has none. -/
def TpmDevice.absent : TpmDevice := ⟨fun _ => .sendFails .notAvailable, [], [], []⟩

/-- `Drop` of a cache. -/
def VtpmCache.teardown (cache : VtpmCache) : VtpmCache :=
  Fallible.after (VtpmCache.flush.run cache)

namespace World

section
variable {E : Type}

/-- Opens the device and fetches the names of its persistent objects. -/
def openDevice : Fallible (CommandError E) World (HashMap TpmHandle Tpm2bName) := fun world =>
  match world.deviceFile with
  | .error e => .error (.task (deviceErr e)) world
  | .ok device =>
      match fetchPersistentNames.run device with
      | .ok nameMap device => .ok nameMap { world with deviceFile := .ok device }
      | .error e device => .error (.task (deviceErr e)) { world with deviceFile := .ok device }

/-- Opens the cache with the persistent objects of the device. -/
def openCache (crypto : Libcrypto) (nameMap : HashMap TpmHandle Tpm2bName) :
    Fallible (CommandError E) World VtpmCache :=
  let persistentHandles : HashMap Tpm2bName TpmHandle :=
    HashMap.extend ∅ (nameMap.entries.map fun entry => (entry.2, entry.1))
  EStateM.adaptExcept (fun e => .task (.vtpm e)) <|
    Fallible.part cacheDir (fun world cacheDir => { world with cacheDir })
      (VtpmCache.new crypto persistentHandles)

/-- The device that a command has. -/
def deviceFor (world : World) (command : Command) : TpmDevice :=
  if command.isLocal then .absent else world.deviceFile.toOption.getD .absent

/-- What a task leaves when it is dropped, with its cache. -/
def close (world : World) (command : Command) (shell : Shell) : World :=
  let task := shell.task.drop
  { world with
    deviceFile := if command.isLocal then world.deviceFile else .ok task.device
    cacheDir := task.cache.teardown.cacheDir
    terminal := shell.terminal }

end

variable (libs : Libraries) (rounds : Nat)

/-- What is done with a new task: `TaskState::new` validates its persistent handles, and then the
command runs. -/
def perform (command : Command) (isTty : Bool) :
    Fallible (CommandError libs.rasn.Asn1Error) Shell Unit := do
  if !command.isLocal then
    Shell.onTask (TaskState.validatePersistentHandles libs.crypto)
  command.run libs rounds isTty

/-- Runs a command in a new task, which is dropped at the end. -/
def runTask (command : Command) (cache : VtpmCache) (authMap : HashMap TpmHandle Auth) :
    Fallible (CommandError libs.rasn.Asn1Error) World Unit := fun world =>
  let task := TaskState.initial (world.deviceFor command) cache authMap
  match (perform libs rounds command world.isTty).run ⟨task, world.terminal⟩ with
  | .ok () shell => .ok () (world.close command shell)
  | .error e shell => .error e (world.close command shell)

/-- The part of `executeCli` with a cache, which is dropped where there is no task to own it. -/
def runWith (command : Command) (authEntries : List (TpmHandle × Auth)) (cache : VtpmCache) :
    Fallible (CommandError libs.rasn.Asn1Error) World Unit := do
  match (buildAuthMap libs.hex (← get).envAuth authEntries).run with
  | none => throw .panicked
  | some (.error (entry, e)) => do
      modify fun world => { world with cacheDir := cache.teardown.cacheDir }
      throw (.invalidAuthEntry entry e)
  | some (.ok authMap) => runTask libs rounds command cache authMap

def executeCli (cli : TopLevel) : Fallible (CommandError libs.rasn.Asn1Error) World Unit := do
  match cli.command with
  | none => throw .missingCommand
  | some command => do
      Fallible.ofExcept command.validate
      let nameMap ← if command.isLocal then pure ∅ else openDevice
      let cache ← openCache libs.crypto nameMap
      runWith libs rounds command cli.authEntries cache

end World
end Tpm2
