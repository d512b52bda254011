import Tpm2.Crypto.External
import Tpm2.PolicyLanguage.Token
import Tpm2.Sh.Evict
import Tpm2.Sh.NvRead
import Tpm2.Sh.Pcr
import Tpm2.Text.Hex
import Tpm2.TpmKey.Pem

/-! Programs of the shell: they work on a task, and they read and write files and the terminal. -/

namespace Tpm2

open ByteCodec Text

/-- The path of a file. -/
abbrev Path := List Char

/-- The order of two strings, which is that of their characters. -/
def textLe (s t : List Char) : Bool := !t.lex s fun c d => c.toNat.blt d.toNat

/-- A row of the table of `Memory`. -/
structure MemoryRow where
  handle : List Char
  «class» : List Char
  details : List Char

/-- The signature algorithms of libcrypto. -/
inductive SignatureNid
  | sha1WithRsaEncryption | sha256WithRsaEncryption | sha384WithRsaEncryption
  | sha512WithRsaEncryption | ecdsaWithSha256 | ecdsaWithSha384 | ecdsaWithSha512
  | other (number : Nat)
  deriving DecidableEq

/-- The public key of a certificate: the bytes of its modulus, or the name of its curve, unless they
cannot be read. -/
inductive CertificateKey
  | rsa (size : Option Nat)
  | ec (curveName : Option (Option Nid))
  | other

/-- A certificate of libcrypto. -/
structure X509 where
  signatureAlgorithm : SignatureNid
  publicKey : Option CertificateKey

/-- The libraries that the commands use, and the keyring of the kernel. -/
structure Libraries where
  crypto : Libcrypto
  mac : crypto.Mac
  keys : Libcrypto.Keys
  /-- `symm::encrypt` with AES in the 128-bit cipher feedback mode, for a key of some bits. -/
  aesCfb : (keyBits : Nat) → (key iv data : Bytes) → Except TpmCryptoError Bytes
  /-- `X509::from_der`. -/
  x509 : Bytes → Option X509
  hex : Hex
  rasn : Rasn
  pem : Pem
  /-- The text of a table, on a terminal or not. -/
  table : List MemoryRow → Bool → List Char
  /-- `add_key` for a trusted key of the user: its serial number, or the error. -/
  addKey : (description payload : List Char) → Except Int Int

/-- What a program writes: a text on the standard output, or the contents of a file. -/
inductive Output
  | stdout (text : List Char)
  | file (path : Path) (contents : Bytes)

/-- The files and the standard streams. -/
structure Terminal where
  /-- What is in a file, or else on the standard input. -/
  reads : Option Path → Except IoError Bytes
  /-- Whether writing fails, by what is written so far, the last output included. -/
  refuses : List Output → Option IoError
  outputs : List Output

/-- What a command works on. -/
structure Shell where
  task : TaskState
  terminal : Terminal

/-- Why an authentication entry is malformed. -/
inductive AuthError
  | format
  | handle (e : HandleError)
  | handlePattern
  | hex
  deriving DecidableEq

/-- The errors of the commands. An `Asn1Error` is what the ASN.1 library reports. -/
inductive CommandError (Asn1Error : Type)
  | task (e : TaskError)
  | pcr (e : PcrError)
  | nv (e : NvError)
  | policy (e : TpmPolicyError)
  | externalKey (e : ExternalKeyError)
  | keyFile (e : TpmKeyError Asn1Error)
  | io (e : IoError)
  | unexpectedEof
  | missingCommand
  | invalidAuthEntry (entry : List Char) (e : AuthError)
  | unknownHandle (handle : Handle)
  | passwordNotHex
  | sensitiveDataNotHex
  | sensitiveDataMissing
  | capacityExceeded
  | exclusiveInputs
  | parentMissing
  | authPolicyNotSupported
  | policyAuthorizeNotSupported
  | invalidSecret
  | trailingSecret
  | kernelKeyNotSealed
  | kernelParentNotPersistent
  | kernelKeyWithAuth
  | kernelKeyWithPolicy
  | kernelKeyWithSecret
  | nullByte
  | trustedKeyBackend
  | trustedKey (error : Int)
  | deleteFailed
  | invalidPem
  | noPrivateKey
  | invalidAlgorithm (scheme : TpmAlgId)
  | algorithmType
  | algorithmSize
  | algorithmCurve
  | invalidParentKeyType
  | unsupportedKeyAlgorithm
  | encryptionFailed
  | unsupportedHashAlgorithm
  | invalidDerCertificate
  | invalidCertificate
  | invalidRsaParameters
  | invalidEccParameters
  | tryFromInt
  /-- A loop is not done after the rounds that it was given. -/
  | unfinished
  /-- The program has panicked. -/
  | panicked

namespace Fallible

variable {ε φ σ α : Type}

/-- Runs a program that may panic; where it does, the state is the one before. -/
def ofMutating (panicked : φ) (wrap : ε → φ) (x : Mutating ε σ α) : Fallible φ σ α :=
  Fallible.ofRun fun s =>
    match x.outcome s with
    | none => .error panicked s
    | some (.ok a, t) => .ok a t
    | some (.error e, t) => .error (wrap e) t

end Fallible

namespace Shell

variable {ε E α : Type}

/-- Runs a program on the task. -/
def onTaskWith (wrap : ε → CommandError E) (x : Fallible ε TaskState α) :
    Fallible (CommandError E) Shell α :=
  EStateM.adaptExcept wrap (Fallible.part task (fun shell task => { shell with task }) x)

def onTask (x : Fallible TaskError TaskState α) : Fallible (CommandError E) Shell α :=
  onTaskWith .task x

/-- Runs a program on the device and reports its errors to the user. -/
def onDevice (x : Fallible TpmDeviceError TpmDevice α) : Fallible (CommandError E) Shell α :=
  onTask (TaskState.withDevice x)

/-- Runs a program on the device and returns how it ended. -/
def tryDevice (x : Fallible TpmDeviceError TpmDevice α) :
    Fallible (CommandError E) Shell (Except TpmDeviceError α) :=
  onTaskWith id (Fallible.outcome (TaskState.onDevice x))

/-- Executes a command of the TPM and reads the body of its response. -/
def perform (crypto : Libcrypto) {C : TpmBodyType} (R : TpmBodyType) (command : TpmBody C)
    (authList : List Auth) : Fallible (CommandError E) Shell (TpmBody R) :=
  onTask do
    let response ← TaskState.execute crypto command authList
    Fallible.ofExcept ((response.unmarshal R).mapError .protocol)

/-- A result with errors of its own. -/
def result (wrap : ε → CommandError E) (x : Except ε α) : Fallible (CommandError E) Shell α :=
  Fallible.ofExcept (x.mapError wrap)

/-- The value of a handle that is not a pattern. -/
def requireValue (handle : Handle) : Fallible (CommandError E) Shell TpmHandle := do
  let value ← result .task handle.requireValue
  return .new value

/-- The result of a loop. -/
def finished : Option α → Fallible (CommandError E) Shell α
  | none => throw .unfinished
  | some a => return a

/-- Writes an output, or fails. -/
def write (output : Output) : Fallible (CommandError E) Shell Unit := do
  let outputs := (← get).terminal.outputs ++ [output]
  match (← get).terminal.refuses outputs with
  | some e => throw (.io e)
  | none => modify fun shell => { shell with terminal := { shell.terminal with outputs } }

/-- `writeln!` on the standard output. -/
def writeLine (line : List Char) : Fallible (CommandError E) Shell Unit :=
  write (.stdout (line ++ ['\n']))

end Shell

/-- `str::trim`. -/
def trim (text : List Char) : List Char :=
  ((text.dropWhile isWhitespace).reverse.dropWhile isWhitespace).reverse

/-- Reads data from a file path or from stdin if the path is not provided. -/
def readFileInput {E : Type} (input : Option Path) : Fallible (CommandError E) Shell Bytes := do
  let bytes ← Shell.result .io ((← get).terminal.reads input)
  if bytes.isEmpty then
    throw .unexpectedEof
  else
    match input, String.fromUTF8? ⟨bytes.toArray⟩ with
    | none, some text => return utf8 (trim text.toList)
    | _, _ => return bytes

/-- Serializes a key to PEM format, and writes it to a file, or else to the standard output. -/
def writeKeyData (libs : Libraries) (tpmKey : TpmKeyFile) (output : Option Path) :
    Fallible (CommandError libs.rasn.Asn1Error) Shell Unit := do
  let pem ← Shell.result .keyFile (tpmKey.toPem libs.rasn libs.pem)
  match output with
  | some path => Shell.write (.file path (utf8 pem))
  | none => Shell.write (.stdout pem)

/-- Serializes an object into a byte string. -/
def writeObject {α : Type} [TpmMarshal α] (obj : α) : TpmResult Bytes := do
  let writer ← TpmMarshal.marshal obj (Cursor.zeros tpmMaxCommandSize)
  return writer.written

/-- Parses a text as a `u32`, decimal or hexadecimal with `0x`. -/
def parseU32 (s : List Char) : Option UInt32 :=
  let trimmed := trim s
  let number :=
    match ("0x".toList.isPrefixOf? trimmed).or ("0X".toList.isPrefixOf? trimmed) with
    | some stripped => fromStrRadix (2 ^ 32) 16 stripped
    | none => fromStrRadix (2 ^ 32) 10 trimmed
  number.map UInt32.ofNat

end Tpm2
