import Tpm2.Algorithm.HashChain
import Tpm2.Protocol.Data.Public

/-! The hash algorithms, over the message digests of libcrypto. -/

namespace Tpm2

open ByteCodec

inductive TpmCryptoError
  | bufferTooSmall (expected actual : Nat)
  | crypto
  | invalidHash
  | invalidKdfKeyBits (keyBits : Nat)
  | invalidObjectType
  | invalidRandomRange
  | keyIsEmpty
  | marshal (e : TpmError)
  | unmarshal (e : TpmError)
  deriving DecidableEq

inductive TpmHash
  | sha1 | sha256 | sha384 | sha512 | sm3_256 | sha3_256 | sha3_384 | sha3_512 | shake128 | shake256
  deriving DecidableEq

/-- The message digests of libcrypto: the size of each, and the digest of all bytes that a hasher is
fed, which has that size. Hashing may fail. -/
structure Libcrypto where
  size : TpmHash → Nat
  hash : TpmHash → Bytes → Except TpmCryptoError Bytes
  length_hash : ∀ {alg data digest}, hash alg data = .ok digest → digest.length = size alg

/-- Libcrypto when it is asked for `inputs` only: it fails on all others. -/
def Libcrypto.only (crypto : Libcrypto) (inputs : List Bytes) : Libcrypto where
  size := crypto.size
  hash alg := HashChain.restrict (crypto.hash alg) inputs .crypto
  length_hash ok := crypto.length_hash (HashChain.restrict_eq_ok.mp ok).2

/-- No two of `inputs` have the same digest. -/
def Libcrypto.CollisionFree (crypto : Libcrypto) (alg : TpmHash) (inputs : List Bytes) : Prop :=
  ∀ x ∈ inputs, ∀ y ∈ inputs, ∀ digest,
    crypto.hash alg x = .ok digest → crypto.hash alg y = .ok digest → x = y

/-- Hashing never fails. -/
def Libcrypto.Total (crypto : Libcrypto) (alg : TpmHash) : Prop :=
  ∀ data, ∃ digest, crypto.hash alg data = .ok digest

theorem Libcrypto.collisionFree_only {crypto : Libcrypto} {alg : TpmHash} {inputs : List Bytes} :
    HashChain.CollisionFree ((crypto.only inputs).hash alg) ↔ crypto.CollisionFree alg inputs :=
  HashChain.collisionFree_restrict

namespace TpmHash

/-- `TryFrom<TpmAlgId>`. -/
def tryFrom : TpmAlgId → Except TpmCryptoError TpmHash
  | .sha1 => .ok sha1
  | .sha256 => .ok sha256
  | .sha384 => .ok sha384
  | .sha512 => .ok sha512
  | .sm3_256 => .ok sm3_256
  | .sha3_256 => .ok sha3_256
  | .sha3_384 => .ok sha3_384
  | .sha3_512 => .ok sha3_512
  | .shake128 => .ok shake128
  | .shake256 => .ok shake256
  | _ => .error .invalidHash

/-- `From<TpmHash> for TpmAlgId`. -/
def toAlgId : TpmHash → TpmAlgId
  | sha1 => .sha1
  | sha256 => .sha256
  | sha384 => .sha384
  | sha512 => .sha512
  | sm3_256 => .sm3_256
  | sha3_256 => .sha3_256
  | sha3_384 => .sha3_384
  | sha3_512 => .sha3_512
  | shake128 => .shake128
  | shake256 => .shake256

theorem tryFrom_eq_ok {id : TpmAlgId} {alg : TpmHash} :
    tryFrom id = .ok alg ↔ id = alg.toAlgId := by
  constructor
  · intro ok
    cases id <;> cases ok <;> rfl
  · rintro rfl
    cases alg <;> rfl

/-- `Display`: the name of the variant in kebab case. -/
def display : TpmHash → List Char
  | sha1 => "sha1".toList
  | sha256 => "sha256".toList
  | sha384 => "sha384".toList
  | sha512 => "sha512".toList
  | sm3_256 => "sm3-256".toList
  | sha3_256 => "sha3-256".toList
  | sha3_384 => "sha3-384".toList
  | sha3_512 => "sha3-512".toList
  | shake128 => "shake128".toList
  | shake256 => "shake256".toList

/-- `FromStr`: the variant of that name. -/
def fromStr (s : List Char) : Option TpmHash :=
  [sha1, sha256, sha384, sha512, sm3_256, sha3_256, sha3_384, sha3_512, shake128, shake256].find?
    fun alg => alg.display = s

theorem fromStr_eq_some {s : List Char} {alg : TpmHash} :
    fromStr s = some alg ↔ s = alg.display := by
  constructor
  · intro found
    rw [fromStr] at found
    have same := List.find?_some found
    exact (of_decide_eq_true same).symm
  · rintro rfl
    cases alg <;> rfl

/-- A name is made of letters, decimal digits and hyphens. -/
theorem display_chars (alg : TpmHash) :
    alg.display ≠ [] ∧ ∀ c ∈ alg.display, c.isAlphanum ∨ c = '-' := by
  have shown : alg.display ≠ [] ∧ alg.display.all fun c => c.isAlphanum ∨ c = '-' := by
    cases alg <;> decide
  exact ⟨shown.1, by simpa using shown.2⟩

def checkOutputLen (output : Bytes) (expected : Nat) : Except TpmCryptoError Unit :=
  if output.length < expected then
    .error (.bufferTooSmall expected output.length)
  else
    .ok ()

/-- Computes a digest over a series of data chunks into `output`; returns the number of bytes
written with it. -/
def digestInto (crypto : Libcrypto) (alg : TpmHash) (dataChunks : List Bytes) (output : Bytes) :
    Except TpmCryptoError (Bytes × Nat) := do
  checkOutputLen output (crypto.size alg)
  let digest ← crypto.hash alg dataChunks.flatten
  return (digest ++ output.drop digest.length, digest.length)

/-- Computes a digest over a series of data chunks. -/
def digest (crypto : Libcrypto) (alg : TpmHash) (dataChunks : List Bytes) :
    Except TpmCryptoError Bytes := do
  let (digest, len) ← digestInto crypto alg dataChunks (List.replicate (crypto.size alg) 0)
  return digest.take len

@[simp] theorem digest_eq_hash (crypto : Libcrypto) (alg : TpmHash) (dataChunks : List Bytes) :
    digest crypto alg dataChunks = crypto.hash alg dataChunks.flatten := by
  have fits : ¬ (List.replicate (crypto.size alg) (0 : UInt8)).length < crypto.size alg := by simp
  rw [digest, digestInto, checkOutputLen, if_neg fits]
  cases crypto.hash alg dataChunks.flatten with
  | error e => rfl
  | ok digest => simp [bind, Except.bind, pure, Except.pure]

end TpmHash
end Tpm2
