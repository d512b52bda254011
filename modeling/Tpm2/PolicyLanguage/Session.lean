import Tpm2.PolicyLanguage.Basic
import Tpm2.Protocol.Frame.Value

/-! A session that simulates policy digest calculations in software. -/

namespace Tpm2

open ByteCodec

/-- A software policy session. -/
structure TpmPolicySession where
  digest : Tpm2bDigest
  hashAlg : TpmHash
  digestSize : Nat
  deriving DecidableEq

/-- `Tpm2bDigest::try_from(vec![0; size])`. -/
def zeroDigest (size : Nat) : Except TpmPolicyError Tpm2bDigest :=
  (TpmBuffer.tryFrom (List.replicate size 0)).mapError .marshal

/-- `(cc as u32).to_be_bytes()`. -/
def ccBytes (cc : TpmCc) : Bytes := TpmIntBytes.toBeBytes (TpmEnum.value cc)

namespace TpmPolicySession

/-- Creates a new software policy session. -/
def new (crypto : Libcrypto) (hashAlg : TpmAlgId) : Except TpmPolicyError TpmPolicySession := do
  let hashAlg ← (TpmHash.tryFrom hashAlg).mapError .crypto
  let digestSize := crypto.size hashAlg
  let digest ← zeroDigest digestSize
  return ⟨digest, hashAlg, digestSize⟩

/-- The digest of `chunks` under the algorithm of the session, as a buffer. -/
def hashChunks (crypto : Libcrypto) (session : TpmPolicySession) (chunks : List Bytes) :
    Except TpmPolicyError Tpm2bDigest := do
  let newDigestBytes ← (session.hashAlg.digest crypto chunks).mapError .crypto
  (TpmBuffer.tryFrom newDigestBytes).mapError .marshal

/-- Applies a `TPM2_PolicyPCR` action to the session. -/
def policyPcr (crypto : Libcrypto) (session : TpmPolicySession)
    (cmd : TpmBody TpmPolicyPcrCommand) : Except TpmPolicyError TpmPolicySession := do
  let (pcrDigest, pcrs, ()) := cmd.parameters
  let pcrsBytes ← (encode pcrs).mapError .marshal
  let digest ← session.hashChunks crypto
    [session.digest.bytes, ccBytes .policyPcr, pcrsBytes, pcrDigest.bytes]
  return { session with digest }

/-- Applies a `TPM2_PolicyOR` action to the session. -/
def policyOr (crypto : Libcrypto) (session : TpmPolicySession)
    (cmd : TpmBody TpmPolicyOrCommand) : Except TpmPolicyError TpmPolicySession := do
  let (pHashList, ()) := cmd.parameters
  let digestsAsBytes := pHashList.items.flatMap TpmBuffer.bytes
  let zeroDigest ← zeroDigest session.digestSize
  let digest ← session.hashChunks crypto [zeroDigest.bytes, ccBytes .policyOr, digestsAsBytes]
  return { session with digest }

/-- Applies a `TPM2_PolicySecret` action to the session. -/
def policySecret (crypto : Libcrypto) (session : TpmPolicySession) (authHandleName : Tpm2bName)
    (policyRef : Tpm2bNonce) : Except TpmPolicyError TpmPolicySession := do
  let firstDigest ← session.hashChunks crypto
    [session.digest.bytes, ccBytes .policySecret, authHandleName.bytes]
  let digest ← session.hashChunks crypto [firstDigest.bytes, policyRef.bytes]
  return { session with digest }

/-- Applies a `TPM2_PolicyRestart` action to the session. -/
def policyRestart (session : TpmPolicySession) : Except TpmPolicyError TpmPolicySession := do
  let digest ← zeroDigest session.digestSize
  return { session with digest }

/-- The session runs under `alg`, with a digest of that algorithm's size. -/
structure Ready (crypto : Libcrypto) (alg : TpmHash) (session : TpmPolicySession) : Prop where
  hashAlg : session.hashAlg = alg
  digestSize : session.digestSize = crypto.size alg
  length_digest : session.digest.bytes.length = crypto.size alg

section
variable {crypto : Libcrypto} {alg : TpmHash} {session session' : TpmPolicySession}

/-- Under one algorithm a session is its digest. -/
theorem Ready.ext (ready : Ready crypto alg session) (ready' : Ready crypto alg session')
    (same : session.digest = session'.digest) : session = session' := by
  have hashAlg := ready.hashAlg.trans ready'.hashAlg.symm
  have digestSize := ready.digestSize.trans ready'.digestSize.symm
  cases session
  cases session'
  simp_all

theorem zeroDigest_eq_ok {size : Nat} {digest : Tpm2bDigest} (ok : zeroDigest size = .ok digest) :
    digest.bytes = List.replicate size 0 :=
  (TpmBuffer.tryFrom_eq_ok.mp (mapError_eq_ok.mp ok)).2.2

theorem new_ready {sessionHashAlg : TpmAlgId} (valid : TpmHash.tryFrom sessionHashAlg = .ok alg)
    (ok : new crypto sessionHashAlg = .ok session) : Ready crypto alg session := by
  obtain ⟨hashAlg, resolved, ok⟩ := bind_eq_ok.mp ok
  obtain rfl : alg = hashAlg := by
    rw [mapError_eq_ok, valid] at resolved
    exact Except.ok.inj resolved
  obtain ⟨digest, zero, ok⟩ := bind_eq_ok.mp ok
  cases ok
  exact ⟨rfl, rfl, by rw [zeroDigest_eq_ok zero, List.length_replicate]⟩

theorem hashChunks_eq_ok {chunks : List Bytes} {digest : Tpm2bDigest} :
    session.hashChunks crypto chunks = .ok digest ↔
      crypto.hash session.hashAlg chunks.flatten = .ok digest.bytes := by
  simp only [hashChunks, TpmHash.digest_eq_hash, bind_eq_ok, mapError_eq_ok,
    TpmBuffer.tryFrom_eq_ok]
  constructor
  · rintro ⟨bytes, hashed, -, -, rfl⟩
    exact hashed
  · intro hashed
    exact ⟨digest.bytes, hashed, digest.length_le, digest.length_le_u16, rfl⟩

theorem Ready.length_hashChunks (ready : Ready crypto alg session) {chunks : List Bytes}
    {digest : Tpm2bDigest} (ok : session.hashChunks crypto chunks = .ok digest) :
    digest.bytes.length = crypto.size alg := by
  have hashed := hashChunks_eq_ok.mp ok
  rw [ready.hashAlg] at hashed
  exact crypto.length_hash hashed

/-- A hashed digest takes the place of the session's. -/
theorem Ready.hashed (ready : Ready crypto alg session) {chunks : List Bytes}
    {digest : Tpm2bDigest} (ok : session.hashChunks crypto chunks = .ok digest) :
    Ready crypto alg { session with digest } :=
  ⟨ready.hashAlg, ready.digestSize, ready.length_hashChunks ok⟩

theorem policyPcr_eq_ok {cmd : TpmBody TpmPolicyPcrCommand} :
    session.policyPcr crypto cmd = .ok session' ↔ ∃ pcrsBytes digest,
      encode cmd.parameters.2.1 = .ok pcrsBytes ∧
      session.hashChunks crypto [session.digest.bytes, ccBytes .policyPcr, pcrsBytes,
        cmd.parameters.1.bytes] = .ok digest ∧ session' = { session with digest } := by
  simp only [policyPcr, bind_eq_ok, mapError_eq_ok, pure, Except.pure, Except.ok.injEq]
  constructor
  · rintro ⟨pcrsBytes, encoded, digest, hashed, rfl⟩
    exact ⟨pcrsBytes, digest, encoded, hashed, rfl⟩
  · rintro ⟨pcrsBytes, digest, encoded, hashed, rfl⟩
    exact ⟨pcrsBytes, encoded, digest, hashed, rfl⟩

theorem policyOr_eq_ok {cmd : TpmBody TpmPolicyOrCommand} :
    session.policyOr crypto cmd = .ok session' ↔ ∃ zero digest,
      zeroDigest session.digestSize = .ok zero ∧
      session.hashChunks crypto [zero.bytes, ccBytes .policyOr,
        cmd.parameters.1.items.flatMap TpmBuffer.bytes] = .ok digest ∧
      session' = { session with digest } := by
  simp only [policyOr, bind_eq_ok, pure, Except.pure, Except.ok.injEq]
  constructor
  · rintro ⟨zero, zeroed, digest, hashed, rfl⟩
    exact ⟨zero, digest, zeroed, hashed, rfl⟩
  · rintro ⟨zero, digest, zeroed, hashed, rfl⟩
    exact ⟨zero, zeroed, digest, hashed, rfl⟩

theorem policySecret_eq_ok {name : Tpm2bName} {policyRef : Tpm2bNonce} :
    session.policySecret crypto name policyRef = .ok session' ↔ ∃ first digest,
      session.hashChunks crypto [session.digest.bytes, ccBytes .policySecret, name.bytes] =
        .ok first ∧
      session.hashChunks crypto [first.bytes, policyRef.bytes] = .ok digest ∧
      session' = { session with digest } := by
  simp only [policySecret, bind_eq_ok, pure, Except.pure, Except.ok.injEq]
  constructor
  · rintro ⟨first, hashedFirst, digest, hashed, rfl⟩
    exact ⟨first, digest, hashedFirst, hashed, rfl⟩
  · rintro ⟨first, digest, hashedFirst, hashed, rfl⟩
    exact ⟨first, hashedFirst, digest, hashed, rfl⟩

theorem Ready.policyPcr (ready : Ready crypto alg session) {cmd : TpmBody TpmPolicyPcrCommand}
    (ok : session.policyPcr crypto cmd = .ok session') : Ready crypto alg session' := by
  obtain ⟨pcrsBytes, digest, -, hashed, rfl⟩ := policyPcr_eq_ok.mp ok
  exact ready.hashed hashed

theorem Ready.policyOr (ready : Ready crypto alg session) {cmd : TpmBody TpmPolicyOrCommand}
    (ok : session.policyOr crypto cmd = .ok session') : Ready crypto alg session' := by
  obtain ⟨zero, digest, -, hashed, rfl⟩ := policyOr_eq_ok.mp ok
  exact ready.hashed hashed

theorem Ready.policySecret (ready : Ready crypto alg session) {name : Tpm2bName}
    {policyRef : Tpm2bNonce} (ok : session.policySecret crypto name policyRef = .ok session') :
    Ready crypto alg session' := by
  obtain ⟨first, digest, -, hashed, rfl⟩ := policySecret_eq_ok.mp ok
  exact ready.hashed hashed

theorem Ready.policyRestart (ready : Ready crypto alg session)
    (ok : session.policyRestart = .ok session') : Ready crypto alg session' := by
  obtain ⟨digest, zero, ok⟩ := bind_eq_ok.mp ok
  cases ok
  refine ⟨ready.hashAlg, ready.digestSize, ?_⟩
  rw [zeroDigest_eq_ok zero, List.length_replicate, ready.digestSize]

/-- A restarted session has forgotten what it was. -/
theorem Ready.policyRestart_eq (ready : Ready crypto alg session)
    (ready' : Ready crypto alg session') : session.policyRestart = session'.policyRestart := by
  have hashAlg := ready.hashAlg.trans ready'.hashAlg.symm
  have digestSize := ready.digestSize.trans ready'.digestSize.symm
  simp only [TpmPolicySession.policyRestart, hashAlg, digestSize]

/-- So has one after a disjunction. -/
theorem Ready.policyOr_eq (ready : Ready crypto alg session) (ready' : Ready crypto alg session')
    (cmd : TpmBody TpmPolicyOrCommand) :
    session.policyOr crypto cmd = session'.policyOr crypto cmd := by
  have hashAlg := ready.hashAlg.trans ready'.hashAlg.symm
  have digestSize := ready.digestSize.trans ready'.digestSize.symm
  simp only [TpmPolicySession.policyOr, hashChunks, hashAlg, digestSize]

/-- Without collisions a digest tells the first chunk, if its length is known, and the rest. -/
theorem Ready.hashChunks_inj (free : HashChain.CollisionFree (crypto.hash alg))
    (ready : Ready crypto alg session) (ready' : Ready crypto alg session') {first first' : Bytes}
    {rest rest' : List Bytes} {digest : Tpm2bDigest} (length : first.length = first'.length)
    (ok : session.hashChunks crypto (first :: rest) = .ok digest)
    (ok' : session'.hashChunks crypto (first' :: rest') = .ok digest) :
    first = first' ∧ rest.flatten = rest'.flatten := by
  have hashed := hashChunks_eq_ok.mp ok
  have hashed' := hashChunks_eq_ok.mp ok'
  rw [ready.hashAlg] at hashed
  rw [ready'.hashAlg] at hashed'
  exact HashChain.extend_inj free length hashed hashed'

theorem encode_pcrs (pcrs : TpmlPcrSelection) : ∃ pcrsBytes, encode pcrs = .ok pcrsBytes := by
  have count : pcrs.items.length ≤ u32Max := Nat.le_trans pcrs.length_le (by decide)
  obtain ⟨pcrsBytes, -, emits⟩ :=
    (codec (α := TpmlPcrSelection)).emits ⟨count, fun _ _ => trivial⟩
  exact ⟨pcrsBytes, encode_eq_ok.mpr emits⟩

theorem Ready.exists_zeroDigest (ready : Ready crypto alg session) :
    ∃ zero, zeroDigest session.digestSize = .ok zero := by
  have size := ready.digestSize.trans ready.length_digest.symm
  have fits := session.digest.length_le
  have fits' := session.digest.length_le_u16
  refine ⟨⟨List.replicate session.digestSize 0, ?_, ?_⟩, mapError_eq_ok.mpr
    (TpmBuffer.tryFrom_eq_ok.mpr ⟨?_, ?_, rfl⟩)⟩ <;> simpa [size]

section
variable (total : crypto.Total alg)
include total

/-- Where hashing never fails, a session that is ready can always go on. -/
theorem Ready.exists_hashChunks (ready : Ready crypto alg session) (chunks : List Bytes) :
    ∃ digest, session.hashChunks crypto chunks = .ok digest := by
  obtain ⟨bytes, hashed⟩ := total chunks.flatten
  have length : bytes.length = session.digest.bytes.length :=
    (crypto.length_hash hashed).trans ready.length_digest.symm
  refine ⟨⟨bytes, length ▸ session.digest.length_le, length ▸ session.digest.length_le_u16⟩, ?_⟩
  rw [hashChunks_eq_ok, ready.hashAlg]
  exact hashed

theorem Ready.exists_policyPcr (ready : Ready crypto alg session)
    (cmd : TpmBody TpmPolicyPcrCommand) : ∃ next, session.policyPcr crypto cmd = .ok next := by
  obtain ⟨pcrsBytes, encoded⟩ := encode_pcrs cmd.parameters.2.1
  obtain ⟨digest, hashed⟩ := ready.exists_hashChunks total
    [session.digest.bytes, ccBytes .policyPcr, pcrsBytes, cmd.parameters.1.bytes]
  exact ⟨_, policyPcr_eq_ok.mpr ⟨pcrsBytes, digest, encoded, hashed, rfl⟩⟩

theorem Ready.exists_policySecret (ready : Ready crypto alg session) (name : Tpm2bName)
    (policyRef : Tpm2bNonce) : ∃ next, session.policySecret crypto name policyRef = .ok next := by
  obtain ⟨first, hashedFirst⟩ := ready.exists_hashChunks total
    [session.digest.bytes, ccBytes .policySecret, name.bytes]
  obtain ⟨digest, hashed⟩ := ready.exists_hashChunks total [first.bytes, policyRef.bytes]
  exact ⟨_, policySecret_eq_ok.mpr ⟨first, digest, hashedFirst, hashed, rfl⟩⟩

theorem Ready.exists_policyOr (ready : Ready crypto alg session)
    (cmd : TpmBody TpmPolicyOrCommand) :
    ∃ next, session.policyOr crypto cmd = .ok next := by
  obtain ⟨zero, zeroed⟩ := ready.exists_zeroDigest
  obtain ⟨digest, hashed⟩ := ready.exists_hashChunks total
    [zero.bytes, ccBytes .policyOr, cmd.parameters.1.items.flatMap TpmBuffer.bytes]
  exact ⟨_, policyOr_eq_ok.mpr ⟨zero, digest, zeroed, hashed, rfl⟩⟩

end

theorem Ready.exists_policyRestart (ready : Ready crypto alg session) :
    ∃ next, session.policyRestart = .ok next := by
  obtain ⟨zero, zeroed⟩ := ready.exists_zeroDigest
  exact ⟨_, bind_eq_ok.mpr ⟨zero, zeroed, rfl⟩⟩

end
end TpmPolicySession
end Tpm2
