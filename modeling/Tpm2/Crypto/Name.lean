import Tpm2.Crypto.Hash

/-! The cryptographic name of an object: the digest of its public area under its name algorithm. -/

namespace Tpm2

open ByteCodec

/-- Calculates the cryptographic name of a transient or persistent TPM object. -/
def tpmMakeName (crypto : Libcrypto) (pub : TpmtPublic) : Except TpmCryptoError Tpm2bName := do
  let nameAlg ← TpmHash.tryFrom pub.nameAlg
  let algBytes := TpmIntBytes.toBeBytes (TpmEnum.value pub.nameAlg)
  let publicBytes ← (encode pub).mapError .marshal
  let (digest, digestLen) ←
    nameAlg.digestInto crypto [publicBytes] (List.replicate maxDigestSize 0)
  (TpmBuffer.tryFrom (algBytes ++ digest.take digestLen)).mapError .unmarshal

/-- A public area that has a name can be written. -/
theorem writable_of_tpmMakeName {crypto : Libcrypto} {pub : TpmtPublic} {name : Tpm2bName}
    (ok : tpmMakeName crypto pub = .ok name) : Writable pub := by
  obtain ⟨nameAlg, -, ok⟩ := bind_eq_ok.mp ok
  obtain ⟨publicBytes, encoded, -⟩ := bind_eq_ok.mp ok
  exact codec.writable_of_emits (encode_eq_ok.mp (mapError_eq_ok.mp encoded))

theorem tpmMakeName_ne_nil {crypto : Libcrypto} {pub : TpmtPublic} {name : Tpm2bName}
    (ok : tpmMakeName crypto pub = .ok name) : name.bytes ≠ [] := by
  obtain ⟨nameAlg, -, ok⟩ := bind_eq_ok.mp ok
  obtain ⟨publicBytes, -, ok⟩ := bind_eq_ok.mp ok
  obtain ⟨⟨digest, digestLen⟩, -, ok⟩ := bind_eq_ok.mp ok
  have bytes := (TpmBuffer.tryFrom_eq_ok.mp (mapError_eq_ok.mp ok)).2.2
  intro empty
  have length := congrArg List.length (empty.symm.trans bytes)
  rw [List.length_append, TpmIntBytes.length_toBeBytes, List.length_nil] at length
  omega

end Tpm2
