import Tpm2.Protocol.Data.Rc

/-! The texts of algorithms and of response codes. -/

namespace Tpm2

/-- The names of the algorithms, in the order of `TpmEnum.variants`. -/
def TpmAlgId.names : List String :=
  ["Error", "Rsa", "Tdes", "Sha1", "Hmac", "Aes", "Mgf1", "KeyedHash", "Xor", "Sha256", "Sha384",
   "Sha512", "Null", "Sm3_256", "Sm4", "Rsassa", "Rsaes", "Rsapss", "Oaep", "Ecdsa", "Ecdh",
   "Ecdaa", "Sm2", "Ecschnorr", "Ecmqv", "Kdf1Sp800_56A", "Kdf2", "Kdf1Sp800_108", "Ecc",
   "SymCipher", "Camellia", "Sha3_256", "Sha3_384", "Sha3_512", "Shake128", "Shake256",
   "Shake256_192", "Shake256_256", "Shake256_512", "Cmac", "Ctr", "Ofb", "Cbc", "Cfb", "Ecb", "Ccm",
   "Gcm", "Kw", "Kwp", "Eax", "Eddsa", "EddsaPh", "Lms", "Xmss", "Keyedxof", "Kmacxof128",
   "Kmacxof256", "Kmac128", "Kmac256"]

/-- The derived `Debug` of an algorithm. -/
def TpmAlgId.debug (alg : TpmAlgId) : List Char :=
  (names.getD (List.idxOf alg TpmEnum.variants) "").toList

/-- The names of the response codes without the `TPM_RC_` that all of them start with, in the order
of `TpmEnum.variants`. -/
def TpmRcBase.names : List String :=
  ["SUCCESS", "BAD_TAG", "INITIALIZE", "FAILURE", "SEQUENCE", "PRIVATE", "HMAC", "DISABLED",
   "EXCLUSIVE", "AUTH_TYPE", "AUTH_MISSING", "POLICY", "PCR", "PCR_CHANGED", "UPGRADE",
   "TOO_MANY_CONTEXTS", "AUTH_UNAVAILABLE", "REBOOT", "UNBALANCED", "COMMAND_SIZE", "COMMAND_CODE",
   "AUTHSIZE", "AUTH_CONTEXT", "NV_RANGE", "NV_SIZE", "NV_LOCKED", "NV_AUTHORIZATION",
   "NV_UNINITIALIZED", "NV_SPACE", "NV_DEFINED", "BAD_CONTEXT", "CPHASH", "PARENT", "NEEDS_TEST",
   "NO_RESULT", "SENSITIVE", "READ_ONLY", "ASYMMETRIC", "ATTRIBUTES", "HASH", "VALUE", "HIERARCHY",
   "KEY_SIZE", "MGF", "MODE", "TYPE", "HANDLE", "KDF", "RANGE", "AUTH_FAIL", "NONCE", "PP",
   "SCHEME", "SIZE", "SYMMETRIC", "TAG", "SELECTOR", "INSUFFICIENT", "SIGNATURE", "KEY",
   "POLICY_FAIL", "INTEGRITY", "TICKET", "RESERVED_BITS", "BAD_AUTH", "EXPIRED", "POLICY_CC",
   "BINDING", "CURVE", "ECC_POINT", "FW_LIMITED", "SVN_LIMITED", "CHANNEL", "CHANNEL_KEY",
   "CONTEXT_GAP", "OBJECT_MEMORY", "SESSION_MEMORY", "MEMORY", "SESSION_HANDLES", "OBJECT_HANDLES",
   "LOCALITY", "YIELDED", "CANCELED", "TESTING", "REFERENCE_H0", "REFERENCE_H1", "REFERENCE_H2",
   "REFERENCE_H3", "REFERENCE_H4", "REFERENCE_H5", "REFERENCE_H6", "REFERENCE_S0", "REFERENCE_S1",
   "REFERENCE_S2", "REFERENCE_S3", "REFERENCE_S4", "REFERENCE_S5", "REFERENCE_S6", "NV_RATE",
   "LOCKOUT", "RETRY", "NV_UNAVAILABLE", "NOT_USED"]

/-- `Display` of a response code without its index. -/
def TpmRcBase.display (base : TpmRcBase) : List Char :=
  "TPM_RC_".toList ++ (names.getD (List.idxOf base TpmEnum.variants) "").toList

/-- `Display` of an index. -/
def TpmRcIndex.display : TpmRcIndex → List Char
  | parameter i => "parameter[".toList ++ Nat.toDigits 10 i.toNat ++ [']']
  | handle i => "handle[".toList ++ Nat.toDigits 10 i.toNat ++ [']']
  | session i => "session[".toList ++ Nat.toDigits 10 i.toNat ++ [']']

/-- `Display` of a response code. -/
def TpmRc.display : TpmRc → List Char
  | fmt0 base | warn base => base.display
  | fmt1 rc =>
      match rc.index with
      | none => rc.base.display
      | some index => '[' :: rc.base.display ++ ", ".toList ++ index.display ++ [']']

end Tpm2
