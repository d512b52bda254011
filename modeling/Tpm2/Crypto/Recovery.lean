import Tpm2.Crypto.External
import Tpm2.Protocol.Data.Struct

/-! What the TPM that holds a parent key makes of a blob that was protected for the parent: it
recovers the seed with the private part of the parent, and derives the keys from it once more. -/

namespace Tpm2

open ByteCodec Mutating TpmHash

/-- The algorithms of a TPM. -/
structure Primitives where
  size : TpmHash → Nat
  hash : TpmHash → Bytes → Bytes
  hmac : TpmHash → (key data : Bytes) → Bytes
  /-- Decryption with AES in the cipher feedback mode. -/
  cfbDecrypt : (keyBits : Nat) → (key iv data : Bytes) → Bytes

/-- What only the private part of a parent can do. -/
structure ParentKey where
  decryptOaep : TpmHash → (label message : Bytes) → Option Bytes
  /-- The secret that is shared with the owner of a point. -/
  sharedSecret : (x y : Nat) → Option Bytes

namespace Primitives

variable (tpm : Primitives) (alg : TpmHash)

def kdfa (key label contextU contextV : Bytes) (keyBits : Nat) : Bytes :=
  kdfKey (fun counter => tpm.hmac alg key (kdfaInput label contextU contextV keyBits counter))
    keyBits

def kdfe (z label contextU contextV : Bytes) (keyBits : Nat) : Bytes :=
  kdfKey (fun counter => tpm.hash alg (kdfeInput z label contextU contextV counter)) keyBits

/-- The seed that a parent finds in an encrypted secret. -/
def recoverSeed (parent : ParentKey) (parentPublic : TpmtPublic) (secret : Bytes) : Option Bytes :=
  match parentPublic.objectType, parentPublic.unique with
  | .rsa, _ => parent.decryptOaep alg (kdfLabelDuplicate ++ [0]) secret
  | .ecc, .ecc point => do
      let (ephemeral, rest) ← (unmarshal secret : TpmResult (TpmsEccPoint × Bytes)).toOption
      guard (rest = [])
      let z ← parent.sharedSecret (ofBytes ephemeral.x.bytes) (ofBytes ephemeral.y.bytes)
      return tpm.kdfe alg z kdfLabelDuplicate ephemeral.x.bytes point.x.bytes (tpm.size alg * 8)
  | _, _ => none

/-- The size of the keys with which a parent encrypts by AES. -/
def aesKeyBits (parentPublic : TpmtPublic) : Option UInt16 :=
  match parentPublic.parameters with
  | .rsa parms => aes parms.symmetric
  | .ecc parms => aes parms.symmetric
  | _ => none
where
  aes (symmetric : TpmtSymDefObject) : Option UInt16 :=
    match symmetric.keyBits with
    | .aes bits => some bits.value
    | _ => none

/-- `TPM2_Import`, as far as it recovers the sensitive part of an object: the integrity of the blob
is checked before it is decrypted. -/
def tpmImport (parent : ParentKey) (parentPublic : TpmtPublic)
    (objectName duplicate inSymSeed : Bytes) : Option TpmtSensitive := do
  let alg ← (TpmHash.tryFrom parentPublic.nameAlg).toOption
  let seed ← tpm.recoverSeed alg parent parentPublic inSymSeed
  let (integrity, encrypted) ← (unmarshal duplicate : TpmResult (Tpm2bDigest × Bytes)).toOption
  let hmacKey := tpm.kdfa alg seed kdfLabelIntegrity [] [] (tpm.size alg * 8)
  guard (integrity.bytes = tpm.hmac alg hmacKey (encrypted ++ objectName))
  let keyBits ← aesKeyBits parentPublic
  let symKey := tpm.kdfa alg seed kdfLabelStorage objectName [] keyBits.toNat
  let plain := tpm.cfbDecrypt keyBits.toNat symKey (List.replicate 16 0) encrypted
  let (sensitive, rest) ← (unmarshal plain : TpmResult (Tpm2bSensitive × Bytes)).toOption
  guard (rest = [])
  return sensitive.inner

theorem tpmImport_eq_some {alg : TpmHash} {parent : ParentKey} {parentPublic : TpmtPublic}
    {objectName duplicate inSymSeed seed encrypted : Bytes} {integrity : Tpm2bDigest}
    {keyBits : UInt16} {sensitive : Tpm2bSensitive}
    (named : TpmHash.tryFrom parentPublic.nameAlg = .ok alg)
    (recovered : tpm.recoverSeed alg parent parentPublic inSymSeed = some seed)
    (read : unmarshal duplicate = .ok (integrity, encrypted))
    (signed : integrity.bytes = tpm.hmac alg
      (tpm.kdfa alg seed kdfLabelIntegrity [] [] (tpm.size alg * 8)) (encrypted ++ objectName))
    (aes : aesKeyBits parentPublic = some keyBits)
    (plain : unmarshal (tpm.cfbDecrypt keyBits.toNat
      (tpm.kdfa alg seed kdfLabelStorage objectName [] keyBits.toNat) (List.replicate 16 0)
        encrypted) = .ok (sensitive, [])) :
    tpm.tpmImport parent parentPublic objectName duplicate inSymSeed = some sensitive.inner := by
  unfold tpmImport
  rw [named]
  show (tpm.recoverSeed alg parent parentPublic inSymSeed).bind _ = _
  rw [recovered]
  show (unmarshal duplicate : TpmResult (Tpm2bDigest × Bytes)).toOption.bind _ = _
  rw [read]
  show (guard _ : Option Unit).bind _ = _
  rw [guard, if_pos signed]
  show (aesKeyBits parentPublic).bind _ = _
  rw [aes]
  show (unmarshal _ : TpmResult (Tpm2bSensitive × Bytes)).toOption.bind _ = _
  rw [plain]
  rfl

/-- Libcrypto computes the digests of an algorithm as the TPM does. -/
structure Digests (crypto : Libcrypto) (mac : crypto.Mac) : Prop where
  size : tpm.size alg = crypto.size alg
  positive : 0 < crypto.size alg
  within : crypto.size alg ≤ maxDigestSize
  hash : ∀ data, crypto.hash alg data = .ok (tpm.hash alg data)
  hmac : ∀ key data, key ≠ [] → mac.hmac alg key data = .ok (tpm.hmac alg key data)

/-- The keys that have as many bits as a digest fit into a buffer for one. -/
theorem Digests.bits {tpm : Primitives} {alg : TpmHash} {crypto : Libcrypto} {mac : crypto.Mac}
    (digests : tpm.Digests alg crypto mac) :
    crypto.size alg * 8 ≤ u32Max ∧ (crypto.size alg * 8 + 7) / 8 ≤ maxDigestSize := by
  have within := digests.within
  constructor
  · refine Nat.le_trans (Nat.mul_le_mul_right 8 within) ?_
    decide
  · omega

end Primitives

/-- A parent has the private part of the key with some public area: it decrypts what is encrypted
for the key, and shares a secret with whoever made a point. -/
structure ParentKey.BelongsTo (parent : ParentKey) (keys : Libcrypto.Keys)
    (parentPublic : TpmtPublic) : Prop where
  oaep : ∀ key, TpmRsaExternalKey.tryFrom parentPublic = .ok key →
    ∀ alg label message random cipher,
      keys.oaep (ofBytes key.publicKey.bytes) key.exponentValue alg label message random =
        .ok cipher → parent.decryptOaep alg label cipher = some message
  ecdh : ∀ key nid, TpmEccExternalKey.tryFrom keys parentPublic = .ok key →
    key.curve.toNid = .ok nid → ∀ number point z, keys.mulGenerator nid number = .ok point →
      keys.derive nid number (ofBytes key.unique.x.bytes) (ofBytes key.unique.y.bytes) = .ok z →
        ∀ x y, point = 4 :: (x ++ y) → x.length = y.length →
          parent.sharedSecret (ofBytes x) (ofBytes y) = some z

section
variable {α : Type} [TpmSized α] [TpmMarshal α] [TpmUnmarshal α] [TpmSpec α] [LawfulWire α]

/-- What is written of a well-formed value reads back, before any other bytes. -/
theorem unmarshal_written {v : α} {writer : TpmWriter} {size : Nat} (wf : WellFormed v)
    (ok : TpmMarshal.marshal v (Cursor.zeros size) = .ok writer) (r : Bytes) :
    unmarshal (writer.written ++ r) = .ok (v, r) := by
  obtain ⟨p, -, emits⟩ := (codec (α := α)).emits_wellFormed wf
  obtain ⟨fits, rfl⟩ := emits.of_ok ok
  have start : (Cursor.zeros size).written = [] := rfl
  rw [Cursor.push_written fits, start, List.nil_append]
  exact codec.read_emitted wf emits r

end

section
variable {σ : Type} {rand : RandBytes σ} {s t : σ} {crypto : Libcrypto} {mac : crypto.Mac}
  {keys : Libcrypto.Keys} {tpm : Primitives} {alg : TpmHash}
  {parent : ParentKey} {parentPublic : TpmtPublic}

/-- The seed of an RSA parent has the size of a digest, and the parent decrypts it. -/
theorem TpmRsaExternalKey.toSeed_recovered {key : TpmRsaExternalKey} {seed : Tpm2bDigest}
    {secret : Tpm2bEncryptedSecret} (belongs : parent.BelongsTo keys parentPublic)
    (parsed : tryFrom parentPublic = .ok key)
    (ends : (key.toSeed crypto keys rand alg).Ends s (.ok (seed, secret)) t) :
    parent.decryptOaep alg (kdfLabelDuplicate ++ [0]) secret.bytes = some seed.bytes := by
  obtain ⟨_, _, _, ends⟩ := ends.of_bind
  obtain ⟨seedBytes, _, _, ends⟩ := ends.of_bind
  obtain ⟨seed', _, _, ends⟩ := ends.of_bind
  obtain ⟨random, _, _, ends⟩ := ends.of_bind
  obtain ⟨cipher, _, encrypted, ends⟩ := ends.of_bind
  obtain ⟨secret', _, made, ends⟩ := ends.of_bind
  cases ends.of_pure
  have ciphered := mapError_eq_ok.mp encrypted.of_result
  have bytes := (TpmBuffer.tryFrom_eq_ok.mp (mapError_eq_ok.mp made.of_result)).2.2
  rw [bytes]
  exact belongs.oaep key parsed alg _ _ random cipher ciphered

/-- A point is made of the halves of its encoding. -/
theorem tpmMakePoint_eq {encoding : Bytes} {degree : Nat} {curve : TpmEllipticCurve}
    {point : TpmsEccPoint} (made : tpmMakePoint encoding degree curve = .ok point) :
    encoding = 4 :: (point.x.bytes ++ point.y.bytes) ∧
      point.x.bytes.length = point.y.bytes.length := by
  unfold tpmMakePoint at made
  dsimp only at made
  split at made
  · cases made
  next shaped =>
    simp only [not_or, not_not] at shaped
    obtain ⟨first, left, right⟩ := shaped
    obtain ⟨x, readX, made⟩ := bind_eq_ok.mp made
    obtain ⟨y, readY, made⟩ := bind_eq_ok.mp made
    cases made
    have bytesX := (TpmBuffer.tryFrom_eq_ok.mp (mapError_eq_ok.mp readX)).2.2
    have bytesY := (TpmBuffer.tryFrom_eq_ok.mp (mapError_eq_ok.mp readY)).2.2
    cases encoding with
    | nil => cases first
    | cons byte bytes =>
        obtain rfl := Option.some.inj first
        rw [List.length_cons, Nat.add_sub_cancel] at left right
        rw [Nat.add_comm 1, List.drop_succ_cons] at bytesY
        rw [List.drop_succ_cons, List.drop_zero] at bytesX
        have all : (bytes.drop (eccCoordLen degree)).take (eccCoordLen degree) =
            bytes.drop (eccCoordLen degree) := by
          rw [List.take_of_length_le]
          rw [List.length_drop]
          omega
        rw [all] at bytesY
        constructor
        · dsimp only
          rw [bytesX, bytesY, List.take_append_drop]
        · dsimp only
          rw [bytesX, bytesY, List.length_take, List.length_drop]
          omega

namespace TpmEccExternalKey

theorem unique_of_tryFrom {key : TpmEccExternalKey}
    (parsed : tryFrom keys parentPublic = .ok key) :
    parentPublic.objectType = .ecc ∧ parentPublic.unique = .ecc key.unique := by
  unfold tryFrom at parsed
  split at parsed
  · cases parsed
  next same =>
    refine ⟨not_not.mp same, ?_⟩
    split at parsed
    next params point _ unique =>
      obtain ⟨curve, -, parsed⟩ := bind_eq_ok.mp parsed
      obtain ⟨nid, -, parsed⟩ := bind_eq_ok.mp parsed
      obtain ⟨degree, -, parsed⟩ := bind_eq_ok.mp parsed
      dsimp only at parsed
      split at parsed
      · cases parsed
      · cases parsed
        exact unique
    · cases parsed
    · cases parsed

/-- The seed of an ECC parent comes from a secret that the parent shares with the ephemeral
point. -/
theorem ecdh_recovered {key : TpmEccExternalKey} {rounds : Nat} {seed : Tpm2bDigest}
    {ephemeral : TpmsEccPoint} (belongs : parent.BelongsTo keys parentPublic)
    (digests : tpm.Digests alg crypto mac) (parsed : tryFrom keys parentPublic = .ok key)
    (ends : (key.ecdh keys crypto rand alg rounds).Ends s (.ok (some (seed, ephemeral))) t) :
    ∃ z, parent.sharedSecret (ofBytes ephemeral.x.bytes) (ofBytes ephemeral.y.bytes) = some z ∧
      seed.bytes = tpm.kdfe alg z kdfLabelDuplicate ephemeral.x.bytes key.unique.x.bytes
        (tpm.size alg * 8) := by
  obtain ⟨nid, _, named, ends⟩ := ends.of_bind
  obtain ⟨degree, _, _, ends⟩ := ends.of_bind
  obtain ⟨_, _, _, ends⟩ := ends.of_bind
  obtain ⟨order, _, _, ends⟩ := ends.of_bind
  obtain ⟨drawn, _, _, ends⟩ := ends.of_bind
  cases drawn with
  | none => cases ends.of_pure
  | some number =>
      obtain ⟨encoding, _, multiplied, ends⟩ := ends.of_bind
      obtain ⟨z, _, derived, ends⟩ := ends.of_bind
      obtain ⟨ephemeral', _, made, ends⟩ := ends.of_bind
      obtain ⟨seedBytes, _, expanded, ends⟩ := ends.of_bind
      obtain ⟨seed', _, held, ends⟩ := ends.of_bind
      cases ends.of_pure
      obtain ⟨split, even⟩ := tpmMakePoint_eq made.of_result
      refine ⟨z, belongs.ecdh key nid parsed named.of_result number encoding z
        (mapError_eq_ok.mp multiplied.of_result) (mapError_eq_ok.mp derived.of_result) _ _ split
        even, ?_⟩
      rw [(TpmBuffer.tryFrom_eq_ok.mp (mapError_eq_ok.mp held.of_result)).2.2, digests.size]
      obtain ⟨fits, room⟩ := digests.bits
      have derives := kdfeInto_derives digests.hash digests.positive fits z kdfLabelDuplicate
        ephemeral.x.bytes key.unique.x.bytes
      exact Except.ok.inj (expanded.of_adapt.unique (inBuffer_ends derives digests.positive
        (fun i => crypto.length_hash (digests.hash _)) room _)).1

theorem toSeed_recovered {key : TpmEccExternalKey} {rounds : Nat} {seed : Tpm2bDigest}
    {secret : Tpm2bEncryptedSecret} (belongs : parent.BelongsTo keys parentPublic)
    (digests : tpm.Digests alg crypto mac) (parsed : tryFrom keys parentPublic = .ok key)
    (ends : (key.toSeed keys crypto rand alg rounds).Ends s (.ok (some (seed, secret))) t) :
    tpm.recoverSeed alg parent parentPublic secret.bytes = some seed.bytes := by
  obtain ⟨shared, _, agreed, ends⟩ := ends.of_bind
  cases shared with
  | none => cases ends.of_pure
  | some pair =>
      obtain ⟨derived, ephemeral⟩ := pair
      obtain ⟨writer, _, marshalled, ends⟩ := ends.of_bind
      obtain ⟨secret', _, held, ends⟩ := ends.of_bind
      cases ends.of_pure
      obtain ⟨z, shares, expanded⟩ := ecdh_recovered belongs digests parsed agreed
      obtain ⟨isEcc, unique⟩ := unique_of_tryFrom parsed
      have wellFormed : WellFormed ephemeral := ⟨trivial, trivial, trivial⟩
      have read := unmarshal_written wellFormed (mapError_eq_ok.mp marshalled.of_result) []
      rw [List.append_nil] at read
      rw [(TpmBuffer.tryFrom_eq_ok.mp (mapError_eq_ok.mp held.of_result)).2.2, expanded]
      unfold Primitives.recoverSeed
      rw [isEcc, unique]
      show ((unmarshal writer.written : TpmResult (TpmsEccPoint × Bytes)).toOption.bind _) = _
      rw [read]
      show (parent.sharedSecret _ _).bind _ = _
      rw [shares]
      rfl

end TpmEccExternalKey

theorem TpmRsaExternalKey.isRsa_of_tryFrom {key : TpmRsaExternalKey}
    (parsed : tryFrom parentPublic = .ok key) : parentPublic.objectType = .rsa := by
  unfold tryFrom at parsed
  split at parsed
  · cases parsed
  next same => exact not_not.mp same

end
end Tpm2
