import Tpm2.Crypto.Recovery
import Tpm2.Sh.Command.Accounted
import Tpm2.Sh.Command.Load
import Tpm2.TpmKey.RoundTrip
import Tpm2.TpmKey.Secret

/-! The parent recovers an external key from the blob that `import` makes for it. -/

namespace Tpm2
namespace Import

open ByteCodec Mutating

section
variable {E : Type} {libs : Libraries} {tpm : Primitives} {alg : TpmHash} {parent : ParentKey}
  {parentPublic objectPublic : TpmtPublic} {privateBytes : Bytes} {objectName : Tpm2bName}
  {userAuth : Tpm2bAuth}

theorem publicToSymKeyBits_of_aes {keyBits : UInt16}
    (aes : Primitives.aesKeyBits parentPublic = some keyBits) :
    publicToSymKeyBits (E := E) parentPublic = .ok keyBits := by
  have bitsOf {symmetric : TpmtSymDefObject}
      (some : Primitives.aesKeyBits.aes symmetric = some keyBits) :
      ∃ bits, symmetric.keyBits = .aes bits ∧ bits.value = keyBits := by
    unfold Primitives.aesKeyBits.aes at some
    split at some
    next bits same => exact ⟨bits, same, Option.some.inj some⟩
    · cases some
  unfold Primitives.aesKeyBits at aes
  unfold publicToSymKeyBits
  cases parameters : parentPublic.parameters with
  | rsa parms | ecc parms =>
      rw [parameters] at aes
      obtain ⟨bits, isAes, rfl⟩ := bitsOf aes
      dsimp only
      rw [pure_bind, isAes]
      rfl
  | _ =>
      rw [parameters] at aes
      cases aes

/-- The sensitive part of an object reads back. -/
theorem wellFormed_sensitive {objectType : TpmAlgId} {composite : TpmuSensitiveComposite}
    (made : sensitiveComposite (E := E) objectType privateBytes = .ok composite)
    (authValue : Tpm2bAuth) (seedValue : Tpm2bDigest) :
    WellFormed (⟨⟨objectType, authValue, seedValue, composite⟩⟩ : Tpm2bSensitive) := by
  unfold sensitiveComposite at made
  split at made
  case h_5 => cases made
  all_goals
    obtain ⟨buffer, -, rfl⟩ := map_eq_ok.mp (mapError_eq_ok.mp made)
    exact ⟨rfl, trivial⟩

/-- The parent decrypts the sensitive part. -/
theorem encryptSensitiveData_recovered {symKey encrypted : Bytes} {keyBits : UInt16}
    (decrypts : ∀ bits key iv data out, libs.aesCfb bits key iv data = .ok out →
      tpm.cfbDecrypt bits key iv out = data)
    (ok : encryptSensitiveData (E := E) libs objectPublic privateBytes symKey userAuth keyBits =
      .ok encrypted) :
    ∃ composite, sensitiveComposite (E := E) objectPublic.objectType privateBytes = .ok composite ∧
      unmarshal (tpm.cfbDecrypt keyBits.toNat symKey (List.replicate 16 0) encrypted) =
        .ok ((⟨⟨objectPublic.objectType, userAuth, .new, composite⟩⟩ : Tpm2bSensitive), []) := by
  obtain ⟨composite, made, ok⟩ := bind_eq_ok.mp ok
  obtain ⟨plain, written, ok⟩ := bind_eq_ok.mp ok
  split at ok
  · cases ok
  obtain ⟨writer, marshalled, same⟩ := bind_eq_ok.mp (mapError_eq_ok.mp written)
  obtain rfl := Except.ok.inj same
  have read := unmarshal_written (wellFormed_sensitive made userAuth .new) marshalled []
  rw [List.append_nil] at read
  refine ⟨composite, made, ?_⟩
  have plain := decrypts _ _ _ _ _ (mapError_eq_ok.mp ok)
  show unmarshal (tpm.cfbDecrypt keyBits.toNat symKey importIv encrypted) = _
  rw [plain]
  exact read

/-- The blob is the integrity value and the encrypted part. -/
theorem createPrivateBlob_reads {hmacKey encrypted : Bytes} {duplicate : Tpm2bPrivate}
    (digests : tpm.Digests alg libs.crypto libs.mac)
    (named : TpmHash.tryFrom parentPublic.nameAlg = .ok alg)
    (ok : createPrivateBlob (E := E) libs parentPublic.nameAlg hmacKey encrypted objectName =
      .ok duplicate) :
    ∃ integrity : Tpm2bDigest, unmarshal duplicate.bytes = .ok (integrity, encrypted) ∧
      integrity.bytes = tpm.hmac alg hmacKey (encrypted ++ objectName.bytes) := by
  obtain ⟨hash, hashed, ok⟩ := bind_eq_ok.mp ok
  obtain rfl := Except.ok.inj (named.symm.trans (mapError_eq_ok.mp hashed))
  obtain ⟨tag, signed, ok⟩ := bind_eq_ok.mp ok
  obtain ⟨integrity, held, ok⟩ := bind_eq_ok.mp ok
  obtain ⟨writer, written, ok⟩ := bind_eq_ok.mp ok
  obtain ⟨first, marshalled, appended⟩ := bind_eq_ok.mp (mapError_eq_ok.mp written)
  obtain ⟨fits, rfl⟩ := (TpmWriter.writeBytes_emits encrypted).of_ok appended
  have read := unmarshal_written (v := integrity) trivial marshalled encrypted
  refine ⟨integrity, ?_, ?_⟩
  · rw [(TpmBuffer.tryFrom_eq_ok.mp (mapError_eq_ok.mp ok)).2.2, Cursor.push_written fits]
    exact read
  · rw [(TpmBuffer.tryFrom_eq_ok.mp (mapError_eq_ok.mp held)).2.2]
    have signed := mapError_eq_ok.mp signed
    unfold TpmHash.hmac at signed
    split at signed
    · cases signed
    next nonempty =>
      rw [digests.hmac _ _ nonempty] at signed
      rw [← Except.ok.inj signed]
      simp

/-- What is made of a seed for a parent that encrypts by AES, is recovered with the seed. -/
theorem protectObject_recovered {σ : Type} {seed : Tpm2bDigest} {duplicate : Tpm2bPrivate}
    {inSymSeed : Bytes} {keyBits : UInt16} {s t : σ}
    (digests : tpm.Digests alg libs.crypto libs.mac)
    (decrypts : ∀ bits key iv data out, libs.aesCfb bits key iv data = .ok out →
      tpm.cfbDecrypt bits key iv out = data)
    (named : TpmHash.tryFrom parentPublic.nameAlg = .ok alg)
    (aes : Primitives.aesKeyBits parentPublic = some keyBits)
    (recovered : tpm.recoverSeed alg parent parentPublic inSymSeed = some seed.bytes)
    (ends : (protectObject (E := E) libs parentPublic objectPublic privateBytes objectName userAuth
      seed).Ends s (.ok duplicate) t) :
    ∃ composite, sensitiveComposite (E := E) objectPublic.objectType privateBytes = .ok composite ∧
      tpm.tpmImport parent parentPublic objectName.bytes duplicate.bytes inSymSeed =
        some ⟨objectPublic.objectType, userAuth, .new, composite⟩ := by
  obtain ⟨keyBits', _, sized, ends⟩ := ends.of_bind
  obtain rfl := Except.ok.inj ((publicToSymKeyBits_of_aes aes).symm.trans sized.of_result)
  obtain ⟨⟨symKey, hmacKey⟩, _, created, ends⟩ := ends.of_bind
  obtain ⟨hash, _, hashed, created⟩ := created.of_bind
  obtain rfl := Except.ok.inj (named.symm.trans (mapError_eq_ok.mp hashed.of_result))
  obtain ⟨symKey', _, storage, created⟩ := created.of_bind
  obtain ⟨hmacKey', _, integrity, created⟩ := created.of_bind
  cases created.of_pure
  -- both keys are derived from the seed
  have storage := storage.of_adapt
  have integrity := integrity.of_adapt
  have nonempty := TpmHash.kdfa_nonempty storage
  have derives {bits : Nat} (fits : bits ≤ u32Max) (label context : Bytes) (s : σ) :=
    TpmHash.kdfa_ends (digests.hmac seed.bytes · nonempty) digests.positive digests.within nonempty
      fits label context [] s
  have small : keyBits.toNat ≤ u32Max := Nat.le_trans (Nat.le_of_lt keyBits.toNat_lt) (by decide)
  obtain rfl := Except.ok.inj (storage.unique (derives small _ _ _)).1
  obtain rfl := Except.ok.inj (integrity.unique (derives digests.bits.1 _ _ _)).1
  obtain ⟨encrypted, _, encrypts, ends⟩ := ends.of_bind
  obtain ⟨composite, made, plain⟩ := encryptSensitiveData_recovered decrypts encrypts.of_result
  obtain ⟨tag, read, signed⟩ := createPrivateBlob_reads digests named ends.of_result
  refine ⟨composite, made, ?_⟩
  exact tpm.tpmImport_eq_some named recovered read (by rw [digests.size]; exact signed) aes plain

section
variable {σ : Type} {rand : RandBytes σ} {rounds : Nat} {s t : σ}

theorem parentSeed_recovered {seed : Tpm2bDigest} {inSymSeed : Tpm2bEncryptedSecret}
    (digests : tpm.Digests alg libs.crypto libs.mac)
    (belongs : parent.BelongsTo libs.keys parentPublic)
    (named : TpmHash.tryFrom parentPublic.nameAlg = .ok alg)
    (ends : (parentSeed (E := E) libs rand rounds parentPublic).Ends s
      (.ok (some (seed, inSymSeed))) t) :
    tpm.recoverSeed alg parent parentPublic inSymSeed.bytes = some seed.bytes := by
  unfold parentSeed at ends
  dsimp only at ends
  split at ends
  · obtain ⟨key, _, parsed, ends⟩ := ends.of_bind
    obtain ⟨hash, _, hashed, ends⟩ := ends.of_bind
    obtain rfl := Except.ok.inj (named.symm.trans (mapError_eq_ok.mp hashed.of_result))
    obtain ⟨seeded, _, made, ends⟩ := ends.of_bind
    cases ends.of_pure
    have parsed := mapError_eq_ok.mp parsed.of_result
    unfold Primitives.recoverSeed
    rw [TpmRsaExternalKey.isRsa_of_tryFrom parsed]
    exact TpmRsaExternalKey.toSeed_recovered belongs parsed made.of_adapt
  · obtain ⟨key, _, parsed, ends⟩ := ends.of_bind
    obtain ⟨hash, _, hashed, ends⟩ := ends.of_bind
    obtain rfl := Except.ok.inj (named.symm.trans (mapError_eq_ok.mp hashed.of_result))
    exact TpmEccExternalKey.toSeed_recovered belongs digests
      (mapError_eq_ok.mp parsed.of_result) ends.of_adapt
  · cases (ends.unique (ends_throw _ _)).1

/-- The TPM that holds the parent recovers exactly the private key and the authorization value from
a blob, with the name of the object that the blob was made for. -/
theorem buildImportBlob_recovered {duplicate : Tpm2bPrivate} {inSymSeed : Tpm2bEncryptedSecret}
    {encryptionKey : Tpm2bData} {keyBits : UInt16} (digests : tpm.Digests alg libs.crypto libs.mac)
    (decrypts : ∀ bits key iv data out, libs.aesCfb bits key iv data = .ok out →
      tpm.cfbDecrypt bits key iv out = data)
    (belongs : parent.BelongsTo libs.keys parentPublic)
    (named : TpmHash.tryFrom parentPublic.nameAlg = .ok alg)
    (aes : Primitives.aesKeyBits parentPublic = some keyBits)
    (ends : (buildImportBlob (E := E) libs rand rounds parentPublic objectPublic privateBytes
      objectName userAuth).Ends s (.ok (some (duplicate, inSymSeed, encryptionKey))) t) :
    ∃ composite, sensitiveComposite (E := E) objectPublic.objectType privateBytes = .ok composite ∧
      tpm.tpmImport parent parentPublic objectName.bytes duplicate.bytes inSymSeed.bytes =
        some ⟨objectPublic.objectType, userAuth, .new, composite⟩ := by
  obtain ⟨seeded, _, seeds, ends⟩ := ends.of_bind
  cases seeded with
  | none => cases ends.of_pure
  | some pair =>
      obtain ⟨seed, inSymSeed'⟩ := pair
      obtain ⟨duplicate', _, protects, ends⟩ := ends.of_bind
      cases ends.of_pure
      exact protectObject_recovered digests decrypts named aes
        (parentSeed_recovered digests belongs named seeds) protects

end

end

section
variable {E : Type} {libs : Libraries} {template : TpmPublicTemplate}

theorem matchesTag_fillSchemeHash {scheme : TpmAlgId} {details : TpmuAsymScheme}
    (matched : matchesTag details scheme ∧ WellFormed details) (nameAlg : TpmAlgId) :
    matchesTag (fillSchemeHash details nameAlg) scheme ∧
      WellFormed (fillSchemeHash details nameAlg) := by
  unfold fillSchemeHash
  split
  · split
    · exact matched
    · exact matched
  · exact matched

/-- The schemes of an accepted algorithm match their details. -/
theorem wellFormed_schemes {text : List Char}
    (accepted : TpmPublicTemplate.fromStr text = .ok template) :
    WellFormed template.rsaScheme ∧ WellFormed template.eccScheme := by
  rcases TpmPublicTemplate.fromStr_cases accepted with
    ⟨rest, -, ok⟩ | ⟨rest, -, ok⟩ | ⟨rest, -, ok⟩ | ⟨rest, -, ok⟩ | ⟨rest, -, ok⟩
  · obtain ⟨-, keyBits, scheme, details, matched, parms⟩ :=
      TpmPublicTemplate.publicParms_of_parseAsym ok
    unfold TpmPublicTemplate.rsaScheme TpmPublicTemplate.eccScheme
    rw [parms]
    exact ⟨matchesTag_fillSchemeHash matched _, rfl, trivial, trivial⟩
  · obtain ⟨-, curve, scheme, details, matched, parms⟩ :=
      TpmPublicTemplate.publicParms_of_parseAsym ok
    unfold TpmPublicTemplate.rsaScheme TpmPublicTemplate.eccScheme
    rw [parms]
    exact ⟨⟨rfl, trivial, trivial⟩, matchesTag_fillSchemeHash matched _⟩
  all_goals
    obtain ⟨-, parms, -, shape⟩ := TpmPublicTemplate.publicParms_of_parseKeyedhash ok
    unfold TpmPublicTemplate.rsaScheme TpmPublicTemplate.eccScheme
    rw [shape]
    exact ⟨⟨rfl, trivial, trivial⟩, rfl, trivial, trivial⟩

/-- The public area of an external key reads back. -/
theorem wellFormed_externalPublic {text : List Char} {derBytes privateBytes : Bytes}
    {objectAttributes : TpmaObject} {authPolicy : Tpm2bDigest} {«public» : TpmtPublic}
    (accepted : TpmPublicTemplate.fromStr text = .ok template)
    (ok : externalPublic (E := E) libs derBytes
      (completeTemplate template objectAttributes authPolicy) = .ok («public», privateBytes)) :
    WellFormed «public» := by
  obtain ⟨rsa, ecc⟩ := wellFormed_schemes accepted
  have symmetric :
      WellFormed (completeTemplate template objectAttributes authPolicy).symmetric := by
    show WellFormed (if template.isStorageParent then defaultSymmetric else .null)
    split
    · exact ⟨rfl, rfl⟩
    · rfl
  unfold externalPublic at ok
  split at ok
  · cases ok
    exact ⟨rfl, ⟨symmetric, rsa, trivial, trivial, trivial⟩, trivial⟩
  · obtain ⟨⟨key, sensitive⟩, -, ok⟩ := bind_eq_ok.mp ok
    cases ok
    exact ⟨rfl, ⟨symmetric, ecc, trivial, ⟨rfl, trivial⟩, trivial⟩, trivial, trivial, trivial⟩

/-- What a key file keeps of an object is read from it again. -/
theorem parseWhole_marshaled {α : Type} [TpmSized α] [TpmMarshal α] [TpmUnmarshal α] [TpmSpec α]
    [LawfulWire α] {v : α} (wf : WellFormed v) (bound : maxLen α ≤ tpmMaxCommandSize) :
    Load.parseWhole (E := E) (TpmKeyFile.marshaled v) = .ok v := by
  obtain ⟨p, length, emits⟩ := (codec (α := α)).emits_wellFormed wf
  have fits : p.length ≤ tpmMaxCommandSize := by
    rw [length]
    exact Nat.le_trans (len_le v) bound
  obtain ⟨writer, marshalled, written⟩ := emits.written fits
  have read := unmarshal_written wf marshalled []
  rw [List.append_nil] at read
  rw [TpmKeyFile.marshaled_ok marshalled, Load.parseWhole, read]
  rfl

theorem parseSecret_withSecret (key : TpmKeyFile) (secret : Tpm2bEncryptedSecret) :
    Load.parseSecret (E := E) (key.withSecret secret).secret = .ok secret := by
  have read : unmarshal secret.wire = .ok (secret, []) :=
    TpmBuffer.unmarshal_eq_ok.mpr (List.append_nil _).symm
  rw [TpmKeyFile.secret_withSecret, Load.parseSecret, read]
  rfl

/-- `load` finds in an importable key file what `import` has put there. -/
theorem buildKeyFile_parts {self : Import} {parentHandle : TpmHandle} {«public» : TpmtPublic}
    {duplicate : Tpm2bPrivate} {inSymSeed : Tpm2bEncryptedSecret} {encryptionKey : Tpm2bData}
    {auths : List Auth} {userAuth : Tpm2bAuth} {policyCommands : TpmCommandList}
    {file : TpmKeyFile} {shell shell' : Shell} (importable : self.loadable = false)
    (wf : WellFormed «public»)
    (ran : (buildKeyFile libs self parentHandle ⟨«public»⟩ duplicate inSymSeed encryptionKey auths
      userAuth policyCommands).run shell = .ok file shell') :
    Load.objectParts (E := E) file = .ok (⟨«public»⟩, duplicate) ∧
      Load.parseSecret (E := E) file.secret = .ok inSymSeed := by
  have publicPart : Load.parsePublic (E := E) (TpmKeyFile.marshaled (⟨«public»⟩ : Tpm2bPublic)) =
      .ok ⟨«public»⟩ := parseWhole_marshaled (show WellFormed (⟨«public»⟩ : Tpm2bPublic) from wf)
    (by decide)
  have privatePart : Load.parsePrivate (E := E) (TpmKeyFile.marshaled duplicate) = .ok duplicate :=
    parseWhole_marshaled trivial (by decide)
  obtain ⟨policy, _, _, ran⟩ := Fallible.run_bind_eq_ok.mp ran
  dsimp only at ran
  rw [if_neg (by simp [importable])] at ran
  obtain ⟨file', _, made, ran⟩ := Fallible.run_bind_eq_ok.mp ran
  cases made
  have parts (key : TpmKeyFile) (noPolicy : key.authPolicy = none)
      (hasPublic : key.public = TpmKeyFile.marshaled (⟨«public»⟩ : Tpm2bPublic))
      (hasPrivate : key.private = TpmKeyFile.marshaled duplicate) :
      Load.objectParts (E := E) key = .ok (⟨«public»⟩, duplicate) := by
    rw [Load.objectParts, noPolicy, hasPublic, hasPrivate, publicPart, privatePart]
    rfl
  have secret := parseSecret_withSecret (E := E)
    (keyFile .importable parentHandle ⟨«public»⟩ duplicate userAuth) inSymSeed
  split at ran
  · cases ran
    exact ⟨parts _ rfl rfl rfl, secret⟩
  · cases ran
    exact ⟨parts _ rfl rfl rfl, secret⟩

/-- A program on the generators of the device that succeeds has ended so. -/
theorem ends_of_ran {α : Type} {x : Mutating (CommandError E) TpmDevice α} {a : α}
    {shell shell' : Shell}
    (ran : (Shell.onTaskWith (E := E) id <| TaskState.onDevice <|
      Fallible.ofMutating .panicked id x).run shell = .ok a shell') :
    ∃ device, x.Ends shell.task.device (.ok a) device := by
  rw [Shell.onTaskWith, Fallible.run_adaptExcept_eq_ok, Fallible.run_part] at ran
  split at ran
  next a' task ran' =>
    cases ran
    rw [TaskState.onDevice_run] at ran'
    split at ran'
    next a' device ran =>
      cases ran'
      simp only [Fallible.ofMutating, Fallible.ofRun, EStateM.run] at ran
      split at ran
      · cases ran
      next ended =>
        cases ran
        exact ⟨device, ended⟩
      · cases ran
    · cases ran'
  · cases ran

/-- From an importable key file, `load` takes parts out of which the TPM with the parent recovers
exactly the private key and the authorization value that `import` was given. -/
theorem buildExternalKey_recovered {libs : Libraries} {tpm : Primitives} {alg : TpmHash}
    {parent : ParentKey} {self : Import} {rounds : Nat} {parentHandle : TpmHandle}
    {derBytes : Bytes} {text : List Char} {template : TpmPublicTemplate} {auths : List Auth}
    {userAuth : Tpm2bAuth} {authPolicy : Tpm2bDigest} {objectAttributes : TpmaObject}
    {policyCommands : TpmCommandList} {parentPublic : TpmtPublic} {parentName : Tpm2bName}
    {keyBits : UInt16} {file : TpmKeyFile} {device : TpmDevice} {shell shell' : Shell}
    (importable : self.loadable = false)
    (accepted : TpmPublicTemplate.fromStr text = .ok template)
    (answered : (TpmDevice.readPublic parentHandle).run shell.task.device =
      .ok (parentPublic, parentName) device)
    (named : TpmHash.tryFrom parentPublic.nameAlg = .ok alg)
    (aes : Primitives.aesKeyBits parentPublic = some keyBits)
    (digests : tpm.Digests alg libs.crypto libs.mac)
    (decrypts : ∀ bits key iv data out, libs.aesCfb bits key iv data = .ok out →
      tpm.cfbDecrypt bits key iv out = data)
    (belongs : parent.BelongsTo libs.keys parentPublic)
    (ran : (buildExternalKey libs self rounds parentHandle derBytes template auths userAuth
      authPolicy objectAttributes policyCommands).run shell = .ok file shell') :
    ∃ «public» privateBytes composite objectName duplicate inSymSeed,
      externalPublic (E := libs.rasn.Asn1Error) libs derBytes
        (completeTemplate template objectAttributes authPolicy) = .ok («public», privateBytes) ∧
      sensitiveComposite (E := libs.rasn.Asn1Error) «public».objectType privateBytes =
        .ok composite ∧
      tpmMakeName libs.crypto «public» = .ok objectName ∧
      Load.objectParts (E := libs.rasn.Asn1Error) file = .ok (⟨«public»⟩, duplicate) ∧
      Load.parseSecret (E := libs.rasn.Asn1Error) file.secret = .ok inSymSeed ∧
      tpm.tpmImport parent parentPublic objectName.bytes duplicate.bytes inSymSeed.bytes =
        some ⟨«public».objectType, userAuth, .new, composite⟩ := by
  obtain ⟨⟨parentPublic', _⟩, _, read, ran⟩ := Fallible.run_bind_eq_ok.mp ran
  rw [Shell.onDevice, Shell.run_onTask, TaskState.withDevice_run, answered] at read
  cases read
  obtain ⟨⟨«public», privateBytes⟩, _, parsed, ran⟩ := Fallible.run_bind_eq_ok.mp ran
  obtain ⟨parsed, -⟩ := Fallible.run_ofExcept_eq_ok.mp parsed
  obtain ⟨objectName, _, makesName, ran⟩ := Fallible.run_bind_eq_ok.mp ran
  obtain ⟨makesName, -⟩ := Fallible.run_ofExcept_eq_ok.mp makesName
  obtain ⟨built, _, builds, ran⟩ := Fallible.run_bind_eq_ok.mp ran
  obtain ⟨_, ends⟩ := ends_of_ran builds
  cases built with
  | none =>
      obtain ⟨_, _, stops, -⟩ := Fallible.run_bind_eq_ok.mp ran
      cases stops
  | some blob =>
      obtain ⟨⟨duplicate, inSymSeed, encryptionKey⟩, _, passes, ran⟩ :=
        Fallible.run_bind_eq_ok.mp ran
      cases passes
      obtain ⟨composite, made, recovers⟩ :=
        buildImportBlob_recovered digests decrypts belongs named aes ends
      obtain ⟨parts, secret⟩ := buildKeyFile_parts importable
        (wellFormed_externalPublic accepted parsed) ran
      exact ⟨«public», privateBytes, composite, objectName, duplicate, inSymSeed, parsed, made,
        mapError_eq_ok.mp makesName, parts, secret, recovers⟩

end

/-- The abscissas and the ordinates of the multiples of the generator of P-256 by 5, 7 and 11: the
ephemeral point, the parent and the key that is imported. -/
def sampleEphemeral : Nat × Nat :=
  (0x51590b7a515140d2d784c85608668fdfef8c82fd1f5be52421554a0dc3d033ed,
    0xe0c17da8904a727d8ae1bf36bf8a79260d012f00d4d80888d1d0bb44fda16da4)

def sampleParentPoint : Nat × Nat :=
  (0x8e533b6fa0bf7b4625bb30667c01fb607ef9f8b8a80fef5b300628703187b2a3,
    0x73eb1dbde03318366d069f83a6f5900053c73633cb041b21c55e1a86c1f400b4)

def samplePoint : Nat × Nat :=
  (0x3ed113b7883b4c590638379db0c21cda16742ed0255048bf433391d374bc21d1,
    0x9099209accc4c8a224c843afa4f4c68a090d04da5e9889dae2f8eefce82a3740)

/-- The secret that the parent and the ephemeral point share. -/
def sampleShared : Bytes :=
  toBytes 32 0xd58d4a589ed27d168ffa3ad7326c48ca94e8e1fe92af9700a12d389033bb291a

def samplePointBytes (point : Nat × Nat) : Bytes := toBytes 32 point.1 ++ toBytes 32 point.2

/-- SHA-256 of the input of `KDFe` and of the public area of the key. -/
def sampleDigests : List (Bytes × Nat) :=
  [(TpmHash.kdfeInput sampleShared kdfLabelDuplicate (toBytes 32 sampleEphemeral.1)
      (toBytes 32 sampleParentPoint.1) 1,
      0x5e0f34868b2b443f2343a2fc2c1dede0f590a0c33fe742698776891d3149e9db),
    (toBytes 20 0x23000b00060440000000100010000300100020 ++ toBytes 32 samplePoint.1 ++ [0, 32] ++
        toBytes 32 samplePoint.2,
      0xeda3b229561f70128000089c510a3fa07c103f2100f612afb7d8e106bde599f7)]

/-- The name of the key. -/
def sampleName : Bytes :=
  [0, 11] ++ toBytes 32 0xeda3b229561f70128000089c510a3fa07c103f2100f612afb7d8e106bde599f7

/-- HMAC-SHA256 of the inputs of `KDFa`, and of the encrypted part with the name. -/
def sampleMacs : List (Bytes × Nat) :=
  [(TpmHash.kdfaInput kdfLabelStorage sampleName [] 128 1,
      0x0b92156e67047e8abdee75cbd4648b5181c4d8dd01e98d36dde3552caea7072d),
    (TpmHash.kdfaInput kdfLabelIntegrity [] [] 256 1,
      0x765d9f5f1ee5ee22314424f37b47129625696d1ce233a1c8b35d4d69db25b56e),
    (toBytes 11 0x727444af612da981a2c457 ++ sampleName,
      0x049455228e1ec9ccb9079c622c669786a9758b83335f2c3ade65fc75f024ea94)]

def sampleDigest (digests : List (Bytes × Nat)) (data : Bytes) : Bytes :=
  toBytes 32 ((digests.lookup data).getD 0)

/-- AES-128-CFB adds these bytes to the sensitive part of the sample. -/
def sampleStream : Bytes := toBytes 11 0x727d448c612da981a2c55c

def sampleCipher (data : Bytes) : Bytes := data.mapIdx fun i byte => byte ^^^ sampleStream.getD i 0

theorem sampleCipher_sampleCipher (data : Bytes) : sampleCipher (sampleCipher data) = data := by
  refine List.ext_getElem (by simp [sampleCipher]) fun i _ _ => ?_
  simp only [sampleCipher, List.getElem_mapIdx]
  rw [UInt8.xor_assoc, UInt8.xor_self, UInt8.xor_zero]

def sampleKeys : Libcrypto.Keys where
  privateKeyFromDer _ :=
    .ok (.ec ⟨some .x962Prime256v1, .ok (4 :: samplePointBytes samplePoint), 11⟩)
  oaep _ _ _ _ _ _ := .error .crypto
  degree _ := .ok 256
  order _ := .ok 0xffffffff00000000ffffffffffffffffbce6faada7179e84f3b9cac2fc632551
  checkPoint _ _ _ := .ok ()
  mulGenerator _ _ := .ok (4 :: samplePointBytes sampleEphemeral)
  derive _ _ _ _ := .ok sampleShared

def sampleCrypto : Libcrypto where
  size _ := 32
  hash _ data := .ok (sampleDigest sampleDigests data)
  length_hash {_ _ _} ok := by
    rw [← Except.ok.inj ok, sampleDigest, length_toBytes]

def sampleMac : sampleCrypto.Mac where
  hmac _ _ data := .ok (sampleDigest sampleMacs data)
  length_hmac {_ _ _ _} ok := by
    rw [← Except.ok.inj ok, sampleDigest, length_toBytes]
    rfl

/-- Libraries, as far as the import of the sample key needs them. -/
def sampleLibraries : Libraries where
  crypto := sampleCrypto
  mac := sampleMac
  keys := sampleKeys
  aesCfb _ _ _ data := .ok (sampleCipher data)
  x509 _ := none
  hex := .lower
  rasn := TpmKeyFile.single TpmKeyFile.sampleAsn1 TpmKeyFile.sampleDer
  pem := ⟨fun _ _ => [], fun _ => none, fun _ => none⟩
  table _ _ := []
  addKey _ _ := .error Load.enodev

/-- The TPM with the sample parent. -/
def sampleTpm : Primitives where
  size _ := 32
  hash _ := sampleDigest sampleDigests
  hmac _ _ := sampleDigest sampleMacs
  cfbDecrypt _ _ _ := sampleCipher

def sampleParent : ParentKey where
  decryptOaep _ _ _ := none
  sharedSecret x y := if (x, y) = sampleEphemeral then some sampleShared else none

/-- The public area of the sample parent, which is a restricted decryption key on P-256. -/
def sampleParentPublic : TpmtPublic where
  objectType := .ecc
  nameAlg := .sha256
  objectAttributes := ⟨0x30472⟩
  authPolicy := .new
  parameters := .ecc ⟨defaultSymmetric, ⟨.null, .null⟩, .nistP256, ⟨.null, .null⟩⟩
  unique := .ecc ⟨⟨toBytes 32 sampleParentPoint.1, by decide, by decide⟩,
    ⟨toBytes 32 sampleParentPoint.2, by decide, by decide⟩⟩

/-- The answer of the TPM to a question for the public area of the parent. -/
def sampleAnswer : Bytes :=
  frameHeader 0x8001 174 0 ++
    toBytes 24 0x5a0023000b000304720000000600800043001000030010 ++ [0, 32] ++
    toBytes 32 sampleParentPoint.1 ++ [0, 32] ++ toBytes 32 sampleParentPoint.2 ++
    [0, 34, 0, 11] ++
    toBytes 32 0x76caa9c0eb90c4c473327e8c094873d4cfa67315732335ec4e31745cbffdd875 ++
    [0, 34, 0, 11] ++
    toBytes 32 0xd1da6d0b8cf4eef65979a66e4d1940abdfdcb40e8f814eba7612274f7b8c4ebd

def sampleShell : Shell where
  task := { TaskState.sampleTask VtpmCache.emptyCache fun _ => .response sampleAnswer with
    device := ⟨fun _ => .response sampleAnswer, [], [toBytes 32 4], []⟩ }
  terminal := ⟨fun _ => .error .notFound, fun _ => none, []⟩

/-- Imports a key without a password and a policy. -/
def sampleImport : Import :=
  ⟨.new 0x81000001, none, false, none, none, none, none, none, false⟩

/-- The template of `ecc-nist-p256:sha256:null`. -/
def sampleTemplate : TpmPublicTemplate where
  objectType := .ecc
  nameAlg := .sha256
  authPolicy := .new
  objectAttributes := .signEncrypt ||| .decrypt
  symmetric := .null
  publicId := .ecc ⟨.new, .new⟩
  publicParms := .ecc ⟨.null, ⟨.null, .null⟩, .nistP256, ⟨.null, .null⟩⟩
  matched := rfl

/-- The key in DER. -/
def sampleDer : Bytes :=
  toBytes 39 0x30770201010420000000000000000000000000000000000000000000000000000000000000000b ++
    toBytes 17 0xa00a06082a8648ce3d030107a144034200 ++ 4 :: samplePointBytes samplePoint

theorem sampleParent_belongsTo : sampleParent.BelongsTo sampleKeys sampleParentPublic where
  oaep := by
    intro key _ alg label message random cipher ok
    cases ok
  ecdh := by
    intro key nid _ _ number point z multiplied derived x y split even
    obtain rfl := Except.ok.inj multiplied
    obtain rfl := Except.ok.inj derived
    have halves := (List.cons.inj split).2
    have length : x.length = 32 := by
      have total := congrArg List.length halves
      rw [samplePointBytes, List.length_append, List.length_append, length_toBytes,
        length_toBytes] at total
      omega
    obtain ⟨rfl, rfl⟩ := List.append_inj halves (by rw [length_toBytes, length])
    have abscissa : ofBytes (toBytes 32 sampleEphemeral.1) = sampleEphemeral.1 :=
      ofBytes_toBytes (by decide)
    have ordinate : ofBytes (toBytes 32 sampleEphemeral.2) = sampleEphemeral.2 :=
      ofBytes_toBytes (by decide)
    rw [abscissa, ordinate]
    show (if sampleEphemeral = sampleEphemeral then some sampleShared else none) = _
    exact if_pos rfl

theorem sampleTpm_digests : sampleTpm.Digests .sha256 sampleCrypto sampleMac where
  size := rfl
  positive := Nat.zero_lt_succ 31
  within := by decide
  hash _ := rfl
  hmac _ _ _ := rfl

theorem sampleTpm_decrypts : ∀ bits key iv data out,
    sampleLibraries.aesCfb bits key iv data = .ok out →
      sampleTpm.cfbDecrypt bits key iv out = data := by
  intro bits key iv data out ok
  obtain rfl := Except.ok.inj ok
  exact sampleCipher_sampleCipher data

/-- The key file of the sample key. -/
def sampleKeyFile : Fallible (CommandError sampleLibraries.rasn.Asn1Error) Shell TpmKeyFile :=
  buildExternalKey sampleLibraries sampleImport 1 (.new 0x81000001) sampleDer sampleTemplate []
    .new .new (parseImportAttributes none none false sampleTemplate) []

theorem buildExternalKey_recovered_p256 : ∃ file shell' «public» privateBytes composite objectName
    duplicate inSymSeed, sampleKeyFile.run sampleShell = .ok file shell' ∧
      externalPublic (E := sampleLibraries.rasn.Asn1Error) sampleLibraries sampleDer
        (completeTemplate sampleTemplate (parseImportAttributes none none false sampleTemplate)
          .new) = .ok («public», privateBytes) ∧
      sensitiveComposite (E := sampleLibraries.rasn.Asn1Error) «public».objectType privateBytes =
        .ok composite ∧
      tpmMakeName sampleCrypto «public» = .ok objectName ∧
      Load.objectParts (E := sampleLibraries.rasn.Asn1Error) file = .ok (⟨«public»⟩, duplicate) ∧
      Load.parseSecret (E := sampleLibraries.rasn.Asn1Error) file.secret = .ok inSymSeed ∧
      sampleTpm.tpmImport sampleParent sampleParentPublic objectName.bytes duplicate.bytes
        inSymSeed.bytes = some ⟨«public».objectType, .new, .new, composite⟩ := by
  have made : (Fallible.value? (sampleKeyFile.run sampleShell)).isSome := by decide +kernel
  have answered : (Fallible.value? ((TpmDevice.readPublic (.new 0x81000001)).run
      sampleShell.task.device)).map Prod.fst = some sampleParentPublic := by decide +kernel
  obtain ⟨file, made⟩ := Option.isSome_iff_exists.mp made
  have made := Fallible.value?_eq_some.mp made
  obtain ⟨⟨parentPublic, name⟩, answered, same⟩ := Option.map_eq_some_iff.mp answered
  have same : parentPublic = sampleParentPublic := same
  subst same
  have answered := Fallible.value?_eq_some.mp answered
  have accepted : TpmPublicTemplate.fromStr "ecc-nist-p256:sha256:null".toList =
    .ok sampleTemplate := rfl
  have named : TpmHash.tryFrom sampleParentPublic.nameAlg = .ok .sha256 := rfl
  have aes : Primitives.aesKeyBits sampleParentPublic = some 128 := rfl
  obtain ⟨«public», privateBytes, composite, objectName, duplicate, inSymSeed, recovered⟩ :=
    buildExternalKey_recovered rfl accepted answered named aes sampleTpm_digests
      sampleTpm_decrypts sampleParent_belongsTo made
  exact ⟨file, _, «public», privateBytes, composite, objectName, duplicate, inSymSeed, made,
    recovered⟩

end Import
end Tpm2
