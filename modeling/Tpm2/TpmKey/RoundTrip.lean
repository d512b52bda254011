import Tpm2.TpmKey.File

/-! Which key files are read back as they were written. -/

namespace Tpm2

open ByteCodec

/-- A list is read back as it was written if and only if all its elements are. -/
theorem mapM_map_eq_ok {ε α β : Type} {write : α → β} {read : β → Except ε α} {P : α → Prop}
    (reads : ∀ a b, read (write a) = .ok b ↔ b = a ∧ P a) {l l' : List α} :
    (l.map write).mapM read = .ok l' ↔ l' = l ∧ ∀ a ∈ l, P a := by
  induction l generalizing l' with
  | nil => simp [pure, Except.pure, eq_comm]
  | cons a l ih =>
      rw [List.map_cons, List.mapM_cons, bind_eq_ok, List.forall_mem_cons]
      simp only [reads, bind_eq_ok, ih, pure, Except.pure, Except.ok.injEq]
      constructor
      · rintro ⟨_, ⟨rfl, holds⟩, _, ⟨rfl, all⟩, rfl⟩
        exact ⟨rfl, holds, all⟩
      · rintro ⟨rfl, holds, all⟩
        exact ⟨a, ⟨rfl, holds⟩, l, ⟨rfl, all⟩, rfl⟩

theorem TpmKeyPolicyCommand.tryFrom_toAsn1 {E : Type} (c c' : TpmKeyPolicyCommand) :
    (tryFrom c.toAsn1 : Except (TpmKeyError E) _) = .ok c' ↔ c' = c ∧ c.cc ∈ policyCodes := by
  have coded : TpmEnum.tryFrom c.toAsn1.commandCode = .ok c.cc := TpmEnum.tryFrom_eq_ok.mpr rfl
  unfold tryFrom
  rw [coded, bind_eq_ok]
  constructor
  · rintro ⟨cc, same, ok⟩
    cases same
    by_cases known : c.cc ∈ policyCodes
    · rw [if_neg (not_not.mpr known)] at ok
      cases ok
      exact ⟨rfl, known⟩
    · rw [if_pos known] at ok
      cases ok
  · rintro ⟨rfl, known⟩
    refine ⟨c'.cc, rfl, ?_⟩
    rw [if_neg (not_not.mpr known)]
    rfl

theorem TpmKeyAuthPolicy.tryFrom_toAsn1 {E : Type} (p p' : TpmKeyAuthPolicy) :
    (tryFrom p.toAsn1 : Except (TpmKeyError E) _) = .ok p' ↔
      p' = p ∧ ∀ c ∈ p.policy, c.cc ∈ TpmKeyPolicyCommand.policyCodes := by
  unfold tryFrom toAsn1
  rw [bind_eq_ok]
  simp only [mapM_map_eq_ok TpmKeyPolicyCommand.tryFrom_toAsn1]
  constructor
  · rintro ⟨cmds, ⟨rfl, known⟩, ok⟩
    cases ok
    exact ⟨rfl, known⟩
  · rintro ⟨rfl, known⟩
    exact ⟨p'.policy, ⟨rfl, known⟩, rfl⟩

/-- The borrowed view of a public area has the object type of the owned one. -/
theorem TpmtPublic.unmarshal_of_view {b r : Bytes} {view : TpmtPublic.View}
    (cast : castPrefixField (α := TpmtPublic) b = .ok (view, r)) :
    ∃ v : TpmtPublic, unmarshal b = .ok (v, r) ∧ v.objectType = view.objectType := by
  obtain ⟨v, read⟩ := (sameExtent (α := TpmtPublic) b r).mp ⟨view, cast⟩
  refine ⟨v, read, ?_⟩
  obtain ⟨⟨_, _⟩, typed, read⟩ := bind_eq_ok.mp read
  obtain ⟨⟨_, _⟩, typed', cast⟩ := bind_eq_ok.mp cast
  obtain ⟨rfl, rfl⟩ := Prod.mk.inj (Except.ok.inj (typed.symm.trans typed'))
  simp only [bind_eq_ok, Prod.exists] at read cast
  obtain ⟨_, _, -, _, _, -, _, _, -, _, _, -, _, _, -, rest⟩ := read
  obtain ⟨_, _, -, _, _, -, _, _, -, _, _, -, _, _, -, rest'⟩ := cast
  cases rest
  cases rest'
  rfl

theorem tpmPublicAlg_eq_ok {b : Bytes} {alg : TpmAlgId} :
    tpmPublicAlg b = .ok alg ↔
      ∃ v : Tpm2bPublic, unmarshal b = .ok (v, []) ∧ v.inner.objectType = alg := by
  unfold tpmPublicAlg
  rw [bind_eq_ok]
  constructor
  · rintro ⟨view, cast, ok⟩
    cases ok
    obtain ⟨size, m, head, bound, rfl, views⟩ := Tpm2bWire.cast_inner_eq_ok.mp cast
    obtain ⟨v, read, same⟩ := TpmtPublic.unmarshal_of_view views
    refine ⟨⟨v⟩, Tpm2bStruct.unmarshal_eq_ok.mpr ⟨_, m, head, bound, Nat.le_refl _, ?_, ?_⟩, same⟩
    · rw [List.take_length]
      exact read
    · rw [List.drop_length]
  · rintro ⟨v, read, rfl⟩
    obtain ⟨size, m, head, bound, enough, read, rest⟩ := Tpm2bStruct.unmarshal_eq_ok.mp read
    have all : size = m.length :=
      Nat.le_antisymm enough (List.drop_eq_nil_iff.mp rest.symm)
    rw [all, List.take_length] at read
    obtain ⟨view, views⟩ := (sameExtent (α := TpmtPublic) m []).mpr ⟨v.inner, read⟩
    obtain ⟨v', read', same⟩ := TpmtPublic.unmarshal_of_view views
    obtain ⟨rfl, -⟩ := Prod.mk.inj (Except.ok.inj (read.symm.trans read'))
    exact ⟨view, Tpm2bWire.cast_inner_eq_ok.mpr ⟨size, m, head, bound, all, views⟩, by
      rw [same]; rfl⟩

/-- What is written of a public area starts with its object type. -/
theorem TpmtPublic.written_objectType {v : TpmtPublic} {c d : TpmWriter}
    (ok : marshal v c = .ok d) :
    ∃ rest, d.written = c.written ++ (TpmEnum.wire v.objectType ++ rest) := by
  have typed {w w' : TpmWriter} (ok : marshal v.objectType w = .ok w') :
      w'.written = w.written ++ TpmEnum.wire v.objectType := by
    obtain ⟨fits, rfl⟩ := (TpmWriter.writeBytes_emits (TpmEnum.wire v.objectType)).of_ok ok
    exact Cursor.push_written fits
  change ite _ _ _ = _ at ok
  split at ok
  · cases ok
  obtain ⟨c₁, ok₁, ok⟩ := bind_eq_ok.mp ok
  obtain ⟨c₂, ok₂, ok⟩ := bind_eq_ok.mp ok
  obtain ⟨c₃, ok₃, ok⟩ := bind_eq_ok.mp ok
  obtain ⟨c₄, ok₄, ok⟩ := bind_eq_ok.mp ok
  obtain ⟨c₅, ok₅, ok₆⟩ := bind_eq_ok.mp ok
  obtain ⟨p₂, written₂⟩ := codec.written_append ok₂
  obtain ⟨p₃, written₃⟩ := codec.written_append ok₃
  obtain ⟨p₄, written₄⟩ := codec.written_append ok₄
  obtain ⟨p₅, written₅⟩ := (codec_tagged v.objectType).written_append ok₅
  obtain ⟨p₆, written₆⟩ := (codec_tagged v.objectType).written_append ok₆
  refine ⟨p₂ ++ p₃ ++ p₄ ++ p₅ ++ p₆, ?_⟩
  rw [written₆, written₅, written₄, written₃, written₂, typed ok₁]
  simp only [List.append_assoc]

/-- The object type is behind the size of the wrapper. -/
theorem Tpm2bPublic.objectType_written {v : Tpm2bPublic} {n : Nat} {d : TpmWriter}
    (ok : marshal v (Cursor.zeros n) = .ok d) :
    ∃ rest, castPrefixField (α := TpmAlgId) (d.written.drop 2) =
      .ok (v.inner.objectType, rest) := by
  obtain ⟨lenField, -, ok⟩ := bind_eq_ok.mp ok
  obtain ⟨c, sized, ok⟩ := bind_eq_ok.mp ok
  obtain ⟨fits, rfl⟩ := (TpmWriter.writeBytes_emits lenField.bytes).of_ok sized
  obtain ⟨rest, written⟩ := TpmtPublic.written_objectType ok
  refine ⟨rest, TpmEnum.castPrefixField_eq_ok.mpr ?_⟩
  have empty : (Cursor.zeros n).written = [] := rfl
  rw [written, Cursor.push_written fits, empty, List.nil_append,
    List.drop_left' lenField.length_bytes]

/-- The object types that a key of a kind can have. -/
def TpmKeyType.Permits (kind : TpmKeyType) (alg : TpmAlgId) : Prop :=
  alg = .keyedHash ∨ kind ≠ .sealedData ∧ (alg = .rsa ∨ alg = .ecc)

namespace TpmKeyFile

section
variable {α : Type} [TpmMarshal α] {obj : α}

theorem marshaled_ok {writer : TpmWriter}
    (ok : marshal obj (Cursor.zeros tpmMaxCommandSize) = .ok writer) :
    marshaled obj = writer.written := by
  rw [marshaled, tpmMarshalArray, List.foldlM_cons, ok]
  rfl

theorem marshaled_error {e : TpmError}
    (failed : marshal obj (Cursor.zeros tpmMaxCommandSize) = .error e) : marshaled obj = [] := by
  rw [marshaled, tpmMarshalArray, List.foldlM_cons, failed]
  rfl

end

/-- A public area that is stored and can be read has the object type that is stored with it. -/
theorem publicAlg_marshaled {v : Tpm2bPublic} {alg : TpmAlgId}
    (read : tpmPublicAlg (marshaled v) = .ok alg) : alg = v.inner.objectType := by
  cases marshalled : marshal v (Cursor.zeros tpmMaxCommandSize) with
  | error e =>
      rw [marshaled_error marshalled] at read
      cases read
  | ok writer =>
      rw [marshaled_ok marshalled] at read
      obtain ⟨v', read', rfl⟩ := tpmPublicAlg_eq_ok.mp read
      obtain ⟨-, p, all, emits⟩ := codec.read_ok read'
      rw [List.append_nil] at all
      obtain ⟨writer', marshalled', written⟩ := emits.written (Nat.le_refl p.length)
      obtain ⟨rest, typed⟩ := Tpm2bPublic.objectType_written marshalled
      obtain ⟨rest', typed'⟩ := Tpm2bPublic.objectType_written marshalled'
      rw [written, ← all, typed] at typed'
      exact (Prod.mk.inj (Except.ok.inj typed')).1.symm

/-- A well-formed public area is stored so that it can be read. -/
theorem tpmPublicAlg_marshaled {v : Tpm2bPublic} (wf : WellFormed v) :
    tpmPublicAlg (marshaled v) = .ok v.inner.objectType := by
  have law := codec (α := Tpm2bPublic)
  have bound : maxLen Tpm2bPublic ≤ tpmMaxCommandSize := by decide
  obtain ⟨p, length, emits⟩ := law.emits_wellFormed wf
  have fits : p.length ≤ tpmMaxCommandSize := by
    rw [length]
    exact Nat.le_trans (len_le v) bound
  obtain ⟨writer, marshalled, written⟩ := emits.written fits
  rw [marshaled_ok marshalled, written]
  refine tpmPublicAlg_eq_ok.mpr ⟨v, ?_, rfl⟩
  simpa using law.read_emitted wf emits []

/-- One whose parameters do not belong to its object type is not stored at all. -/
theorem marshaled_mismatch {v : Tpm2bPublic} (other : ¬ v.inner.matchesType) :
    marshaled v = [] := by
  have refused : ¬ Writable v := fun writable => other writable.1
  obtain ⟨e, failed⟩ := (codec (α := Tpm2bPublic)).refuses refused (Cursor.zeros tpmMaxCommandSize)
  exact marshaled_error failed

/-- A private area is stored as an envelope. -/
theorem tpmPrivate_marshaled (v : Tpm2bPrivate) : tpmPrivate (marshaled v) = .ok () := by
  have bound : v.bytes.length ≤ 1408 := v.length_le
  have fits : v.wire.length ≤ tpmMaxCommandSize := by
    rw [TpmBuffer.wire, List.length_append, length_toBytes, tpmMaxCommandSize]
    omega
  obtain ⟨writer, marshalled, written⟩ := (TpmBuffer.marshal_emits v).written fits
  rw [marshaled_ok marshalled, written, tpmPrivate, Tpm2b.validate_eq_ok,
    Tpm2b.castPrefix_eq_ok_iff]
  exact ⟨v.bytes, v.length_le, v.length_le_u16, rfl, (List.append_nil _).symm⟩

/-- What holds of every key file that can be built: the private area is an envelope, and the public
area, if it can be read, has the object type stored with it. -/
structure Lawful (key : TpmKeyFile) : Prop where
  publicAlg : ∀ alg, tpmPublicAlg key.public = .ok alg → alg = key.publicAlg
  «private» : tpmPrivate key.private = .ok ()

/-- The key files that the constructors and the `with` functions make. -/
inductive Built (rasn : Rasn) : TpmKeyFile → Prop
  | new : Built rasn .new
  | fromDer {key derBytes} (ok : fromDer rasn derBytes = .ok key) : Built rasn key
  | withKind {key} kind : Built rasn key → Built rasn (key.withKind kind)
  | withPublic {key} «public» : Built rasn key → Built rasn (key.withPublic «public»)
  | withPrivate {key} «private» : Built rasn key → Built rasn (key.withPrivate «private»)
  | withPublicBytes {key key'} {E : Type} {«public» : Bytes} : Built rasn key →
      (key.withPublicBytes «public» : Except (TpmKeyError E) _) = .ok key' → Built rasn key'
  | withPrivateBytes {key key'} {E : Type} {«private» : Bytes} : Built rasn key →
      (key.withPrivateBytes «private» : Except (TpmKeyError E) _) = .ok key' → Built rasn key'
  | withEmptyAuth {key} emptyAuth : Built rasn key → Built rasn (key.withEmptyAuth emptyAuth)
  | withPolicy {key} policy : Built rasn key → Built rasn (key.withPolicy policy)
  | withSecret {key} secret : Built rasn key → Built rasn (key.withSecret secret)
  | withAuthPolicy {key} authPolicy : Built rasn key → Built rasn (key.withAuthPolicy authPolicy)
  | withDescription {key} description :
      Built rasn key → Built rasn (key.withDescription description)
  | withParent {key} parent : Built rasn key → Built rasn (key.withParent parent)
  | withRsaParent {key} rsaParent : Built rasn key → Built rasn (key.withRsaParent rsaParent)

/-- A key file that is read has readable areas. -/
theorem lawful_fromAsn1 {E : Type} {asn1 : TpmKeyAsn1} {key : TpmKeyFile}
    (ok : (fromAsn1 asn1 : Except (TpmKeyError E) _) = .ok key) : key.Lawful := by
  obtain ⟨publicAlg, typed, ok⟩ := bind_eq_ok.mp ok
  obtain ⟨_, sealed, ok⟩ := bind_eq_ok.mp ok
  obtain ⟨kind, -, ok⟩ := bind_eq_ok.mp ok
  rw [mapError_eq_ok] at typed sealed
  split at ok
  · cases ok
  obtain ⟨_, -, ok⟩ := bind_eq_ok.mp ok
  obtain ⟨policy, -, ok⟩ := bind_eq_ok.mp ok
  obtain ⟨authPolicy, -, ok⟩ := bind_eq_ok.mp ok
  cases ok
  exact ⟨fun alg read => Except.ok.inj (read.symm.trans typed), sealed⟩

theorem Built.lawful {rasn : Rasn} {key : TpmKeyFile} (built : Built rasn key) : key.Lawful := by
  induction built with
  | new => exact ⟨fun alg read => publicAlg_marshaled read, tpmPrivate_marshaled .new⟩
  | fromDer ok =>
      obtain ⟨asn1, -, ok⟩ := bind_eq_ok.mp ok
      exact lawful_fromAsn1 ok
  | withPublic v _ ih => exact ⟨fun alg read => publicAlg_marshaled read, ih.private⟩
  | withPrivate v _ ih => exact ⟨ih.publicAlg, tpmPrivate_marshaled v⟩
  | withPublicBytes _ ok ih =>
      obtain ⟨alg, typed, ok⟩ := bind_eq_ok.mp ok
      rw [mapError_eq_ok] at typed
      cases ok
      exact ⟨fun alg read => Except.ok.inj (read.symm.trans typed), ih.private⟩
  | withPrivateBytes _ ok ih =>
      obtain ⟨_, sealed, ok⟩ := bind_eq_ok.mp ok
      rw [mapError_eq_ok] at sealed
      cases ok
      exact ⟨ih.publicAlg, sealed⟩
  | withKind _ _ ih | withEmptyAuth _ _ ih | withPolicy _ _ ih | withSecret _ _ ih
  | withAuthPolicy _ _ ih | withDescription _ _ ih | withParent _ _ ih | withRsaParent _ _ ih =>
      exact ⟨ih.publicAlg, ih.private⟩

theorem kindFrom_toAsn1 {E : Type} (key : TpmKeyFile) (alg : TpmAlgId) (kind : TpmKeyType) :
    (kindFrom key.toAsn1.keyType alg : Except (TpmKeyError E) _) = .ok kind ↔
      kind = key.kind ∧ key.kind.Permits alg := by
  have distinct : oidImportableKey ≠ oidLoadableKey ∧ oidSealedData ≠ oidLoadableKey ∧
      oidSealedData ≠ oidImportableKey := by decide
  obtain ⟨importable, sealed, sealed'⟩ := distinct
  unfold kindFrom toAsn1 TpmKeyType.Permits
  cases key.kind with
  | loadable =>
      simp only [true_or, if_true]
      split <;> grind
  | importable =>
      simp only [or_true, if_true, importable, if_false]
      split <;> grind
  | sealedData =>
      simp only [sealed, sealed', or_self, if_false, if_true]
      split <;> grind

/-- All policy commands of a key. -/
def commands (key : TpmKeyFile) : List TpmKeyPolicyCommand :=
  key.policy ++ (key.authPolicy.getD []).flatMap TpmKeyAuthPolicy.policy

/-- What reading asks of a key file, beyond what writing checks: its public area can be read, its
kind permits the object type, and its policy commands have codes of policy commands. -/
structure Readable (key : TpmKeyFile) : Prop where
  «public» : ∃ alg, tpmPublicAlg key.public = .ok alg
  permits : key.kind.Permits key.publicAlg
  commands : ∀ command ∈ key.commands, command.cc ∈ TpmKeyPolicyCommand.policyCodes

section
variable {E : Type} {key : TpmKeyFile}

theorem toAsn1_secret : key.toAsn1.secret.getD [] = key.secret := by
  show (if key.secret.isEmpty then none else some key.secret).getD [] = key.secret
  cases key.secret <;> rfl

theorem toAsn1_emptyAuth : key.toAsn1.emptyAuth.getD false = key.emptyAuth := by
  show (if key.emptyAuth then some true else none).getD false = key.emptyAuth
  cases key.emptyAuth <;> rfl

theorem toAsn1_rsaParent_eq : key.toAsn1.rsaParent = some true ↔ key.rsaParent := by
  show (if key.rsaParent then some true else none) = some true ↔ _
  cases key.rsaParent <;> simp

theorem toAsn1_rsaParent : key.toAsn1.rsaParent.getD false = key.rsaParent := by
  show (if key.rsaParent then some true else none).getD false = key.rsaParent
  cases key.rsaParent <;> rfl

theorem toAsn1_policy :
    key.toAsn1.policy.getD [] = key.policy.map TpmKeyPolicyCommand.toAsn1 := by
  show (if key.policy.isEmpty then none else some (key.policy.map TpmKeyPolicyCommand.toAsn1)).getD
    [] = _
  cases key.policy <;> rfl

theorem mapM_toAsn1_authPolicy {authPolicy : Option (List TpmKeyAuthPolicy)} :
    (key.toAsn1.authPolicy.mapM fun branches => branches.mapM TpmKeyAuthPolicy.tryFrom :
      Except (TpmKeyError E) _) = .ok authPolicy ↔ authPolicy = key.authPolicy ∧
        ∀ p ∈ key.authPolicy.getD [], ∀ c ∈ p.policy, c.cc ∈ TpmKeyPolicyCommand.policyCodes := by
  show ((key.authPolicy.map fun list => list.map TpmKeyAuthPolicy.toAsn1).mapM fun branches =>
    branches.mapM TpmKeyAuthPolicy.tryFrom : Except (TpmKeyError E) _) = .ok authPolicy ↔ _
  cases key.authPolicy with
  | none => simp [pure, Except.pure, eq_comm]
  | some list =>
      show ((list.map TpmKeyAuthPolicy.toAsn1).mapM TpmKeyAuthPolicy.tryFrom >>= fun read =>
        pure (some read)) = Except.ok authPolicy ↔ _
      rw [bind_eq_ok]
      simp only [mapM_map_eq_ok TpmKeyAuthPolicy.tryFrom_toAsn1]
      constructor
      · rintro ⟨read, ⟨rfl, known⟩, ok⟩
        cases ok
        exact ⟨rfl, known⟩
      · rintro ⟨rfl, known⟩
        exact ⟨list, ⟨rfl, known⟩, rfl⟩

/-- What is written is read back exactly if it is readable. -/
theorem fromAsn1_toAsn1 (lawful : key.Lawful)
    (secret : (tpmValidateSecret key.kind key.secret : Except (TpmKeyError E) _) = .ok ())
    (parent : ¬ (key.rsaParent ∧ key.parent.value >>> 24 ≠ 0x40)) :
    (fromAsn1 key.toAsn1 : Except (TpmKeyError E) _) = .ok key ↔ key.Readable := by
  have valid : ¬ (key.toAsn1.rsaParent = some true ∧ key.toAsn1.parent >>> 24 ≠ 0x40) := by
    rw [toAsn1_rsaParent_eq]
    exact parent
  unfold fromAsn1
  constructor
  · intro ok
    obtain ⟨publicAlg, typed, ok⟩ := bind_eq_ok.mp ok
    obtain ⟨_, -, ok⟩ := bind_eq_ok.mp ok
    obtain ⟨kind, named, ok⟩ := bind_eq_ok.mp ok
    dsimp only at ok
    rw [if_neg valid] at ok
    obtain ⟨_, -, ok⟩ := bind_eq_ok.mp ok
    obtain ⟨policy, read, ok⟩ := bind_eq_ok.mp ok
    obtain ⟨authPolicy, readAuth, ok⟩ := bind_eq_ok.mp ok
    rw [toAsn1_policy, mapM_map_eq_ok TpmKeyPolicyCommand.tryFrom_toAsn1] at read
    rw [mapM_toAsn1_authPolicy] at readAuth
    rw [mapError_eq_ok] at typed
    obtain rfl := lawful.publicAlg _ typed
    refine ⟨⟨_, typed⟩, ((kindFrom_toAsn1 key _ kind).mp named).2, fun command member => ?_⟩
    rcases List.mem_append.mp member with direct | branch
    · exact read.2 command direct
    · obtain ⟨p, listed, among⟩ := List.mem_flatMap.mp branch
      exact readAuth.2 p listed command among
  · rintro ⟨⟨alg, typed⟩, permits, known⟩
    obtain rfl := lawful.publicAlg _ typed
    have direct : ∀ c ∈ key.policy, c.cc ∈ TpmKeyPolicyCommand.policyCodes :=
      fun c member => known c (List.mem_append_left _ member)
    have branches : ∀ p ∈ key.authPolicy.getD [], ∀ c ∈ p.policy,
        c.cc ∈ TpmKeyPolicyCommand.policyCodes := fun p listed c among =>
      known c (List.mem_append_right _ (List.mem_flatMap.mpr ⟨p, listed, among⟩))
    refine bind_eq_ok.mpr ⟨_, mapError_eq_ok.mpr typed, ?_⟩
    refine bind_eq_ok.mpr ⟨_, mapError_eq_ok.mpr lawful.private, ?_⟩
    refine bind_eq_ok.mpr ⟨_, (kindFrom_toAsn1 key _ _).mpr ⟨rfl, permits⟩, ?_⟩
    dsimp only
    rw [if_neg valid, toAsn1_secret, toAsn1_policy, toAsn1_emptyAuth, toAsn1_rsaParent]
    refine bind_eq_ok.mpr ⟨_, secret, ?_⟩
    refine bind_eq_ok.mpr ⟨_,
      (mapM_map_eq_ok TpmKeyPolicyCommand.tryFrom_toAsn1).mpr ⟨rfl, direct⟩, ?_⟩
    refine bind_eq_ok.mpr ⟨_, mapM_toAsn1_authPolicy.mpr ⟨rfl, branches⟩, ?_⟩
    have parent : TpmInt.new key.toAsn1.parent = key.parent := TpmInt.new_value _
    rw [parent]
    rfl

end

/-- A key file that is written is read back as it was exactly if it is readable. -/
theorem fromDer_toDer_iff (rasn : Rasn)
    (inverse : ∀ asn1 derBytes, rasn.encode asn1 = .ok derBytes → rasn.decode derBytes = .ok asn1)
    {key : TpmKeyFile} (built : Built rasn key) {derBytes : Bytes}
    (written : key.toDer rasn = .ok derBytes) :
    fromDer rasn derBytes = .ok key ↔ key.Readable := by
  obtain ⟨_, secret, written⟩ := bind_eq_ok.mp written
  by_cases parent : key.rsaParent ∧ key.parent.value >>> 24 ≠ 0x40
  · rw [if_pos parent] at written
    cases written
  rw [if_neg parent] at written
  have decoded := inverse _ _ (mapError_eq_ok.mp written)
  rw [fromDer, decoded]
  exact fromAsn1_toAsn1 built.lawful secret parent

/-- An ASN.1 library that knows one key. -/
def single (asn1 : TpmKeyAsn1) (derBytes : Bytes) : Rasn where
  Asn1Error := Unit
  encode a := if a = asn1 then .ok derBytes else .error ()
  decode b := if b = derBytes then .ok asn1 else .error ()

theorem single_inverse (asn1 : TpmKeyAsn1) (derBytes : Bytes) : ∀ a b,
    (single asn1 derBytes).encode a = .ok b → (single asn1 derBytes).decode b = .ok a := by
  intro a b encoded
  unfold single at *
  dsimp only at *
  split at encoded
  next same =>
    cases encoded
    rw [same, if_pos rfl]
  next => cases encoded

theorem toDer_single {key : TpmKeyFile} {asn1 : TpmKeyAsn1} {derBytes : Bytes}
    (written : key.toAsn1 = asn1)
    (secret : (tpmValidateSecret key.kind key.secret : Except (TpmKeyError Unit) _) = .ok ())
    (parent : ¬ (key.rsaParent ∧ key.parent.value >>> 24 ≠ 0x40)) :
    key.toDer (single asn1 derBytes) = .ok derBytes := by
  refine bind_eq_ok.mpr ⟨(), secret, ?_⟩
  rw [if_neg parent]
  show ((if key.toAsn1 = asn1 then .ok derBytes else .error () : Except Unit Bytes).mapError _ :
    Except (TpmKeyError Unit) Bytes) = _
  rw [if_pos written]
  rfl

/-- A keyed hash object with one policy command. -/
def sample : TpmKeyFile :=
  (new.withPublic ⟨⟨.keyedHash, .sha256, ⟨0⟩, .new, .keyedHash ⟨⟨.null, .null⟩⟩,
    .keyedHash .new⟩⟩).withPolicy [⟨.policyAuthValue, []⟩]

def samplePublic : Bytes := [0, 14, 0, 8, 0, 11, 0, 0, 0, 0, 0, 0, 0, 16, 0, 0]

def sampleAsn1 : TpmKeyAsn1 where
  keyType := oidLoadableKey
  emptyAuth := none
  policy := some [⟨0x16B, []⟩]
  secret := none
  authPolicy := none
  description := none
  rsaParent := none
  parent := 0
  pubkey := samplePublic
  privkey := [0, 0]

def sampleDer : Bytes :=
  [0x30, 49, 6, 6, 0x67, 0x81, 5, 10, 1, 3, 0xA1, 14, 0x30, 12, 0x30, 10, 0xA0, 4, 2, 2, 1, 0x6B,
    0xA1, 2, 4, 0, 2, 1, 0, 4, 16] ++ samplePublic ++ [4, 2, 0, 0]

theorem fromDer_toDer_sample : fromDer (single sampleAsn1 sampleDer) sampleDer = .ok sample := by
  have built : Built (single sampleAsn1 sampleDer) sample := (Built.new.withPublic _).withPolicy _
  have encoded : sample.toAsn1 = sampleAsn1 := by decide +kernel
  have written : sample.toDer (single sampleAsn1 sampleDer) = .ok sampleDer :=
    toDer_single encoded rfl (by decide)
  have read : tpmPublicAlg sample.public = .ok .keyedHash := by decide +kernel
  refine (fromDer_toDer_iff _ (single_inverse _ _) built written).mpr ⟨⟨_, read⟩, .inl rfl, ?_⟩
  intro command member
  obtain rfl := List.mem_singleton.mp member
  decide

/-- The ASN.1 form of the key that `new` makes. -/
def newAsn1 : TpmKeyAsn1 where
  keyType := oidLoadableKey
  emptyAuth := none
  policy := none
  secret := none
  authPolicy := none
  description := none
  rsaParent := none
  parent := 0
  pubkey := [0, 10, 0, 16, 0, 16, 0, 0, 0, 0, 0, 0]
  privkey := [0, 0]

def newDer : Bytes :=
  [0x30, 29, 6, 6, 0x67, 0x81, 5, 10, 1, 3, 2, 1, 0, 4, 12, 0, 10, 0, 16, 0, 16, 0, 0, 0, 0, 0, 0,
    4, 2, 0, 0]

/-- The key that `new` makes is written, but it cannot be read: its object type is null. -/
theorem fromDer_toDer_fails : ¬ ∀ rasn : Rasn,
    (∀ asn1 derBytes, rasn.encode asn1 = .ok derBytes → rasn.decode derBytes = .ok asn1) →
    ∀ key, Built rasn key → ∀ derBytes, key.toDer rasn = .ok derBytes →
      fromDer rasn derBytes = .ok key := by
  intro claim
  have encoded : new.toAsn1 = newAsn1 := by decide +kernel
  have written : new.toDer (single newAsn1 newDer) = .ok newDer :=
    toDer_single encoded rfl (by decide)
  have read := claim _ (single_inverse newAsn1 newDer) new .new newDer written
  have readAsn1 : (fromAsn1 new.toAsn1 : Except (TpmKeyError Unit) _) = .ok new := by
    rw [encoded]
    exact read
  have built : Built (single newAsn1 newDer) new := .new
  have readable := (fromAsn1_toAsn1 built.lawful rfl (by decide)).mp readAsn1
  rcases readable.permits with hashed | ⟨-, rsa | ecc⟩
  · cases hashed
  · cases rsa
  · cases ecc

end TpmKeyFile
end Tpm2
