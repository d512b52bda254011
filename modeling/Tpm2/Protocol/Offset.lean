import Tpm2.ByteCodec.Located
import Tpm2.Protocol.DataType

/-! Where the error of a failing component is reported, for every data type of the protocol. -/

namespace Tpm2

open ByteCodec

set_option synthInstance.maxSize 1000

instance : Positioned TpmError where
  offset := TpmError.offset
  rebase := TpmError.rebase
  largest := usizeMax
  offset_rebase delta e := by cases e <;> rfl

/-- A type whose decoder's failures are located. -/
class TpmLocated (α : Type) [TpmUnmarshal α] where
  furthest : Nat
  located : Located (unmarshal : Bytes → TpmResult (α × Bytes)) furthest

/-- A field list whose decoder's failures are located. -/
class TpmLocatedFields (F : Type) [TpmUnmarshalFields F] where
  furthest : Nat
  located : LocatedFields (unmarshalFields : Nat → Bytes → TpmResult (F × Bytes)) furthest

/-- Arms of a union whose decoder's failures are located, under each tag. -/
class TpmLocatedArms (A : Type) (Tag : Type) [TpmArms A Tag] where
  furthest : Nat
  located : ∀ (tags : List (List Tag)) (tag : Tag),
    Located (TpmArms.unmarshalArms tags tag : Bytes → TpmResult (A × Bytes)) furthest

/-- A union whose decoder's failures are located, under each tag. -/
class TpmLocatedUnion (U : Type) (Tag : outParam Type) [TpmUnmarshalTagged U Tag] where
  furthest : Nat
  located : ∀ tag, Located (unmarshalTagged tag : Bytes → TpmResult (U × Bytes)) furthest

export TpmLocated (furthest located)

/-- An encoding has `maxLen` bytes at most. -/
theorem unmarshal_consumes {α : Type} [TpmWire α] :
    Consumes (unmarshal : Bytes → TpmResult (α × Bytes)) (maxLen α) := by
  intro b v m read
  obtain ⟨-, p, split, emits⟩ := codec.read_ok read
  refine ⟨p, split, ?_⟩
  rw [codec.length_emitted emits]
  exact len_le v

/-! Types without components. -/

instance : TpmLocated Unit where
  furthest := 0
  located := .leaf fun b => .ok ((), b) 0

theorem within_castPrefix {T : Type} {N : Nat} [TpmIntBytes T N] (b : Bytes) :
    Within (TpmInt.castPrefix b : TpmResult (TpmInt T N × Bytes)) 0 := by
  unfold TpmInt.castPrefix
  split
  · exact .error (Nat.le_refl 0)
  · exact .ok _ 0

instance {T : Type} {N : Nat} [TpmIntBytes T N] : TpmLocated (TpmInt T N) where
  furthest := 0
  located := .leaf (by
    rw [TpmInt.unmarshal_eq_castPrefix]
    exact within_castPrefix)

theorem TpmEnum.within_tryFrom {E R : Type} {N : Nat} [DecidableEq R] [TpmEnum E R]
    [TpmIntBytes R N] (raw : R) : Within (TpmEnum.tryFrom raw : TpmResult E) 0 := by
  unfold TpmEnum.tryFrom
  split
  · exact .ok _ 0
  · exact .error (Nat.le_refl 0)

instance {E R : Type} {N : Nat} [DecidableEq R] [TpmEnum E R] [TpmIntBytes R N] :
    TpmLocated E where
  furthest := 0
  located := .leaf fun b => (within_castPrefix b).bind fun x _ =>
    (TpmEnum.within_tryFrom x.1.value).bind fun _ _ => .ok _ 0

instance {F R : Type} {N : Nat} [TpmBitflags F R] [TpmIntBytes R N] : TpmLocated F where
  furthest := 0
  located := .leaf fun b => (within_castPrefix b).bind fun _ _ => .ok _ 0

instance : TpmLocated TpmiYesNo where
  furthest := 0
  located := .leaf fun b => by
    refine Within.bind (within_castPrefix b) fun x _ => ?_
    dsimp only
    split
    · exact .ok _ 0
    · exact .ok _ 0
    · exact .error (Nat.le_refl 0)

theorem Tpm2b.within_castPrefix (CAPACITY : Nat) (b : Bytes) :
    Within (Tpm2b.castPrefix CAPACITY b) 2 := by
  unfold Tpm2b.castPrefix Tpm2b.validatePrefix
  refine Within.bind ?_ fun _ _ => .ok _ 2
  split
  · exact .error (Nat.zero_le 2)
  dsimp only [bind, Except.bind, pure, Except.pure]
  split
  · exact .error (Nat.zero_le 2)
  split
  · exact .error (Nat.le_refl 2)
  · exact .ok _ 2

theorem TpmBuffer.within_tryFrom {CAPACITY : Nat} (slice : Bytes) :
    Within (TpmBuffer.tryFrom slice : TpmResult (TpmBuffer CAPACITY)) 0 := by
  unfold TpmBuffer.tryFrom TpmBuffer.tryExtendFromSlice
  dsimp only
  split
  · exact .error (Nat.le_refl 0)
  split
  · exact .error (Nat.le_refl 0)
  · exact .ok _ 0

instance {CAPACITY : Nat} : TpmLocated (TpmBuffer CAPACITY) where
  furthest := 2
  located := .leaf fun b => (Tpm2b.within_castPrefix CAPACITY b).bind fun _ _ =>
    ((TpmBuffer.within_tryFrom _).mono (Nat.zero_le 2)).bind fun _ _ => .ok _ 2

theorem TpmRc.within_tryFrom (raw : UInt32) : Within (TpmRc.tryFrom raw) 0 := by
  have base (value : UInt32) : Within ((TpmEnum.tryFrom value : TpmResult TpmRcBase).mapError
      fun _ => TpmError.invalidRc 0 (TpmIntBytes.asU64 raw)) 0 := by
    cases (TpmEnum.tryFrom value : TpmResult TpmRcBase) with
    | error e => exact .error (Nat.le_refl 0)
    | ok v => exact .ok v 0
  unfold TpmRc.tryFrom
  dsimp only
  split
  · split
    · exact .error (Nat.le_refl 0)
    · refine (base _).bind fun _ _ => ?_
      split
      · exact .error (Nat.le_refl 0)
      · exact .ok _ 0
  · refine (base _).bind fun _ _ => ?_
    split
    · exact .ok _ 0
    · exact .ok _ 0

instance : TpmLocated TpmRc where
  furthest := 0
  located := .leaf fun b => (TpmLocated.located.within b).bind fun x _ =>
    (TpmRc.within_tryFrom x.1.value).bind fun _ _ => .ok _ 0

theorem TpmsPcrSelect.within_castPrefixField (b : Bytes) :
    Within (castPrefixField (α := TpmsPcrSelect) b : TpmResult (Bytes × Bytes)) 1 := by
  refine ((Tpm2.within_castPrefix b).mono (Nat.zero_le 1)).bind fun x _ => ?_
  dsimp only [bind, Except.bind]
  split
  · exact .error (Nat.zero_le 1)
  dsimp only [pure, Except.pure]
  split
  · exact .error (Nat.le_refl 1)
  · exact .ok _ 1

instance : TpmLocated TpmsPcrSelect where
  furthest := 1
  located := .leaf fun b => (TpmsPcrSelect.within_castPrefixField b).bind fun x _ => by
    refine Within.bind ?_ fun _ _ => .ok _ 1
    unfold TpmsPcrSelect.tryFrom
    split
    · exact .error (Nat.zero_le 1)
    · exact .ok _ 1

/-! Structures, also behind a size. -/

instance : TpmLocatedFields Unit where
  furthest := 0
  located := .nil

instance {α F : Type} [TpmWire α] [TpmLocated α] [TpmUnmarshalFields F] [TpmLocatedFields F] :
    TpmLocatedFields (α × F) where
  furthest := max (furthest α) (maxLen α + TpmLocatedFields.furthest F)
  located := .cons located unmarshal_consumes TpmLocatedFields.located

instance {S F : Type} [TpmStruct S F] [TpmUnmarshalFields F] [TpmLocatedFields F] :
    TpmLocated S where
  furthest := TpmLocatedFields.furthest F
  located := LocatedFields.composite TpmLocatedFields.located TpmStruct.ofFields

/-- The structure in a wrapper is given the bytes that the size counts, and starts behind it. -/
def Tpm2bStruct.PartsFail (T : Type) [TpmSized T] [TpmUnmarshal T] [TpmLocated T] :
    PartFailures TpmError :=
  .next unmarshal (located (α := TpmUint16)).FailsAt fun (size : TpmUint16) b start path e =>
    size.value.toNat ≤ SIZE T ∧ size.value.toNat ≤ b.length ∧ start = 0 ∧
      (located (α := T)).FailsAt (b.take size.value.toNat) path e

theorem Tpm2bStruct.within {T : Type} [TpmWire T] [TpmLocated T] (b : Bytes) :
    Within (unmarshal b : TpmResult (Tpm2bStruct T × Bytes)) (2 + max (maxLen T) (furthest T)) := by
  refine Within.bind ((located.within b).mono (Nat.zero_le _)) fun x _ => ?_
  obtain ⟨size, m⟩ := x
  dsimp only [bind, Except.bind, pure, Except.pure]
  split
  · exact .error (Nat.le_add_right 2 _)
  split
  · exact .error (Nat.le_add_right 2 _)
  next enough =>
    refine Within.bind (((located.within _).rebase 2).mono (by omega)) fun x ok => ?_
    obtain ⟨inner, tail⟩ := x
    obtain ⟨p, split, short⟩ := unmarshal_consumes (mapError_eq_ok.mp ok)
    have consumed := congrArg List.length split
    rw [List.length_append, List.length_take] at consumed
    dsimp only
    cases tail with
    | nil => exact .ok _ _
    | cons byte tail =>
        refine .error ?_
        show 2 + (size.value.toNat - (byte :: tail).length) ≤ _
        omega

theorem Tpm2bStruct.reports {T : Type} [TpmWire T] [TpmLocated T]
    (inRange : 2 + max (maxLen T) (furthest T) ≤ Positioned.largest TpmError) {b : Bytes}
      {start : Nat}
    {path : List Descent} {e : TpmError} (failed : Tpm2bStruct.PartsFail T b start path e) :
    ReportsAt (unmarshal b : TpmResult (Tpm2bStruct T × Bytes))
      (start + added path + e.offset) := by
  rcases failed with ⟨rfl, failed⟩ | ⟨size, m, _, head, ⟨bound, enough, rfl, failed⟩, rfl⟩
  · rw [Nat.zero_add]
    exact (located.reports (Nat.zero_le _) failed).bind _
  · have reported := located.reports (by omega) failed
    have near := reported.within (located.within _)
    obtain ⟨e', failed', at_inner⟩ := reported.rebase 2 (by omega)
    have two : b.length - m.length = 2 := by
      rw [TpmInt.unmarshal_eq_castPrefix] at head
      rw [TpmInt.castPrefix_eq_ok.mp head, List.length_append, size.length_bytes]
      omega
    refine ⟨e', ?_, by rw [two, at_inner, Nat.add_assoc]; rfl⟩
    refine (congrArg (· >>= _) head).trans ?_
    show ite _ _ _ = _
    rw [if_neg (by omega)]
    show ite _ _ _ = _
    rw [if_neg (by omega)]
    exact congrArg (· >>= _) failed'

instance {T : Type} [TpmWire T] [TpmLocated T] : TpmLocated (Tpm2bStruct T) where
  furthest := 2 + max (maxLen T) (furthest T)
  located :=
    { FailsAt := .composite unmarshal true (Tpm2bStruct.PartsFail T)
      within := Tpm2bStruct.within
      reports := fun inRange {b path e} => by
        rintro (⟨rfl, failed⟩ | ⟨start, inner, rfl, failed⟩)
        · exact ⟨e, failed, by simp⟩
        · rw [added_rebased]
          exact Tpm2bStruct.reports inRange failed }

/-! Unions, and structures with a tag. -/

section
variable {Tag R : Type} {N : Nat} [DecidableEq R] [TpmEnum Tag R] [TpmIntBytes R N]

instance : TpmLocatedArms Empty Tag where
  furthest := 0
  located _ _ := .leaf fun _ => .error (Nat.le_refl 0)

end

instance {α A Tag : Type} [DecidableEq Tag] [TpmUnmarshal α] [TpmLocated α] [TpmArms A Tag]
    [TpmLocatedArms A Tag] : TpmLocatedArms (α ⊕ A) Tag where
  furthest := max (furthest α) (TpmLocatedArms.furthest A Tag)
  located tags tag :=
    ((located.map Sum.inl).mono (Nat.le_max_left ..)).branch
      (((TpmLocatedArms.located tags.tail tag).map Sum.inr).mono (Nat.le_max_right ..))

/-- A union fails where the arm that the tag selects does. -/
instance {U Tag A : Type} [TpmuView U Tag A] [TpmArms A Tag] [TpmLocatedArms A Tag] :
    TpmLocatedUnion U Tag where
  furthest := TpmLocatedArms.furthest A Tag
  located tag := (TpmLocatedArms.located (TpmuView.tags U) tag).map TpmuView.ofArms

theorem TpmuHa.within_unmarshalTagged (tag : TpmAlgId) (b : Bytes) :
    Within (unmarshalTagged tag b : TpmResult (TpmuHa × Bytes)) 0 := by
  refine Within.bind ?_ fun x _ => ?_
  · dsimp only [castTaggedPrefixField]
    split
    · split
      · exact .ok _ 0
      · exact .error (Nat.le_refl 0)
    · split
      · exact .error (Nat.le_refl 0)
      · exact .ok _ 0
  · obtain ⟨view, r⟩ := x
    cases view with
    | null => exact .ok _ 0
    | digest bytes => exact (TpmBuffer.within_tryFrom bytes).bind fun _ _ => .ok _ 0

instance : TpmLocatedUnion TpmuHa TpmAlgId where
  furthest := 0
  located tag := .leaf (TpmuHa.within_unmarshalTagged tag)

/-- A tag, and the payload that it selects: an error of the payload is moved behind the tag. -/
instance {S Tag U : Type} [TpmStructTagged S Tag U] [TpmWire Tag] [TpmLocated Tag]
    [TpmUnmarshalTagged U Tag] [TpmLocatedUnion U Tag] : TpmLocated S where
  furthest := max (furthest Tag) (maxLen Tag + TpmLocatedUnion.furthest U)
  located := located.tagged unmarshal_consumes TpmLocatedUnion.located fun tag payload =>
    TpmStructTagged.ofPair (tag, payload)

/-! Composites that are written by hand: they pass the errors of their components on. -/

abbrev TpmLocated.passes {α : Type} [TpmUnmarshal α] {read : Bytes → TpmResult (α × Bytes)}
    {n : Nat} (parts : LocatedParts read n)
    (same : ∀ b, (unmarshal b : TpmResult (α × Bytes)) = read b) : TpmLocated α where
  furthest := n
  located := (parts.congr same).composite

theorem TpmList.within_tryPush {T : Type} {CAPACITY n : Nat} (list : TpmList T CAPACITY)
    (item : T) :
    Within (list.tryPush item) n := by
  unfold TpmList.tryPush
  split
  · exact .error (Nat.zero_le n)
  · exact .ok _ n

/-- The items of a list that are still to be read. -/
def TpmList.locatedItems {T : Type} {CAPACITY : Nat} [TpmUnmarshal T] [TpmLocated T] :
    (count : Nat) → (list : TpmList T CAPACITY) →
      LocatedParts (TpmList.unmarshalItems count list) (furthest T)
  | 0, list => (LocatedParts.done list).mono (Nat.zero_le _)
  | count + 1, list =>
      (LocatedParts.next located fun item =>
        .given (list.within_tryPush item) fun list => locatedItems count list).mono
          (Nat.le_of_eq (Nat.max_self _))

instance {T : Type} {CAPACITY : Nat} [TpmUnmarshal T] [TpmLocated T] :
    TpmLocated (TpmList T CAPACITY) :=
  .passes ((LocatedParts.next (located (α := TpmUint32)) fun count =>
    .branch (count.value.toNat > CAPACITY)
      (.refuse (.tooManyItems 0 CAPACITY count.value.toNat) (Nat.zero_le _))
      (TpmList.locatedItems count.value.toNat (TpmList.new : TpmList T CAPACITY))).mono
        (Nat.le_of_eq (Nat.zero_max _))) fun _ => rfl

instance : TpmLocated TpmsPcrSelection :=
  .passes (.next located fun hash => .next located fun pcrSelect =>
    .done (⟨hash, pcrSelect⟩ : TpmsPcrSelection)) fun _ => rfl

instance : TpmLocated TpmsCapabilityData :=
  .passes (.next located fun capability => .next (TpmLocatedUnion.located capability) fun data =>
    .done (⟨capability, data⟩ : TpmsCapabilityData)) fun _ => rfl

instance : TpmLocated TpmtSymDef :=
  .passes (.next located fun algorithm => .branch (algorithm = .null)
    ((LocatedParts.done (⟨algorithm, .null, .null⟩ : TpmtSymDef)).mono (Nat.zero_le _))
    (.next (TpmLocatedUnion.located algorithm) fun keyBits =>
      .next (TpmLocatedUnion.located algorithm) fun mode =>
        .done (⟨algorithm, keyBits, mode⟩ : TpmtSymDef))) fun _ => rfl

instance : TpmLocated TpmtPublic :=
  .passes (.next located fun objectType => .next located fun nameAlg =>
    .next located fun objectAttributes => .next located fun authPolicy =>
      .next (TpmLocatedUnion.located objectType) fun parameters =>
        .next (TpmLocatedUnion.located objectType) fun unique =>
          .done (⟨objectType, nameAlg, objectAttributes, authPolicy, parameters, unique⟩ :
            TpmtPublic)) fun _ => rfl

instance : TpmLocated TpmtSensitive :=
  .passes (.next located fun sensitiveType => .next located fun authValue =>
    .next located fun seedValue => .next (TpmLocatedUnion.located sensitiveType) fun sensitive =>
      .done (⟨sensitiveType, authValue, seedValue, sensitive⟩ : TpmtSensitive)) fun _ => rfl

instance : TpmLocated TpmsAttest :=
  .passes (.next (located (α := TpmUint32)) fun magic =>
    .branch (magic.value ≠ tpmGeneratedValue)
      (.refuse (TpmError.invalidMagicNumber 0 (TpmIntBytes.asU64 magic.value)) (Nat.zero_le _))
      (.next located fun attestType => .next located fun qualifiedSigner =>
        .next located fun extraData => .next located fun clockInfo =>
          .next located fun firmwareVersion =>
            .next (TpmLocatedUnion.located attestType) fun attested =>
              .done (⟨attestType, qualifiedSigner, extraData, clockInfo, firmwareVersion,
                attested⟩ : TpmsAttest))) fun _ => rfl

/-! All data types. -/

instance ViewedType.failures : (t : ViewedType) → TpmLocated t.Carrier
  | .tpmUint8 => inferInstanceAs (TpmLocated TpmUint8)
  | .tpmUint16 => inferInstanceAs (TpmLocated TpmUint16)
  | .tpmUint32 => inferInstanceAs (TpmLocated TpmUint32)
  | .tpmUint64 => inferInstanceAs (TpmLocated TpmUint64)
  | .tpmInt8 => inferInstanceAs (TpmLocated TpmInt8)
  | .tpmInt32 => inferInstanceAs (TpmLocated TpmInt32)
  | .tpmiYesNo => inferInstanceAs (TpmLocated TpmiYesNo)
  | .tpmAlgId => inferInstanceAs (TpmLocated TpmAlgId)
  | .tpmAt => inferInstanceAs (TpmLocated TpmAt)
  | .tpmCap => inferInstanceAs (TpmLocated TpmCap)
  | .tpmCc => inferInstanceAs (TpmLocated TpmCc)
  | .tpmClockAdjust => inferInstanceAs (TpmLocated TpmClockAdjust)
  | .tpmEo => inferInstanceAs (TpmLocated TpmEo)
  | .tpmEccCurve => inferInstanceAs (TpmLocated TpmEccCurve)
  | .tpmHt => inferInstanceAs (TpmLocated TpmHt)
  | .tpmPt => inferInstanceAs (TpmLocated TpmPt)
  | .tpmRh => inferInstanceAs (TpmLocated TpmRh)
  | .tpmSe => inferInstanceAs (TpmLocated TpmSe)
  | .tpmSt => inferInstanceAs (TpmLocated TpmSt)
  | .tpmSu => inferInstanceAs (TpmLocated TpmSu)
  | .tpmiEccKeyExchange => inferInstanceAs (TpmLocated TpmiEccKeyExchange)
  | .tpmRcBase => inferInstanceAs (TpmLocated TpmRcBase)
  | .tpmRc => inferInstanceAs (TpmLocated TpmRc)
  | .tpmaAct => inferInstanceAs (TpmLocated TpmaAct)
  | .tpmaAlgorithm => inferInstanceAs (TpmLocated TpmaAlgorithm)
  | .tpmaCc => inferInstanceAs (TpmLocated TpmaCc)
  | .tpmaLocality => inferInstanceAs (TpmLocated TpmaLocality)
  | .tpmaNv => inferInstanceAs (TpmLocated TpmaNv)
  | .tpmaNvExp => inferInstanceAs (TpmLocated TpmaNvExp)
  | .tpmaObject => inferInstanceAs (TpmLocated TpmaObject)
  | .tpmaSession => inferInstanceAs (TpmLocated TpmaSession)
  | .tpmsPcrSelect => inferInstanceAs (TpmLocated TpmsPcrSelect)
  | .tpmsPcrSelection => inferInstanceAs (TpmLocated TpmsPcrSelection)
  | .tpmsAcOutput => inferInstanceAs (TpmLocated TpmsAcOutput)
  | .tpmsActData => inferInstanceAs (TpmLocated TpmsActData)
  | .tpmsAlgProperty => inferInstanceAs (TpmLocated TpmsAlgProperty)
  | .tpmsAuthCommand => inferInstanceAs (TpmLocated TpmsAuthCommand)
  | .tpmsAuthResponse => inferInstanceAs (TpmLocated TpmsAuthResponse)
  | .tpmsClockInfo => inferInstanceAs (TpmLocated TpmsClockInfo)
  | .tpmsContext => inferInstanceAs (TpmLocated TpmsContext)
  | .tpmsCreationData => inferInstanceAs (TpmLocated TpmsCreationData)
  | .tpmsEccPoint => inferInstanceAs (TpmLocated TpmsEccPoint)
  | .tpmsEmpty => inferInstanceAs (TpmLocated TpmsEmpty)
  | .tpmsKeyedhashParms => inferInstanceAs (TpmLocated TpmsKeyedhashParms)
  | .tpmsNvPublic => inferInstanceAs (TpmLocated TpmsNvPublic)
  | .tpmsNvPublicExpAttr => inferInstanceAs (TpmLocated TpmsNvPublicExpAttr)
  | .tpmsSensitiveCreate => inferInstanceAs (TpmLocated TpmsSensitiveCreate)
  | .tpmsIdObject => inferInstanceAs (TpmLocated TpmsIdObject)
  | .tpmsSymcipherParms => inferInstanceAs (TpmLocated TpmsSymcipherParms)
  | .tpmsTaggedProperty => inferInstanceAs (TpmLocated TpmsTaggedProperty)
  | .tpmsTaggedPolicy => inferInstanceAs (TpmLocated TpmsTaggedPolicy)
  | .tpmsTimeInfo => inferInstanceAs (TpmLocated TpmsTimeInfo)
  | .tpmsSignatureRsa => inferInstanceAs (TpmLocated TpmsSignatureRsa)
  | .tpmsSignatureEcc => inferInstanceAs (TpmLocated TpmsSignatureEcc)
  | .tpmsTimeAttestInfo => inferInstanceAs (TpmLocated TpmsTimeAttestInfo)
  | .tpmsCertifyInfo => inferInstanceAs (TpmLocated TpmsCertifyInfo)
  | .tpmsQuoteInfo => inferInstanceAs (TpmLocated TpmsQuoteInfo)
  | .tpmsCommandAuditInfo => inferInstanceAs (TpmLocated TpmsCommandAuditInfo)
  | .tpmsSessionAuditInfo => inferInstanceAs (TpmLocated TpmsSessionAuditInfo)
  | .tpmsCreationInfo => inferInstanceAs (TpmLocated TpmsCreationInfo)
  | .tpmsNvCertifyInfo => inferInstanceAs (TpmLocated TpmsNvCertifyInfo)
  | .tpmsNvDigestCertifyInfo => inferInstanceAs (TpmLocated TpmsNvDigestCertifyInfo)
  | .tpmsAlgorithmDetailEcc => inferInstanceAs (TpmLocated TpmsAlgorithmDetailEcc)
  | .tpmsSchemeHash => inferInstanceAs (TpmLocated TpmsSchemeHash)
  | .tpmsSchemeXor => inferInstanceAs (TpmLocated TpmsSchemeXor)
  | .tpmsRsaParms => inferInstanceAs (TpmLocated TpmsRsaParms)
  | .tpmsEccParms => inferInstanceAs (TpmLocated TpmsEccParms)
  | .tpmtTkCreation => inferInstanceAs (TpmLocated TpmtTkCreation)
  | .tpmtTkVerified => inferInstanceAs (TpmLocated TpmtTkVerified)
  | .tpmtTkAuth => inferInstanceAs (TpmLocated TpmtTkAuth)
  | .tpmtTkHashcheck => inferInstanceAs (TpmLocated TpmtTkHashcheck)
  | .tpmtPublicParms => inferInstanceAs (TpmLocated TpmtPublicParms)
  | .tpmtKdfScheme => inferInstanceAs (TpmLocated TpmtKdfScheme)
  | .tpmtRsaDecrypt => inferInstanceAs (TpmLocated TpmtRsaDecrypt)
  | .tpmtNvPublic2 => inferInstanceAs (TpmLocated TpmtNvPublic2)
  | .tpmtHa => inferInstanceAs (TpmLocated TpmtHa)
  | .tpmtSignature => inferInstanceAs (TpmLocated TpmtSignature)
  | .tpmtKeyedhashScheme => inferInstanceAs (TpmLocated TpmtKeyedhashScheme)
  | .tpmtSigScheme => inferInstanceAs (TpmLocated TpmtSigScheme)
  | .tpmtRsaScheme => inferInstanceAs (TpmLocated TpmtRsaScheme)
  | .tpmtEccScheme => inferInstanceAs (TpmLocated TpmtEccScheme)
  | .tpmtSymDef => inferInstanceAs (TpmLocated TpmtSymDef)
  | .tpmtPublic => inferInstanceAs (TpmLocated TpmtPublic)
  | .tpmsAttest => inferInstanceAs (TpmLocated TpmsAttest)
  | .tpm2bPublic => inferInstanceAs (TpmLocated Tpm2bPublic)
  | .tpm2bSensitiveCreate => inferInstanceAs (TpmLocated Tpm2bSensitiveCreate)
  | .tpm2bCreationData => inferInstanceAs (TpmLocated Tpm2bCreationData)
  | .tpm2bAttest => inferInstanceAs (TpmLocated Tpm2bAttest)
  | .tpm2bNvPublic => inferInstanceAs (TpmLocated Tpm2bNvPublic)
  | .tpm2bIdObject => inferInstanceAs (TpmLocated Tpm2bIdObject)
  | .tpm2bEccPoint => inferInstanceAs (TpmLocated Tpm2bEccPoint)
  | .tpm2bNvPublic2 => inferInstanceAs (TpmLocated Tpm2bNvPublic2)

instance OwnedType.failures : (t : OwnedType) → TpmLocated t.Carrier
  | .tpmtSensitive => inferInstanceAs (TpmLocated TpmtSensitive)
  | .tpmsCapabilityData => inferInstanceAs (TpmLocated TpmsCapabilityData)
  | .tpm2bSensitive => inferInstanceAs (TpmLocated Tpm2bSensitive)

instance DataType.failures {viewed : Bool} : (t : DataType viewed) → TpmLocated t.Carrier
  | .viewed t => t.failures
  | .owned t => t.failures
  | .buffer capacity => inferInstanceAs (TpmLocated (TpmBuffer capacity))
  | .list item capacity =>
      letI := item.failures
      inferInstanceAs (TpmLocated (TpmList item.Carrier capacity))

/-- Which components of an input fail, on which path, and with which error. -/
def DataType.FailsAt {viewed : Bool} (t : DataType viewed) : Failures TpmError :=
  (TpmLocated.located (α := t.Carrier)).FailsAt

theorem ViewedType.furthest_le (t : ViewedType) : furthest t.Carrier ≤ usizeMax := by
  cases t <;> decide +kernel

theorem OwnedType.furthest_le (t : OwnedType) : furthest t.Carrier ≤ usizeMax := by
  cases t <;> decide +kernel

/-- No sum of offsets overflows. -/
theorem DataType.furthest_le {viewed : Bool} (t : DataType viewed) :
    furthest t.Carrier ≤ usizeMax := by
  induction t with
  | viewed t => exact t.furthest_le
  | owned t => exact t.furthest_le
  | buffer capacity => exact (by decide : 2 ≤ usizeMax)
  | list item capacity ih => exact ih

/-- The error of a failing component, at any depth, is reported where it arose exactly when every
composite on the way to the component moves its errors or starts with it. -/
theorem unmarshal_offset_iff {viewed : Bool} (t : DataType viewed) {b : Bytes}
    {path : List Descent} {e : TpmError} (failed : t.FailsAt b path e) :
    (∃ e', (unmarshal b : TpmResult (t.Carrier × Bytes)) = .error e' ∧
      e'.offset = position path + e.offset) ↔ ∀ step ∈ path, step.Kept := by
  have reported := located.reports t.furthest_le failed
  show ReportsAt _ (position path + e.offset) ↔ _
  rw [reported.iff_eq, ← added_eq_position]
  exact Nat.add_right_cancel_iff

/-- A list of one property whose value is cut: the structure counts its tag, the list does not count
its length. -/
theorem unmarshal_offset_iff_property :
    (∃ e', (unmarshal [0, 0, 0, 1, 0, 0, 1, 0] : TpmResult (TpmlTaggedTpmProperty × Bytes)) =
      .error e' ∧ e'.offset = 8) ↔
        ∀ step ∈ [(⟨4, false⟩ : Descent), ⟨4, true⟩], step.Kept :=
  unmarshal_offset_iff (.list (.viewed .tpmsTaggedProperty) 64)
    (e := .unexpectedEnd 0 4 0)
    (Or.inr ⟨4, _, rfl, Or.inr ⟨.new 1, [0, 0, 1, 0], 0, rfl, Or.inr ⟨by decide, Or.inl ⟨rfl,
      Or.inr ⟨4, [], rfl, Or.inr ⟨.familyIndicator, [], 0, rfl, Or.inl ⟨rfl, rfl, rfl⟩, rfl⟩⟩⟩⟩,
        rfl⟩⟩)

/-- A public area that ends after its type: the second tag is missing at byte 2, and the error says
byte 0. -/
theorem not_unmarshal_offset : ¬ ∀ {viewed : Bool} (t : DataType viewed) (b : Bytes)
    (path : List Descent) (e : TpmError), t.FailsAt b path e →
      ∃ e', (unmarshal b : TpmResult (t.Carrier × Bytes)) = .error e' ∧
        e'.offset = position path + e.offset := by
  intro reports
  obtain ⟨e', failed, offset⟩ := reports (.viewed .tpmtPublic) [0, 1] [⟨2, false⟩]
    (.unexpectedEnd 0 2 0)
    (Or.inr ⟨2, [], rfl, Or.inr ⟨.rsa, [], 0, rfl, Or.inl ⟨rfl, rfl, rfl⟩, rfl⟩⟩)
  cases failed
  cases offset

end Tpm2
