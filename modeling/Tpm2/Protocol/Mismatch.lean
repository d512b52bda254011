import Tpm2.Protocol.DataType

/-! Tags beside payloads that they do not select: the mismatches that marshalling compares and
refuses, and those that it does not look for. Together they are all that can keep a tagged structure
from being well formed. -/

namespace Tpm2

/-- The mismatches in the values of a type. Marshalling refuses a value with a checked one; a value
without any is well formed. -/
structure Mismatches (α : Type) [TpmSpec α] (Checked Unchecked : α → Prop) : Prop where
  writable : ∀ v, Writable v ↔ ¬ Checked v
  wellFormed : ∀ v, WellFormed v ↔ ¬ Checked v ∧ ¬ Unchecked v

namespace Mismatches

section
variable {α : Type} [TpmSpec α] {Checked Unchecked : α → Prop}

theorem writable_imp_wellFormed_iff (mismatches : Mismatches α Checked Unchecked) (v : α) :
    (Writable v → WellFormed v) ↔ (Unchecked v → Checked v) := by
  rw [mismatches.writable, mismatches.wellFormed]
  tauto

/-- A type whose values hold no tag. -/
theorem of_plain (plain : ∀ v : α, Writable v ∧ WellFormed v) :
    Mismatches α (fun _ => False) fun _ => False where
  writable v := iff_of_true (plain v).1 id
  wellFormed v := iff_of_true (plain v).2 ⟨id, id⟩

end

end Mismatches

section
variable {S Tag U : Type} [TpmStructTagged S Tag U] [TpmUnmarshalTagged U Tag]

/-- The payload is not the variant that the tag next to it selects. `tpm_struct_tagged!` compares
them before it writes. -/
def TpmStructTagged.WrongPayload (s : S) : Prop := ¬ matchesTag (toPair s).2 (toPair s).1

open TpmStructTagged (WrongPayload)

variable [TpmSpec Tag] [TpmSpec U]

theorem Mismatches.tagged {Checked Unchecked : U → Prop}
    (payload : Mismatches U Checked Unchecked) :
    Mismatches S (fun s => WrongPayload s ∨ Checked (TpmStructTagged.toPair s).2)
      fun s => Unchecked (TpmStructTagged.toPair s).2 where
  writable s := by
    rw [not_or, ← payload.writable, WrongPayload, not_not]
    rfl
  wellFormed s := by
    rw [not_or, and_assoc, ← payload.wellFormed, WrongPayload, not_not]
    rfl

/-- A tag next to a payload that holds no tag itself. -/
theorem Mismatches.tagged_plain (plain : ∀ u : U, Writable u ∧ WellFormed u) :
    Mismatches S WrongPayload fun _ => False where
  writable s := ((of_plain plain).tagged.writable s).trans (by rw [or_false])
  wellFormed s := ((of_plain plain).tagged.wellFormed s).trans (by rw [or_false])

end

open TpmStructTagged (WrongPayload)

theorem TpmtKdfScheme.mismatches : Mismatches TpmtKdfScheme WrongPayload fun _ => False :=
  .tagged_plain fun details => by cases details <;> trivial

theorem TpmtRsaScheme.mismatches : Mismatches TpmtRsaScheme WrongPayload fun _ => False :=
  .tagged_plain fun details => by cases details <;> trivial

theorem TpmtRsaDecrypt.mismatches : Mismatches TpmtRsaDecrypt WrongPayload fun _ => False :=
  .tagged_plain fun details => by cases details <;> trivial

theorem TpmtEccScheme.mismatches : Mismatches TpmtEccScheme WrongPayload fun _ => False :=
  .tagged_plain fun details => by cases details <;> trivial

theorem TpmtSigScheme.mismatches : Mismatches TpmtSigScheme WrongPayload fun _ => False :=
  .tagged_plain fun details => by cases details <;> trivial

theorem TpmtNvPublic2.mismatches : Mismatches TpmtNvPublic2 WrongPayload fun _ => False :=
  .tagged_plain fun area => by cases area <;> trivial

theorem TpmtHa.mismatches : Mismatches TpmtHa WrongPayload fun _ => False :=
  .tagged_plain fun _ => ⟨trivial, trivial⟩

/-- The derivation of an exclusive-or scheme holds a tag of its own. -/
def TpmuKeyedhashScheme.CheckedMismatch : TpmuKeyedhashScheme → Prop
  | .xor v => WrongPayload v.kdf
  | .hmac _ | .null => False

theorem TpmuKeyedhashScheme.mismatches :
    Mismatches TpmuKeyedhashScheme CheckedMismatch fun _ => False where
  writable details := by
    cases details with
    | hmac v => exact iff_of_true ⟨trivial, trivial⟩ id
    | xor v => exact (and_iff_right trivial).trans ((and_iff_left trivial).trans
        (TpmtKdfScheme.mismatches.writable v.kdf))
    | null => exact iff_of_true trivial id
  wellFormed details := by
    cases details with
    | hmac v => exact iff_of_true ⟨trivial, trivial⟩ ⟨id, id⟩
    | xor v => exact (and_iff_right trivial).trans ((and_iff_left trivial).trans
        (TpmtKdfScheme.mismatches.wellFormed v.kdf))
    | null => exact iff_of_true trivial ⟨id, id⟩

theorem TpmtKeyedhashScheme.mismatches : Mismatches TpmtKeyedhashScheme
    (fun v => WrongPayload v ∨ v.details.CheckedMismatch) fun _ => False :=
  TpmuKeyedhashScheme.mismatches.tagged

/-- The digest of a keyed hash holds a tag of its own. -/
def TpmuSignature.CheckedMismatch : TpmuSignature → Prop
  | .hmac v => WrongPayload v
  | _ => False

theorem TpmuSignature.mismatches : Mismatches TpmuSignature CheckedMismatch fun _ => False where
  writable signature := by
    cases signature with
    | hmac v => exact TpmtHa.mismatches.writable v
    | _ => exact iff_of_true (by trivial) id
  wellFormed signature := by
    cases signature with
    | hmac v => exact TpmtHa.mismatches.wellFormed v
    | _ => exact iff_of_true (by trivial) ⟨id, id⟩

theorem TpmtSignature.mismatches : Mismatches TpmtSignature
    (fun v => WrongPayload v ∨ v.signature.CheckedMismatch) fun _ => False :=
  TpmuSignature.mismatches.tagged

namespace TpmtSymDef

/-- The null algorithm next to key bits or a mode: the algorithm is written alone. -/
def DropsFields (v : TpmtSymDef) : Prop :=
  v.algorithm = .null ∧ (v.keyBits, v.mode) ≠ (.null, .null)

/-- Another algorithm next to key bits or a mode that it does not select. -/
def WrongFields (v : TpmtSymDef) : Prop :=
  v.algorithm ≠ .null ∧ ¬ (matchesTag v.keyBits v.algorithm ∧ matchesTag v.mode v.algorithm)

theorem mismatches : Mismatches TpmtSymDef WrongFields DropsFields where
  writable v := by
    change v.algorithm = .null ∨ _ ↔ _
    rw [WrongFields, not_and_or, not_not, not_not]
  wellFormed v := by
    change Matches v.algorithm (v.keyBits, v.mode) ↔ _
    rw [Matches, WrongFields, DropsFields]
    by_cases null : v.algorithm = .null
    · rw [if_pos null, and_iff_right null, not_not]
      exact (and_iff_right fun wrong => wrong.1 null).symm
    · rw [if_neg null, and_iff_right null, not_not]
      exact (and_iff_left fun drops => null drops.1).symm

end TpmtSymDef

namespace TpmuPublicParms

/-- The mismatches of the parameters that marshalling checks: schemes and the fields of a symmetric
definition. -/
def CheckedMismatch : TpmuPublicParms → Prop
  | .keyedHash v => WrongPayload v.scheme ∨ v.scheme.details.CheckedMismatch
  | .symCipher v => v.sym.WrongFields
  | .rsa v => v.symmetric.WrongFields ∨ WrongPayload v.scheme
  | .ecc v => v.symmetric.WrongFields ∨ WrongPayload v.scheme ∨ WrongPayload v.kdf
  | .null => False

/-- The symmetric definition of the parameters loses its fields. -/
def DropsFields : TpmuPublicParms → Prop
  | .symCipher v => v.sym.DropsFields
  | .rsa v => v.symmetric.DropsFields
  | .ecc v => v.symmetric.DropsFields
  | .keyedHash _ | .null => False

theorem mismatches : Mismatches TpmuPublicParms CheckedMismatch DropsFields where
  writable parms := by
    cases parms with
    | keyedHash v =>
        exact (and_iff_left trivial).trans (TpmtKeyedhashScheme.mismatches.writable v.scheme)
    | symCipher v => exact (and_iff_left trivial).trans (TpmtSymDef.mismatches.writable v.sym)
    | rsa v =>
        have symmetric := TpmtSymDef.mismatches.writable v.symmetric
        have scheme := TpmtRsaScheme.mismatches.writable v.scheme
        change Writable v.symmetric ∧ Writable v.scheme ∧ True ∧ True ∧ True ↔ _
        rw [symmetric, scheme, CheckedMismatch]
        tauto
    | ecc v =>
        have symmetric := TpmtSymDef.mismatches.writable v.symmetric
        have scheme := TpmtEccScheme.mismatches.writable v.scheme
        have kdf := TpmtKdfScheme.mismatches.writable v.kdf
        change Writable v.symmetric ∧ Writable v.scheme ∧ True ∧ Writable v.kdf ∧ True ↔ _
        rw [symmetric, scheme, kdf, CheckedMismatch]
        tauto
    | null => exact iff_of_true trivial id
  wellFormed parms := by
    cases parms with
    | keyedHash v =>
        exact (and_iff_left trivial).trans (TpmtKeyedhashScheme.mismatches.wellFormed v.scheme)
    | symCipher v => exact (and_iff_left trivial).trans (TpmtSymDef.mismatches.wellFormed v.sym)
    | rsa v =>
        have symmetric := TpmtSymDef.mismatches.wellFormed v.symmetric
        have scheme := TpmtRsaScheme.mismatches.wellFormed v.scheme
        change WellFormed v.symmetric ∧ WellFormed v.scheme ∧ True ∧ True ∧ True ↔ _
        rw [symmetric, scheme, CheckedMismatch, DropsFields]
        tauto
    | ecc v =>
        have symmetric := TpmtSymDef.mismatches.wellFormed v.symmetric
        have scheme := TpmtEccScheme.mismatches.wellFormed v.scheme
        have kdf := TpmtKdfScheme.mismatches.wellFormed v.kdf
        change WellFormed v.symmetric ∧ WellFormed v.scheme ∧ True ∧ WellFormed v.kdf ∧ True ↔ _
        rw [symmetric, scheme, kdf, CheckedMismatch, DropsFields]
        tauto
    | null => exact iff_of_true trivial ⟨id, id⟩

end TpmuPublicParms

theorem TpmtPublicParms.mismatches : Mismatches TpmtPublicParms
    (fun v => WrongPayload v ∨ v.parameters.CheckedMismatch) fun v => v.parameters.DropsFields :=
  TpmuPublicParms.mismatches.tagged

theorem TpmtPublic.mismatches : Mismatches TpmtPublic
    (fun v => ¬ v.matchesType ∨ v.parameters.CheckedMismatch)
    fun v => v.parameters.DropsFields where
  writable v := by
    change v.matchesType ∧ Writable v.parameters ∧ Writable v.unique ↔ _
    rw [and_iff_left v.unique.plain.1, TpmuPublicParms.mismatches.writable]
    tauto
  wellFormed v := by
    change v.matchesType ∧ WellFormed v.parameters ∧ WellFormed v.unique ↔ _
    rw [and_iff_left v.unique.plain.2, TpmuPublicParms.mismatches.wellFormed]
    tauto

theorem TpmuSensitiveComposite.plain (v : TpmuSensitiveComposite) :
    Writable v ∧ WellFormed v := by
  cases v <;> trivial

theorem TpmtSensitive.mismatches : Mismatches TpmtSensitive
    (fun v => ¬ matchesTag v.sensitive v.sensitiveType) fun _ => False where
  writable v := by
    change matchesTag v.sensitive v.sensitiveType ∧ Writable v.sensitive ↔ _
    rw [and_iff_left v.sensitive.plain.1, not_not]
  wellFormed v := by
    change matchesTag v.sensitive v.sensitiveType ∧ WellFormed v.sensitive ↔ _
    rw [and_iff_left v.sensitive.plain.2, not_not, and_iff_left id]

theorem TpmList.plain {T : Type} {CAPACITY : Nat} [TpmSpec T]
    (plain : ∀ item : T, Writable item ∧ WellFormed item) (fits : CAPACITY ≤ u32Max)
    (v : TpmList T CAPACITY) : Writable v ∧ WellFormed v := by
  have few : v.items.length ≤ u32Max := Nat.le_trans v.length_le fits
  exact ⟨⟨few, fun item _ => (plain item).1⟩, few, fun item _ => (plain item).2⟩

theorem Mismatches.list {T : Type} {CAPACITY : Nat} [TpmSpec T] {Checked Unchecked : T → Prop}
    (items : Mismatches T Checked Unchecked) (fits : CAPACITY ≤ u32Max) :
    Mismatches (TpmList T CAPACITY) (fun v => ∃ item ∈ v.items, Checked item)
      fun v => ∃ item ∈ v.items, Unchecked item where
  writable v := by
    have few : v.items.length ≤ u32Max := Nat.le_trans v.length_le fits
    change v.items.length ≤ u32Max ∧ (∀ item ∈ v.items, Writable item) ↔ _
    simp only [few, true_and, items.writable, not_exists, not_and]
  wellFormed v := by
    have few : v.items.length ≤ u32Max := Nat.le_trans v.length_le fits
    change v.items.length ≤ u32Max ∧ (∀ item ∈ v.items, WellFormed item) ↔ _
    simp only [few, true_and, items.wellFormed, not_exists, not_and]
    exact forall₂_and

/-- The digest of a policy holds a tag. -/
theorem TpmsTaggedPolicy.mismatches :
    Mismatches TpmsTaggedPolicy (fun v => WrongPayload v.policyHash) fun _ => False where
  writable v := by
    change True ∧ Writable v.policyHash ∧ True ↔ _
    rw [true_and, and_true, TpmtHa.mismatches.writable]
  wellFormed v := by
    change True ∧ WellFormed v.policyHash ∧ True ↔ _
    rw [true_and, and_true, TpmtHa.mismatches.wellFormed]

theorem TpmlTaggedPolicy.mismatches : Mismatches TpmlTaggedPolicy
    (fun v => ∃ policy ∈ v.items, WrongPayload policy.policyHash)
    fun v => ∃ policy ∈ v.items, False :=
  TpmsTaggedPolicy.mismatches.list (by decide)

/-- The policies in a list of capabilities hold tags of their own. -/
def TpmuCapabilities.CheckedMismatch : TpmuCapabilities → Prop
  | .authPolicies v => ∃ policy ∈ v.items, WrongPayload policy.policyHash
  | _ => False

theorem TpmuCapabilities.plain {data : TpmuCapabilities}
    (other : ∀ policies, data ≠ .authPolicies policies) : Writable data ∧ WellFormed data := by
  cases data with
  | algs v => exact v.plain (fun _ => by trivial) (by decide)
  | handles v => exact v.plain (fun _ => by trivial) (by decide)
  | pcrs v => exact v.plain (fun _ => by trivial) (by decide)
  | commands v => exact v.plain (fun _ => by trivial) (by decide)
  | ppCommands v => exact v.plain (fun _ => by trivial) (by decide)
  | auditCommands v => exact v.plain (fun _ => by trivial) (by decide)
  | tpmProperties v => exact v.plain (fun _ => by trivial) (by decide)
  | eccCurves v => exact v.plain (fun _ => by trivial) (by decide)
  | act v => exact v.plain (fun _ => by trivial) (by decide)
  | authPolicies v => exact absurd rfl (other v)

theorem TpmuCapabilities.mismatches :
    Mismatches TpmuCapabilities CheckedMismatch fun _ => False where
  writable data := by
    cases data with
    | authPolicies v => exact TpmlTaggedPolicy.mismatches.writable v
    | _ => exact iff_of_true (plain fun _ same => by cases same).1 id
  wellFormed data := by
    cases data with
    | authPolicies v =>
        have unchecked : ¬ ∃ policy ∈ v.items, False := fun ⟨_, _, wrong⟩ => wrong
        have wellFormed := TpmlTaggedPolicy.mismatches.wellFormed v
        rw [and_iff_left unchecked] at wellFormed
        exact wellFormed.trans (and_iff_left id).symm
    | _ => exact iff_of_true (plain fun _ same => by cases same).2 ⟨id, id⟩

theorem TpmsCapabilityData.mismatches : Mismatches TpmsCapabilityData
    (fun v => v.data.CheckedMismatch) fun v => ¬ matchesTag v.data v.capability where
  writable v := TpmuCapabilities.mismatches.writable v.data
  wellFormed v := by
    change matchesTag v.data v.capability ∧ WellFormed v.data ↔ _
    rw [TpmuCapabilities.mismatches.wellFormed, and_iff_left id, not_not, and_comm]

theorem TpmuAttest.plain (v : TpmuAttest) : Writable v ∧ WellFormed v := by
  cases v with
  | quote v =>
      have pcrSelect := v.pcrSelect.plain (fun _ => by trivial) (by decide)
      exact ⟨⟨pcrSelect.1, trivial, trivial⟩, pcrSelect.2, trivial, trivial⟩
  | _ => trivial

theorem TpmsAttest.mismatches :
    Mismatches TpmsAttest (fun _ => False) fun v => ¬ matchesTag v.attested v.attestType where
  writable v := iff_of_true v.attested.plain.1 id
  wellFormed v := by
    change matchesTag v.attested v.attestType ∧ WellFormed v.attested ↔ _
    rw [and_iff_left v.attested.plain.2, not_not, and_iff_right id]

namespace TaggedType

/-- A mismatch that marshalling looks for, at any depth of the structure. -/
def CheckedMismatch : (t : TaggedType) → t.Carrier → Prop
  | .tpmtPublic, (v : TpmtPublic) => ¬ v.matchesType ∨ v.parameters.CheckedMismatch
  | .tpmtPublicParms, (v : TpmtPublicParms) => WrongPayload v ∨ v.parameters.CheckedMismatch
  | .tpmtSensitive, (v : TpmtSensitive) => ¬ matchesTag v.sensitive v.sensitiveType
  | .tpmtKeyedhashScheme, (v : TpmtKeyedhashScheme) => WrongPayload v ∨ v.details.CheckedMismatch
  | .tpmtSignature, (v : TpmtSignature) => WrongPayload v ∨ v.signature.CheckedMismatch
  | .tpmtSymDef, (v : TpmtSymDef) => v.WrongFields
  | .tpmtKdfScheme, (v : TpmtKdfScheme) => WrongPayload v
  | .tpmtRsaDecrypt, (v : TpmtRsaDecrypt) => WrongPayload v
  | .tpmtRsaScheme, (v : TpmtRsaScheme) => WrongPayload v
  | .tpmtEccScheme, (v : TpmtEccScheme) => WrongPayload v
  | .tpmtSigScheme, (v : TpmtSigScheme) => WrongPayload v
  | .tpmtNvPublic2, (v : TpmtNvPublic2) => WrongPayload v
  | .tpmtHa, (v : TpmtHa) => WrongPayload v
  | .tpmsCapabilityData, (v : TpmsCapabilityData) => v.data.CheckedMismatch
  | .tpmsAttest, _ => False

/-- A mismatch that marshalling does not look for: capabilities and attestations of another kind
than their tag says, and the fields of a symmetric definition, at any depth, whose algorithm is the
null one. -/
def UncheckedMismatch : (t : TaggedType) → t.Carrier → Prop
  | .tpmsCapabilityData, (v : TpmsCapabilityData) => ¬ matchesTag v.data v.capability
  | .tpmsAttest, (v : TpmsAttest) => ¬ matchesTag v.attested v.attestType
  | .tpmtSymDef, (v : TpmtSymDef) => v.DropsFields
  | .tpmtPublic, (v : TpmtPublic) => v.parameters.DropsFields
  | .tpmtPublicParms, (v : TpmtPublicParms) => v.parameters.DropsFields
  | _, _ => False

theorem mismatches :
    (t : TaggedType) → Mismatches t.Carrier t.CheckedMismatch t.UncheckedMismatch
  | .tpmtPublic => TpmtPublic.mismatches
  | .tpmtPublicParms => TpmtPublicParms.mismatches
  | .tpmtSensitive => TpmtSensitive.mismatches
  | .tpmtKeyedhashScheme => TpmtKeyedhashScheme.mismatches
  | .tpmtSignature => TpmtSignature.mismatches
  | .tpmtSymDef => TpmtSymDef.mismatches
  | .tpmtKdfScheme => TpmtKdfScheme.mismatches
  | .tpmtRsaDecrypt => TpmtRsaDecrypt.mismatches
  | .tpmtRsaScheme => TpmtRsaScheme.mismatches
  | .tpmtEccScheme => TpmtEccScheme.mismatches
  | .tpmtSigScheme => TpmtSigScheme.mismatches
  | .tpmtNvPublic2 => TpmtNvPublic2.mismatches
  | .tpmtHa => TpmtHa.mismatches
  | .tpmsCapabilityData => TpmsCapabilityData.mismatches
  | .tpmsAttest => TpmsAttest.mismatches

end TaggedType

end Tpm2
