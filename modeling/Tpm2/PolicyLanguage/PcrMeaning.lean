import Tpm2.PolicyLanguage.Binding
import Tpm2.PolicyLanguage.PcrText

/-! What PCR selections mean: the bits of their bitmaps, and the digest of the values that they
select. -/

namespace Tpm2

open ByteCodec Text

namespace PcrBankText

/-- The PCRs that the text of a bank lists. -/
def numbers (bank : PcrBankText) : List Nat := bank.indices.filterMap (ofDigits 10)

variable {bank : PcrBankText} {context : TpmPolicyContext} {selection : TpmsPcrSelection}

theorem numbers_ne_nil (bank : PcrBankText) : bank.numbers ≠ [] := by
  obtain ⟨index, listed⟩ := List.exists_mem_of_ne_nil _ bank.nonempty
  obtain ⟨n, read⟩ := exists_ofDigits (bank.digits index listed).1
  exact List.ne_nil_of_mem (List.mem_filterMap.mpr ⟨index, listed, read⟩)

/-- The numbers read from texts of digits are theirs, if they are in range. -/
theorem forall₂_fromStrRadix {bound : Nat} {indices : List (List Char)} {read : List Nat}
    (digits : ∀ index ∈ indices, Digits 10 index ∧ index ≠ []) :
    List.Forall₂ (fun index n => fromStrRadix bound 10 index = some n) indices read ↔
      read = indices.filterMap (ofDigits 10) ∧ ∀ n ∈ read, n < bound := by
  induction indices generalizing read with
  | nil =>
      simp only [List.forall₂_nil_left_iff, List.filterMap_nil]
      exact ⟨fun none => ⟨none, by simp [none]⟩, fun both => both.1⟩
  | cons index indices ih =>
      rw [List.forall_mem_cons] at digits
      obtain ⟨n, value⟩ := exists_ofDigits digits.1.1
      rw [List.filterMap_cons_some value]
      simp only [List.forall₂_cons_left_iff, ih digits.2, fromStrRadix_of_digits digits.1.1
        digits.1.2, value, Option.some.injEq]
      constructor
      · rintro ⟨_, rest, ⟨rfl, below⟩, ⟨rfl, others⟩, rfl⟩
        exact ⟨rfl, List.forall_mem_cons.mpr ⟨below, others⟩⟩
      · rintro ⟨rfl, below⟩
        rw [List.forall_mem_cons] at below
        exact ⟨n, _, ⟨rfl, below.1⟩, ⟨rfl, below.2⟩, rfl⟩

/-- The selection has a bit for each PCR that the bank lists and no other, in the bytes that the
PCRs of the context need. -/
structure Selects (context : TpmPolicyContext) (bank : PcrBankText) (selection : TpmsPcrSelection) :
    Prop where
  available : ∃ pcrs, context.pcrs.lookup bank.alg.toAlgId = some pcrs
  known : ∀ i ∈ bank.numbers, i < context.pcrCount
  hash : selection.hash = bank.alg.toAlgId
  size : selection.pcrSelect.data.length = (context.pcrCount + 7) / 8
  bits : ∀ i, pcrSelected selection.pcrSelect.data i = true ↔ i ∈ bank.numbers

theorem denotes_iff : bank.Denotes context selection ↔ bank.Selects context selection := by
  simp only [Denotes, forall₂_fromStrRadix bank.digits, selectPcrs_eq_ok]
  have unset : (List.replicate context.pcrSelectSize (0 : UInt8)).length =
      (context.pcrCount + 7) / 8 := by rw [List.length_replicate]; rfl
  have inside (known : ∀ i ∈ bank.numbers, i < context.pcrCount) : ∀ i ∈ bank.numbers,
      i < 8 * (List.replicate context.pcrSelectSize (0 : UInt8)).length := by
    intro i mem
    have := known i mem
    omega
  constructor
  · rintro ⟨available, _, ⟨rfl, -⟩, known, hash, data⟩
    refine ⟨available, known, hash, by rw [data, length_foldl_setPcrBit, unset], fun i => ?_⟩
    have listed := pcrSelected_foldl (inside known) i
    rw [pcrSelected_zeros, Bool.false_or] at listed
    rw [data]
    show pcrSelected (bank.numbers.foldl setPcrBit _) i = true ↔ _
    rw [listed, decide_eq_true_eq]
  · rintro ⟨available, known, hash, size, bits⟩
    have short : selection.pcrSelect.data.length ≤ 4 := selection.pcrSelect.length_le
    refine ⟨available, _, ⟨rfl, fun i mem => ?_⟩, known, hash, ?_⟩
    · have := known i mem
      omega
    · apply eq_of_pcrSelected
      · rw [length_foldl_setPcrBit, unset, size]
      · intro i _
        have listed := pcrSelected_foldl (inside known) i
        rw [pcrSelected_zeros, Bool.false_or] at listed
        show _ = pcrSelected (bank.numbers.foldl setPcrBit _) i
        rw [listed, Bool.eq_iff_iff, bits, decide_eq_true_eq]

theorem text_injective : Function.Injective PcrBankText.text := by
  intro bank other same
  have split := bank.splitOnce_text
  rw [same, other.splitOnce_text, Option.some.injEq, Prod.mk.injEq] at split
  have alg : some bank.alg = some other.alg := by
    rw [← TpmHash.fromStr_eq_some.mpr rfl, ← split.1, TpmHash.fromStr_eq_some.mpr rfl]
  have indices : bank.indices = other.indices := by
    rw [← bank.splitOn_indices, ← split.2, other.splitOn_indices]
  cases bank
  cases other
  cases alg
  cases indices
  rfl

end PcrBankText

theorem pcrBanksText_ne_nil {banks : List PcrBankText} (nonempty : banks ≠ []) :
    pcrBanksText banks ≠ [] := by
  intro none
  have count := count_pcrBanksText nonempty
  rw [none] at count
  cases count

/-- The text of banks is read if and only if there is room for them and each is available and has
known PCRs only; the selections that are read then have exactly the bits listed. -/
theorem parseTpmlPcrSelectionStr_banks {context : TpmPolicyContext} {banks : List PcrBankText}
    {selections : TpmlPcrSelection} :
    parseTpmlPcrSelectionStr context (pcrBanksText banks) = .ok selections ↔
      banks ≠ [] ∧ context.pcrSelectSize ≤ tpmPcrSelectMax ∧
        List.Forall₂ (PcrBankText.Selects context) banks selections.items := by
  have denotes : PcrBankText.Selects context = PcrBankText.Denotes context := by
    funext bank selection
    exact propext PcrBankText.denotes_iff.symm
  rw [parseTpmlPcrSelectionStr_eq_ok, denotes]
  constructor
  · rintro ⟨fits, banks', nonempty', same, all⟩
    have nonempty : banks ≠ [] := by
      rintro rfl
      exact pcrBanksText_ne_nil nonempty' same
    have parts := splitOn_pcrBanksText nonempty
    rw [← same, splitOn_pcrBanksText nonempty'] at parts
    obtain rfl := List.map_injective_iff.mpr PcrBankText.text_injective parts
    exact ⟨nonempty, fits, all⟩
  · rintro ⟨nonempty, fits, all⟩
    exact ⟨fits, banks, nonempty, rfl, all⟩

/-! ### The digest of the selected values -/

/-- The value that a context holds for a PCR. -/
def TpmPolicyContext.pcrValue (context : TpmPolicyContext) (hash : TpmAlgId) (i : Nat) :
    Option Tpm2bDigest :=
  (context.pcrs.lookup hash).bind fun bank => bank.lookup (UInt32.ofNat i)

/-- The values of the PCRs that a bank lists, in ascending order of the PCRs. -/
def PcrBankText.values (context : TpmPolicyContext) (pcrCount : Nat) (bank : PcrBankText) : Bytes :=
  ((List.range pcrCount).filter (· ∈ bank.numbers)).flatMap fun i =>
    ((context.pcrValue bank.alg.toAlgId i).map TpmBuffer.bytes).getD []

/-- Every bank holds a value for every PCR that is listed for it. -/
def TpmPolicyContext.HoldsValues (context : TpmPolicyContext) (banks : List PcrBankText) : Prop :=
  ∀ bank ∈ banks, ∀ i ∈ bank.numbers, (context.pcrValue bank.alg.toAlgId i).isSome

instance (context : TpmPolicyContext) (banks : List PcrBankText) :
    Decidable (context.HoldsValues banks) :=
  inferInstanceAs (Decidable (∀ bank ∈ banks, ∀ i ∈ bank.numbers, _))

section
variable {context context' : TpmPolicyContext} {bank : PcrBankText} {selection : TpmsPcrSelection}

/-- The PCRs of the bitmap are the listed ones, each once and in ascending order. -/
theorem PcrBankText.Selects.pcrIndices_eq (selects : bank.Selects context selection) :
    pcrIndices selection.pcrSelect.data =
      ((List.range context.pcrCount).filter (· ∈ bank.numbers)).map UInt32.ofNat := by
  have short : selection.pcrSelect.data.length ≤ 4 := selection.pcrSelect.length_le
  have size := selects.size
  have toNat {i : Nat} (below : i < context.pcrCount) : (UInt32.ofNat i).toNat = i :=
    UInt32.toNat_ofNat_of_lt' (by rw [UInt32.size]; omega)
  apply (pcrIndices_pairwise selection.pcrSelect.length_le).eq_of_mem_iff
  · rw [List.pairwise_map]
    apply (List.pairwise_lt_range.filter _).imp_of_mem
    intro i j mem mem' order
    have below := List.mem_range.mp (List.mem_filter.mp mem).1
    have below' := List.mem_range.mp (List.mem_filter.mp mem').1
    rwa [UInt32.lt_iff_toNat_lt, toNat below, toNat below']
  · intro pcrIndex
    rw [mem_pcrIndices selection.pcrSelect.length_le, selects.bits, List.mem_map]
    simp only [List.mem_filter, List.mem_range, decide_eq_true_eq]
    constructor
    · rintro ⟨-, listed⟩
      exact ⟨pcrIndex.toNat, ⟨selects.known _ listed, listed⟩, UInt32.ofNat_toNat⟩
    · rintro ⟨i, ⟨below, listed⟩, rfl⟩
      rw [toNat below]
      exact ⟨by omega, listed⟩

theorem mapM_map_ok {ε α β γ : Type} {f : β → Except ε γ} {write : α → β} (g : α → γ) {l : List α}
    (all : ∀ a ∈ l, f (write a) = .ok (g a)) : (l.map write).mapM f = .ok (l.map g) := by
  induction l with
  | nil => rfl
  | cons a l ih =>
      rw [List.forall_mem_cons] at all
      rw [List.map_cons, List.mapM_cons, all.1, ih all.2]
      rfl

theorem PcrBankText.Selects.selectedValues_eq (selects : bank.Selects context selection)
    (holds : ∀ i ∈ bank.numbers, (context'.pcrValue bank.alg.toAlgId i).isSome) :
    selectedValues context' selection = .ok (bank.values context' context.pcrCount) := by
  obtain ⟨first, listed⟩ := List.exists_mem_of_ne_nil _ bank.numbers_ne_nil
  obtain ⟨digest, held⟩ := Option.isSome_iff_exists.mp (holds first listed)
  obtain ⟨pcrs, available, -⟩ := Option.bind_eq_some_iff.mp held
  have value (i : Nat) : context'.pcrValue bank.alg.toAlgId i = pcrs.lookup (UInt32.ofNat i) := by
    rw [TpmPolicyContext.pcrValue, available, Option.bind_some]
  rw [selectedValues, selects.hash, available]
  simp only [selects.pcrIndices_eq]
  refine bind_eq_ok.mpr ⟨_, mapM_map_ok (fun i => ((context'.pcrValue bank.alg.toAlgId i).map
    TpmBuffer.bytes).getD []) fun i listed => ?_, ?_⟩
  · obtain ⟨digest, held⟩ := Option.isSome_iff_exists.mp (holds i (by
      simpa using (List.mem_filter.mp listed).2))
    rw [held]
    rw [value] at held
    rw [held]
    rfl
  · rw [PcrBankText.values, List.flatMap]
    rfl

/-- The data that a leaf without a digest hashes. -/
theorem mapM_selectedValues {banks : List PcrBankText} {items : List TpmsPcrSelection}
    (selects : List.Forall₂ (PcrBankText.Selects context) banks items)
    (holds : context'.HoldsValues banks) :
    items.mapM (selectedValues context') =
      .ok (banks.map (PcrBankText.values context' context.pcrCount)) := by
  induction selects with
  | nil => rfl
  | cons first _ ih =>
      rw [TpmPolicyContext.HoldsValues, List.forall_mem_cons] at holds
      rw [List.mapM_cons, first.selectedValues_eq holds.1, ih holds.2]
      rfl

/-- The digest that is found for a leaf without one is that of the values. -/
theorem resolvePcrDigest_values {crypto : Libcrypto} {session : TpmPolicySession}
    {banks : List PcrBankText} {selections : TpmlPcrSelection} {digest : Tpm2bDigest}
    (selects : List.Forall₂ (PcrBankText.Selects context) banks selections.items)
    (holds : context'.HoldsValues banks)
    (hashed : crypto.hash session.hashAlg
      (banks.flatMap (PcrBankText.values context' context.pcrCount)) = .ok digest.bytes) :
    resolvePcrDigest crypto session context' selections none = .ok digest := by
  refine bind_eq_ok.mpr ⟨_, mapM_selectedValues selects holds, ?_⟩
  apply TpmPolicySession.hashChunks_eq_ok.mpr
  rwa [List.flatten_singleton, ← List.flatMap_def]

open TpmPolicyExpression in
theorem compileWalkPcr_values {crypto : Libcrypto} {c : Compilation}
    {banks : List PcrBankText} {selections : TpmlPcrSelection} {digest : Tpm2bDigest}
    (selects : List.Forall₂ (PcrBankText.Selects context) banks selections.items)
    (holds : context'.HoldsValues banks)
    (hashed : crypto.hash c.softwareSession.hashAlg
      (banks.flatMap (PcrBankText.values context' context.pcrCount)) = .ok digest.bytes) :
    compileWalkPcr crypto context' selections none c =
      compileWalkPcr crypto context' selections (some digest) c := by
  rw [compileWalkPcr, compileWalkPcr, resolvePcrDigest_values selects holds hashed]
  rfl

end

/-- PCR selections mean what they say. The text of a list of banks is read if and only if there is
room for it, every bank is available and every PCR known; the bitmap of each bank then has
`ceil(pcr_count / 8)` bytes and exactly the bits listed. A leaf with these selections and no
digest compiles to the same commands and digest as one with the digest of the values that the
banks of the context hold for the listed PCRs, banks in order and PCRs ascending. -/
theorem pcr_selections_meaning (crypto : Libcrypto) (context : TpmPolicyContext)
    (banks : List PcrBankText) :
    (∀ selections, parseTpmlPcrSelectionStr context (pcrBanksText banks) = .ok selections ↔
      banks ≠ [] ∧ context.pcrSelectSize ≤ tpmPcrSelectMax ∧
        List.Forall₂ (PcrBankText.Selects context) banks selections.items) ∧
    ∀ selections, parseTpmlPcrSelectionStr context (pcrBanksText banks) = .ok selections →
      ∀ (context' : TpmPolicyContext) (sessionHashAlg : TpmAlgId) (alg : TpmHash)
        (digest : Tpm2bDigest), context'.HoldsValues banks →
        TpmHash.tryFrom sessionHashAlg = .ok alg →
        crypto.hash alg (banks.flatMap (PcrBankText.values context' context.pcrCount)) =
          .ok digest.bytes →
        (TpmPolicyExpression.pcr selections none).compile crypto sessionHashAlg context' =
          (TpmPolicyExpression.pcr selections (some digest)).compile crypto sessionHashAlg
            context' := by
  refine ⟨fun selections => parseTpmlPcrSelectionStr_banks, ?_⟩
  intro selections read context' sessionHashAlg alg digest holds valid hashed
  obtain ⟨-, -, selects⟩ := parseTpmlPcrSelectionStr_banks.mp read
  rw [TpmPolicyExpression.compile, TpmPolicyExpression.compile]
  cases started : TpmPolicySession.new crypto sessionHashAlg with
  | error e => rfl
  | ok session =>
      have ready := TpmPolicySession.new_ready valid started
      have walk : (TpmPolicyExpression.pcr selections none).compileWalk crypto context'
          ⟨[], session⟩ = (TpmPolicyExpression.pcr selections (some digest)).compileWalk crypto
          context' ⟨[], session⟩ := by
        simp only [TpmPolicyExpression.compileWalk]
        apply compileWalkPcr_values selects holds
        rwa [ready.hashAlg]
      simp only [bind, Except.bind, walk]

/-! ### Two PCRs of one bank -/

/-- `sha256:1,0`. -/
def twoPcrsText : PcrBankText where
  alg := .sha256
  indices := [['1'], ['0']]
  nonempty := by decide
  digits := by decide

/-- A bank of two PCRs: 32 bytes 0 and 32 bytes 1. -/
def twoPcrsContext : TpmPolicyContext where
  names := ∅
  pcrs := AList.insert .sha256
    (AList.insert 0 ⟨toBytes 32 0, by decide, by decide⟩
      (AList.insert 1 ⟨List.replicate 32 1, by decide, by decide⟩ ∅)) ∅
  pcrCount := 2

/-- SHA-256 of the two values, and of the policy that is extended with it. -/
def twoPcrsDigests : List (Bytes × Nat) :=
  let values := 0x5c85955f709283ecce2b74f1b1552918819f390911816e7bb466805a38ab87f3
  [(List.replicate 32 0 ++ List.replicate 32 1, values),
   (toBytes 32 0 ++ ccBytes .policyPcr ++ toBytes 8 0x1000b0103 ++ toBytes 32 values,
    0xbeba01279fcdd11a911b38f88efe255902f15eb332f947286370813b5037c576)]

/-- Libcrypto, as far as the two PCRs need it. -/
def twoPcrsCrypto : Libcrypto where
  size := TpmPolicyExpression.sampleCrypto.size
  hash alg data := .ok (toBytes (TpmPolicyExpression.sampleCrypto.size alg)
    ((twoPcrsDigests.lookup data).getD 0))
  length_hash ok := by
    cases ok
    exact length_toBytes ..

def twoPcrsSelections : TpmlPcrSelection := ⟨[⟨.sha256, ⟨[3], by decide⟩⟩], by decide⟩

def twoPcrsDigest : Tpm2bDigest :=
  ⟨toBytes 32 0x5c85955f709283ecce2b74f1b1552918819f390911816e7bb466805a38ab87f3,
    by rw [length_toBytes]; decide, by rw [length_toBytes]; decide⟩

theorem pcr_selections_meaning_twoPcrs :
    parseTpmlPcrSelectionStr twoPcrsContext (pcrBanksText [twoPcrsText]) = .ok twoPcrsSelections ∧
      (TpmPolicyExpression.pcr twoPcrsSelections none).compile twoPcrsCrypto .sha256
          twoPcrsContext =
        (TpmPolicyExpression.pcr twoPcrsSelections (some twoPcrsDigest)).compile twoPcrsCrypto
          .sha256 twoPcrsContext := by
  have read : parseTpmlPcrSelectionStr twoPcrsContext (pcrBanksText [twoPcrsText]) =
      .ok twoPcrsSelections := rfl
  have holds : twoPcrsContext.HoldsValues [twoPcrsText] := by decide
  have hashed : twoPcrsCrypto.hash .sha256
      ([twoPcrsText].flatMap (PcrBankText.values twoPcrsContext twoPcrsContext.pcrCount)) =
        .ok twoPcrsDigest.bytes := by
    decide +kernel
  exact ⟨read, (pcr_selections_meaning twoPcrsCrypto twoPcrsContext [twoPcrsText]).2 _ read
    twoPcrsContext .sha256 .sha256 twoPcrsDigest holds rfl hashed⟩

end Tpm2
