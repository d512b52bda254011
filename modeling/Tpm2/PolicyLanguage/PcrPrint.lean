import Tpm2.PolicyLanguage.Display

/-! Printed `pcr` leaves: when they can be read again, and as what. -/

namespace Tpm2

open ByteCodec Text

section
variable {hex : Hex} {context : TpmPolicyContext}

/-- A selection that is printed as the text of a bank of the context. -/
structure TpmsPcrSelection.Readable (context : TpmPolicyContext) (tpms : TpmsPcrSelection) :
    Prop where
  bank : ∃ alg : TpmHash, tpms.hash = alg.toAlgId
  available : ∃ pcrs, context.pcrs.lookup tpms.hash = some pcrs
  nonempty : pcrIndices tpms.pcrSelect.data ≠ []
  known : ∀ pcrIndex ∈ pcrIndices tpms.pcrSelect.data, pcrIndex.toNat < context.pcrCount

/-- Its bitmap has the size that the context gives one. -/
def TpmsPcrSelection.Sized (context : TpmPolicyContext) (tpms : TpmsPcrSelection) : Prop :=
  tpms.pcrSelect.data.length = context.pcrSelectSize

/-- What is read from the text of a bank is readable, and of the right size. -/
theorem PcrBankText.Denotes.readable {bank : PcrBankText} {tpms : TpmsPcrSelection}
    (denotes : bank.Denotes context tpms) : tpms.Readable context ∧ tpms.Sized context := by
  obtain ⟨available, indices, values, selects⟩ := denotes
  obtain ⟨known, hash, data⟩ := selectPcrs_eq_ok.mp selects
  have listed := @mem_pcrIndices_selectPcrs _ _ _ _ selects
  have some : pcrIndices tpms.pcrSelect.data ≠ [] := by
    obtain ⟨index, others, first⟩ := List.exists_cons_of_ne_nil bank.nonempty
    rw [first] at values
    obtain ⟨n, rest, value, -, rfl⟩ := List.forall₂_cons_left_iff.mp values
    obtain ⟨-, -, -, -, fits⟩ := fromStrRadix_eq_some.mp value
    have toNat : (UInt32.ofNat n).toNat = n := UInt32.toNat_ofNat_of_lt' fits
    exact List.ne_nil_of_mem (listed.mpr (by rw [toNat]; exact List.mem_cons_self))
  refine ⟨⟨⟨bank.alg, hash⟩, hash ▸ available, some, ?_⟩, ?_⟩
  · intro pcrIndex mem
    exact known _ (listed.mp mem)
  · rw [TpmsPcrSelection.Sized, data, length_foldl_setPcrBit, List.length_replicate]

/-- The selection of the same PCRs in a bitmap of the context's size. -/
def TpmsPcrSelection.Resized (context : TpmPolicyContext) (tpms resized : TpmsPcrSelection) :
    Prop :=
  ∃ alg : TpmHash, tpms.hash = alg.toAlgId ∧
    selectPcrs context alg ((pcrIndices tpms.pcrSelect.data).map UInt32.toNat) = .ok resized

theorem TpmsPcrSelection.Resized.sized {tpms resized : TpmsPcrSelection}
    (resizes : tpms.Resized context resized) : resized.Sized context := by
  obtain ⟨alg, -, selects⟩ := resizes
  rw [TpmsPcrSelection.Sized, (selectPcrs_eq_ok.mp selects).2.2, length_foldl_setPcrBit,
    List.length_replicate]

theorem TpmsPcrSelection.Resized.unique :
    Relator.RightUnique (TpmsPcrSelection.Resized context) := by
  rintro tpms resized resized' ⟨alg, hash, selects⟩ ⟨alg', hash', selects'⟩
  obtain rfl : alg = alg' := by
    rw [← TpmHash.tryFrom_eq_ok] at hash hash'
    exact Except.ok.inj (hash.symm.trans hash')
  exact Except.ok.inj (selects.symm.trans selects')

theorem displayBank_eq_display {hash : TpmAlgId} {alg : TpmHash} :
    displayBank hash = alg.display ↔ hash = alg.toAlgId := by
  rw [← TpmHash.tryFrom_eq_ok, displayBank]
  cases named : TpmHash.tryFrom hash with
  | error e =>
      constructor
      · intro same
        have lead : ∀ alg : TpmHash, alg.display.head? ≠ some '0' := by
          intro alg
          cases alg <;> decide
        refine absurd ?_ (lead alg)
        rw [← same]
        rfl
      · intro ok
        cases ok
  | ok alg' =>
      constructor
      · intro (same : alg'.display = alg.display)
        have again := TpmHash.fromStr_eq_some.mpr same
        rw [TpmHash.fromStr_eq_some.mpr rfl] at again
        rw [Option.some.inj again]
      · intro ok
        rw [Except.ok.inj ok]

theorem splitOnce_displaySelection (tpms : TpmsPcrSelection) :
    splitOnce ':' (displaySelection tpms) =
      some (displayBank tpms.hash, [','].intercalate (pcrNumerals tpms)) :=
  splitOnce_eq_some.mpr ⟨rfl, not_mem_displayBank _ (by decide) (by decide)⟩

/-- The printed indices are read as themselves, if there are any. -/
theorem mapM_splitOn_pcrNumerals {tpms : TpmsPcrSelection} {indices : List Nat} :
    (([','].intercalate (pcrNumerals tpms)).splitOn ',').mapM (fromStrRadix (2 ^ 32) 10) =
        some indices ↔
      pcrIndices tpms.pcrSelect.data ≠ [] ∧
        indices = (pcrIndices tpms.pcrSelect.data).map UInt32.toNat := by
  by_cases none : pcrIndices tpms.pcrSelect.data = []
  · have numerals : pcrNumerals tpms = [] := by rw [pcrNumerals, none, List.map_nil]
    have fails : ([','].intercalate ([] : List (List Char))).splitOn ',' = [[]] := rfl
    rw [numerals, fails]
    simp [none, fromStrRadix]
  · have some : pcrNumerals tpms ≠ [] := by simpa [pcrNumerals] using none
    have read : (pcrNumerals tpms).mapM (fromStrRadix (2 ^ 32) 10) =
        Option.some ((pcrIndices tpms.pcrSelect.data).map UInt32.toNat) := by
      rw [mapM_eq_some, pcrNumerals, List.forall₂_map_left_iff, List.forall₂_map_right_iff,
        List.forall₂_same]
      intro pcrIndex _
      exact fromStrRadix_of_ofDigits Nat.toDigits_ne_nil
        (ofDigits_toDigits (by decide) (by decide) _) pcrIndex.toNat_lt
    rw [List.splitOn_intercalate ',' (not_mem_pcrNumerals (by decide)) some, read]
    simp [none, eq_comm]

/-- A printed selection is read if and only if it is readable, and resized then. -/
theorem parsePcrBank_displaySelection {tpms resized : TpmsPcrSelection} :
    parsePcrBank context (displaySelection tpms) = .ok resized ↔
      tpms.Readable context ∧ tpms.Resized context resized := by
  rw [parsePcrBank, splitOnce_displaySelection]
  constructor
  · intro ok
    cases named : TpmHash.fromStr (displayBank tpms.hash) with
    | none => simp only [named] at ok; cases ok
    | some alg =>
        simp only [named] at ok
        have hash := displayBank_eq_display.mp (TpmHash.fromStr_eq_some.mp named)
        cases available : context.pcrs.lookup alg.toAlgId with
        | none => rw [available] at ok; cases ok
        | some pcrs =>
            simp only [available] at ok
            cases read : (([','].intercalate (pcrNumerals tpms)).splitOn ',').mapM
                (fromStrRadix (2 ^ 32) 10) with
            | none => rw [read] at ok; cases ok
            | some indices =>
                simp only [read] at ok
                obtain ⟨nonempty, rfl⟩ := mapM_splitOn_pcrNumerals.mp read
                have known := (selectPcrs_eq_ok.mp ok).1
                exact ⟨⟨⟨alg, hash⟩, ⟨pcrs, hash ▸ available⟩, nonempty, by simpa using known⟩,
                  alg, hash, ok⟩
  · rintro ⟨⟨-, ⟨pcrs, available⟩, nonempty, -⟩, alg, hash, selects⟩
    have named := TpmHash.fromStr_eq_some.mpr (displayBank_eq_display.mpr hash)
    simp only [named, hash ▸ available, mapM_splitOn_pcrNumerals.mpr ⟨nonempty, rfl⟩]
    exact selects

theorem not_mem_displaySelection (tpms : TpmsPcrSelection) : '+' ∉ displaySelection tpms := by
  intro mem
  rcases List.mem_append.mp mem with inBank | inRest
  · exact not_mem_displayBank tpms.hash (by decide) (by decide) inBank
  · rcases List.mem_cons.mp inRest with colon | inIndices
    · exact absurd colon (by decide)
    · rcases mem_intercalate_cases inIndices with comma | ⟨numeral, listed, inNumeral⟩
      · exact absurd comma (by decide)
      · exact not_mem_pcrNumerals (by decide) numeral listed inNumeral

/-- The selections of a `pcr` leaf can be read once they are printed. -/
structure TpmlPcrSelection.Readable (context : TpmPolicyContext) (selections : TpmlPcrSelection) :
    Prop where
  size : context.pcrSelectSize ≤ tpmPcrSelectMax
  nonempty : selections.items ≠ []
  items : ∀ tpms ∈ selections.items, tpms.Readable context

/-- Selections in bitmaps of the context's size. -/
abbrev TpmlPcrSelection.Resized (context : TpmPolicyContext)
    (selections resized : TpmlPcrSelection) : Prop :=
  List.Forall₂ (TpmsPcrSelection.Resized context) selections.items resized.items

theorem forall₂_parsePcrBank_displaySelection {items resized : List TpmsPcrSelection} :
    List.Forall₂ (fun part selection => parsePcrBank context part = .ok selection)
        (items.map displaySelection) resized ↔
      (∀ tpms ∈ items, tpms.Readable context) ∧
        List.Forall₂ (TpmsPcrSelection.Resized context) items resized := by
  induction items generalizing resized with
  | nil => simp
  | cons tpms items ih =>
      simp only [List.map_cons, List.forall₂_cons_left_iff, parsePcrBank_displaySelection, ih,
        List.forall_mem_cons]
      constructor
      · rintro ⟨first, others, ⟨readable, resizes⟩, ⟨readables, rest⟩, rfl⟩
        exact ⟨⟨readable, readables⟩, first, others, resizes, rest, rfl⟩
      · rintro ⟨⟨readable, readables⟩, first, others, resizes, rest, rfl⟩
        exact ⟨first, others, ⟨readable, resizes⟩, ⟨readables, rest⟩, rfl⟩

/-- What is printed of the selections of a `pcr` leaf. -/
def displaySelections (selections : TpmlPcrSelection) : List Char :=
  ['+'].intercalate (selections.items.map displaySelection)

/-- Printed selections are read if and only if they are readable, and resized then. -/
theorem parseTpmlPcrSelectionStr_displaySelections {selections resized : TpmlPcrSelection} :
    parseTpmlPcrSelectionStr context (displaySelections selections) = .ok resized ↔
      selections.Readable context ∧ selections.Resized context resized := by
  have read (nonempty : selections.items ≠ []) :
      ((displaySelections selections).splitOn '+').foldlM (pushPcrBank context) .new =
          .ok resized ↔ (∀ tpms ∈ selections.items, tpms.Readable context) ∧
        selections.Resized context resized := by
    have plain : ∀ part ∈ selections.items.map displaySelection, '+' ∉ part := by
      intro part listed
      obtain ⟨tpms, -, rfl⟩ := List.mem_map.mp listed
      exact not_mem_displaySelection tpms
    rw [displaySelections, List.splitOn_intercalate '+' plain (by simpa using nonempty),
      foldlM_pushPcrBank_eq_ok]
    simp only [forall₂_parsePcrBank_displaySelection]
    constructor
    · rintro ⟨items, ⟨readable, resizes⟩, rfl⟩
      exact ⟨readable, resizes⟩
    · rintro ⟨readable, resizes⟩
      exact ⟨_, ⟨readable, resizes⟩, rfl⟩
  rw [parseTpmlPcrSelectionStr]
  constructor
  · intro ok
    split at ok
    · cases ok
    next fits =>
      have nonempty : selections.items ≠ [] := by
        intro none
        rw [displaySelections, none] at ok
        cases ok
      obtain ⟨readable, resizes⟩ := (read nonempty).mp ok
      exact ⟨⟨by omega, nonempty, readable⟩, resizes⟩
  · rintro ⟨⟨size, nonempty, readable⟩, resizes⟩
    rw [if_neg (by omega)]
    exact (read nonempty).mpr ⟨readable, resizes⟩

theorem count_colon_displaySelection (tpms : TpmsPcrSelection) :
    (displaySelection tpms).count ':' = 1 := by
  have noColon : ':' ∉ [','].intercalate (pcrNumerals tpms) := by
    intro mem
    rcases mem_intercalate_cases mem with comma | ⟨numeral, listed, inNumeral⟩
    · exact absurd comma (by decide)
    · exact not_mem_pcrNumerals (by decide) numeral listed inNumeral
  rw [displaySelection, List.count_append, List.count_cons_self, List.count_eq_zero.mpr noColon,
    List.count_eq_zero.mpr (not_mem_displayBank _ (by decide) (by decide))]

/-- Printed selections have a colon each, and plus signs between them. -/
theorem count_displaySelections (selections : TpmlPcrSelection) :
    (displaySelections selections).count ':' =
      if selections.items = [] then 0 else (displaySelections selections).count '+' + 1 := by
  rw [displaySelections]
  generalize selections.items = items
  induction items with
  | nil => rfl
  | cons tpms items ih =>
      have unsigned : (displaySelection tpms).count '+' = 0 :=
        List.count_eq_zero.mpr (not_mem_displaySelection tpms)
      cases items with
      | nil => simp [count_colon_displaySelection, unsigned]
      | cons second items =>
          rw [if_neg (by simp)] at ih ⊢
          simp only [List.map_cons] at ih ⊢
          rw [List.intercalate_cons_cons]
          simp only [List.count_append, count_colon_displaySelection, unsigned,
            List.count_singleton]
          simp
          omega

theorem not_colon_cons_pcrBanksText {banks : List PcrBankText} {rest : List Char} :
    pcrBanksText banks ≠ ':' :: rest := by
  intro same
  cases banks with
  | nil => cases same
  | cons bank banks =>
      obtain ⟨c, chars, name⟩ := List.exists_cons_of_ne_nil bank.alg.display_chars.1
      have noColon : ':' ∉ bank.alg.display := bank.alg.not_mem_display (by decide) (by decide)
      have head : (pcrBanksText (bank :: banks)).head? = some c := by
        cases banks <;> simp [pcrBanksText, PcrBankText.text, name, List.intercalate_cons_cons]
      rw [same, List.head?_cons, Option.some.injEq] at head
      simp [name, ← head] at noColon

theorem parsePcrDigest_displaySelections (selections : TpmlPcrSelection) :
    parsePcrDigest hex context (displaySelections selections) = none := by
  cases both : parsePcrDigest hex context (displaySelections selections) with
  | none => rfl
  | some found =>
      obtain ⟨selectionPart, digestPart, shape, read, decoded⟩ := parsePcrDigest_eq_some.mp both
      obtain ⟨-, banks, some, rfl, -⟩ := parseTpmlPcrSelectionStr_eq_ok.mp read
      have noPlus : digestPart.count '+' = 0 := by
        rw [List.count_eq_zero]
        intro mem
        have digit := hex.digits_of_decode decoded '+' mem
        simp [not_digit_plus] at digit
      -- The banks alone have as many colons as are printed, and one more is in front of the digest.
      have whole := count_displaySelections selections
      have part := count_pcrBanksText some
      rw [shape] at whole
      simp only [List.count_append, List.count_cons, noPlus] at whole
      simp at whole
      split at whole <;> omega

/-- Selections with a digest behind them are no selections. -/
theorem parseTpmlPcrSelectionStr_digest {selections resized : TpmlPcrSelection}
    {digest : List Char} (digits : Digits 16 digest) :
    parseTpmlPcrSelectionStr context (displaySelections selections ++ ':' :: digest) ≠
      .ok resized := by
  intro read
  obtain ⟨-, banks, some, joined, -⟩ := parseTpmlPcrSelectionStr_eq_ok.mp read
  have noPlus : digest.count '+' = 0 := by
    rw [List.count_eq_zero]
    intro mem
    simpa [not_digit_plus] using digits '+' mem
  have whole := count_pcrBanksText some
  have part := count_displaySelections selections
  by_cases none : selections.items = []
  · rw [displaySelections, none] at joined
    exact not_colon_cons_pcrBanksText joined
  · rw [if_neg none] at part
    rw [joined] at whole
    simp only [List.count_append, List.count_cons, noPlus] at whole
    simp at whole
    omega

theorem parsePcrDigest_displayPcr {selections : TpmlPcrSelection} {digest : Tpm2bDigest} :
    parsePcrDigest hex context (displayPcr hex selections (some digest)) =
      (parseTpmlPcrSelectionStr context (displaySelections selections)).toOption.map
        fun resized => (resized, digest) := by
  have plain : ':' ∉ hex.encode digest.bytes := by
    intro mem
    have alphanum := (alphanum_of_toDigit (hex.digits_encode _ ':' mem)).1
    simp at alphanum
  have split : rsplitOnce ':' (displayPcr hex selections (some digest)) =
      some (displaySelections selections, hex.encode digest.bytes) :=
    rsplitOnce_eq_some.mpr ⟨rfl, plain⟩
  have whole : (TpmBuffer.tryFrom digest.bytes : TpmResult Tpm2bDigest) = .ok digest :=
    TpmBuffer.tryFrom_eq_ok.mpr ⟨digest.length_le, digest.length_le_u16, rfl⟩
  rw [parsePcrDigest, split]
  simp only [Option.bind_eq_bind, Option.bind_some, hex.decode_encode, whole]
  cases parseTpmlPcrSelectionStr context (displaySelections selections) <;> rfl

/-- A printed `pcr` leaf is read if and only if its selections are readable. They are resized. -/
theorem parsePcrText_displayPcr {selections : TpmlPcrSelection} {digest : Option Tpm2bDigest}
    {expression : TpmPolicyExpression} :
    parsePcrText hex context (displayPcr hex selections digest) = .ok expression ↔
      selections.Readable context ∧ ∃ resized, selections.Resized context resized ∧
        expression = .pcr resized digest := by
  have reads : parsePcrText hex context (displayPcr hex selections digest) = .ok expression ↔
      ∃ resized, parseTpmlPcrSelectionStr context (displaySelections selections) = .ok resized ∧
        expression = .pcr resized digest := by
    cases digest with
    | none =>
        have text : displayPcr hex selections none = displaySelections selections :=
          List.append_nil _
        rw [text, parsePcrText, parsePcrDigest_displaySelections]
        simp only [bind_eq_ok, pure, Except.pure, Except.ok.injEq]
        exact exists_congr fun resized => and_congr_right fun _ => eq_comm
    | some digest =>
        rw [parsePcrText, parsePcrDigest_displayPcr]
        cases parsed : parseTpmlPcrSelectionStr context (displaySelections selections) with
        | ok resized => simp [Except.toOption, eq_comm]
        | error e =>
            constructor
            · intro ok
              obtain ⟨resized, read, -⟩ := bind_eq_ok.mp ok
              exact absurd read (parseTpmlPcrSelectionStr_digest (hex.digits_encode _))
            · rintro ⟨resized, read, -⟩
              cases read
  rw [reads]
  simp only [parseTpmlPcrSelectionStr_displaySelections]
  constructor
  · rintro ⟨resized, ⟨readable, resizes⟩, rfl⟩
    exact ⟨readable, resized, resizes, rfl⟩
  · rintro ⟨readable, resized, resizes, rfl⟩
    exact ⟨resized, ⟨readable, resizes⟩, rfl⟩

/-- Bitmaps of the context's size are resized to themselves. -/
theorem TpmlPcrSelection.Readable.resized {selections : TpmlPcrSelection}
    (readable : selections.Readable context) (sized : ∀ tpms ∈ selections.items,
      tpms.Sized context) : selections.Resized context selections := by
  rw [TpmlPcrSelection.Resized, List.forall₂_same]
  intro tpms listed
  have item := readable.items tpms listed
  obtain ⟨alg, hash⟩ := item.bank
  exact ⟨alg, hash, selectPcrs_pcrIndices hash (sized tpms listed) item.known⟩

theorem TpmlPcrSelection.Readable.forall_sized_iff {selections resized : TpmlPcrSelection}
    (readable : selections.Readable context) (resizes : selections.Resized context resized) :
    (∀ tpms ∈ selections.items, tpms.Sized context) ↔ selections = resized := by
  constructor
  · intro sized
    exact TpmList.ext
      (List.right_unique_forall₂' TpmsPcrSelection.Resized.unique (readable.resized sized) resizes)
  · rintro rfl tpms listed
    exact (List.forall₂_same.mp resizes tpms listed).sized

theorem TpmsPcrSelection.Readable.exists_resized {tpms : TpmsPcrSelection}
    (readable : tpms.Readable context) (size : context.pcrSelectSize ≤ tpmPcrSelectMax) :
    ∃ resized, tpms.Resized context resized := by
  obtain ⟨alg, hash⟩ := readable.bank
  have fits : (((pcrIndices tpms.pcrSelect.data).map UInt32.toNat).foldl setPcrBit
      (List.replicate context.pcrSelectSize 0)).length ≤ tpmPcrSelectMax := by
    rwa [length_foldl_setPcrBit, List.length_replicate]
  exact ⟨⟨alg.toAlgId, _, fits⟩, alg, hash,
    selectPcrs_eq_ok.mpr ⟨by simpa using readable.known, rfl, rfl⟩⟩

theorem TpmlPcrSelection.Readable.exists_resized {selections : TpmlPcrSelection}
    (readable : selections.Readable context) : ∃ resized, selections.Resized context resized := by
  have each (items : List TpmsPcrSelection) (known : ∀ tpms ∈ items, tpms.Readable context) :
      ∃ resized, List.Forall₂ (TpmsPcrSelection.Resized context) items resized := by
    induction items with
    | nil => exact ⟨[], .nil⟩
    | cons tpms items ih =>
        rw [List.forall_mem_cons] at known
        obtain ⟨first, resizes⟩ := known.1.exists_resized readable.size
        obtain ⟨others, rest⟩ := ih known.2
        exact ⟨first :: others, .cons resizes rest⟩
  obtain ⟨resized, resizes⟩ := each selections.items readable.items
  exact ⟨⟨resized, resizes.length_eq ▸ selections.length_le⟩, resizes⟩

end

end Tpm2
