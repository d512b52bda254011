import Tpm2.PolicyLanguage.PcrSelect
import Tpm2.Text.Hex
import Tpm2.Text.Split

/-! The argument of `pcr(...)`: its parser, the grammar of the texts that it accepts, and its
printed form. -/

namespace Tpm2

open ByteCodec Text

/-- One bank of a selection, as `parse_tpml_pcr_selection_str` reads it. -/
def parsePcrBank (context : TpmPolicyContext) (part : List Char) :
    Except TpmPolicyError TpmsPcrSelection := do
  let some (algStr, indicesStr) := splitOnce ':' part | throw .invalidPcrSelection
  let some alg := TpmHash.fromStr algStr | throw .invalidPcrDigestAlgorithm
  let some _ := context.pcrs.lookup alg.toAlgId | throw (.pcrBankNotAvailable alg)
  let some indices := (indicesStr.splitOn ',').mapM (fromStrRadix (2 ^ 32) 10)
    | throw .invalidPcrSelection
  selectPcrs context alg indices

/-- Reads one more bank. -/
def pushPcrBank (context : TpmPolicyContext) (list : TpmlPcrSelection) (part : List Char) :
    Except TpmPolicyError TpmlPcrSelection := do
  let selection ← parsePcrBank context part
  (list.tryPush selection).mapError fun _ => .pcrSelectionTooLarge

def parseTpmlPcrSelectionStr (context : TpmPolicyContext) (selectionStr : List Char) :
    Except TpmPolicyError TpmlPcrSelection :=
  if tpmPcrSelectMax < context.pcrSelectSize then
    .error .pcrSelectionTooLarge
  else
    (selectionStr.splitOn '+').foldlM (pushPcrBank context) .new

/-- The selections and the digest behind the last colon, where both can be read. -/
def parsePcrDigest (hex : Hex) (context : TpmPolicyContext) (buf : List Char) :
    Option (TpmlPcrSelection × Tpm2bDigest) := do
  let (selectionPart, digestPart) ← rsplitOnce ':' buf
  let selections ← (parseTpmlPcrSelectionStr context selectionPart).toOption
  let digestBytes ← hex.decode digestPart
  let digest ← (TpmBuffer.tryFrom digestBytes).toOption
  return (selections, digest)

/-- What `parse_pcr_call` does with the text between its parentheses. -/
def parsePcrText (hex : Hex) (context : TpmPolicyContext) (buf : List Char) :
    Except TpmPolicyError TpmPolicyExpression :=
  match parsePcrDigest hex context buf with
  | some (selections, digest) => .ok (.pcr selections (some digest))
  | none => do
      let selections ← parseTpmlPcrSelectionStr context buf
      return .pcr selections none

/-- The text of a bank: `bank:index,index,...`. -/
structure PcrBankText where
  alg : TpmHash
  indices : List (List Char)
  nonempty : indices ≠ []
  digits : ∀ index ∈ indices, Digits 10 index ∧ index ≠ []

/-- The text of a `pcr` argument: banks joined by `+`, and an optional hexadecimal digest. -/
structure PcrText where
  banks : List PcrBankText
  digest : Option (List Char)
  nonempty : banks ≠ []
  digits : ∀ digest' ∈ digest, Digits 16 digest'

def PcrBankText.text (bank : PcrBankText) : List Char :=
  bank.alg.display ++ ':' :: [','].intercalate bank.indices

def pcrBanksText (banks : List PcrBankText) : List Char :=
  ['+'].intercalate (banks.map PcrBankText.text)

def pcrDigestText : Option (List Char) → List Char
  | none => []
  | some digest => ':' :: digest

def PcrText.text (argument : PcrText) : List Char :=
  pcrBanksText argument.banks ++ pcrDigestText argument.digest

/-- The selection that the text of a bank stands for. -/
def PcrBankText.Denotes (context : TpmPolicyContext) (bank : PcrBankText)
    (selection : TpmsPcrSelection) : Prop :=
  (∃ pcrs, context.pcrs.lookup bank.alg.toAlgId = some pcrs) ∧
    ∃ indices, List.Forall₂ (fun index n => fromStrRadix (2 ^ 32) 10 index = some n)
      bank.indices indices ∧ selectPcrs context bank.alg indices = .ok selection

/-- The digest that an optional hexadecimal text stands for. -/
def PcrDigestDenotes (hex : Hex) (text : Option (List Char)) (digest : Option Tpm2bDigest) : Prop :=
  Option.Rel (fun text digest => hex.decode text = some digest.bytes) text digest

/-- The selections and the digest that the text of an argument stands for. -/
structure PcrText.Denotes (hex : Hex) (context : TpmPolicyContext) (argument : PcrText)
    (selections : TpmlPcrSelection) (digest : Option Tpm2bDigest) : Prop where
  size : context.pcrSelectSize ≤ tpmPcrSelectMax
  banks : List.Forall₂ (PcrBankText.Denotes context) argument.banks selections.items
  digest : PcrDigestDenotes hex argument.digest digest

theorem mapM_eq_some {α β : Type} {f : α → Option β} {l : List α} {m : List β} :
    l.mapM f = some m ↔ List.Forall₂ (fun a b => f a = some b) l m := by
  induction l generalizing m with
  | nil => simp [eq_comm]
  | cons a l ih =>
      rw [List.mapM_cons, List.forall₂_cons_left_iff]
      simp only [Option.bind_eq_bind, Option.bind_eq_some_iff, ih]
      constructor
      · rintro ⟨b, first, rest, others, same⟩
        exact ⟨b, rest, first, others, (Option.some.inj same).symm⟩
      · rintro ⟨b, rest, first, others, rfl⟩
        exact ⟨b, first, rest, others, rfl⟩

theorem PcrBankText.not_mem_index (bank : PcrBankText) {index : List Char}
    (listed : index ∈ bank.indices) {c : Char} (other : ¬ c.isAlphanum) : c ∉ index :=
  fun mem => other (alphanum_of_toDigit ((bank.digits index listed).1 c mem)).1

theorem TpmHash.not_mem_display (alg : TpmHash) {c : Char} (other : ¬ c.isAlphanum)
    (hyphen : c ≠ '-') : c ∉ alg.display := by
  intro mem
  rcases (alg.display_chars).2 c mem with alphanum | same
  · exact other alphanum
  · exact hyphen same

theorem mem_intercalate_cases {α : Type} {parts : List (List α)} {sep : List α} {c : α}
    (mem : c ∈ sep.intercalate parts) : c ∈ sep ∨ ∃ part ∈ parts, c ∈ part := by
  induction parts with
  | nil => simp at mem
  | cons first parts ih =>
      cases parts with
      | nil => exact .inr ⟨first, List.mem_cons_self, by simpa using mem⟩
      | cons second parts =>
          rw [List.intercalate_cons_cons, List.mem_append, List.mem_append] at mem
          rcases mem with (inFirst | inSep) | later
          · exact .inr ⟨first, List.mem_cons_self, inFirst⟩
          · exact .inl inSep
          · rcases ih later with inSep | ⟨part, listed, inPart⟩
            · exact .inl inSep
            · exact .inr ⟨part, List.mem_cons_of_mem _ listed, inPart⟩

theorem PcrBankText.not_mem_indices (bank : PcrBankText) {c : Char} (other : ¬ c.isAlphanum)
    (comma : c ≠ ',') : c ∉ [','].intercalate bank.indices := by
  intro mem
  rcases mem_intercalate_cases mem with same | ⟨index, listed, inIndex⟩
  · exact comma (List.mem_singleton.mp same)
  · exact bank.not_mem_index listed other inIndex

theorem PcrBankText.not_mem_text (bank : PcrBankText) {c : Char} (other : ¬ c.isAlphanum)
    (mark : c ≠ '-' ∧ c ≠ ':' ∧ c ≠ ',') : c ∉ bank.text := by
  intro mem
  rcases List.mem_append.mp mem with inName | inRest
  · exact bank.alg.not_mem_display other mark.1 inName
  · rcases List.mem_cons.mp inRest with colon | inIndices
    · exact mark.2.1 colon
    · exact bank.not_mem_indices other mark.2.2 inIndices

theorem PcrBankText.splitOnce_text (bank : PcrBankText) :
    splitOnce ':' bank.text = some (bank.alg.display, [','].intercalate bank.indices) :=
  splitOnce_eq_some.mpr ⟨rfl, bank.alg.not_mem_display (by decide) (by decide)⟩

theorem PcrBankText.splitOn_indices (bank : PcrBankText) :
    ([','].intercalate bank.indices).splitOn ',' = bank.indices :=
  splitOn_eq_iff.mpr ⟨rfl, bank.nonempty,
    fun _ listed => bank.not_mem_index listed (by decide)⟩

/-- The parts of an unsigned list of numbers are digits. -/
theorem digits_of_mapM {indicesStr : List Char} {indices : List Nat} (unsigned : '+' ∉ indicesStr)
    (read : (indicesStr.splitOn ',').mapM (fromStrRadix (2 ^ 32) 10) = some indices) :
    ∀ index ∈ indicesStr.splitOn ',', Digits 10 index ∧ index ≠ [] := by
  intro index listed
  obtain ⟨joined, -, -⟩ := splitOn_eq_iff.mp (Eq.refl (indicesStr.splitOn ','))
  obtain ⟨i, inRange, rfl⟩ := List.mem_iff_getElem.mp listed
  have values := mapM_eq_some.mp read
  have value := List.forall₂_iff_get.mp values |>.2 i inRange (values.length_eq ▸ inRange)
  refine digits_of_fromStrRadix value ?_
  intro sign
  apply unsigned
  rw [joined]
  exact mem_intercalate listed (List.mem_of_head? sign)

/-- A bank is read if and only if its text is one. -/
theorem parsePcrBank_eq_ok {context : TpmPolicyContext} {part : List Char}
    {selection : TpmsPcrSelection} (unsigned : '+' ∉ part) :
    parsePcrBank context part = .ok selection ↔
      ∃ bank : PcrBankText, bank.text = part ∧ bank.Denotes context selection := by
  constructor
  · intro ok
    rw [parsePcrBank] at ok
    cases split : splitOnce ':' part with
    | none => rw [split] at ok; cases ok
    | some strs =>
        obtain ⟨algStr, indicesStr⟩ := strs
        obtain ⟨rfl, -⟩ := splitOnce_eq_some.mp split
        simp only [split] at ok
        cases named : TpmHash.fromStr algStr with
        | none => rw [named] at ok; cases ok
        | some alg =>
            obtain rfl := TpmHash.fromStr_eq_some.mp named
            simp only [named] at ok
            cases available : context.pcrs.lookup alg.toAlgId with
            | none => rw [available] at ok; cases ok
            | some pcrs =>
                simp only [available] at ok
                cases read : (indicesStr.splitOn ',').mapM (fromStrRadix (2 ^ 32) 10) with
                | none => rw [read] at ok; cases ok
                | some indices =>
                    simp only [read] at ok
                    have digits := digits_of_mapM (by simp at unsigned; exact unsigned.2) read
                    obtain ⟨joined, nonempty, -⟩ :=
                      splitOn_eq_iff.mp (Eq.refl (indicesStr.splitOn ','))
                    refine ⟨⟨alg, indicesStr.splitOn ',', nonempty, digits⟩, ?_,
                      ⟨pcrs, available⟩, indices, mapM_eq_some.mp read, ok⟩
                    rw [PcrBankText.text, ← joined]
  · rintro ⟨bank, rfl, ⟨pcrs, available⟩, indices, values, selects⟩
    rw [parsePcrBank, bank.splitOnce_text]
    simp only [TpmHash.fromStr_eq_some.mpr rfl, available, bank.splitOn_indices,
      mapM_eq_some.mpr values]
    exact selects

/-- Banks are collected in the order of their parts. -/
theorem foldlM_pushPcrBank_eq_ok {context : TpmPolicyContext} {parts : List (List Char)}
    {before after : TpmlPcrSelection} :
    parts.foldlM (pushPcrBank context) before = .ok after ↔ ∃ selections,
      List.Forall₂ (fun part selection => parsePcrBank context part = .ok selection)
        parts selections ∧ after.items = before.items ++ selections := by
  induction parts generalizing before with
  | nil =>
      simp only [List.foldlM_nil, pure, Except.pure, Except.ok.injEq, List.forall₂_nil_left_iff]
      constructor
      · rintro rfl
        exact ⟨[], rfl, by simp⟩
      · rintro ⟨_, rfl, items⟩
        exact TpmList.ext (by simpa using items.symm)
  | cons part parts ih =>
      simp only [List.foldlM_cons, bind_eq_ok, ih, List.forall₂_cons_left_iff, pushPcrBank,
        mapError_eq_ok, TpmList.tryPush_eq_ok]
      constructor
      · rintro ⟨next, ⟨selection, read, -, items⟩, selections, others, result⟩
        refine ⟨selection :: selections, ⟨selection, selections, read, others, rfl⟩, ?_⟩
        rw [result, items, List.append_assoc, List.singleton_append]
      · rintro ⟨_, ⟨selection, selections, read, others, rfl⟩, result⟩
        have fits := after.length_le
        rw [result] at fits
        simp only [List.length_append, List.length_cons] at fits
        refine ⟨⟨before.items ++ [selection], by simp; omega⟩,
          ⟨selection, read, by omega, rfl⟩, selections, others, ?_⟩
        rw [result, List.append_assoc, List.singleton_append]

theorem splitOn_pcrBanksText {banks : List PcrBankText} (nonempty : banks ≠ []) :
    (pcrBanksText banks).splitOn '+' = banks.map PcrBankText.text := by
  refine splitOn_eq_iff.mpr ⟨rfl, by simpa using nonempty, ?_⟩
  intro part listed
  obtain ⟨bank, -, rfl⟩ := List.mem_map.mp listed
  exact bank.not_mem_text (by decide) (by decide)

theorem forall₂_parsePcrBank {context : TpmPolicyContext} {parts : List (List Char)}
    {selections : List TpmsPcrSelection} (unsigned : ∀ part ∈ parts, '+' ∉ part) :
    List.Forall₂ (fun part selection => parsePcrBank context part = .ok selection)
        parts selections ↔
      ∃ banks : List PcrBankText, banks.map PcrBankText.text = parts ∧
        List.Forall₂ (PcrBankText.Denotes context) banks selections := by
  induction parts generalizing selections with
  | nil => simp
  | cons part parts ih =>
      rw [List.forall_mem_cons] at unsigned
      simp only [List.forall₂_cons_left_iff, parsePcrBank_eq_ok unsigned.1, ih unsigned.2]
      constructor
      · rintro ⟨selection, others, ⟨bank, rfl, denotes⟩, ⟨banks, rfl, rest⟩, rfl⟩
        exact ⟨bank :: banks, rfl, .cons denotes rest⟩
      · rintro ⟨banks, texts, denotes⟩
        obtain ⟨bank, banks, rfl, rfl, rfl⟩ := List.map_eq_cons_iff.mp texts
        cases denotes with
        | cons first rest => exact ⟨_, _, ⟨bank, rfl, first⟩, ⟨banks, rfl, rest⟩, rfl⟩

/-- Selections are read if and only if their text is one of banks. -/
theorem parseTpmlPcrSelectionStr_eq_ok {context : TpmPolicyContext} {selectionStr : List Char}
    {selections : TpmlPcrSelection} :
    parseTpmlPcrSelectionStr context selectionStr = .ok selections ↔
      context.pcrSelectSize ≤ tpmPcrSelectMax ∧ ∃ banks, banks ≠ [] ∧
        pcrBanksText banks = selectionStr ∧
        List.Forall₂ (PcrBankText.Denotes context) banks selections.items := by
  obtain ⟨joined, nonempty, unsigned⟩ := splitOn_eq_iff.mp (Eq.refl (selectionStr.splitOn '+'))
  have collected {selections : TpmlPcrSelection} :
      (selectionStr.splitOn '+').foldlM (pushPcrBank context) .new = .ok selections ↔
        ∃ banks : List PcrBankText, banks.map PcrBankText.text = selectionStr.splitOn '+' ∧
          List.Forall₂ (PcrBankText.Denotes context) banks selections.items := by
    rw [foldlM_pushPcrBank_eq_ok]
    simp only [forall₂_parsePcrBank unsigned]
    constructor
    · rintro ⟨_, ⟨banks, texts, denotes⟩, items⟩
      exact ⟨banks, texts, by rwa [items]⟩
    · rintro ⟨banks, texts, denotes⟩
      exact ⟨_, ⟨banks, texts, denotes⟩, rfl⟩
  rw [parseTpmlPcrSelectionStr]
  constructor
  · intro ok
    split at ok
    · cases ok
    next fits =>
      obtain ⟨banks, texts, denotes⟩ := collected.mp ok
      refine ⟨by omega, banks, ?_, ?_, denotes⟩
      · rintro rfl
        exact nonempty texts.symm
      · rw [pcrBanksText, texts, ← joined]
  · rintro ⟨fits, banks, some, rfl, denotes⟩
    rw [if_neg (by omega)]
    exact collected.mpr ⟨banks, (splitOn_pcrBanksText some).symm, denotes⟩

theorem count_colon_text (bank : PcrBankText) : bank.text.count ':' = 1 := by
  rw [PcrBankText.text, List.count_append, List.count_cons_self,
    List.count_eq_zero.mpr (bank.alg.not_mem_display (by decide) (by decide)),
    List.count_eq_zero.mpr (bank.not_mem_indices (by decide) (by decide))]

/-- Every bank has a colon, and all but the last a plus sign behind it. -/
theorem count_pcrBanksText {banks : List PcrBankText} (nonempty : banks ≠ []) :
    (pcrBanksText banks).count ':' = (pcrBanksText banks).count '+' + 1 := by
  induction banks with
  | nil => exact absurd rfl nonempty
  | cons bank banks ih =>
      have unsigned : bank.text.count '+' = 0 :=
        List.count_eq_zero.mpr (bank.not_mem_text (by decide) (by decide))
      cases banks with
      | nil => simp [pcrBanksText, count_colon_text, unsigned]
      | cons second banks =>
          have rest := ih (by simp)
          simp only [pcrBanksText, List.map_cons] at rest ⊢
          rw [List.intercalate_cons_cons]
          simp only [List.count_append, count_colon_text, unsigned, List.count_singleton]
          simp
          omega

theorem toOption_eq_some {ε α : Type} {x : Except ε α} {a : α} :
    x.toOption = some a ↔ x = .ok a := by
  cases x <;> simp [Except.toOption]

/-- Selections with a digest are read if and only if the text is one of both. -/
theorem parsePcrDigest_eq_some {hex : Hex} {context : TpmPolicyContext} {buf : List Char}
    {selections : TpmlPcrSelection} {digest : Tpm2bDigest} :
    parsePcrDigest hex context buf = some (selections, digest) ↔
      ∃ selectionPart digestPart, buf = selectionPart ++ ':' :: digestPart ∧
        parseTpmlPcrSelectionStr context selectionPart = .ok selections ∧
        hex.decode digestPart = some digest.bytes := by
  simp only [parsePcrDigest, Option.bind_eq_bind, Option.bind_eq_some_iff, Prod.exists,
    rsplitOnce_eq_some, toOption_eq_some, TpmBuffer.tryFrom_eq_ok]
  constructor
  · rintro ⟨selectionPart, digestPart, ⟨rfl, -⟩, selections', read, bytes, decoded, digest',
      ⟨-, -, rfl⟩, same⟩
    cases same
    exact ⟨selectionPart, digestPart, rfl, read, decoded⟩
  · rintro ⟨selectionPart, digestPart, rfl, read, decoded⟩
    have plain : ':' ∉ digestPart := by
      intro mem
      have alphanum := (alphanum_of_toDigit (hex.digits_of_decode decoded ':' mem)).1
      simp at alphanum
    exact ⟨selectionPart, digestPart, ⟨rfl, plain⟩, selections, read, digest.bytes, decoded,
      digest, ⟨digest.length_le, digest.length_le_u16, rfl⟩, rfl⟩

/-- Selections are no selections with a digest. -/
theorem parsePcrDigest_eq_none {hex : Hex} {context : TpmPolicyContext} {buf : List Char}
    {selections : TpmlPcrSelection}
    (read : parseTpmlPcrSelectionStr context buf = .ok selections) :
    parsePcrDigest hex context buf = none := by
  cases both : parsePcrDigest hex context buf with
  | none => rfl
  | some found =>
      obtain ⟨selections', digest⟩ := found
      obtain ⟨selectionPart, digestPart, rfl, before, decoded⟩ := parsePcrDigest_eq_some.mp both
      obtain ⟨-, banks, some, joined, -⟩ := parseTpmlPcrSelectionStr_eq_ok.mp read
      obtain ⟨-, banks', some', rfl, -⟩ := parseTpmlPcrSelectionStr_eq_ok.mp before
      have noPlus : digestPart.count '+' = 0 := by
        rw [List.count_eq_zero]
        intro mem
        have digit := hex.digits_of_decode decoded '+' mem
        simp [not_digit_plus] at digit
      -- The whole has one colon more than plus signs, its selections already have that many.
      have whole := count_pcrBanksText some
      have part := count_pcrBanksText some'
      rw [joined] at whole
      simp only [List.count_append, List.count_cons, noPlus] at whole
      simp at whole
      omega

/-- An argument is read if and only if its text is one. -/
theorem parsePcrText_eq_ok {hex : Hex} {context : TpmPolicyContext} {buf : List Char}
    {expression : TpmPolicyExpression} :
    parsePcrText hex context buf = .ok expression ↔ ∃ argument selections digest,
      PcrText.text argument = buf ∧ argument.Denotes hex context selections digest ∧
        expression = .pcr selections digest := by
  constructor
  · intro ok
    rw [parsePcrText] at ok
    split at ok
    next selections digest both =>
      cases ok
      obtain ⟨selectionPart, digestPart, rfl, read, decoded⟩ := parsePcrDigest_eq_some.mp both
      obtain ⟨size, banks, some, rfl, denotes⟩ := parseTpmlPcrSelectionStr_eq_ok.mp read
      have digits : ∀ digest' ∈ Option.some digestPart, Digits 16 digest' := by
        rintro _ ⟨⟩
        exact hex.digits_of_decode decoded
      exact ⟨⟨banks, .some digestPart, some, digits⟩, selections, .some digest, rfl,
        ⟨size, denotes, .some decoded⟩, rfl⟩
    next =>
      obtain ⟨selections, read, ok⟩ := bind_eq_ok.mp ok
      cases ok
      obtain ⟨size, banks, some, rfl, denotes⟩ := parseTpmlPcrSelectionStr_eq_ok.mp read
      exact ⟨⟨banks, none, some, by simp⟩, selections, none, List.append_nil _,
        ⟨size, denotes, .none⟩, rfl⟩
  · rintro ⟨⟨banks, text, some, digits⟩, selections, digest, rfl, ⟨size, denotes, value⟩, rfl⟩
    have read := parseTpmlPcrSelectionStr_eq_ok.mpr ⟨size, banks, some, rfl, denotes⟩
    cases value with
    | none =>
        rw [PcrText.text, pcrDigestText, List.append_nil, parsePcrText,
          parsePcrDigest_eq_none read, read]
        rfl
    | some decoded =>
        rw [PcrText.text, pcrDigestText, parsePcrText,
          parsePcrDigest_eq_some.mpr ⟨_, _, rfl, read, decoded⟩]

end Tpm2
