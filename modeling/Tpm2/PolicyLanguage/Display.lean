import Tpm2.PolicyLanguage.Derivation

/-! The printer of policy expressions, and the phrases that it prints. -/

namespace Tpm2

open ByteCodec Text

/-- `{handle:08x}`. -/
def displayHandle (handle : TpmHandle) : List Char :=
  (Nat.toDigits 16 handle.value.toNat).leftpad 8 '0'

/-- The name of a bank, or its number where it has none. -/
def displayBank (hash : TpmAlgId) : List Char :=
  match TpmHash.tryFrom hash with
  | .error _ => "0x".toList ++ (Nat.toDigits 16 (TpmEnum.value hash).toNat).leftpad 4 '0'
  | .ok alg => alg.display

/-- The numerals of the selected PCRs. -/
def pcrNumerals (tpms : TpmsPcrSelection) : List (List Char) :=
  (pcrIndices tpms.pcrSelect.data).map fun pcrIndex => Nat.toDigits 10 pcrIndex.toNat

def displaySelection (tpms : TpmsPcrSelection) : List Char :=
  displayBank tpms.hash ++ ':' :: [','].intercalate (pcrNumerals tpms)

/-- What is printed between the parentheses of `pcr(...)`. -/
def displayPcr (hex : Hex) (selections : TpmlPcrSelection) (digest : Option Tpm2bDigest) :
    List Char :=
  ['+'].intercalate (selections.items.map displaySelection) ++
    pcrDigestText (digest.map fun d => hex.encode d.bytes)

/-- The text of an optional policy reference. -/
def copyRefText (hex : Hex) (copyRef : Option Tpm2bDigest) : Option (List Char) :=
  copyRef.map fun cr => "copy_ref:".toList ++ hex.encode cr.bytes

def displayCopyRef (hex : Hex) (copyRef : Option Tpm2bDigest) : List Char :=
  match copyRefText hex copyRef with
  | none => []
  | some s => ", ".toList ++ s

namespace TpmPolicyExpression

mutual

/-- `Display` of an expression. -/
def display (hex : Hex) : TpmPolicyExpression → List Char
  | pcr selections digest => "pcr(".toList ++ displayPcr hex selections digest ++ [')']
  | secret authHandle copyRef =>
      "secret(".toList ++ authHandle.display hex ++ displayCopyRef hex copyRef ++ [')']
  | and expressions => '(' :: " and ".toList.intercalate (displayAll hex expressions) ++ [')']
  | or expressions => '(' :: " or ".toList.intercalate (displayAll hex expressions) ++ [')']
  | handle value => displayHandle value

/-- The texts of the branches of a chain. -/
def displayAll (hex : Hex) : List TpmPolicyExpression → List (List Char)
  | [] => []
  | expression :: expressions => expression.display hex :: displayAll hex expressions

end

theorem display_pcr (hex : Hex) (selections : TpmlPcrSelection) (digest : Option Tpm2bDigest) :
    (pcr selections digest).display hex =
      "pcr(".toList ++ displayPcr hex selections digest ++ [')'] := rfl

theorem display_secret (hex : Hex) (authHandle : TpmPolicyExpression)
    (copyRef : Option Tpm2bDigest) :
    (secret authHandle copyRef).display hex =
      "secret(".toList ++ authHandle.display hex ++ displayCopyRef hex copyRef ++ [')'] := rfl

/-- `expression.to_string()`. -/
def toString (hex : Hex) (expression : TpmPolicyExpression) : String :=
  String.ofList (expression.display hex)

mutual

/-- Every chain has at least two branches. -/
def Branched : TpmPolicyExpression → Prop
  | and branches => 2 ≤ branches.length ∧ BranchedAll branches
  | or branches => 2 ≤ branches.length ∧ BranchedAll branches
  | secret authHandle _ => authHandle.Branched
  | _ => True

def BranchedAll : List TpmPolicyExpression → Prop
  | [] => True
  | branch :: branches => branch.Branched ∧ BranchedAll branches

end

end TpmPolicyExpression

theorem Lexes.append {s t : List Char} {tokens tokens' : List Token} (left : Lexes s tokens)
    (bounded : Bounded t) (right : Lexes t tokens') : Lexes (s ++ t) (tokens ++ tokens') := by
  induction left with
  | done => exact right
  | whitespace space rest ih => exact .whitespace space ih
  | punctuation mark rest ih => exact .punctuation mark ih
  | @ident slice chars tokens some inside boundary rest ih =>
      rw [List.append_assoc]
      refine .ident some inside ?_ ih
      cases chars with
      | nil => exact bounded
      | cons c chars => exact boundary

theorem keyword_text (slice : List Char) : (keyword slice).text = slice := by
  unfold keyword
  split
  next same => rw [same]; rfl
  split
  next same => rw [same]; rfl
  · rfl

/-- Without white space the tokens have the text that they are lexed from. -/
theorem Lexes.flatMap_text {s : List Char} {tokens : List Token} (lexes : Lexes s tokens)
    (solid : ∀ c ∈ s, isWhitespace c = false) : tokens.flatMap Token.text = s := by
  induction lexes with
  | done => rfl
  | whitespace space rest ih => simp [solid _ List.mem_cons_self] at space
  | @punctuation c chars token tokens mark rest ih =>
      rw [List.flatMap_cons, ih fun d mem => solid d (List.mem_cons_of_mem _ mem)]
      have text : token.text = [c] := by
        simp only [Tpm2.punctuation] at mark
        split at mark
        next same => cases mark; rw [same]; rfl
        split at mark
        next same => cases mark; rw [same]; rfl
        split at mark
        next same => cases mark; rw [same]; rfl
        · cases mark
      rw [text, List.singleton_append]
  | ident some inside bounded rest ih =>
      rw [List.flatMap_cons, keyword_text, ih fun d mem => solid d (List.mem_append_right _ mem)]

theorem splitOn_comma (s : List Char) : (',' :: s).splitOn ',' = [] :: s.splitOn ',' :=
  List.splitOn_append_cons_self_of_not_mem (List.not_mem_nil : ',' ∉ ([] : List Char)) s

/-- Without white space and parentheses the tokens are commas and what is between commas. -/
theorem Lexes.mem_pieces {s : List Char} {tokens : List Token} (lexes : Lexes s tokens)
    (solid : ∀ c ∈ s, isDelimiter c → c = ',') {token : Token} (listed : token ∈ tokens) :
    token = .comma ∨ ∃ piece ∈ s.splitOn ',', piece ≠ [] ∧ token = keyword piece := by
  induction lexes with
  | done => cases listed
  | @whitespace c chars tokens space rest ih =>
      have comma := solid c List.mem_cons_self (by simp [isDelimiter, space])
      rw [comma] at space
      simp [isWhitespace] at space
  | @punctuation c chars first tokens mark rest ih =>
      obtain rfl := solid c List.mem_cons_self (by simp [isDelimiter, mark])
      cases mark
      rcases List.mem_cons.mp listed with rfl | later
      · exact .inl rfl
      · rw [splitOn_comma]
        rcases ih (fun d mem => solid d (List.mem_cons_of_mem _ mem)) later with comma | found
        · exact .inl comma
        · obtain ⟨piece, part, some, same⟩ := found
          exact .inr ⟨piece, List.mem_cons_of_mem _ part, some, same⟩
  | @ident slice chars tokens some inside bounded rest ih =>
      have noComma : ',' ∉ slice := fun mem => absurd (inside ',' mem) (by decide)
      cases chars with
      | nil =>
          obtain rfl : [] = tokens := lexes_iff.mp rest
          rw [List.append_nil, List.splitOn_eq_singleton noComma]
          exact .inr ⟨slice, by simp, some, by simpa using listed⟩
      | cons c chars =>
          obtain rfl := solid c (by simp) (bounded c rfl)
          rw [List.splitOn_append_cons_self_of_not_mem noComma]
          rcases List.mem_cons.mp listed with same | later
          · exact .inr ⟨slice, List.mem_cons_self, some, same⟩
          · rw [splitOn_comma] at ih
            rcases ih (fun d mem => solid d (List.mem_append_right _ mem)) later with comma | found
            · exact .inl comma
            · obtain ⟨piece, part, nonempty, same⟩ := found
              refine .inr ⟨piece, ?_, nonempty, same⟩
              rcases List.mem_cons.mp part with empty | part
              · exact absurd empty nonempty
              · exact List.mem_cons_of_mem _ part

/-- A text that is empty or has a character that is no letter: no keyword. -/
def Marked (s : List Char) : Prop := s = [] ∨ ∃ c ∈ s, ¬ c.isAlpha

theorem Marked.keyword {s : List Char} (marked : Marked s) (nonempty : s ≠ []) :
    Tpm2.keyword s = .ident s := by
  obtain ⟨c, mem, other⟩ := marked.resolve_left nonempty
  have letters (word : List Char) (alpha : word.all Char.isAlpha) : s ≠ word := by
    rintro rfl
    exact other (List.all_eq_true.mp alpha c mem)
  rw [Tpm2.keyword, if_neg (letters _ (by decide)), if_neg (letters _ (by decide))]

theorem toNat_of_isDigit {c : Char} (digit : c.isDigit) : 48 ≤ c.toNat ∧ c.toNat ≤ 57 := by
  simpa [Char.isDigit, UInt32.le_iff_toNat_le] using digit

theorem toNat_of_isAlpha {c : Char} (alpha : c.isAlpha) :
    65 ≤ c.toNat ∧ c.toNat ≤ 90 ∨ 97 ≤ c.toNat ∧ c.toNat ≤ 122 := by
  rcases Bool.or_eq_true_iff.mp alpha with upper | lower
  · have range : 'A'.val ≤ c.val ∧ c.val ≤ 'Z'.val := of_decide_eq_true upper
    exact .inl ⟨UInt32.le_iff_toNat_le.mp range.1, UInt32.le_iff_toNat_le.mp range.2⟩
  · have range := Bool.and_eq_true_iff.mp lower
    exact .inr ⟨UInt32.le_iff_toNat_le.mp (of_decide_eq_true range.1),
      UInt32.le_iff_toNat_le.mp (of_decide_eq_true range.2)⟩

theorem Marked.of_digit {s : List Char} {c : Char} (mem : c ∈ s) (digit : c.isDigit) :
    Marked s := by
  refine .inr ⟨c, mem, fun alpha => ?_⟩
  have := toNat_of_isDigit digit
  have := toNat_of_isAlpha alpha
  omega

/-- Letters and digits end no identifier. -/
theorem isDelimiter_of_isAlphanum {c : Char} (alphanum : c.isAlphanum) : isDelimiter c = false := by
  have range : 48 ≤ c.toNat ∧ c.toNat ≤ 122 := by
    rw [Char.isAlphanum, Bool.or_eq_true] at alphanum
    rcases alphanum with alpha | digit
    · have := toNat_of_isAlpha alpha
      omega
    · have := toNat_of_isDigit digit
      omega
  have noMark : punctuation c = none := by
    have other {d : Char} (low : d.toNat < 48) : c ≠ d := by
      rintro rfl
      omega
    rw [punctuation, if_neg (other (by decide)), if_neg (other (by decide)),
      if_neg (other (by decide))]
  simp only [isDelimiter, isWhitespace, noMark, Option.isSome_none, Bool.or_false]
  simp
  omega

theorem splitOn_append {u t : List Char} (noComma : ',' ∉ u) :
    (u ++ t).splitOn ',' = (t.splitOn ',').modifyHead (u ++ ·) := by
  induction u with
  | nil => cases split : t.splitOn ',' <;> simp [split]
  | cons c u ih =>
      rw [List.mem_cons, not_or] at noComma
      rw [List.cons_append, List.splitOn_cons_eq_if_modifyHead, ih noComma.2,
        if_neg (by simpa using Ne.symm noComma.1), List.modifyHead_modifyHead]
      rfl

/-- Texts of marked pieces join to one of marked pieces. -/
theorem marked_join {s t : List Char} {c : Char} (other : ¬ c.isAlpha) (comma : c ≠ ',')
    (left : ∀ piece ∈ s.splitOn ',', Marked piece)
    (right : ∀ piece ∈ (t.splitOn ',').tail, Marked piece) :
    ∀ piece ∈ (s ++ c :: t).splitOn ',', Marked piece := by
  generalize parts : s.splitOn ',' = pieces at left
  obtain ⟨rfl, some, plain⟩ := splitOn_eq_iff.mp parts
  clear parts
  induction pieces with
  | nil => exact absurd rfl some
  | cons piece pieces ih =>
      rw [List.forall_mem_cons] at plain left
      cases pieces with
      | nil =>
          have noComma : ',' ∉ piece ++ [c] := by simp [plain.1, Ne.symm comma]
          have shape : [','].intercalate [piece] ++ c :: t = piece ++ [c] ++ t := by simp
          rw [shape, splitOn_append noComma]
          cases split : t.splitOn ',' with
          | nil => simp
          | cons head tail =>
              rw [split] at right
              rw [List.modifyHead_cons, List.forall_mem_cons]
              exact ⟨.inr ⟨c, by simp, other⟩, right⟩
      | cons second pieces =>
          rw [List.intercalate_cons_cons, List.append_assoc, List.append_assoc,
            List.singleton_append, List.splitOn_append_cons_self_of_not_mem plain.1,
            List.forall_mem_cons]
          exact ⟨left.1, ih left.2 (by simp) plain.2⟩

theorem digits_toDigits {radix : Nat} (large : 1 < radix) (small : radix ≤ 16) (n : Nat) :
    Digits radix (Nat.toDigits radix n) :=
  digits_of_ofDigits (ofDigits_toDigits large small n)

theorem mem_leftpad {zeros : Nat} {s : List Char} {c : Char} (mem : c ∈ s.leftpad zeros '0') :
    c = '0' ∨ c ∈ s := by
  rcases List.mem_append.mp mem with zero | digit
  · exact .inl (List.eq_of_mem_replicate zero)
  · exact .inr digit

theorem displayBank_chars (hash : TpmAlgId) :
    Marked (displayBank hash) ∧ ∀ c ∈ displayBank hash, c.isAlphanum ∨ c = '-' := by
  unfold displayBank
  split
  · refine ⟨.of_digit (List.mem_append_left _ (by decide : '0' ∈ "0x".toList)) (by decide), ?_⟩
    intro c mem
    rcases List.mem_append.mp mem with lead | digit
    · have known : "0x".toList.all Char.isAlphanum := by decide
      exact .inl (List.all_eq_true.mp known c lead)
    · rcases mem_leftpad digit with rfl | digit
      · exact .inl (by decide)
      · exact .inl (alphanum_of_toDigit (digits_toDigits (by decide) (by decide) _ c digit)).1
  next alg _ =>
    have numbered : alg.display.any Char.isDigit := by
      cases alg <;> decide
    obtain ⟨c, mem, digit⟩ := List.any_eq_true.mp numbered
    exact ⟨.of_digit mem digit, alg.display_chars.2⟩

theorem pcrNumerals_digits {tpms : TpmsPcrSelection} {numeral : List Char}
    (listed : numeral ∈ pcrNumerals tpms) : Digits 10 numeral ∧ numeral ≠ [] := by
  obtain ⟨pcrIndex, -, rfl⟩ := List.mem_map.mp listed
  exact ⟨digits_toDigits (by decide) (by decide) _, Nat.toDigits_ne_nil⟩

theorem pcrNumerals_marked {tpms : TpmsPcrSelection} {numeral : List Char}
    (listed : numeral ∈ pcrNumerals tpms) : Marked numeral := by
  obtain ⟨pcrIndex, -, rfl⟩ := List.mem_map.mp listed
  cases digits : Nat.toDigits 10 pcrIndex.toNat with
  | nil => exact absurd digits Nat.toDigits_ne_nil
  | cons c numeral =>
      have mem : c ∈ Nat.toDigits 10 pcrIndex.toNat := by simp [digits]
      exact .of_digit List.mem_cons_self
        (Nat.isDigit_of_mem_toDigits (by decide) (by decide) mem)

theorem not_mem_pcrNumerals {tpms : TpmsPcrSelection} {c : Char} (other : ¬ c.isAlphanum) :
    ∀ numeral ∈ pcrNumerals tpms, c ∉ numeral := by
  intro numeral listed mem
  exact other (alphanum_of_toDigit ((pcrNumerals_digits listed).1 c mem)).1

theorem not_mem_displayBank (hash : TpmAlgId) {c : Char} (other : ¬ c.isAlphanum)
    (hyphen : c ≠ '-') : c ∉ displayBank hash := by
  intro mem
  rcases (displayBank_chars hash).2 c mem with alphanum | same
  · exact other alphanum
  · exact hyphen same

theorem displaySelection_marked (tpms : TpmsPcrSelection) :
    ∀ piece ∈ (displaySelection tpms).splitOn ',', Marked piece := by
  apply marked_join (by decide) (by decide)
  · have noComma : ',' ∉ displayBank tpms.hash := not_mem_displayBank _ (by decide) (by decide)
    rw [List.splitOn_eq_singleton noComma]
    simpa using (displayBank_chars tpms.hash).1
  · show ∀ piece ∈ (([','].intercalate (pcrNumerals tpms)).splitOn ',').tail, Marked piece
    by_cases none : pcrNumerals tpms = []
    · simp [none]
    · rw [List.splitOn_intercalate ',' (not_mem_pcrNumerals (by decide)) none]
      intro piece listed
      exact pcrNumerals_marked (List.mem_of_mem_tail listed)

theorem displayPcr_marked (hex : Hex) (selections : TpmlPcrSelection)
    (digest : Option Tpm2bDigest) :
    ∀ piece ∈ (displayPcr hex selections digest).splitOn ',', Marked piece := by
  have banks (items : List TpmsPcrSelection) :
      ∀ piece ∈ (['+'].intercalate (items.map displaySelection)).splitOn ',', Marked piece := by
    induction items with
    | nil => simp [Marked]
    | cons first items ih =>
        cases items with
        | nil => simpa using displaySelection_marked first
        | cons second items =>
            rw [List.map_cons, List.map_cons, List.intercalate_cons_cons, List.append_assoc]
            exact marked_join (by decide) (by decide) (displaySelection_marked first)
              fun piece listed => ih piece (List.mem_of_mem_tail listed)
  cases digest with
  | none => simpa [displayPcr, pcrDigestText] using banks selections.items
  | some digest =>
      have noComma : ',' ∉ hex.encode digest.bytes := by
        intro mem
        have alphanum := (alphanum_of_toDigit (hex.digits_encode _ ',' mem)).1
        simp at alphanum
      apply marked_join (by decide) (by decide) (banks selections.items)
      rw [List.splitOn_eq_singleton noComma]
      simp

theorem displayPcr_solid (hex : Hex) (selections : TpmlPcrSelection) (digest : Option Tpm2bDigest)
    {c : Char} (mem : c ∈ displayPcr hex selections digest) (delimiter : isDelimiter c) :
    c = ',' := by
  have other : ¬ c.isAlphanum := by
    intro alphanum
    simp [isDelimiter_of_isAlphanum alphanum] at delimiter
  have unlike {d : Char} (inside : isDelimiter d = false) : c ≠ d := by
    rintro rfl
    simp [inside] at delimiter
  rcases List.mem_append.mp mem with inBanks | inDigest
  · rcases mem_intercalate_cases inBanks with plus | ⟨part, listed, inPart⟩
    · exact absurd (List.mem_singleton.mp plus) (unlike (by decide))
    · obtain ⟨tpms, -, rfl⟩ := List.mem_map.mp listed
      rcases List.mem_append.mp inPart with inBank | inRest
      · exact absurd inBank (not_mem_displayBank tpms.hash other (unlike (by decide)))
      · rcases List.mem_cons.mp inRest with colon | inIndices
        · exact absurd colon (unlike (by decide))
        · rcases mem_intercalate_cases inIndices with comma | ⟨numeral, numbered, inNumeral⟩
          · exact List.mem_singleton.mp comma
          · exact absurd inNumeral (not_mem_pcrNumerals other numeral numbered)
  · cases digest with
    | none => cases inDigest
    | some digest =>
        rcases List.mem_cons.mp inDigest with colon | inHex
        · exact absurd colon (unlike (by decide))
        · exact absurd (alphanum_of_toDigit (hex.digits_encode _ c inHex)).1 other

end Tpm2
