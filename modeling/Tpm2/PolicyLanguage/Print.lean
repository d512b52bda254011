import Tpm2.PolicyLanguage.PcrPrint

/-! The phrases that expressions are printed as. Parsing a printed expression builds along its
phrase; for an expression that was parsed before, that gives the same expression again. -/

namespace Tpm2

open ByteCodec Text

theorem tokenize_displayPcr_isArgument (hex : Hex) (selections : TpmlPcrSelection)
    (digest : Option Tpm2bDigest) :
    ∀ token ∈ tokenize (displayPcr hex selections digest), token.isArgument := by
  intro token listed
  have lexes := lexes_tokenize (displayPcr hex selections digest)
  rcases lexes.mem_pieces (fun _ mem => displayPcr_solid hex selections digest mem) listed with
    rfl | ⟨piece, part, some, rfl⟩
  · rfl
  · rw [(displayPcr_marked hex selections digest piece part).keyword some]
    rfl

theorem flatMap_text_displayPcr (hex : Hex) (selections : TpmlPcrSelection)
    (digest : Option Tpm2bDigest) :
    (tokenize (displayPcr hex selections digest)).flatMap Token.text =
      displayPcr hex selections digest := by
  apply (lexes_tokenize (displayPcr hex selections digest)).flatMap_text
  intro c mem
  by_contra space
  have white : isWhitespace c := by simpa using space
  obtain rfl := displayPcr_solid hex selections digest mem (by simp [isDelimiter, white])
  exact absurd white (by decide)

theorem length_displayHandle (handle : TpmHandle) : (displayHandle handle).length = 8 := by
  have short : (Nat.toDigits 16 handle.value.toNat).length ≤ 8 :=
    (Nat.length_toDigits_le_iff (by decide) (by decide)).mpr handle.value.toNat_lt
  rw [displayHandle, List.length_leftpad]
  omega

theorem displayHandle_digits (handle : TpmHandle) : Digits 16 (displayHandle handle) := by
  intro c mem
  rcases mem_leftpad mem with rfl | digit
  · rfl
  · exact digits_toDigits (by decide) (by decide) _ c digit

namespace Operator

/-- A primary as an operand. -/
def operandOf : (operator : Operator) → Phrase .primary → Phrase operator.operand
  | and, phrase => phrase
  | or, phrase => .single phrase

/-- A chain in parentheses. -/
def enclose : (operator : Operator) → Phrase (.chain operator) → Phrase .primary
  | and, phrase => .group (.single phrase)
  | or, phrase => .group phrase

/-- The chain of operands. -/
def chainOf (operator : Operator) (first : Phrase .primary) (others : List (Phrase .primary)) :
    Phrase (.chain operator) :=
  others.foldl (fun lhs rhs => .chain lhs (operator.operandOf rhs))
    (.single (operator.operandOf first))

/-- The phrase of a printed chain. An empty one is printed as no phrase. -/
def print (operator : Operator) : List (Phrase .primary) → Phrase .primary
  | [] => .pcr [] (by simp)
  | first :: others => operator.enclose (operator.chainOf first others)

end Operator

/-- A primary as an expression. -/
def Phrase.top (phrase : Phrase .primary) : Phrase (.chain .or) :=
  .single (.single phrase : Phrase (.chain .and))

theorem Phrase.built_top (hex : Hex) (context : TpmPolicyContext) (phrase : Phrase .primary) :
    phrase.top.built hex context = phrase.built hex context := rfl

@[simp] theorem Phrase.yield_top (phrase : Phrase .primary) : phrase.top.yield = phrase.yield := rfl

namespace TpmPolicyExpression

mutual

/-- The phrase that an expression is printed as. -/
def printed (hex : Hex) : TpmPolicyExpression → Phrase .primary
  | pcr selections digest =>
      .pcr (tokenize (displayPcr hex selections digest))
        (tokenize_displayPcr_isArgument hex selections digest)
  | secret authHandle copyRef => .secret (authHandle.printed hex).top (copyRefText hex copyRef)
  | and expressions => Operator.and.print (printedAll hex expressions)
  | or expressions => Operator.or.print (printedAll hex expressions)
  | handle value =>
      .literal (displayHandle value) (by
        have length := length_displayHandle value
        constructor <;> intro same <;> rw [same] at length <;> cases length)

def printedAll (hex : Hex) : List TpmPolicyExpression → List (Phrase .primary)
  | [] => []
  | expression :: expressions => expression.printed hex :: printedAll hex expressions

end

end TpmPolicyExpression

theorem Lexes.word_of {s : List Char} (word : Word s) (plain : keyword s = .ident s) :
    Lexes s [.ident s] := by
  have lexes : Lexes (s ++ []) [keyword s] := .ident word.1 word.2 (by simp [Bounded]) .done
  rwa [List.append_nil, plain] at lexes

theorem word_of_chars {s : List Char} (nonempty : s ≠ [])
    (alphanum : ∀ c ∈ s, c.isAlphanum) : Word s :=
  ⟨nonempty, fun c mem => isDelimiter_of_isAlphanum (alphanum c mem)⟩

theorem lexes_displayHandle (handle : TpmHandle) :
    Lexes (displayHandle handle) [.ident (displayHandle handle)] := by
  have length := length_displayHandle handle
  apply Lexes.word_of
  · apply word_of_chars
    · intro empty
      rw [empty] at length
      cases length
    · exact fun c mem => (alphanum_of_toDigit (displayHandle_digits handle c mem)).1
  · rw [keyword, if_neg, if_neg]
    · intro same
      rw [same] at length
      cases length
    · intro same
      rw [same] at length
      cases length

theorem lexes_displayCopyRef (hex : Hex) (copyRef : Option Tpm2bDigest) :
    Lexes (displayCopyRef hex copyRef) (Phrase.copyRefTokens (copyRefText hex copyRef)) := by
  cases copyRef with
  | none => exact .done
  | some digest =>
      have inside : ∀ c ∈ "copy_ref:".toList ++ hex.encode digest.bytes, isDelimiter c = false := by
        intro c mem
        rcases List.mem_append.mp mem with key | digit
        · have known : Word "copy_ref:".toList := by decide
          exact known.2 c key
        · exact isDelimiter_of_isAlphanum (alphanum_of_toDigit (hex.digits_encode _ c digit)).1
      have marked : Marked ("copy_ref:".toList ++ hex.encode digest.bytes) :=
        .inr ⟨':', by simp, by decide⟩
      exact .punctuation rfl (.whitespace rfl
        (.word_of ⟨by simp, inside⟩ (marked.keyword (by simp))))

namespace Operator

/-- What is printed between the operands of a chain. -/
def separator : Operator → List Char
  | and => " and ".toList
  | or => " or ".toList

theorem yield_operandOf (operator : Operator) (phrase : Phrase .primary) :
    (operator.operandOf phrase).yield = phrase.yield := by
  cases operator <;> rfl

theorem yield_enclose (operator : Operator) (phrase : Phrase (.chain operator)) :
    (operator.enclose phrase).yield = .lparen :: phrase.yield ++ [.rparen] := by
  cases operator <;> rfl

theorem yield_chainOf (operator : Operator) (first : Phrase .primary)
    (others : List (Phrase .primary)) :
    (operator.chainOf first others).yield =
      first.yield ++ others.flatMap fun other => operator.token :: other.yield := by
  have extended (lhs : Phrase (.chain operator)) :
      (others.foldl (fun lhs rhs => .chain lhs (operator.operandOf rhs)) lhs).yield =
        lhs.yield ++ others.flatMap fun other => operator.token :: other.yield := by
    induction others generalizing lhs with
    | nil => simp
    | cons other others ih => simp [ih, Phrase.yield, yield_operandOf]
  rw [chainOf, extended, Phrase.yield, yield_operandOf]

/-- An operator is lexed between white space. -/
theorem lexes_separator (operator : Operator) {text : List Char} {tokens : List Token}
    (lexes : Lexes text tokens) :
    Lexes (operator.separator ++ text) (operator.token :: tokens) := by
  have spaced : Lexes (' ' :: text) tokens := .whitespace rfl lexes
  cases operator with
  | and =>
      have spelled : Word "and".toList := by decide
      have word : Lexes ("and".toList ++ ' ' :: text) (keyword "and".toList :: tokens) :=
        .ident spelled.1 spelled.2 (by simp [Bounded, isDelimiter, isWhitespace]) spaced
      exact .whitespace rfl word
  | or =>
      have spelled : Word "or".toList := by decide
      have word : Lexes ("or".toList ++ ' ' :: text) (keyword "or".toList :: tokens) :=
        .ident spelled.1 spelled.2 (by simp [Bounded, isDelimiter, isWhitespace]) spaced
      exact .whitespace rfl word

theorem separator_bounded (operator : Operator) (text : List Char) :
    Bounded (operator.separator ++ text) := by
  cases operator <;> simp [Bounded, separator, isDelimiter, isWhitespace]

/-- Operands that are lexed are lexed between separators. -/
theorem lexes_intercalate (operator : Operator) {text : List Char} {texts : List (List Char)}
    {first : Phrase .primary} {others : List (Phrase .primary)}
    (lexesFirst : Lexes text first.yield)
    (lexesOthers : List.Forall₂ (fun text phrase => Lexes text phrase.yield) texts others) :
    Lexes (operator.separator.intercalate (text :: texts))
      (operator.chainOf first others).yield := by
  rw [yield_chainOf]
  induction lexesOthers generalizing text first with
  | nil => simpa using lexesFirst
  | @cons text' other texts others lexesOther rest ih =>
      rw [List.intercalate_cons_cons, List.flatMap_cons, List.append_assoc]
      exact lexesFirst.append (operator.separator_bounded _)
        (operator.lexes_separator (ih lexesOther))

/-- A printed chain is lexed as the phrase of a chain. -/
theorem lexes_print (operator : Operator) {texts : List (List Char)}
    {phrases : List (Phrase .primary)} (nonempty : texts ≠ [])
    (lexes : List.Forall₂ (fun text phrase => Lexes text phrase.yield) texts phrases) :
    Lexes ('(' :: operator.separator.intercalate texts ++ [')'])
      (operator.print phrases).yield := by
  cases lexes with
  | nil => exact absurd rfl nonempty
  | cons first others =>
      have closing : Lexes [')'] [.rparen] := .punctuation rfl .done
      rw [print, yield_enclose]
      exact .punctuation rfl ((operator.lexes_intercalate first others).append
        (by simp [Bounded, isDelimiter, punctuation]) closing)

end Operator

theorem TpmPolicyExpression.length_displayAll (hex : Hex)
    (expressions : List TpmPolicyExpression) :
    (displayAll hex expressions).length = expressions.length := by
  induction expressions with
  | nil => rfl
  | cons expression expressions ih => simp [displayAll, ih]

/-- A call is lexed as its name and its arguments in parentheses. -/
theorem lexes_call {name arguments : List Char} {tokens : List Token} (word : Word name)
    (plain : keyword name = .ident name) (lexes : Lexes arguments tokens) :
    Lexes (name ++ '(' :: (arguments ++ [')'])) (.ident name :: .lparen ::
      (tokens ++ [.rparen])) := by
  have closing : Lexes [')'] [.rparen] := .punctuation rfl .done
  have inner : Lexes ('(' :: (arguments ++ [')'])) (.lparen :: (tokens ++ [.rparen])) :=
    .punctuation rfl (lexes.append (by simp [Bounded, isDelimiter, punctuation]) closing)
  rw [← plain]
  exact .ident word.1 word.2 (by simp [Bounded, isDelimiter, punctuation]) inner

namespace TpmPolicyExpression

mutual

/-- A printed expression is lexed as the tokens of its phrase. -/
theorem lexes_display (hex : Hex) (expression : TpmPolicyExpression)
    (branched : expression.Branched) :
    Lexes (expression.display hex) (expression.printed hex).yield := by
  cases expression with
  | pcr selections digest =>
      have word : Word "pcr".toList := by decide
      have call := lexes_call word (by decide)
        (lexes_tokenize (displayPcr hex selections digest))
      rw [display_pcr, printed, Phrase.yield]
      simpa using call
  | secret authHandle copyRef =>
      have object := lexes_display hex authHandle branched
      have bounded : Bounded (displayCopyRef hex copyRef) := by
        cases copyRef <;> simp [Bounded, displayCopyRef, copyRefText, isDelimiter, punctuation]
      have word : Word "secret".toList := by decide
      have call := lexes_call word (by decide)
        (object.append bounded (lexes_displayCopyRef hex copyRef))
      rw [display_secret, printed, Phrase.yield]
      simpa using call
  | and branches =>
      have nonempty : displayAll hex branches ≠ [] := by
        rw [← List.length_pos_iff, length_displayAll]
        exact Nat.lt_of_lt_of_le (by decide) branched.1
      exact Operator.and.lexes_print nonempty (lexes_displayAll hex branches branched.2)
  | or branches =>
      have nonempty : displayAll hex branches ≠ [] := by
        rw [← List.length_pos_iff, length_displayAll]
        exact Nat.lt_of_lt_of_le (by decide) branched.1
      exact Operator.or.lexes_print nonempty (lexes_displayAll hex branches branched.2)
  | handle value => exact lexes_displayHandle value

theorem lexes_displayAll (hex : Hex) (expressions : List TpmPolicyExpression)
    (branched : BranchedAll expressions) :
    List.Forall₂ (fun text phrase => Lexes text phrase.yield) (displayAll hex expressions)
      (printedAll hex expressions) := by
  cases expressions with
  | nil => exact .nil
  | cons expression expressions =>
      exact .cons (lexes_display hex expression branched.1)
        (lexes_displayAll hex expressions branched.2)

end

end TpmPolicyExpression

/-- Parsing a printed expression builds along its phrase. -/
theorem parse_toString {hex : Hex} {context : TpmPolicyContext} {expression : TpmPolicyExpression}
    (branched : expression.Branched) :
    TpmPolicyExpression.parse hex context (expression.toString hex) =
      (expression.printed hex).built hex context := by
  have yields : (expression.printed hex).top.yield =
      tokenize (expression.toString hex).toList := by
    rw [TpmPolicyExpression.toString, String.toList_ofList]
    exact (lexes_iff.mp (expression.lexes_display hex branched)).symm
  exact Phrase.parse_of_yield yields

section
variable {hex : Hex} {context : TpmPolicyContext}

namespace Operator

/-- What a chain is built from when an operand is added. -/
def builtWith (hex : Hex) (context : TpmPolicyContext) (operator : Operator)
    (lhs : TpmPolicyExpression) (phrase : Phrase .primary) :
    Except TpmPolicyError TpmPolicyExpression := do
  let rhs ← phrase.built hex context
  return operator.combine lhs rhs

theorem built_operandOf (operator : Operator) (phrase : Phrase .primary) :
    (operator.operandOf phrase).built hex context = phrase.built hex context := by
  cases operator <;> rfl

theorem built_enclose (operator : Operator) (phrase : Phrase (.chain operator)) :
    (operator.enclose phrase).built hex context = phrase.built hex context := by
  cases operator <;> rfl

theorem built_print (operator : Operator) (first : Phrase .primary)
    (others : List (Phrase .primary)) :
    (operator.print (first :: others)).built hex context =
      first.built hex context >>= fun lhs =>
        others.foldlM (operator.builtWith hex context) lhs := by
  have extended (lhs : Phrase (.chain operator)) :
      (others.foldl (fun lhs rhs => .chain lhs (operator.operandOf rhs)) lhs).built hex context =
        lhs.built hex context >>= fun node =>
          others.foldlM (operator.builtWith hex context) node := by
    induction others generalizing lhs with
    | nil => simp
    | cons other others ih =>
        rw [List.foldl_cons, ih, Phrase.built, built_operandOf]
        simp only [bind_assoc, List.foldlM_cons, builtWith]
  rw [print, built_enclose, chainOf, extended, Phrase.built, built_operandOf]

/-- One more branch is combined with what the others are built to. -/
theorem built_print_append (operator : Operator) {phrases : List (Phrase .primary)}
    (nonempty : phrases ≠ []) (last : Phrase .primary) :
    (operator.print (phrases ++ [last])).built hex context =
      (operator.print phrases).built hex context >>= fun lhs =>
        operator.builtWith hex context lhs last := by
  cases phrases with
  | nil => exact absurd rfl nonempty
  | cons first others =>
      rw [List.cons_append, built_print, built_print]
      simp [List.foldlM_append]

end Operator

theorem fromStrRadix_displayHandle (handle : TpmHandle) :
    fromStrRadix (2 ^ 32) 16 (displayHandle handle) = some handle.value.toNat := by
  have length := length_displayHandle handle
  have nonempty : displayHandle handle ≠ [] := by
    intro empty
    rw [empty] at length
    cases length
  have value : ofDigits 16 (displayHandle handle) = some handle.value.toNat := by
    rw [displayHandle, List.leftpad, ofDigits_zeros (by decide),
      ofDigits_toDigits (by decide) (by decide)]
  exact fromStrRadix_of_ofDigits nonempty value handle.value.toNat_lt

/-- A printed handle is read if and only if it has a type. -/
theorem parseLiteral_displayHandle {handle : TpmHandle} {expression : TpmPolicyExpression} :
    parseLiteral (displayHandle handle) = .ok expression ↔
      (∃ ht : TpmHt, TpmEnum.value ht = (handle.value >>> 24).toUInt8) ∧
        expression = .handle handle := by
  rw [parseLiteral_eq_ok, fromStrRadix_displayHandle, (displayHandle_digits handle).utf8Size,
    length_displayHandle]
  constructor
  · rintro ⟨-, object, read, type, rfl⟩
    have value := UInt32.toNat_inj.mp (Option.some.inj read)
    have same : handle = object := by
      rw [← TpmInt.new_value handle, value, TpmInt.new_value]
    rw [same]
    exact ⟨type, rfl⟩
  · rintro ⟨type, rfl⟩
    exact ⟨rfl, handle, rfl, type, rfl⟩

theorem TpmPolicyExpression.printedAll_eq_map (expressions : List TpmPolicyExpression) :
    printedAll hex expressions = expressions.map (printed hex) := by
  induction expressions with
  | nil => rfl
  | cons expression expressions ih => rw [printedAll, ih, List.map_cons]

theorem TpmPolicyExpression.branchedAll_iff {expressions : List TpmPolicyExpression} :
    BranchedAll expressions ↔ ∀ expression ∈ expressions, expression.Branched := by
  induction expressions with
  | nil => simp [BranchedAll]
  | cons expression expressions ih => rw [BranchedAll, ih, List.forall_mem_cons]

theorem printed_expression (operator : Operator) (branches : List TpmPolicyExpression) :
    (operator.expression branches).printed hex =
      operator.print (branches.map (TpmPolicyExpression.printed hex)) := by
  rw [← TpmPolicyExpression.printedAll_eq_map]
  cases operator <;> rfl

theorem branched_expression {operator : Operator} {branches : List TpmPolicyExpression} :
    (operator.expression branches).Branched ↔
      2 ≤ branches.length ∧ ∀ branch ∈ branches, branch.Branched := by
  rw [← TpmPolicyExpression.branchedAll_iff]
  cases operator <;> rfl

theorem exists_of_forall₂ {α β : Type} {R : α → β → Prop} {l : List α} {m : List β}
    (related : List.Forall₂ R l m) {b : β} (mem : b ∈ m) : ∃ a, R a b := by
  induction related with
  | nil => cases mem
  | cons first others ih =>
      rcases List.mem_cons.mp mem with rfl | later
      · exact ⟨_, first⟩
      · exact ih later

theorem builtCopyRef_copyRefText {copyRef : Option Tpm2bDigest} (present : copyRef ≠ some .new) :
    Phrase.builtCopyRef hex (copyRefText hex copyRef) = .ok copyRef := by
  cases copyRef with
  | none => rfl
  | some digest =>
      exact parseCopyRef_eq_ok.mpr ⟨_, rfl, hex.digits_encode _, hex.decode_encode _, present⟩

theorem builtCopyRef_ne_new {text : Option (List Char)} {copyRef : Option Tpm2bDigest}
    (built : Phrase.builtCopyRef hex text = .ok copyRef) : copyRef ≠ some .new := by
  cases text with
  | none =>
      cases built
      simp
  | some s =>
      obtain ⟨-, -, -, -, nonempty⟩ := parseCopyRef_eq_ok.mp built
      exact nonempty

/-- What is built along a phrase is printed as a phrase along which it is built again. -/
theorem Phrase.built_printed {level : Level} {phrase : Phrase level}
    {expression : TpmPolicyExpression} (built : phrase.built hex context = .ok expression) :
    expression.Branched ∧ (expression.printed hex).built hex context = .ok expression := by
  induction phrase generalizing expression with
  | literal s plain =>
      obtain ⟨-, handle, -, type, rfl⟩ := parseLiteral_eq_ok.mp built
      exact ⟨trivial, parseLiteral_displayHandle.mpr ⟨type, rfl⟩⟩
  | pcr tokens plain =>
      obtain ⟨argument, selections, digest, -, denotes, rfl⟩ := parsePcrText_eq_ok.mp built
      refine ⟨trivial, ?_⟩
      have nonempty : selections.items ≠ [] := by
        intro none
        have banks := denotes.banks
        rw [none, List.forall₂_nil_right_iff] at banks
        exact argument.nonempty banks
      have each : ∀ tpms ∈ selections.items, tpms.Readable context ∧ tpms.Sized context := by
        intro tpms listed
        obtain ⟨bank, bankDenotes⟩ := exists_of_forall₂ denotes.banks listed
        exact bankDenotes.readable
      have readable : selections.Readable context :=
        ⟨denotes.size, nonempty, fun tpms listed => (each tpms listed).1⟩
      have resizes := readable.resized fun tpms listed => (each tpms listed).2
      show parsePcrText hex context ((tokenize _).flatMap Token.text) = _
      rw [flatMap_text_displayPcr]
      exact parsePcrText_displayPcr.mpr ⟨readable, selections, resizes, rfl⟩
  | secret authHandle copyRef ih =>
      obtain ⟨object, builtObject, built⟩ := bind_eq_ok.mp built
      obtain ⟨reference, builtRef, same⟩ := bind_eq_ok.mp built
      cases same
      obtain ⟨branched, again⟩ := ih (mapError_eq_ok.mp builtObject)
      refine ⟨branched, ?_⟩
      rw [TpmPolicyExpression.printed, Phrase.built, Phrase.built_top, again,
        builtCopyRef_copyRefText (builtCopyRef_ne_new builtRef)]
      rfl
  | group inner ih => exact ih built
  | single operand ih => exact ih built
  | @chain operator lhs rhs ihLhs ihRhs =>
      obtain ⟨left, builtLhs, built⟩ := bind_eq_ok.mp built
      obtain ⟨right, builtRhs, same⟩ := bind_eq_ok.mp built
      cases same
      obtain ⟨branchedLeft, againLeft⟩ := ihLhs builtLhs
      obtain ⟨branchedRight, againRight⟩ := ihRhs builtRhs
      by_cases extends_ : ∃ others, left = operator.expression others
      · obtain ⟨others, rfl⟩ := extends_
        obtain ⟨two, branched⟩ := branched_expression.mp branchedLeft
        have nonempty : others.map (TpmPolicyExpression.printed hex) ≠ [] := by
          rw [Ne, List.map_eq_nil_iff, ← List.length_eq_zero_iff]
          omega
        rw [Operator.combine_expression]
        constructor
        · apply branched_expression.mpr
          refine ⟨by simp; omega, ?_⟩
          intro branch listed
          rcases List.mem_append.mp listed with earlier | last
          · exact branched branch earlier
          · rw [List.mem_singleton.mp last]
            exact branchedRight
        · rw [printed_expression] at againLeft
          rw [printed_expression, List.map_append, List.map_singleton,
            operator.built_print_append nonempty, againLeft]
          show operator.builtWith hex context _ _ = _
          rw [Operator.builtWith, againRight, ← Operator.combine_expression]
          rfl
      · rw [Operator.combine_other (by simpa using extends_)]
        constructor
        · apply branched_expression.mpr
          simp [branchedLeft, branchedRight]
        · rw [printed_expression, List.map_cons, List.map_singleton, Operator.built_print,
            againLeft, ← Operator.combine_other (by simpa using extends_)]
          show ([_].foldlM (operator.builtWith hex context) left) = _
          simp only [List.foldlM_cons, List.foldlM_nil, Operator.builtWith, againRight, bind_assoc]
          rfl

/-- Printing a parsed policy loses nothing. -/
theorem parse_toString_parse {input : String} {expression : TpmPolicyExpression}
    (ok : TpmPolicyExpression.parse hex context input = .ok expression) :
    TpmPolicyExpression.parse hex context (expression.toString hex) = .ok expression := by
  obtain ⟨phrase, -, built⟩ := parse_eq_ok.mp ok
  obtain ⟨branched, again⟩ := Phrase.built_printed built
  rw [parse_toString branched, again]

end

/-- A context with one bank of one PCR. -/
def singlePcrContext : TpmPolicyContext :=
  ⟨∅, AList.insert .sha256 (AList.insert 0 .new ∅) ∅, 1⟩

theorem parse_toString_parse_sample : ∃ expression,
    TpmPolicyExpression.parse .lower singlePcrContext
        "pcr( sha256:0 ) and (secret(40000001, copy_ref:aB) or secret(4000000b))" =
      .ok expression ∧
    TpmPolicyExpression.parse .lower singlePcrContext (expression.toString .lower) =
      .ok expression := by
  have parsed : ∃ expression, TpmPolicyExpression.parse .lower singlePcrContext
      "pcr( sha256:0 ) and (secret(40000001, copy_ref:aB) or secret(4000000b))" =
        .ok expression := ⟨_, rfl⟩
  obtain ⟨expression, ok⟩ := parsed
  exact ⟨expression, ok, parse_toString_parse ok⟩

end Tpm2
