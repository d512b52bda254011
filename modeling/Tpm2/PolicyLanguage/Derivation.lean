import Tpm2.PolicyLanguage.Phrase

/-! The grammar of the policy language, and which of the accepted texts it derives. -/

namespace Tpm2

open ByteCodec Text

/-- The punctuation within the argument of `pcr(...)`. -/
def isMark (c : Char) : Bool := c = ':' || c = '+' || c = ','

/-- Two characters that meet belong to one name or number. -/
def meets (c d : Char) : Bool := !isMark c && !isMark d

/-- The names, the numbers and the marks of a text. -/
def symbols (s : List Char) : List (List Char) := s.splitBy meets

/-- A chain of operands. -/
def Operator.expression : Operator → List TpmPolicyExpression → TpmPolicyExpression
  | and, branches => .and branches
  | or, branches => .or branches

/-- A handle literal has eight hexadecimal digits, and its first byte is a handle type. -/
def HandleLiteral (s : List Char) (handle : TpmHandle) : Prop :=
  s.length = 8 ∧ Digits 16 s ∧ ofDigits 16 s = some handle.value.toNat ∧
    ∃ ht : TpmHt, TpmEnum.value ht = (handle.value >>> 24).toUInt8

/-- An optional policy reference `copy_ref:hex`; one of no digits is none. -/
def CopyRefText (hex : Hex) : Option (List Char) → Option Tpm2bDigest → Prop
  | none, copyRef => copyRef = none
  | some s, copyRef => ∃ value, s = "copy_ref:".toList ++ value ∧ Digits 16 value ∧
      hex.decode value = some (copyRef.getD .new).bytes ∧ copyRef ≠ some .new

/-- The grammar: what expression a derivation tree stands for. -/
inductive Derives (hex : Hex) (context : TpmPolicyContext) :
    {level : Level} → Phrase level → TpmPolicyExpression → Prop
  | literal {s plain handle} (digits : HandleLiteral s handle) :
      Derives hex context (.literal s plain) (.handle handle)
  | pcr {tokens plain selections digest} (argument : PcrText)
      (text : argument.text = tokens.flatMap Token.text)
      (denotes : argument.Denotes hex context selections digest)
      -- No two tokens make one symbol.
      (apart : symbols argument.text = tokens.flatMap fun token => symbols token.text) :
      Derives hex context (.pcr tokens plain) (.pcr selections digest)
  | secret {authHandle expression text copyRef} (object : Derives hex context authHandle expression)
      (reference : CopyRefText hex text copyRef) :
      Derives hex context (.secret authHandle text) (.secret expression copyRef)
  | group {inner expression} (enclosed : Derives hex context inner expression) :
      Derives hex context (.group inner) expression
  | single {operator : Operator} {operand : Phrase operator.operand} {expression}
      (only : Derives hex context operand expression) :
      Derives hex context (.single operand) expression
  | pair {operator : Operator} {first second : Phrase operator.operand} {lhs rhs}
      (left : Derives hex context first lhs) (right : Derives hex context second rhs) :
      Derives hex context (.chain (.single first) second) (operator.expression [lhs, rhs])
  | more {operator : Operator} {chain : Phrase (.chain operator)}
      {last next : Phrase operator.operand} {branches rhs}
      (left : Derives hex context (.chain chain last) (operator.expression branches))
      (right : Derives hex context next rhs) :
      Derives hex context (.chain (.chain chain last) next)
        (operator.expression (branches ++ [rhs]))

/-- A text is derivable, with an expression as what its derivation stands for. -/
def Derivable (hex : Hex) (context : TpmPolicyContext) (input : String)
    (expression : TpmPolicyExpression) : Prop :=
  ∃ phrase : Phrase (.chain .or), Lexes input.toList phrase.yield ∧
    Derives hex context phrase expression

namespace Phrase

/-- A phrase is a chain of an operator, in any number of parentheses. -/
def IsChain (operator : Operator) : {level : Level} → Phrase level → Prop
  | .chain other, chain _ _ => other = operator
  | _, group inner => inner.IsChain operator
  | _, single operand => operand.IsChain operator
  | _, _ => False

/-- The first operand of a chain is a chain of the same operator in parentheses. -/
def Regroups {operator : Operator} : Phrase (.chain operator) → Prop
  | single operand => operand.IsChain operator
  | chain _ _ => False

/-- A plain text: no literal has a sign, two tokens of a `pcr` argument that meet do so at a mark,
and no chain begins with one of its operator in parentheses. -/
def Plain : {level : Level} → Phrase level → Prop
  | _, literal s _ => s.head? ≠ some '+'
  | _, pcr argument _ => (argument.map Token.text).IsChain fun u v =>
      ∀ c ∈ u.getLast?, ∀ d ∈ v.head?, meets c d = false
  | _, secret authHandle _ => authHandle.Plain
  | _, group inner => inner.Plain
  | _, single operand => operand.Plain
  | _, chain lhs rhs => lhs.Plain ∧ rhs.Plain ∧ ¬ lhs.Regroups

end Phrase

namespace Operator

theorem expression_inj {operator operator' : Operator}
    {branches branches' : List TpmPolicyExpression}
    (same : operator.expression branches = operator'.expression branches') :
    operator = operator' ∧ branches = branches' := by
  cases operator <;> cases operator' <;> cases same <;> exact ⟨rfl, rfl⟩

theorem combine_expression (operator : Operator) (branches : List TpmPolicyExpression)
    (rhs : TpmPolicyExpression) :
    operator.combine (operator.expression branches) rhs =
      operator.expression (branches ++ [rhs]) := by
  cases operator <;> rfl

theorem combine_other {operator : Operator} {lhs : TpmPolicyExpression}
    (other : ∀ branches, lhs ≠ operator.expression branches) (rhs : TpmPolicyExpression) :
    operator.combine lhs rhs = operator.expression [lhs, rhs] := by
  cases operator with
  | and =>
      cases lhs with
      | and factors => exact absurd rfl (other factors)
      | _ => rfl
  | or =>
      cases lhs with
      | or terms => exact absurd rfl (other terms)
      | _ => rfl

end Operator

section
variable {hex : Hex} {context : TpmPolicyContext}

theorem parseLiteral_eq_ok {s : List Char} {expression : TpmPolicyExpression} :
    parseLiteral s = .ok expression ↔ (s.map Char.utf8Size).sum = 8 ∧ ∃ handle : TpmHandle,
      fromStrRadix (2 ^ 32) 16 s = some handle.value.toNat ∧
      (∃ ht : TpmHt, TpmEnum.value ht = (handle.value >>> 24).toUInt8) ∧
      expression = .handle handle := by
  unfold parseLiteral
  constructor
  · intro ok
    split at ok
    · cases ok
    next length =>
      split at ok
      · cases ok
      next raw read =>
        obtain ⟨ht, typed, ok⟩ := bind_eq_ok.mp ok
        cases ok
        obtain ⟨-, -, -, -, fits⟩ := fromStrRadix_eq_some.mp read
        have toNat : (UInt32.ofNat raw).toNat = raw := UInt32.toNat_ofNat_of_lt' fits
        refine ⟨by simpa using length, .new (UInt32.ofNat raw), ?_, ⟨ht, ?_⟩, rfl⟩
        · rw [TpmInt.value_new, toNat, read]
        · rw [TpmInt.value_new]
          exact (TpmEnum.tryFrom_eq_ok.mp (mapError_eq_ok.mp typed)).symm
  · rintro ⟨length, handle, read, ⟨ht, type⟩, rfl⟩
    rw [if_neg (by simpa using length), read]
    simp only [UInt32.ofNat_toNat, TpmEnum.tryFrom_eq_ok.mpr type.symm, TpmInt.new_value]
    rfl

theorem parseCopyRef_eq_ok {s : List Char} {copyRef : Option Tpm2bDigest} :
    parseCopyRef hex s = .ok copyRef ↔ CopyRefText hex (some s) copyRef := by
  constructor
  · intro ok
    unfold parseCopyRef at ok
    split at ok
    · cases ok
    next key value split =>
      obtain ⟨rfl, -⟩ := splitOnce_eq_some.mp split
      split at ok
      · cases ok
      next named =>
        obtain rfl := not_not.mp named
        split at ok
        next => cases ok
        next decoded =>
          cases ok
          exact ⟨value, rfl, hex.digits_of_decode decoded, decoded, by simp⟩
        next bytes some decoded =>
          obtain ⟨digest, fits, ok⟩ := bind_eq_ok.mp ok
          cases ok
          obtain ⟨-, -, rfl⟩ := TpmBuffer.tryFrom_eq_ok.mp (mapError_eq_ok.mp fits)
          refine ⟨value, rfl, hex.digits_of_decode decoded, decoded, ?_⟩
          rintro ⟨⟩
          exact some rfl
  · rintro ⟨value, rfl, -, decoded, some⟩
    have split : splitOnce ':' ("copy_ref:".toList ++ value) = .some ("copy_ref".toList, value) :=
      splitOnce_eq_some.mpr ⟨rfl, by decide⟩
    rw [parseCopyRef, split]
    cases copyRef with
    | none => simp [decoded, TpmBuffer.new]
    | some digest =>
        have read : TpmBuffer.tryFrom digest.bytes = .ok digest :=
          TpmBuffer.tryFrom_eq_ok.mpr ⟨digest.length_le, digest.length_le_u16, rfl⟩
        cases bytes : digest.bytes with
        | nil => exact absurd (congrArg Option.some (TpmBuffer.ext bytes)) some
        | cons byte bytes =>
            rw [Option.getD_some, bytes] at decoded
            rw [bytes] at read
            simp only [decoded, read]
            rfl

namespace Phrase

/-- A chain is built from a chain, and it has at least two branches. -/
theorem isChain_of_built {level : Level} {phrase : Phrase level} {operator : Operator}
    {branches : List TpmPolicyExpression}
    (built : phrase.built hex context = .ok (operator.expression branches)) :
    phrase.IsChain operator ∧ 2 ≤ branches.length := by
  induction phrase generalizing operator branches with
  | literal s plain =>
      obtain ⟨-, handle, -, -, same⟩ := parseLiteral_eq_ok.mp built
      cases operator <;> cases same
  | pcr argument plain =>
      obtain ⟨-, selections, digest, -, -, same⟩ := parsePcrText_eq_ok.mp built
      cases operator <;> cases same
  | secret authHandle copyRef ih =>
      obtain ⟨object, -, built⟩ := bind_eq_ok.mp built
      obtain ⟨reference, -, same⟩ := bind_eq_ok.mp built
      cases operator <;> cases same
  | group inner ih => exact ih built
  | single operand ih => exact ih built
  | @chain other lhs rhs ihLhs ihRhs =>
      obtain ⟨left, builtLhs, built⟩ := bind_eq_ok.mp built
      obtain ⟨right, -, same⟩ := bind_eq_ok.mp built
      have combined : other.combine left right = operator.expression branches :=
        Except.ok.inj same
      by_cases extends_ : ∃ others, left = other.expression others
      · obtain ⟨others, rfl⟩ := extends_
        rw [Operator.combine_expression] at combined
        obtain ⟨rfl, rfl⟩ := Operator.expression_inj combined
        have := (ihLhs builtLhs).2
        exact ⟨rfl, by simp; omega⟩
      · rw [Operator.combine_other (by simpa using extends_)] at combined
        obtain ⟨rfl, rfl⟩ := Operator.expression_inj combined
        exact ⟨rfl, by simp⟩

theorem chain_isChain {operator : Operator} (lhs : Phrase (.chain operator))
    (rhs : Phrase operator.operand) : (chain lhs rhs).IsChain operator := rfl

theorem built_of_isChain {level : Level} {phrase : Phrase level} {operator : Operator}
    (isChain : phrase.IsChain operator) {expression : TpmPolicyExpression}
    (built : phrase.built hex context = .ok expression) :
    ∃ branches, expression = operator.expression branches := by
  induction phrase generalizing expression with
  | literal s plain => cases isChain
  | pcr argument plain => cases isChain
  | secret authHandle copyRef ih => cases isChain
  | group inner ih => exact ih isChain built
  | single operand ih => exact ih isChain built
  | @chain other lhs rhs ihLhs ihRhs =>
      obtain rfl : other = operator := isChain
      obtain ⟨left, builtLhs, built⟩ := bind_eq_ok.mp built
      obtain ⟨right, -, same⟩ := bind_eq_ok.mp built
      cases same
      by_cases extends_ : ∃ others, left = other.expression others
      · obtain ⟨others, rfl⟩ := extends_
        exact ⟨_, Operator.combine_expression ..⟩
      · exact ⟨_, Operator.combine_other (by simpa using extends_) right⟩

/-- Tokens make no common symbol if and only if they meet at marks. -/
theorem symbols_iff {argument : List Token} (words : ∀ token ∈ argument, token.text ≠ []) :
    symbols (argument.flatMap Token.text) =
        argument.flatMap (fun token => symbols token.text) ↔
      (argument.map Token.text).IsChain fun u v =>
        ∀ c ∈ u.getLast?, ∀ d ∈ v.head?, meets c d = false := by
  have nonempty : [] ∉ argument.map Token.text := by
    simpa using words
  rw [← splitBy_flatten_iff nonempty, ← List.flatMap_def, List.flatMap_map]
  rfl

/-- Every token of a phrase has a text. -/
def Worded {level : Level} (phrase : Phrase level) : Prop := ∀ token ∈ phrase.yield, token.text ≠ []

theorem Worded.argument {tokens : List Token} {plain : ∀ token ∈ tokens, token.isArgument}
    (worded : (pcr tokens plain).Worded) : ∀ token ∈ tokens, token.text ≠ [] := by
  intro token listed
  apply worded token
  simp [yield, listed]

theorem Worded.authHandle {object : Phrase (.chain .or)} {copyRef : Option (List Char)}
    (worded : (secret object copyRef).Worded) : object.Worded := by
  intro token listed
  apply worded token
  simp [yield, listed]

theorem Worded.inner {inner : Phrase (.chain .or)} (worded : (group inner).Worded) :
    inner.Worded := by
  intro token listed
  apply worded token
  simp [yield, listed]

theorem Worded.operands {operator : Operator} {lhs : Phrase (.chain operator)}
    {rhs : Phrase operator.operand} (worded : (chain lhs rhs).Worded) :
    lhs.Worded ∧ rhs.Worded := by
  constructor <;>
  · intro token listed
    apply worded token
    simp [yield, listed]

/-- A text that is derived with what is built along it is plain. -/
theorem Plain.of_derives {level : Level} {phrase : Phrase level} (worded : phrase.Worded)
    {expression : TpmPolicyExpression} (derives : Derives hex context phrase expression)
    (built : phrase.built hex context = .ok expression) : phrase.Plain := by
  induction phrase generalizing expression with
  | literal s plain =>
      cases derives with
      | literal digits =>
          intro sign
          have digit := digits.2.1 '+' (List.mem_of_head? sign)
          simp [not_digit_plus] at digit
  | pcr tokens plain =>
      cases derives with
      | pcr argument text denotes apart =>
          rw [text] at apart
          exact (symbols_iff worded.argument).mp apart
  | secret authHandle copyRef ih =>
      obtain ⟨object, builtObject, built⟩ := bind_eq_ok.mp built
      obtain ⟨reference, -, same⟩ := bind_eq_ok.mp built
      cases derives with
      | secret derivesObject =>
          cases same
          exact ih worded.authHandle derivesObject (mapError_eq_ok.mp builtObject)
  | group inner ih =>
      cases derives with
      | group enclosed => exact ih worded.inner enclosed built
  | single operand ih =>
      cases derives with
      | single only => exact ih worded only built
  | @chain operator lhs rhs ihLhs ihRhs =>
      obtain ⟨left, builtLhs, built⟩ := bind_eq_ok.mp built
      obtain ⟨right, builtRhs, same⟩ := bind_eq_ok.mp built
      have combined : operator.combine left right = expression := Except.ok.inj same
      cases derives with
      | @pair _ first _ lhs' rhs' derivesLhs derivesRhs =>
          by_cases extends_ : ∃ others, left = operator.expression others
          · obtain ⟨others, rfl⟩ := extends_
            rw [Operator.combine_expression] at combined
            obtain ⟨-, branches⟩ := Operator.expression_inj combined
            have two := (isChain_of_built builtLhs).2
            have length := congrArg List.length branches
            simp at length
            omega
          · rw [Operator.combine_other (by simpa using extends_)] at combined
            obtain ⟨-, branches⟩ := Operator.expression_inj combined
            obtain ⟨rfl, rfl⟩ : left = lhs' ∧ right = rhs' := by simpa using branches
            refine ⟨ihLhs worded.operands.1 (.single derivesLhs) builtLhs,
              ihRhs worded.operands.2 derivesRhs builtRhs, ?_⟩
            intro regroups
            exact extends_ (built_of_isChain regroups builtLhs)
      | @more _ chain last _ branches rhs' derivesLhs derivesRhs =>
          obtain ⟨others, rfl⟩ := built_of_isChain (chain_isChain chain last) builtLhs
          rw [Operator.combine_expression] at combined
          obtain ⟨-, appended⟩ := Operator.expression_inj combined
          obtain ⟨rfl, last⟩ := List.append_inj' appended rfl
          obtain rfl : right = rhs' := by simpa using last
          exact ⟨ihLhs worded.operands.1 derivesLhs builtLhs,
            ihRhs worded.operands.2 derivesRhs builtRhs, fun regroups => regroups⟩

/-- What is built along a plain text is derived. -/
theorem Plain.derives {level : Level} {phrase : Phrase level} (worded : phrase.Worded)
    (plain : phrase.Plain) {expression : TpmPolicyExpression}
    (built : phrase.built hex context = .ok expression) :
      Derives hex context phrase expression := by
  induction phrase generalizing expression with
  | literal s other =>
      obtain ⟨length, handle, read, type, rfl⟩ := parseLiteral_eq_ok.mp built
      obtain ⟨digits, -⟩ := digits_of_fromStrRadix read plain
      obtain ⟨s', rfl | rfl, -, value, -⟩ := fromStrRadix_eq_some.mp read
      · refine .literal ⟨?_, digits, value, type⟩
        rw [← length, digits.utf8Size]
      · exact absurd rfl plain
  | pcr tokens other =>
      obtain ⟨argument, selections, digest, text, denotes, rfl⟩ := parsePcrText_eq_ok.mp built
      refine .pcr argument text denotes ?_
      rw [text]
      exact (symbols_iff worded.argument).mpr plain
  | secret authHandle copyRef ih =>
      obtain ⟨object, builtObject, built⟩ := bind_eq_ok.mp built
      obtain ⟨reference, builtRef, same⟩ := bind_eq_ok.mp built
      cases same
      refine .secret (ih worded.authHandle plain (mapError_eq_ok.mp builtObject)) ?_
      cases copyRef with
      | none =>
          cases builtRef
          rfl
      | some s => exact parseCopyRef_eq_ok.mp builtRef
  | group inner ih => exact .group (ih worded.inner plain built)
  | single operand ih => exact .single (ih worded plain built)
  | @chain operator lhs rhs ihLhs ihRhs =>
      obtain ⟨plainLhs, plainRhs, regroups⟩ := plain
      obtain ⟨left, builtLhs, built⟩ := bind_eq_ok.mp built
      obtain ⟨right, builtRhs, same⟩ := bind_eq_ok.mp built
      cases same
      have derivesLhs := ihLhs worded.operands.1 plainLhs builtLhs
      have derivesRhs := ihRhs worded.operands.2 plainRhs builtRhs
      cases lhs with
      | single first =>
          have other : ∀ branches, left ≠ operator.expression branches := by
            rintro branches rfl
            exact regroups (isChain_of_built builtLhs).1
          rw [Operator.combine_other other]
          cases derivesLhs with
          | single only => exact .pair only derivesRhs
      | chain chain last =>
          obtain ⟨others, rfl⟩ := built_of_isChain (chain_isChain chain last) builtLhs
          rw [Operator.combine_expression]
          exact .more derivesLhs derivesRhs

end Phrase

theorem Lexes.text_ne_nil {input : List Char} {tokens : List Token} (lexes : Lexes input tokens)
    {token : Token} (listed : token ∈ tokens) : token.text ≠ [] := by
  cases token with
  | ident s => exact (lexes.word listed).1
  | _ => simp [Token.text]

/-- An accepted text is derivable if and only if it can be read as a plain one. -/
theorem parse_derivable_iff {input : String} {expression : TpmPolicyExpression}
    (ok : TpmPolicyExpression.parse hex context input = .ok expression) :
    Derivable hex context input expression ↔
      ∃ phrase : Phrase (.chain .or), phrase.yield = tokenize input.toList ∧ phrase.Plain := by
  constructor
  · rintro ⟨phrase, lexes, derives⟩
    have yields := (lexes_iff.mp lexes).symm
    rw [Phrase.parse_of_yield yields] at ok
    have worded : phrase.Worded := fun _ listed => lexes.text_ne_nil listed
    exact ⟨phrase, yields, .of_derives worded derives ok⟩
  · rintro ⟨phrase, yields, plain⟩
    have lexes := lexes_iff.mpr yields.symm
    rw [Phrase.parse_of_yield yields] at ok
    have worded : phrase.Worded := fun _ listed => lexes.text_ne_nil listed
    exact ⟨phrase, lexes, plain.derives worded ok⟩

/-- The phrase of a conjunction with a disjunction in parentheses. -/
def samplePhrase : Phrase (.chain .or) :=
  .single <| .chain (.single (.literal "40000001".toList (by decide))) <| .group <|
    .chain (.single (.single (.literal "40000007".toList (by decide))))
      (.single (.literal "4000000b".toList (by decide)))

theorem samplePhrase_plain : samplePhrase.Plain := by
  refine ⟨?_, ⟨?_, ?_, id⟩, id⟩ <;> simp [Phrase.Plain]

theorem parse_derivable_iff_sample :
    Derivable .lower ⟨∅, ∅, 0⟩ "40000001 and (40000007 or 4000000b)"
      (.and [.handle (.new 0x40000001),
        .or [.handle (.new 0x40000007), .handle (.new 0x4000000b)]]) :=
  (parse_derivable_iff rfl).mpr ⟨samplePhrase, by decide +kernel, samplePhrase_plain⟩

/-- The literal of a plain text has no sign. -/
theorem Phrase.Plain.literal {phrase : Phrase (.chain .or)} {s : List Char} (plain : phrase.Plain)
    (yields : phrase.yield = [.ident s]) : s.head? ≠ some '+' := by
  have operator (operator : Operator) : operator.token ∉ [Token.ident s] := by
    cases operator <;> simp [Operator.token]
  cases phrase with
  | chain lhs rhs =>
      apply absurd _ (operator .or)
      rw [← yields]
      simp [yield]
  | single conjunction =>
      change Phrase (.chain .and) at conjunction
      cases conjunction with
      | chain lhs rhs =>
          apply absurd _ (operator .and)
          rw [← yields]
          simp [yield]
      | single primary =>
          change Phrase .primary at primary
          cases primary with
          | literal s' other =>
              cases yields
              exact plain
          | _ => simp [yield] at yields

/-- A handle literal may have a sign and seven digits. -/
theorem parse_derivable_fails : ∃ expression,
    TpmPolicyExpression.parse .lower ⟨∅, ∅, 0⟩ "+1234567" = .ok expression ∧
      ¬ Derivable .lower ⟨∅, ∅, 0⟩ "+1234567" expression := by
  have ok : TpmPolicyExpression.parse .lower ⟨∅, ∅, 0⟩ "+1234567" =
      .ok (.handle (.new 0x1234567)) := rfl
  refine ⟨_, ok, ?_⟩
  rintro ⟨phrase, lexes, derives⟩
  have yields := (lexes_iff.mp lexes).symm
  have worded : phrase.Worded := fun _ listed => lexes.text_ne_nil listed
  rw [Phrase.parse_of_yield yields] at ok
  have plain := Phrase.Plain.of_derives worded derives ok
  exact plain.literal yields rfl

end
end Tpm2
