import Tpm2.PolicyLanguage.Parse

/-! The syntax of policy expressions as derivation trees: what the parser accepts is what one of
them yields, and it returns the expression that is built along the tree. -/

namespace Tpm2

open ByteCodec Text

/-- The levels of precedence. -/
inductive Level
  | primary
  | chain (operator : Operator)

/-- The level of the operands of a chain. -/
def Operator.operand : Operator → Level
  | .and => .primary
  | .or => .chain .and

/-- The text of a token. -/
def Token.text : Token → List Char
  | .and => "and".toList
  | .or => "or".toList
  | .lparen => ['(']
  | .rparen => [')']
  | .comma => [',']
  | .ident s => s

/-- The tokens that the argument of `pcr(...)` is made of. -/
def Token.isArgument : Token → Bool
  | .comma | .ident _ => true
  | _ => false

/-- A derivation tree of a level. -/
inductive Phrase : Level → Type
  | literal (s : List Char) (plain : s ≠ "pcr".toList ∧ s ≠ "secret".toList) : Phrase .primary
  | pcr (argument : List Token) (plain : ∀ token ∈ argument, token.isArgument) : Phrase .primary
  | secret (authHandle : Phrase (.chain .or)) (copyRef : Option (List Char)) : Phrase .primary
  | group (inner : Phrase (.chain .or)) : Phrase .primary
  | single {operator : Operator} (operand : Phrase operator.operand) : Phrase (.chain operator)
  | chain {operator : Operator} (lhs : Phrase (.chain operator)) (rhs : Phrase operator.operand) :
      Phrase (.chain operator)

namespace Phrase

/-- The tokens of an optional policy reference. -/
def copyRefTokens : Option (List Char) → List Token
  | none => []
  | some s => [.comma, .ident s]

/-- The tokens of a phrase. -/
def yield : {level : Level} → Phrase level → List Token
  | _, literal s _ => [.ident s]
  | _, pcr argument _ => .ident "pcr".toList :: .lparen :: argument ++ [.rparen]
  | _, secret authHandle copyRef =>
      .ident "secret".toList :: .lparen :: authHandle.yield ++ copyRefTokens copyRef ++ [.rparen]
  | _, group inner => .lparen :: inner.yield ++ [.rparen]
  | _, single operand => operand.yield
  | .chain operator, chain lhs rhs => lhs.yield ++ operator.token :: rhs.yield

/-- How deep calls and groups are nested. -/
def depth : {level : Level} → Phrase level → Nat
  | _, literal _ _ => 1
  | _, pcr _ _ => 1
  | _, secret authHandle _ => authHandle.depth + 1
  | _, group inner => inner.depth + 1
  | _, single operand => operand.depth
  | _, chain lhs rhs => max lhs.depth rhs.depth

/-- The number of operators of the chain that a phrase is. -/
def operators : {level : Level} → Phrase level → Nat
  | _, chain lhs _ => lhs.operators + 1
  | _, _ => 0

/-- The policy reference that is built. -/
def builtCopyRef (hex : Hex) : Option (List Char) → Except TpmPolicyError (Option Tpm2bDigest)
  | none => .ok none
  | some s => parseCopyRef hex s

/-- The expression that the parser builds along a tree. -/
def built (hex : Hex) (context : TpmPolicyContext) :
    {level : Level} → Phrase level → Except TpmPolicyError TpmPolicyExpression
  | _, literal s _ => parseLiteral s
  | _, pcr argument _ => parsePcrText hex context (argument.flatMap Token.text)
  | _, secret authHandle copyRef => do
      let authHandle ← (authHandle.built hex context).mapError fun e => .invalidToken e.display
      let copyRef ← builtCopyRef hex copyRef
      return .secret authHandle copyRef
  | _, group inner => inner.built hex context
  | _, single operand => operand.built hex context
  | .chain operator, chain lhs rhs => do
      let lhs ← lhs.built hex context
      let rhs ← rhs.built hex context
      return operator.combine lhs rhs

end Phrase

/-- The function that parses a level. -/
def parseLevel (primaryParser : List Token → Parsed) : Level → List Token → Parsed
  | .primary => primaryParser
  | .chain .and => parseAnd primaryParser
  | .chain .or => parseOr primaryParser

theorem parseLevel_chain (primaryParser : List Token → Parsed) (operator : Operator) :
    parseLevel primaryParser (.chain operator) =
      parseBinaryExpression (parseLevel primaryParser operator.operand) operator := by
  cases operator <;> rfl

/-- The next token does not continue a phrase of the level. -/
def Stops : Level → List Token → Prop
  | .primary, _ => True
  | .chain .and, tokens => tokens.head? ≠ some .and
  | .chain .or, tokens => tokens.head? ≠ some .and ∧ tokens.head? ≠ some .or

theorem Stops.operand {operator : Operator} {tokens : List Token}
    (stops : Stops (.chain operator) tokens) : Stops operator.operand tokens := by
  cases operator with
  | and => trivial
  | or => exact stops.1

theorem Stops.head {operator : Operator} {tokens : List Token}
    (stops : Stops (.chain operator) tokens) : tokens.head? ≠ some operator.token := by
  cases operator with
  | and => exact stops
  | or => exact stops.2

/-- The operator of a chain ends its operands. -/
theorem Stops.of_token (operator : Operator) (tokens : List Token) :
    Stops operator.operand (operator.token :: tokens) := by
  cases operator with
  | and => trivial
  | or => simp [Operator.operand, Operator.token, Stops]

theorem parseOperands_stop {operandParser : List Token → Parsed} {operator : Operator}
    {node : TpmPolicyExpression} {tokens : List Token}
    (stops : tokens.head? ≠ some operator.token) (rounds : Nat) :
    parseOperands operandParser operator rounds node tokens = .ok (node, tokens) := by
  cases rounds with
  | zero => rfl
  | succ rounds =>
      cases tokens with
      | nil => rfl
      | cons token tokens => exact if_neg (by simpa using stops)

theorem parseOperands_next {operandParser : List Token → Parsed} {operator : Operator}
    (rounds : Nat) (node : TpmPolicyExpression) (tokens : List Token) :
    parseOperands operandParser operator (rounds + 1) node (operator.token :: tokens) =
      operandParser tokens >>= fun (rhs, tokens) =>
        parseOperands operandParser operator rounds (operator.combine node rhs) tokens := by
  rw [parseOperands, if_pos rfl]

theorem collectPcr_append {argument : List Token} (plain : ∀ token ∈ argument, token.isArgument)
    (buf : List Char) (rest : List Token) :
    collectPcr buf (argument ++ .rparen :: rest) =
      .ok (buf ++ argument.flatMap Token.text, rest) := by
  induction argument generalizing buf with
  | nil => simp [collectPcr]
  | cons token argument ih =>
      rw [List.forall_mem_cons] at plain
      rw [List.cons_append, List.flatMap_cons]
      cases token with
      | ident s => rw [collectPcr, ih plain.2]; simp [Token.text]
      | comma => rw [collectPcr, ih plain.2]; simp [Token.text]
      | _ => simp [Token.isArgument] at plain

theorem parseCopyRefArgument_append (hex : Hex) (copyRef : Option (List Char))
    (rest : List Token) :
    parseCopyRefArgument hex (Phrase.copyRefTokens copyRef ++ .rparen :: rest) =
      Phrase.builtCopyRef hex copyRef >>= fun copyRef => .ok (copyRef, .rparen :: rest) := by
  cases copyRef with
  | none => rfl
  | some s => rfl

theorem Phrase.operators_le {level : Level} (phrase : Phrase level) :
    phrase.operators ≤ phrase.yield.length := by
  induction phrase with
  | chain lhs rhs ihLhs ihRhs =>
      simp only [operators, yield, List.length_append, List.length_cons]
      omega
  | _ => simp [operators]

/-- How parsing at a level starts, with a bound on the rounds of its loop. -/
def parseFirst (primaryParser : List Token → Parsed) : Level → Nat → List Token → Parsed
  | .primary, _, tokens => primaryParser tokens
  | .chain operator, rounds, tokens => do
      let (node, tokens) ← parseLevel primaryParser operator.operand tokens
      parseOperands (parseLevel primaryParser operator.operand) operator rounds node tokens

/-- How it goes on behind a phrase. -/
def parseRest (primaryParser : List Token → Parsed) :
    Level → Nat → TpmPolicyExpression → List Token → Parsed
  | .primary, _, node, tokens => .ok (node, tokens)
  | .chain operator, rounds, node, tokens =>
      parseOperands (parseLevel primaryParser operator.operand) operator rounds node tokens

/-- What ends the operands of a level. -/
def StopsOperand : Level → List Token → Prop
  | .primary, _ => True
  | .chain operator, tokens => Stops operator.operand tokens

theorem Stops.stopsOperand {level : Level} {tokens : List Token} (stops : Stops level tokens) :
    StopsOperand level tokens := by
  cases level with
  | primary => trivial
  | chain operator => exact stops.operand

theorem parseLevel_of_parseFirst {primaryParser : List Token → Parsed} {level : Level}
    {phrase : Phrase level} {built : Except TpmPolicyError TpmPolicyExpression} {rest : List Token}
    (first : ∀ rounds, parseFirst primaryParser level (phrase.operators + rounds)
      (phrase.yield ++ rest) = built >>= fun node => parseRest primaryParser level rounds node rest)
    (stops : Stops level rest) :
    parseLevel primaryParser level (phrase.yield ++ rest) =
      built >>= fun node => .ok (node, rest) := by
  cases level with
  | primary => exact first 0
  | chain operator =>
      have enough : phrase.operators +
          ((phrase.yield ++ rest).length - phrase.operators) = (phrase.yield ++ rest).length := by
        have := phrase.operators_le
        rw [List.length_append]
        omega
      have started := first ((phrase.yield ++ rest).length - phrase.operators)
      rw [enough] at started
      rw [parseLevel_chain]
      refine Eq.trans started ?_
      congr 1
      funext node
      exact parseOperands_stop stops.head _

theorem mapError_bind_ok {ε φ α β : Type} (x : Except ε α) (f : ε → φ) (g : α → β) :
    (x >>= fun a => .ok (g a)).mapError f = x.mapError f >>= fun a => .ok (g a) := by
  cases x <;> rfl

/-- The parser reads every phrase, and goes on behind it. -/
theorem Phrase.parseFirst_yield (hex : Hex) (context : TpmPolicyContext) {level : Level}
    (phrase : Phrase level) {depth : Nat} (deep : phrase.depth ≤ depth) {rest : List Token}
    (stops : StopsOperand level rest) (rounds : Nat) :
    parseFirst (parsePrimary hex context depth) level (phrase.operators + rounds)
        (phrase.yield ++ rest) =
      phrase.built hex context >>= fun node =>
        parseRest (parsePrimary hex context depth) level rounds node rest := by
  induction phrase generalizing depth rest rounds with
  | literal s plain =>
      obtain ⟨depth, rfl⟩ : ∃ d, depth = d + 1 := ⟨depth - 1, by simp [Phrase.depth] at deep; omega⟩
      show parsePrimary hex context (depth + 1) (.ident s :: rest) = _
      rw [parsePrimary, if_neg plain.1, if_neg plain.2]
      rfl
  | pcr argument plain =>
      obtain ⟨depth, rfl⟩ : ∃ d, depth = d + 1 := ⟨depth - 1, by simp [Phrase.depth] at deep; omega⟩
      show parsePrimary hex context (depth + 1)
        (.ident "pcr".toList :: .lparen :: argument ++ [.rparen] ++ rest) = _
      rw [List.append_assoc, List.singleton_append]
      show parsePrimary hex context (depth + 1)
        (.ident "pcr".toList :: .lparen :: (argument ++ .rparen :: rest)) = _
      rw [parsePrimary, if_pos rfl, parsePcrCall]
      show (collectPcr [] (argument ++ .rparen :: rest) >>= _) = _
      rw [collectPcr_append plain]
      rfl
  | secret authHandle copyRef ih =>
      obtain ⟨depth, rfl⟩ : ∃ d, depth = d + 1 := ⟨depth - 1, by simp [Phrase.depth] at deep; omega⟩
      have shape : (Phrase.secret authHandle copyRef).yield ++ rest =
          .ident "secret".toList :: .lparen ::
            (authHandle.yield ++ (copyRefTokens copyRef ++ .rparen :: rest)) := by
        simp [yield]
      have ends : Stops (.chain .or) (copyRefTokens copyRef ++ .rparen :: rest) := by
        cases copyRef <;> simp [Stops, copyRefTokens]
      have object := parseLevel_of_parseFirst
        (ih (by simpa [Phrase.depth] using deep) ends.operand) ends
      rw [shape]
      show parsePrimary hex context (depth + 1) _ = _
      rw [parsePrimary, if_neg (by decide), if_pos rfl, parseSecretCall]
      show ((parseLevel (parsePrimary hex context depth) (.chain .or)
        (authHandle.yield ++ (copyRefTokens copyRef ++ .rparen :: rest))).mapError _ >>= _) = _
      rw [object, mapError_bind_ok, Phrase.built]
      simp only [bind_assoc]
      congr 1
      funext node
      show (parseCopyRefArgument hex (copyRefTokens copyRef ++ .rparen :: rest) >>= _) = _
      rw [parseCopyRefArgument_append]
      simp only [bind_assoc]
      rfl
  | group inner ih =>
      obtain ⟨depth, rfl⟩ : ∃ d, depth = d + 1 := ⟨depth - 1, by simp [Phrase.depth] at deep; omega⟩
      have ends : Stops (.chain .or) (.rparen :: rest) := by simp [Stops]
      have enclosed := parseLevel_of_parseFirst
        (ih (by simpa [Phrase.depth] using deep) ends.operand) ends
      show parsePrimary hex context (depth + 1) (.lparen :: inner.yield ++ [.rparen] ++ rest) = _
      rw [List.append_assoc, List.singleton_append]
      show parseGroup (parsePrimary hex context depth) (inner.yield ++ .rparen :: rest) = _
      rw [parseGroup]
      show (parseLevel (parsePrimary hex context depth) (.chain .or)
        (inner.yield ++ .rparen :: rest) >>= _) = _
      rw [enclosed]
      simp only [bind_assoc]
      rfl
  | single operand ih =>
      have read := parseLevel_of_parseFirst (ih deep (Stops.stopsOperand stops)) stops
      have none : (single operand).operators + rounds = rounds := Nat.zero_add rounds
      rw [none]
      show (parseLevel _ _ (operand.yield ++ rest) >>= _) = _
      rw [read]
      simp only [bind_assoc]
      rfl
  | @chain operator lhs rhs ihLhs ihRhs =>
      have deepLhs : lhs.depth ≤ depth := Nat.le_trans (Nat.le_max_left ..) deep
      have deepRhs : rhs.depth ≤ depth := Nat.le_trans (Nat.le_max_right ..) deep
      have shape : (chain lhs rhs).yield ++ rest =
          lhs.yield ++ operator.token :: (rhs.yield ++ rest) := by
        simp [yield]
      have more : (chain lhs rhs).operators + rounds = lhs.operators + (rounds + 1) := by
        rw [operators]
        omega
      have read := parseLevel_of_parseFirst (ihRhs deepRhs (Stops.stopsOperand stops)) stops
      rw [shape, more, ihLhs deepLhs (Stops.of_token operator _) (rounds + 1), Phrase.built]
      simp only [bind_assoc, parseRest, parseOperands_next, read]
      rfl

/-- Phrases are not deeper than long. -/
theorem Phrase.depth_le {level : Level} (phrase : Phrase level) :
    phrase.depth ≤ phrase.yield.length := by
  induction phrase with
  | single operand ih => exact ih
  | chain lhs rhs ihLhs ihRhs =>
      simp only [depth, yield, List.length_append, List.length_cons]
      omega
  | _ =>
      simp only [depth, yield, List.length_append, List.length_cons]
      omega

/-- A parser of a level reads phrases only. -/
def Reads (hex : Hex) (context : TpmPolicyContext) (level : Level)
    (parser : List Token → Parsed) : Prop :=
  ∀ tokens node rest, parser tokens = .ok (node, rest) → ∃ phrase : Phrase level,
    tokens = phrase.yield ++ rest ∧ phrase.built hex context = .ok node

section
variable {hex : Hex} {context : TpmPolicyContext}

theorem parseOperands_reads {operator : Operator} {operandParser : List Token → Parsed}
    (reads : Reads hex context operator.operand operandParser) {rounds : Nat}
    {before node : TpmPolicyExpression} {tokens rest : List Token}
    (ok : parseOperands operandParser operator rounds before tokens = .ok (node, rest))
    (lhs : Phrase (.chain operator)) (built : lhs.built hex context = .ok before) :
    ∃ phrase : Phrase (.chain operator), lhs.yield ++ tokens = phrase.yield ++ rest ∧
      phrase.built hex context = .ok node := by
  induction rounds generalizing before tokens lhs with
  | zero =>
      cases ok
      exact ⟨lhs, rfl, built⟩
  | succ rounds ih =>
      cases tokens with
      | nil =>
          cases ok
          exact ⟨lhs, rfl, built⟩
      | cons token tokens =>
          rw [parseOperands] at ok
          split at ok
          next same =>
            obtain ⟨⟨rhs, after⟩, operand, looped⟩ := bind_eq_ok.mp ok
            obtain ⟨phrase, rfl, builtRhs⟩ := reads _ _ _ operand
            have longer : (Phrase.chain lhs phrase).built hex context =
                .ok (operator.combine before rhs) := by
              rw [Phrase.built, built, builtRhs]
              rfl
            obtain ⟨whole, yields, builtWhole⟩ := ih looped (.chain lhs phrase) longer
            refine ⟨whole, ?_, builtWhole⟩
            rw [← yields, same]
            simp [Phrase.yield]
          next =>
            cases ok
            exact ⟨lhs, rfl, built⟩

theorem parseBinaryExpression_reads {operator : Operator} {operandParser : List Token → Parsed}
    (reads : Reads hex context operator.operand operandParser) :
    Reads hex context (.chain operator) (parseBinaryExpression operandParser operator) := by
  intro tokens node rest ok
  obtain ⟨⟨before, after⟩, operand, ok⟩ := bind_eq_ok.mp ok
  obtain ⟨phrase, rfl, built⟩ := reads _ _ _ operand
  exact parseOperands_reads reads ok (.single phrase) built

theorem parseOr_reads {primaryParser : List Token → Parsed}
    (reads : Reads hex context .primary primaryParser) :
    Reads hex context (.chain .or) (parseOr primaryParser) :=
  have conjunctions : Reads hex context (.chain .and) (parseAnd primaryParser) :=
    parseBinaryExpression_reads reads
  parseBinaryExpression_reads conjunctions

theorem expect_eq_ok {expected : Token} {tokens rest : List Token} :
    expect expected tokens = .ok rest ↔ tokens = expected :: rest := by
  cases tokens with
  | nil => simp [expect]
  | cons token tokens =>
      rw [expect]
      split
      next same => simp [same]
      next different => simp [different]

theorem collectPcr_eq_ok {buf text : List Char} {tokens rest : List Token}
    (ok : collectPcr buf tokens = .ok (text, rest)) : ∃ argument,
      (∀ token ∈ argument, token.isArgument) ∧ tokens = argument ++ .rparen :: rest ∧
        text = buf ++ argument.flatMap Token.text := by
  induction tokens generalizing buf with
  | nil => cases ok
  | cons token tokens ih =>
      cases token with
      | rparen =>
          cases ok
          exact ⟨[], by simp, rfl, by simp⟩
      | ident s =>
          obtain ⟨argument, plain, rfl, rfl⟩ := ih ok
          exact ⟨.ident s :: argument, by simpa [Token.isArgument] using plain, rfl,
            by simp [Token.text]⟩
      | comma =>
          obtain ⟨argument, plain, rfl, rfl⟩ := ih ok
          exact ⟨.comma :: argument, by simpa [Token.isArgument] using plain, rfl,
            by simp [Token.text]⟩
      | _ => cases ok

theorem parseCopyRefArgument_eq_ok {copyRef : Option Tpm2bDigest} {tokens rest : List Token}
    (ok : parseCopyRefArgument hex tokens = .ok (copyRef, rest)) : ∃ text,
      tokens = Phrase.copyRefTokens text ++ rest ∧ Phrase.builtCopyRef hex text = .ok copyRef := by
  unfold parseCopyRefArgument at ok
  split at ok
  next s tokens =>
    obtain ⟨copyRef', read, ok⟩ := bind_eq_ok.mp ok
    cases ok
    exact ⟨some s, rfl, read⟩
  next => cases ok
  next => cases ok
  next =>
    cases ok
    exact ⟨none, rfl, rfl⟩
  next => cases ok
  next => cases ok

theorem parseGroup_reads {primaryParser : List Token → Parsed}
    (reads : Reads hex context .primary primaryParser) {node : TpmPolicyExpression}
    {tokens rest : List Token} (ok : parseGroup primaryParser tokens = .ok (node, rest)) :
    ∃ inner : Phrase (.chain .or), tokens = inner.yield ++ .rparen :: rest ∧
      inner.built hex context = .ok node := by
  obtain ⟨⟨expr, after⟩, parsed, closed⟩ := bind_eq_ok.mp ok
  obtain ⟨inner, rfl, built⟩ := parseOr_reads reads _ _ _ parsed
  dsimp only at closed
  split at closed
  next =>
    cases closed
    exact ⟨inner, rfl, built⟩
  next => cases closed

theorem parsePcrCall_reads {node : TpmPolicyExpression} {tokens rest : List Token}
    (ok : parsePcrCall hex context tokens = .ok (node, rest)) : ∃ argument,
      (∀ token ∈ argument, token.isArgument) ∧
        tokens = .lparen :: argument ++ .rparen :: rest ∧
        parsePcrText hex context (argument.flatMap Token.text) = .ok node := by
  obtain ⟨opened, expected, collected⟩ := bind_eq_ok.mp ok
  obtain ⟨⟨buf, after⟩, joined, read⟩ := bind_eq_ok.mp collected
  obtain ⟨expr, text, done⟩ := bind_eq_ok.mp read
  cases done
  obtain ⟨argument, plain, rfl, rfl⟩ := collectPcr_eq_ok joined
  exact ⟨argument, plain, expect_eq_ok.mp expected, text⟩

theorem parseSecretCall_reads {primaryParser : List Token → Parsed}
    (reads : Reads hex context .primary primaryParser) {node : TpmPolicyExpression}
    {tokens rest : List Token} (ok : parseSecretCall hex primaryParser tokens = .ok (node, rest)) :
    ∃ (authHandle : Phrase (.chain .or)) (copyRef : Option (List Char)),
      .ident "secret".toList :: tokens = (Phrase.secret authHandle copyRef).yield ++ rest ∧
        (Phrase.secret authHandle copyRef).built hex context = .ok node := by
  obtain ⟨opened, expected, object⟩ := bind_eq_ok.mp ok
  obtain ⟨⟨authHandle, after⟩, parsed, reference⟩ := bind_eq_ok.mp object
  obtain ⟨⟨copyRef, last⟩, argument, closing⟩ := bind_eq_ok.mp reference
  obtain ⟨end_, closed, done⟩ := bind_eq_ok.mp closing
  cases done
  obtain ⟨inner, rfl, built⟩ := parseOr_reads reads _ _ _ (mapError_eq_ok.mp parsed)
  obtain ⟨text, rfl, builtRef⟩ := parseCopyRefArgument_eq_ok argument
  obtain rfl := expect_eq_ok.mp closed
  obtain rfl := expect_eq_ok.mp expected
  refine ⟨inner, text, by simp [Phrase.yield], ?_⟩
  rw [Phrase.built, built, builtRef]
  rfl

theorem parsePrimary_reads (depth : Nat) :
    Reads hex context .primary (parsePrimary hex context depth) := by
  induction depth with
  | zero =>
      intro tokens node rest ok
      cases ok
  | succ depth ih =>
      intro tokens node rest ok
      cases tokens with
      | nil => cases ok
      | cons token tokens =>
          cases token with
          | lparen =>
              obtain ⟨inner, rfl, built⟩ := parseGroup_reads ih ok
              exact ⟨.group inner, by simp [Phrase.yield], built⟩
          | ident name =>
              rw [parsePrimary] at ok
              split at ok
              next pcr =>
                obtain ⟨argument, plain, rfl, built⟩ := parsePcrCall_reads ok
                exact ⟨.pcr argument plain, by simp [Phrase.yield, pcr], built⟩
              next notPcr =>
                split at ok
                next secret =>
                  obtain ⟨authHandle, copyRef, yields, built⟩ := parseSecretCall_reads ih ok
                  exact ⟨.secret authHandle copyRef, by rw [secret, yields], built⟩
                next notSecret =>
                  obtain ⟨expr, literal, done⟩ := bind_eq_ok.mp ok
                  cases done
                  exact ⟨.literal name ⟨notPcr, notSecret⟩, rfl, literal⟩
          | _ => cases ok

/-- On the tokens of a phrase the parser returns what is built along it. -/
theorem Phrase.parse_of_yield {input : String} {phrase : Phrase (.chain .or)}
    (yields : phrase.yield = tokenize input.toList) :
    TpmPolicyExpression.parse hex context input = phrase.built hex context := by
  have deep : phrase.depth ≤ (tokenize input.toList).length := yields ▸ phrase.depth_le
  have ends : Stops (.chain .or) [] := by simp [Stops]
  have read := parseLevel_of_parseFirst
    (phrase.parseFirst_yield hex context deep (Stops.stopsOperand ends)) ends
  rw [List.append_nil, yields] at read
  rw [TpmPolicyExpression.parse]
  show (parseLevel (parsePrimary hex context (tokenize input.toList).length) (.chain .or)
    (tokenize input.toList) >>= _) = _
  rw [read]
  cases phrase.built hex context <;> rfl

/-- The parser accepts the texts of phrases, and returns what is built along them. -/
theorem parse_eq_ok {input : String} {expression : TpmPolicyExpression} :
    TpmPolicyExpression.parse hex context input = .ok expression ↔
      ∃ phrase : Phrase (.chain .or), phrase.yield = tokenize input.toList ∧
        phrase.built hex context = .ok expression := by
  constructor
  · intro ok
    obtain ⟨⟨expr, rest⟩, parsed, ended⟩ := bind_eq_ok.mp ok
    obtain ⟨phrase, yields, built⟩ := parseOr_reads (parsePrimary_reads _) _ _ _ parsed
    dsimp only at ended
    split at ended
    next empty =>
      cases ended
      rw [List.isEmpty_iff.mp empty, List.append_nil] at yields
      exact ⟨phrase, yields.symm, built⟩
    next => cases ended
  · rintro ⟨phrase, yields, built⟩
    rw [Phrase.parse_of_yield yields, built]

end
end Tpm2
