import Tpm2.PolicyLanguage.PcrText
import Tpm2.PolicyLanguage.Token

/-! The parser of policy expressions. Like its source it goes down one function for each level of
precedence; the rounds of its loops and the depth of its recursion are bounded by the number of
tokens. -/

namespace Tpm2

open ByteCodec Text

/-- `Display` of an error: the name of its variant as lower-case words. -/
def TpmPolicyError.display : TpmPolicyError → String
  | crypto _ => "crypto"
  | invalidCc _ => "invalid cc"
  | invalidExpression => "invalid expression"
  | invalidHandleType _ => "invalid handle type"
  | invalidToken _ => "invalid token"
  | invalidPcrDigest => "invalid pcr digest"
  | invalidPcrDigestAlgorithm => "invalid pcr digest algorithm"
  | invalidPcrSelection => "invalid pcr selection"
  | marshal _ => "marshal"
  | commandStreamBranchUnderflow => "command stream branch underflow"
  | commandStreamUnbalancedBranches => "command stream unbalanced branches"
  | parenthesisMismatch => "parenthesis mismatch"
  | pcrBankNotAvailable _ => "pcr bank not available"
  | pcrCountMismatch => "pcr count mismatch"
  | pcrDigestMissing => "pcr digest missing"
  | pcrDigestTooLarge => "pcr digest too large"
  | pcrIndexTooLarge => "pcr index too large"
  | pcrSelectionTooLarge => "pcr selection too large"
  | tooManyBranches => "too many branches"
  | trailingData => "trailing data"
  | unexpectedEnd => "unexpected end"

/-- `InvalidToken(s.to_string())`. -/
def invalidText (s : List Char) : TpmPolicyError := .invalidToken (String.ofList s)

/-- An expression and the tokens behind it. -/
abbrev Parsed := Except TpmPolicyError (TpmPolicyExpression × List Token)

/-- The binary operators. -/
inductive Operator
  | and
  | or
  deriving DecidableEq

namespace Operator

def token : Operator → Token
  | and => .and
  | or => .or

/-- The expression combiner: it extends a left-hand side that is a chain of its operator. -/
def combine : Operator → TpmPolicyExpression → TpmPolicyExpression → TpmPolicyExpression
  | and, .and factors, rhs => .and (factors ++ [rhs])
  | and, lhs, rhs => .and [lhs, rhs]
  | or, .or terms, rhs => .or (terms ++ [rhs])
  | or, lhs, rhs => .or [lhs, rhs]

end Operator

/-- The loop of `parse_binary_expression`. -/
def parseOperands (operandParser : List Token → Parsed) (operator : Operator) :
    Nat → TpmPolicyExpression → List Token → Parsed
  | rounds + 1, node, token :: tokens =>
      if token = operator.token then do
        let (rhs, tokens) ← operandParser tokens
        parseOperands operandParser operator rounds (operator.combine node rhs) tokens
      else
        .ok (node, token :: tokens)
  | _, node, tokens => .ok (node, tokens)

def parseBinaryExpression (operandParser : List Token → Parsed) (operator : Operator)
    (tokens : List Token) : Parsed := do
  let (node, rest) ← operandParser tokens
  parseOperands operandParser operator tokens.length node rest

def parseAnd (primaryParser : List Token → Parsed) : List Token → Parsed :=
  parseBinaryExpression primaryParser .and

def parseOr (primaryParser : List Token → Parsed) : List Token → Parsed :=
  parseBinaryExpression (parseAnd primaryParser) .or

/-- Takes the token that has to come next. -/
def expect (expected : Token) : List Token → Except TpmPolicyError (List Token)
  | [] => .error .unexpectedEnd
  | actualToken :: tokens =>
      if actualToken = expected then
        .ok tokens
      else
        .error (invalidText actualToken.display)

def parseLiteral (s : List Char) : Except TpmPolicyError TpmPolicyExpression :=
  if (s.map Char.utf8Size).sum ≠ 8 then
    .error (invalidText s)
  else
    match fromStrRadix (2 ^ 32) 16 s with
    | none => .error (invalidText s)
    | some raw => do
        let raw := UInt32.ofNat raw
        let htByte := (raw >>> 24).toUInt8
        let _ ← (TpmEnum.tryFrom htByte : TpmResult TpmHt).mapError
          fun _ => .invalidHandleType htByte
        return .handle (.new raw)

/-- The loop of `parse_pcr_call`: it joins the identifiers and the commas before the parenthesis. -/
def collectPcr (buf : List Char) : List Token → Except TpmPolicyError (List Char × List Token)
  | [] => .error .unexpectedEnd
  | .rparen :: tokens => .ok (buf, tokens)
  | .ident s :: tokens => collectPcr (buf ++ s) tokens
  | .comma :: tokens => collectPcr (buf ++ [',']) tokens
  | token :: _ => .error (invalidText token.display)

def parsePcrCall (hex : Hex) (context : TpmPolicyContext) (tokens : List Token) : Parsed := do
  let tokens ← expect .lparen tokens
  let (buf, tokens) ← collectPcr [] tokens
  let expr ← parsePcrText hex context buf
  return (expr, tokens)

/-- The policy reference of an identifier `copy_ref:hex`. -/
def parseCopyRef (hex : Hex) (copyRefIdent : List Char) :
    Except TpmPolicyError (Option Tpm2bDigest) :=
  match splitOnce ':' copyRefIdent with
  | none => .error (invalidText copyRefIdent)
  | some (key, value) =>
      if key ≠ "copy_ref".toList then
        .error (invalidText copyRefIdent)
      else
        match hex.decode value with
        | none => .error (invalidText copyRefIdent)
        | some [] => .ok none
        | some bytes => do
            let digest ← (TpmBuffer.tryFrom bytes).mapError fun _ => invalidText copyRefIdent
            return some digest

/-- The optional argument of `secret(...)`. -/
def parseCopyRefArgument (hex : Hex) :
    List Token → Except TpmPolicyError (Option Tpm2bDigest × List Token)
  | .comma :: .ident s :: tokens => do
      let copyRef ← parseCopyRef hex s
      return (copyRef, tokens)
  | .comma :: actualToken :: _ => .error (invalidText actualToken.display)
  | [.comma] => .error .unexpectedEnd
  | .rparen :: tokens => .ok (none, .rparen :: tokens)
  | actualToken :: _ => .error (invalidText actualToken.display)
  | [] => .error .unexpectedEnd

def parseSecretCall (hex : Hex) (primaryParser : List Token → Parsed) (tokens : List Token) :
    Parsed := do
  let tokens ← expect .lparen tokens
  let (authHandle, tokens) ← (parseOr primaryParser tokens).mapError
    fun e => .invalidToken e.display
  let (copyRef, tokens) ← parseCopyRefArgument hex tokens
  let tokens ← expect .rparen tokens
  return (.secret authHandle copyRef, tokens)

/-- What is behind an opening parenthesis. -/
def parseGroup (primaryParser : List Token → Parsed) (tokens : List Token) : Parsed := do
  let (expr, tokens) ← parseOr primaryParser tokens
  match tokens with
  | .rparen :: tokens => return (expr, tokens)
  | _ => throw .parenthesisMismatch

def parsePrimary (hex : Hex) (context : TpmPolicyContext) : Nat → List Token → Parsed
  | 0, _ => .error .unexpectedEnd
  | _, [] => .error .unexpectedEnd
  | depth + 1, .lparen :: tokens => parseGroup (parsePrimary hex context depth) tokens
  | depth + 1, .ident name :: tokens =>
      if name = "pcr".toList then
        parsePcrCall hex context tokens
      else if name = "secret".toList then
        parseSecretCall hex (parsePrimary hex context depth) tokens
      else do
        let expr ← parseLiteral name
        return (expr, tokens)
  | _, token :: _ => .error (invalidText token.display)

/-- Parses a policy expression string. -/
def TpmPolicyExpression.parse (hex : Hex) (context : TpmPolicyContext) (input : String) :
    Except TpmPolicyError TpmPolicyExpression := do
  let tokens := tokenize input.toList
  let (expr, rest) ← parseOr (parsePrimary hex context tokens.length) tokens
  if rest.isEmpty then
    return expr
  else
    throw .trailingData

end Tpm2
