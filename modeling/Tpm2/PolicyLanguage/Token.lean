import Mathlib.Data.List.Basic

/-! The tokens of the policy language, and its tokenizer. -/

namespace Tpm2

inductive Token
  | and
  | or
  | lparen
  | rparen
  | comma
  | ident (s : List Char)
  deriving DecidableEq

/-- `Display` of a token. -/
def Token.display : Token → List Char
  | and => "'and'".toList
  | or => "'or'".toList
  | lparen => "'('".toList
  | rparen => "')'".toList
  | comma => "','".toList
  | ident s => '\'' :: s ++ ['\'']

/-- `char::is_whitespace`. -/
def isWhitespace (c : Char) : Bool :=
  let n := c.toNat
  0x9 ≤ n && n ≤ 0xd || n == 0x20 || n == 0x85 || n == 0xa0 || n == 0x1680 ||
    0x2000 ≤ n && n ≤ 0x200a || n == 0x2028 || n == 0x2029 || n == 0x202f || n == 0x205f ||
    n == 0x3000

/-- The token of a character that is one by itself. -/
def punctuation (c : Char) : Option Token :=
  if c = '(' then
    some .lparen
  else if c = ')' then
    some .rparen
  else if c = ',' then
    some .comma
  else
    none

/-- The characters that an identifier ends before. -/
def isDelimiter (c : Char) : Bool := isWhitespace c || (punctuation c).isSome

/-- The token of a slice of the input. -/
def keyword (identSlice : List Char) : Token :=
  if identSlice = "and".toList then
    .and
  else if identSlice = "or".toList then
    .or
  else
    .ident identSlice

/-- The token of the identifier that ends here, if one was being read. -/
def flush (identSlice : List Char) : List Token :=
  if identSlice.isEmpty then [] else [keyword identSlice]

/-- The loop of `tokenize`, with the slice that was read of the identifier it is in. -/
def tokenizeFrom (identSlice : List Char) : List Char → List Token
  | [] => flush identSlice
  | c :: chars =>
      if isDelimiter c then
        flush identSlice ++ (punctuation c).toList ++ tokenizeFrom [] chars
      else
        tokenizeFrom (identSlice ++ [c]) chars

def tokenize (input : List Char) : List Token := tokenizeFrom [] input

/-- A text ends, or goes on with a character that an identifier ends before. -/
def Bounded (chars : List Char) : Prop := ∀ c ∈ chars.head?, isDelimiter c

/-- The lexical grammar: identifiers of maximal length and punctuation, with white space around. -/
inductive Lexes : List Char → List Token → Prop
  | done : Lexes [] []
  | whitespace {c : Char} {chars : List Char} {tokens : List Token} (space : isWhitespace c)
      (rest : Lexes chars tokens) : Lexes (c :: chars) tokens
  | punctuation {c : Char} {chars : List Char} {token : Token} {tokens : List Token}
      (mark : punctuation c = some token) (rest : Lexes chars tokens) :
      Lexes (c :: chars) (token :: tokens)
  | ident {identSlice chars : List Char} {tokens : List Token} (some : identSlice ≠ [])
      (inside : ∀ c ∈ identSlice, isDelimiter c = false) (bounded : Bounded chars)
      (rest : Lexes chars tokens) : Lexes (identSlice ++ chars) (keyword identSlice :: tokens)

theorem isWhitespace_punctuation {c : Char} {token : Token} (mark : punctuation c = some token) :
    isWhitespace c = false := by
  simp only [punctuation] at mark
  split at mark
  next same => rw [same]; decide
  split at mark
  next same => rw [same]; decide
  split at mark
  next same => rw [same]; decide
  · cases mark

theorem tokenizeFrom_append {before ident chars : List Char}
    (inside : ∀ c ∈ ident, isDelimiter c = false) :
    tokenizeFrom before (ident ++ chars) = tokenizeFrom (before ++ ident) chars := by
  induction ident generalizing before with
  | nil => simp
  | cons c ident ih =>
      rw [List.cons_append, tokenizeFrom, if_neg (by simp [inside c List.mem_cons_self]),
        ih fun d mem => inside d (List.mem_cons_of_mem _ mem)]
      simp

/-- At the end of an identifier its token is complete. -/
theorem tokenizeFrom_bounded {ident chars : List Char} (bounded : Bounded chars) :
    tokenizeFrom ident chars = flush ident ++ tokenize chars := by
  cases chars with
  | nil => simp [tokenizeFrom, tokenize, flush]
  | cons c chars =>
      have delimiter : isDelimiter c := bounded c rfl
      simp [tokenizeFrom, tokenize, delimiter, flush]

theorem Lexes.of_tokenizeFrom (ident chars : List Char)
    (inside : ∀ c ∈ ident, isDelimiter c = false) :
    Lexes (ident ++ chars) (tokenizeFrom ident chars) := by
  induction chars generalizing ident with
  | nil =>
      rw [tokenizeFrom, flush]
      split
      next none => simpa [List.isEmpty_iff.mp none] using Lexes.done
      next some => exact .ident (by simpa using some) inside (by simp [Bounded]) .done
  | cons c chars ih =>
      rw [tokenizeFrom]
      split
      next delimiter =>
        have rest : Lexes chars (tokenizeFrom [] chars) := ih [] (by simp)
        have after : Lexes (c :: chars) ((Tpm2.punctuation c).toList ++ tokenizeFrom [] chars) := by
          cases mark : Tpm2.punctuation c with
          | none => exact .whitespace (by simpa [isDelimiter, mark] using delimiter) rest
          | some token => exact .punctuation mark rest
        rw [List.append_assoc, flush]
        split
        next none => simpa [List.isEmpty_iff.mp none] using after
        next some =>
          exact .ident (by simpa using some) inside (by simpa [Bounded] using delimiter) after
      next within =>
        have longer : ∀ d ∈ ident ++ [c], isDelimiter d = false := by
          intro d mem
          rcases List.mem_append.mp mem with earlier | last
          · exact inside d earlier
          · rw [List.mem_singleton.mp last]
            simpa using within
        simpa using ih (ident ++ [c]) longer

/-- The tokenizer decides the lexical grammar. -/
theorem lexes_iff {input : List Char} {tokens : List Token} :
    Lexes input tokens ↔ tokenize input = tokens := by
  constructor
  · intro lexes
    induction lexes with
    | done => rfl
    | @whitespace c chars tokens space rest ih =>
        have none : Tpm2.punctuation c = .none := by
          cases mark : Tpm2.punctuation c with
          | none => rfl
          | some token => simp [isWhitespace_punctuation mark] at space
        simp [tokenize, tokenizeFrom, isDelimiter, space, flush, none, ← ih]
    | punctuation mark rest ih =>
        simp [tokenize, tokenizeFrom, isDelimiter, mark, flush, ← ih]
    | ident some inside bounded rest ih =>
        rw [tokenize, tokenizeFrom_append inside, List.nil_append, tokenizeFrom_bounded bounded, ih]
        simp [flush, some]
  · rintro rfl
    exact Lexes.of_tokenizeFrom [] input (by simp)

theorem lexes_tokenize (input : List Char) : Lexes input (tokenize input) := lexes_iff.mpr rfl

/-- What an identifier is made of. -/
def Word (s : List Char) : Prop := s ≠ [] ∧ ∀ c ∈ s, isDelimiter c = false

instance (s : List Char) : Decidable (Word s) :=
  @instDecidableAnd _ _ _ (List.decidableBAll _ s)

theorem Lexes.word {input : List Char} {tokens : List Token} (lexes : Lexes input tokens)
    {s : List Char} (listed : .ident s ∈ tokens) : Word s := by
  induction lexes with
  | done => cases listed
  | whitespace space rest ih => exact ih listed
  | @punctuation c chars token tokens mark rest ih =>
      rcases List.mem_cons.mp listed with rfl | later
      · simp only [Tpm2.punctuation] at mark
        split at mark
        · cases mark
        split at mark
        · cases mark
        split at mark <;> cases mark
      · exact ih later
  | ident some inside bounded rest ih =>
      rcases List.mem_cons.mp listed with same | later
      · simp only [keyword] at same
        split at same
        · cases same
        split at same
        · cases same
        · cases same
          exact ⟨some, inside⟩
      · exact ih later

end Tpm2
