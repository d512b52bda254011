import Tpm2.Text.Number

/-! Hexadecimal coders of bytes. -/

namespace Text

/-- A coder that decodes what it encodes, and only texts of hexadecimal digits. -/
structure Hex where
  encode : List UInt8 → List Char
  decode : List Char → Option (List UInt8)
  decode_encode : ∀ bytes, decode (encode bytes) = some bytes
  digits_of_decode : ∀ {s bytes}, decode s = some bytes → Digits 16 s

theorem Hex.digits_encode (hex : Hex) (bytes : List UInt8) : Digits 16 (hex.encode bytes) :=
  hex.digits_of_decode (hex.decode_encode bytes)

/-- Two lower-case digits for each byte. -/
def encodeHex (bytes : List UInt8) : List Char :=
  bytes.flatMap fun byte => [Nat.digitChar (byte.toNat / 16), Nat.digitChar (byte.toNat % 16)]

/-- A byte for every two digits, in either case. -/
def decodeHex : List Char → Option (List UInt8)
  | [] => some []
  | [_] => none
  | high :: low :: s => do
      let high ← toDigit 16 high
      let low ← toDigit 16 low
      let bytes ← decodeHex s
      return UInt8.ofNat (16 * high + low) :: bytes

theorem decodeHex_encodeHex (bytes : List UInt8) : decodeHex (encodeHex bytes) = some bytes := by
  induction bytes with
  | nil => rfl
  | cons byte bytes ih =>
      have fits := byte.toNat_lt
      have digit {n : Nat} (low : n < 16) : toDigit 16 n.digitChar = some n :=
        toDigit_digitChar (by omega) low
      have high := digit (by omega : byte.toNat / 16 < 16)
      have low := digit (by omega : byte.toNat % 16 < 16)
      show decodeHex (_ :: _ :: encodeHex bytes) = _
      rw [decodeHex, high, low, ih]
      show some (UInt8.ofNat (16 * (byte.toNat / 16) + byte.toNat % 16) :: bytes) = _
      rw [Nat.div_add_mod, UInt8.ofNat_toNat]

theorem digits_of_decodeHex {s : List Char} {bytes : List UInt8}
    (decoded : decodeHex s = some bytes) : Digits 16 s := by
  fun_induction decodeHex s generalizing bytes with
  | case1 => simp [Digits]
  | case2 => cases decoded
  | case3 high low s ih =>
      obtain ⟨h, highDigit, decoded⟩ := Option.bind_eq_some_iff.mp decoded
      obtain ⟨l, lowDigit, decoded⟩ := Option.bind_eq_some_iff.mp decoded
      obtain ⟨rest, decoded, -⟩ := Option.bind_eq_some_iff.mp decoded
      intro c mem
      rcases List.mem_cons.mp mem with rfl | mem
      · simp [highDigit]
      rcases List.mem_cons.mp mem with rfl | mem
      · simp [lowDigit]
      · exact ih decoded c mem

/-- The coder that encodes in lower case and decodes either. -/
def Hex.lower : Hex := ⟨encodeHex, decodeHex, decodeHex_encodeHex, digits_of_decodeHex⟩

end Text
