import Tpm2.TpmKey.File

/-! Key files as PEM documents. -/

namespace Tpm2

open ByteCodec

/-- A PEM document: its tag and its contents. -/
structure PemDocument where
  tag : List Char
  contents : Bytes

/-- The PEM library. -/
structure Pem where
  /-- Writes a document, with `\n` or else `\r\n` at the end of its lines. -/
  encode : (lineFeeds : Bool) → PemDocument → List Char
  /-- Reads the first document of a text. -/
  parse : Bytes → Option PemDocument
  /-- Reads all documents of a text. -/
  parseMany : Bytes → Option (List PemDocument)

/-- `str::as_bytes`. -/
def utf8 (text : List Char) : Bytes := text.flatMap String.utf8EncodeChar

/-- Why a PEM document is not a key file. -/
inductive TpmKeyPemError (Asn1Error : Type)
  | pemDecodingFailed
  | invalidPemTag (tag : List Char)
  | key (e : TpmKeyError Asn1Error)

namespace TpmKeyFile

/-- The tag of a key file. -/
def pemTag : List Char := "TSS2 PRIVATE KEY".toList

/-- Serialize this key into a PEM string. -/
def toPem (rasn : Rasn) (pem : Pem) (key : TpmKeyFile) :
    Except (TpmKeyError rasn.Asn1Error) (List Char) := do
  let der ← key.toDer rasn
  return pem.encode true ⟨pemTag, der⟩

/-- Parse a key from PEM bytes. -/
def fromPem (rasn : Rasn) (pem : Pem) (pemBytes : Bytes) :
    Except (TpmKeyPemError rasn.Asn1Error) TpmKeyFile :=
  match pem.parse pemBytes with
  | none => .error .pemDecodingFailed
  | some document =>
      if document.tag = pemTag then
        (fromDer rasn document.contents).mapError .key
      else
        .error (.invalidPemTag document.tag)

end TpmKeyFile
end Tpm2
