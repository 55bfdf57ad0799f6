/-
ImportChain.Digest.Hex — digests as hexadecimal text, and the digest of a
JSON value, which is that of its canonical text: values with one canonical
text have one digest.
-/
import ImportChain.Digest.Blake3
import ImportChain.Json.Printer

namespace ImportChain.Digest

/-- The two hexadecimal digits of a byte. -/
def byteText (b : UInt8) : List Char :=
  [Json.hexDigit (b.toNat / 16), Json.hexDigit (b.toNat % 16)]

/-- The digest of bytes, in lower-case hexadecimal. -/
def ofBytes (bytes : List UInt8) : String :=
  String.ofList ((Blake3.hash bytes).flatMap byteText)

def ofText (text : String) : String := ofBytes text.toUTF8.toList

def ofJson (value : Json) : String := ofText value.canonical

end ImportChain.Digest
