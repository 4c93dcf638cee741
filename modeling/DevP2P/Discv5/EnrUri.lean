import DevP2P.Discv5.Enr
import Mathlib.Data.List.DropRight

/-!
# Node record URIs (`discv5/discv5_enr.cpp`)

* `base64urlDecode` : the url-safe alphabet, six bits to a character; trailing `=` are dropped;
* `decodeUri`, `parse` : `enr:` and the record in that form.
-/

namespace DevP2P.Discv5
open DevP2P.Lib DevP2P.Rlp

abbrev kEnrMaxBytes : Nat := 300
abbrev kEnrPrefixLen : Nat := 4
def kEnrPrefix : Bytes := ascii ['e', 'n', 'r', ':']

def kBase64UpperCount : UInt8 := 26
def kBase64LowerCount : UInt8 := 26
def kBase64DigitCount : UInt8 := 10
def kBase64LowerStart : UInt8 := kBase64UpperCount
def kBase64DigitStart : UInt8 := kBase64UpperCount + kBase64LowerCount
def kBase64DashIndex : UInt8 := 62
def kBase64UnderIndex : UInt8 := 63
def kBase64Invalid : UInt8 := 0xFF
abbrev kBase64BitsPerChar : Nat := 6
abbrev kBase64BitsPerByte : Nat := 8

/-- The entry of `kBase64UrlTable` for the character. -/
def kBase64UrlTable (ch : UInt8) : UInt8 :=
  if 'A'.toUInt8 ≤ ch ∧ ch < 'A'.toUInt8 + kBase64UpperCount then ch - 'A'.toUInt8
  else if 'a'.toUInt8 ≤ ch ∧ ch < 'a'.toUInt8 + kBase64LowerCount then kBase64LowerStart + (ch - 'a'.toUInt8)
  else if '0'.toUInt8 ≤ ch ∧ ch < '0'.toUInt8 + kBase64DigitCount then kBase64DigitStart + (ch - '0'.toUInt8)
  else if ch = '-'.toUInt8 then kBase64DashIndex
  else if ch = '_'.toUInt8 then kBase64UnderIndex
  else kBase64Invalid

namespace EnrParser

/-- The loop of `base64url_decode`; `bits` bits of the accumulator have not been written yet. -/
def base64Loop : UInt32 → Nat → Bytes → Bytes → Except Discv5Error Bytes
  | _, _, out, [] => .ok out
  | accumulator, bits, out, ch :: body =>
    if kBase64UrlTable ch = kBase64Invalid then .error .kEnrBase64DecodeFailed
    else
      let accumulator := (accumulator <<< UInt32.ofNat kBase64BitsPerChar) ||| (kBase64UrlTable ch).toUInt32
      let bits := bits + kBase64BitsPerChar
      if bits ≥ kBase64BitsPerByte then
        let bits := bits - kBase64BitsPerByte
        base64Loop accumulator bits (out ++ [(accumulator >>> UInt32.ofNat bits).toUInt8]) body
      else base64Loop accumulator bits out body

/-- `EnrParser::base64url_decode`. -/
def base64urlDecode (body : Bytes) : Except Discv5Error Bytes :=
  base64Loop 0 0 [] (body.rdropWhile (· = '='.toUInt8))

/-- `EnrParser::decode_uri`. -/
def decodeUri (enrUri : Bytes) : Except Discv5Error Bytes := do
  rejectIf (enrUri.length < kEnrPrefixLen ∨ enrUri.take kEnrPrefixLen ≠ kEnrPrefix) .kEnrMissingPrefix
  base64urlDecode (enrUri.drop kEnrPrefixLen)

/-- `EnrParser::parse`. -/
def parse (env : EnrPrimitives) (enrUri : Bytes) : Except EnrFault EnrRecord := do
  let raw ← (decodeUri enrUri).mapError .error
  rejectIf (raw.length > kEnrMaxBytes) (.error .kEnrTooLarge)
  let record ← decodeRlp env raw
  verifySignature env record

end EnrParser

end DevP2P.Discv5
