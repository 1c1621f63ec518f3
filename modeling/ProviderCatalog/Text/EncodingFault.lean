import ProviderCatalog.Text.Utf8

/-!
# Faults of encodings

A text with lone surrogates has no encoding, and a byte string may be no encoding of a text. The
fault says where the first trouble lies and, for byte strings, what it is. Where messages show a
text or a byte string as such, it stands between quotes, with what cannot be shown escaped.

## Main definitions

* `Text.inQuotes`, `Bytes.inQuotes`: a text and a byte string between quotes.
* `EncodeFault`, `Text.encodeFault?`: the first run of lone surrogates of a text.
* `DecodeFault`, `Utf8.decodeFault?`: the first faulty piece of a byte string.
-/

namespace ProviderCatalog

/-- A digit of a number below sixteen, in lower case. -/
def lowerHexDigit (n : Nat) : Char :=
  if n < 10 then Char.ofNat (0x30 + n) else Char.ofNat (0x57 + n)

/-- The last `width` hexadecimal digits of a number. -/
def lowerHex : Nat → Nat → List Char
  | 0, _ => []
  | width + 1, n => lowerHex width (n / 16) ++ [lowerHexDigit (n % 16)]

/-- A code point as it is shown between the given quotes. -/
def shown (quote : Char) : CodePoint → Text
  | .scalar '\n' => "\\n"
  | .scalar '\r' => "\\r"
  | .scalar '\t' => "\\t"
  | .scalar '\\' => "\\\\"
  | .scalar c =>
    if c = quote then Text.ofChars ['\\', c]
    else if c < ' ' || ('\x7f' ≤ c && c ≤ '\u00a0') || c = '\u00ad' then
      ("\\x" : Text) ++ Text.ofChars (lowerHex 2 c.toNat)
    else [.scalar c]
  | .surrogate n => ("\\u" : Text) ++ Text.ofChars (lowerHex 4 (0xD800 + n))

/-- A byte as it is shown between the given quotes. -/
def shownByte (quote : Char) (b : UInt8) : Text :=
  if b < 0x80 then shown quote (.scalar (Char.ofNat b.toNat))
  else ("\\x" : Text) ++ Text.ofChars (lowerHex 2 b.toNat)

/-- The quotes around something shown: single ones, unless it holds single quotes and no double
ones. -/
def quoteAround (hasSingle hasDouble : Bool) : Char := if hasSingle && !hasDouble then '"' else '\''

/-- A text between quotes. -/
def Text.inQuotes (t : Text) : Text :=
  let quote := quoteAround (t.any (· == .scalar '\'')) (t.any (· == .scalar '"'))
  .scalar quote :: t.flatMap (shown quote) ++ [.scalar quote]

/-- A byte string between quotes. -/
def Bytes.inQuotes (bs : Bytes) : Text :=
  let quote := quoteAround (bs.contains 0x27) (bs.contains 0x22)
  .scalar 'b' :: .scalar quote :: bs.flatMap (shownByte quote) ++ [.scalar quote]

/-- A run of lone surrogates in a text. -/
structure EncodeFault where
  start : Nat
  stop : Nat
  /-- The first surrogate, as an offset. -/
  first : Fin 2048
deriving DecidableEq, Repr

namespace EncodeFault

/-- The message about a text that cannot be encoded. -/
def message (f : EncodeFault) : Text :=
  let place : Text :=
    if f.stop = f.start + 1 then
      ("character '\\u" : Text) ++ Text.ofChars (lowerHex 4 (0xD800 + f.first)) ++ "' in position "
        ++ Text.ofNat f.start
    else
      ("characters in position " : Text) ++ Text.ofNat f.start ++ "-" ++ Text.ofNat (f.stop - 1)
  ("'utf-8' codec can't encode " : Text) ++ place ++ ": surrogates not allowed"

end EncodeFault

/-- The first run of lone surrogates in a text, counted from a position. -/
def Text.encodeFaultFrom? (position : Nat) : Text → Option EncodeFault
  | [] => none
  | .scalar _ :: t => encodeFaultFrom? (position + 1) t
  | .surrogate n :: t =>
    some ⟨position, position + 1 + (t.takeWhile (!CodePoint.isScalar ·)).length, n⟩

/-- The first run of lone surrogates in a text. -/
def Text.encodeFault? (t : Text) : Option EncodeFault := encodeFaultFrom? 0 t

/-- The first trouble of a byte string that is no encoding. -/
structure DecodeFault where
  encoding : String
  start : Nat
  stop : Nat
  first : UInt8
  reason : String
deriving DecidableEq, Repr

namespace DecodeFault

/-- The message about a byte string that cannot be decoded. -/
def message (f : DecodeFault) : Text :=
  let place : Text :=
    if f.stop = f.start + 1 then
      ("byte 0x" : Text) ++ Text.ofChars (lowerHex 2 f.first.toNat) ++ " in position "
        ++ Text.ofNat f.start
    else ("bytes in position " : Text) ++ Text.ofNat f.start ++ "-" ++ Text.ofNat (f.stop - 1)
  ("'" : Text) ++ f.encoding ++ "' codec can't decode " ++ place ++ ": " ++ f.reason

end DecodeFault

namespace Utf8

/-- Whether a byte can begin the encoding of a character. -/
def canBegin (b : UInt8) : Bool := b < 0x80 || (0xC2 ≤ b && b < 0xF5)

/-- The fault of a faulty piece at a position; `isLast` tells whether the string ends with it. -/
def faultAt (position : Nat) (bytes : Bytes) (isLast : Bool) : DecodeFault :=
  let first := bytes.headD 0
  let reason :=
    if !canBegin first then "invalid start byte"
    else if isLast then "unexpected end of data"
    else "invalid continuation byte"
  ⟨"utf-8", position, position + bytes.length, first, reason⟩

/-- The first faulty piece, counted from a position. -/
def decodeFaultFrom? (position : Nat) : List Piece → Option DecodeFault
  | [] => none
  | .char c :: ps => decodeFaultFrom? (position + (String.utf8EncodeChar c).length) ps
  | .faulty bytes :: ps => some (faultAt position bytes ps.isEmpty)

/-- The first faulty piece of a byte string. -/
def decodeFault? (bs : Bytes) : Option DecodeFault := decodeFaultFrom? 0 (pieces bs)

/-- The lone surrogate that three bytes spell in the manner of an encoding. -/
def surrogate? (a b c : UInt8) : Option CodePoint :=
  if h : a = 0xED ∧ 0xA0 ≤ b.toNat ∧ b.toNat ≤ 0xBF ∧ 0x80 ≤ c.toNat ∧ c.toNat ≤ 0xBF then
    some (.surrogate ⟨64 * (b.toNat - 0xA0) + (c.toNat - 0x80), by omega⟩)
  else none

/-- The text that pieces spell when three bytes in the manner of an encoding stand for a lone
surrogate, after `found`, the last code point first. -/
def textWithSurrogates (position : Nat) (found : Text) : List Piece → Except DecodeFault Text
  | [] => .ok found.reverse
  | .char c :: ps =>
    textWithSurrogates (position + (String.utf8EncodeChar c).length) (.scalar c :: found) ps
  | .faulty [a] :: .faulty [b] :: .faulty [c] :: ps =>
    match surrogate? a b c with
    | some x => textWithSurrogates (position + 3) (x :: found) ps
    | none => .error (faultAt position [a] false)
  | .faulty bytes :: ps => .error (faultAt position bytes ps.isEmpty)

end Utf8

end ProviderCatalog
