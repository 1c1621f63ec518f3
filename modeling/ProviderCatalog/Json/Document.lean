import ProviderCatalog.Json.Reader
import ProviderCatalog.Text.EncodingFault

/-!
# Documents as byte strings

The bytes of a document are decoded before it is read. The strict reading takes UTF-8 alone. The
lenient one also takes UTF-16 and UTF-32, told apart by a byte order mark or by where the first
bytes are zero, and lets surrogates stand alone.

## Main definitions

* `Json.ofBytes?`: the datum of a document in UTF-8.
* `Json.Encoding`, `Json.Encoding.detect`: the encodings of the lenient reading.
* `Json.ofAnyBytes`, `Json.DocumentFault`: the datum of a document in any of them, or why there is
  none.
-/

namespace ProviderCatalog.Json

/-- The datum of a document that is read strictly. -/
def ofBytes? (bs : Bytes) : Option Datum := (Text.ofUtf8? bs).bind (read? strict)

/-- The encodings of the lenient reading; the flag tells whether the high byte comes first. -/
inductive Encoding where
  | utf8
  | utf16 (big : Bool)
  | utf32 (big : Bool)
deriving DecidableEq, Repr

/-- The encoding of a document and the length of its byte order mark. -/
def Encoding.detect (bs : Bytes) : Encoding × Nat :=
  match bs with
  | 0 :: 0 :: 0xFE :: 0xFF :: _ => (.utf32 true, 4)
  | 0xFF :: 0xFE :: 0 :: 0 :: _ => (.utf32 false, 4)
  | 0xFE :: 0xFF :: _ => (.utf16 true, 2)
  | 0xFF :: 0xFE :: _ => (.utf16 false, 2)
  | 0xEF :: 0xBB :: 0xBF :: _ => (.utf8, 3)
  | a :: b :: c :: d :: _ =>
    if a == 0 then (if b == 0 then .utf32 true else .utf16 true, 0)
    else if b == 0 then (if c == 0 && d == 0 then .utf32 false else .utf16 false, 0)
    else (.utf8, 0)
  | [a, b] =>
    if a == 0 then (.utf16 true, 0) else if b == 0 then (.utf16 false, 0) else (.utf8, 0)
  | _ => (.utf8, 0)

/-- The number whose bytes are given, the highest first if `big`. -/
def unitOf (big : Bool) (bytes : Bytes) : Nat :=
  (if big then bytes else bytes.reverse).foldl (fun n b => 256 * n + b.toNat) 0

/-- The units of two bytes; what is left at the end is a fault. -/
def units16 (big : Bool) (position : Nat) : Bytes → Except DecodeFault (List Nat)
  | [] => .ok []
  | [a] =>
    .error ⟨if big then "utf-16-be" else "utf-16-le", position, position + 1, a, "truncated data"⟩
  | a :: b :: bs => (units16 big (position + 2) bs).map (unitOf big [a, b] :: ·)

/-- The text that units spell. Halves of surrogate pairs may stand alone. -/
def ofUnits16 : List Nat → Text
  | [] => []
  | [u] => ((CodePoint.ofNat? u).map ([·])).getD []
  | u :: v :: us =>
    if 0xD800 ≤ u && u < 0xDC00 && 0xDC00 ≤ v && v < 0xE000 then
      .scalar (Char.ofNat (0x10000 + 0x400 * (u - 0xD800) + (v - 0xDC00))) :: ofUnits16 us
    else ((CodePoint.ofNat? u).map ([·])).getD [] ++ ofUnits16 (v :: us)

/-- The text that units of four bytes spell. -/
def ofUtf32 (big : Bool) (position : Nat) : Bytes → Except DecodeFault Text
  | [] => .ok []
  | a :: b :: c :: d :: bs =>
    match CodePoint.ofNat? (unitOf big [a, b, c, d]) with
    | some x => (ofUtf32 big (position + 4) bs).map (x :: ·)
    | none => .error ⟨if big then "utf-32-be" else "utf-32-le", position, position + 4, a,
        "code point not in range(0x110000)"⟩
  | a :: bs => .error ⟨if big then "utf-32-be" else "utf-32-le", position,
      position + 1 + bs.length, a, "truncated data"⟩

/-- The text of a byte string in an encoding, whose first bytes are a mark. -/
def Encoding.decode (e : Encoding) (mark : Nat) (bs : Bytes) : Except DecodeFault Text :=
  match e with
  | .utf8 => Utf8.textWithSurrogates 0 [] (Utf8.pieces (bs.drop mark))
  | .utf16 big => (units16 big mark (bs.drop mark)).map ofUnits16
  | .utf32 big => ofUtf32 big mark (bs.drop mark)

/-- Why a byte string is not read. -/
inductive DocumentFault where
  | undecodable (f : DecodeFault)
  | unreadable (f : Fault)
deriving DecidableEq, Repr

/-- The datum of a document that is read leniently. -/
def ofAnyBytes (bs : Bytes) : Except DocumentFault Datum := do
  let (e, mark) := Encoding.detect bs
  let t ← (e.decode mark bs).mapError .undecodable
  (read lenient t).mapError .unreadable

end ProviderCatalog.Json
