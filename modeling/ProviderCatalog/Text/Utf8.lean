import ProviderCatalog.Text.Basic

/-!
# UTF-8

A byte string is cut into the encodings of characters and, between them, into faulty pieces: a
faulty piece is a byte that begins no encoding, or the longest beginning of an encoding that the
next byte does not continue. What becomes of a faulty piece depends on the reading: the lossy one
writes one replacement character for it, the escaping one a lone surrogate for each of its bytes,
and the strict one refuses the whole string.

## Main definitions

* `Bytes`: byte strings.
* `Utf8.pieces`: the encodings and the faulty pieces of a byte string.
* `Text.ofUtf8Lossy`, `Text.ofUtf8Escaped`, `Text.ofUtf8?`: the three readings.
-/

namespace ProviderCatalog

/-- A byte string. -/
abbrev Bytes := List UInt8

namespace Utf8

/-- A piece of a byte string. -/
inductive Piece where
  | char (c : Char)
  | faulty (bytes : Bytes)
deriving DecidableEq, Repr

/-- The place of a reader between two bytes: before an encoding, or inside one that still needs
`left` bytes, the next of them between `low` and `high`. -/
inductive State where
  | between
  | inside (left : Nat) (low high : UInt8) (value : Nat) (reversed : Bytes)

/-- What a byte between encodings is or begins. -/
def begin (b : UInt8) : List Piece × State :=
  if b < 0x80 then ([.char (Char.ofNat b.toNat)], .between)
  else if b < 0xC2 then ([.faulty [b]], .between)
  else if b < 0xE0 then ([], .inside 1 0x80 0xBF (b.toNat - 0xC0) [b])
  else if b < 0xF0 then
    let low := if b == 0xE0 then 0xA0 else 0x80
    let high := if b == 0xED then 0x9F else 0xBF
    ([], .inside 2 low high (b.toNat - 0xE0) [b])
  else if b < 0xF5 then
    let low := if b == 0xF0 then 0x90 else 0x80
    let high := if b == 0xF4 then 0x8F else 0xBF
    ([], .inside 3 low high (b.toNat - 0xF0) [b])
  else ([.faulty [b]], .between)

/-- The pieces that a byte completes, and the place after it. -/
def step (s : State) (b : UInt8) : List Piece × State :=
  match s with
  | .between => begin b
  | .inside left low high value reversed =>
    if low ≤ b && b ≤ high then
      let value := 64 * value + (b.toNat - 0x80)
      if left ≤ 1 then ([.char (Char.ofNat value)], .between)
      else ([], .inside (left - 1) 0x80 0xBF value (b :: reversed))
    else
      let (ps, s) := begin b
      (.faulty reversed.reverse :: ps, s)

/-- The piece that the end of the string leaves incomplete. -/
def State.remainder : State → List Piece
  | .between => []
  | .inside _ _ _ _ reversed => [.faulty reversed.reverse]

/-- The pieces from a place on, after pieces found already, the last one first. -/
def piecesFrom (found : List Piece) (s : State) : Bytes → List Piece
  | [] => (s.remainder.reverse ++ found).reverse
  | b :: bs =>
    let (ps, s) := step s b
    piecesFrom (ps.reverse ++ found) s bs

/-- The encodings and the faulty pieces of a byte string, in order. -/
def pieces (bs : Bytes) : List Piece := piecesFrom [] .between bs

/-- The lone surrogate that stands for a byte above 127. -/
def escapedByte (b : UInt8) : CodePoint := .surrogate ⟨(0x400 + b.toNat) % 2048, by omega⟩

end Utf8

namespace Text

/-- A byte string read with one replacement character for each faulty piece. -/
def ofUtf8Lossy (bs : Bytes) : Text :=
  (Utf8.pieces bs).map fun
    | .char c => .scalar c
    | .faulty _ => .scalar '\uFFFD'

/-- A byte string read with a lone surrogate for each byte of a faulty piece. -/
def ofUtf8Escaped (bs : Bytes) : Text :=
  (Utf8.pieces bs).flatMap fun
    | .char c => [.scalar c]
    | .faulty bytes => bytes.map Utf8.escapedByte

/-- A byte string read strictly. -/
def ofUtf8? (bs : Bytes) : Option Text :=
  (Utf8.pieces bs).mapM fun
    | .char c => some (.scalar c)
    | .faulty _ => none

/-- The encoding of the characters of a text. -/
def toUtf8Lossy (t : Text) : Bytes :=
  t.flatMap fun
    | .scalar c => String.utf8EncodeChar c
    | .surrogate _ => [0xEF, 0xBF, 0xBD]

end Text

end ProviderCatalog
