import ProviderCatalog.Text.Utf8

/-!
# Bits and prefix codes

Compressed data is a string of bits: the bits of each byte from the lowest to the highest. A reader
takes some of them, or finds that the string ends too early, or finds that what it took cannot
stand there.

A canonical prefix code is given by the lengths of its code words: words of one length are
consecutive binary numbers in the order of their symbols, and after the last word of a length comes
the first word of the next. Its words are read bit by bit, starting with the highest digit.

## Main definitions

* `Bits`, `Bits.ofBytes`: strings of bits.
* `Taken`: what a reader finds.
* `Bits.number`: a number of a given width.
* `PrefixCode`, `PrefixCode.ofLengths`: codes by the number of words of each length.
* `PrefixCode.capacity`: how many more words of the greatest length there could be.
* `PrefixCode.symbol`: reading one symbol.
-/

namespace ProviderCatalog.Archive

/-! ### Bits -/

/-- A string of bits. -/
abbrev Bits := List Bool

/-- What a reader finds at the start of a string of bits. -/
inductive Taken (α : Type) where
  /-- A value and the bits after it. -/
  | found (a : α) (rest : Bits)
  /-- The string ends too early. -/
  | short
  /-- The bits are not allowed. -/
  | faulty
deriving Repr

namespace Taken

variable {α β : Type}

/-- Continues behind the value. -/
def andThen (x : Taken α) (f : α → Bits → Taken β) : Taken β :=
  match x with
  | found a rest => f a rest
  | short => short
  | faulty => faulty

end Taken

namespace Bits

/-- The bits of a byte, the lowest first. -/
def ofByte (b : UInt8) : Bits := (List.range 8).map b.toNat.testBit

/-- The bits of a byte string. -/
def ofBytes (bs : Bytes) : Bits := bs.flatMap ofByte

/-- The number whose binary digits, the lowest first, are the first `width` bits. -/
def number (width : Nat) (bits : Bits) : Taken Nat :=
  match width, bits with
  | 0, bits => .found 0 bits
  | _ + 1, [] => .short
  | width + 1, b :: bits =>
    match number width bits with
    | .found n rest => .found (2 * n + b.toNat) rest
    | .short => .short
    | .faulty => .faulty

/-- The bits from the next boundary of a byte on. -/
def toByteBoundary (bits : Bits) : Bits := bits.drop (bits.length % 8)

end Bits

/-! ### Prefix codes -/

/-- A canonical prefix code. -/
structure PrefixCode where
  /-- The number of words of each length, from one on. -/
  counts : List Nat
  /-- The symbols in the order of their words. -/
  symbols : List Nat
deriving Repr

namespace PrefixCode

/-- The code in which the symbol `i` has a word of the `i`-th length, or none if that is zero. There
is always a first length, even if no word has it. -/
def ofLengths (lengths : List Nat) : PrefixCode :=
  let longest := max 1 (lengths.foldl max 0)
  let positions := lengths.zipIdx
  let ofLength (n : Nat) : List Nat := (positions.filter (·.1 == n)).map (·.2)
  let groups := (List.range' 1 longest).map ofLength
  ⟨groups.map List.length, groups.flatten⟩

/-- The number of words of the greatest length that could be added to a code, negative if the code
has too many words. -/
def capacityFrom (left : Int) : List Nat → Int
  | [] => left
  | n :: counts => capacityFrom (2 * left - n) counts

/-- The number of words of the greatest length that could be added to a code. -/
def capacity (c : PrefixCode) : Int := capacityFrom 1 c.counts

/-- Whether a code has a prefix for every string of bits. -/
def isComplete (c : PrefixCode) : Bool := c.capacity == 0

/-- Whether a code is complete, or has no word longer than one bit and no word twice. -/
def isUsable (c : PrefixCode) : Bool :=
  c.capacity == 0 || (c.counts.length == 1 && 0 ≤ c.capacity)

/-- Reads a symbol after a word's beginning: `word` is twice the beginning's number, `first` the
number of the first word of the next length, and `symbols` are those from that word on. -/
def symbolFrom (word first : Nat) (symbols : List Nat) : List Nat → Bits → Taken Nat
  | [], _ => .faulty
  | _ :: _, [] => .short
  | count :: counts, b :: bits =>
    let word := word + b.toNat
    if word < first + count then
      match symbols[word - first]? with
      | some s => .found s bits
      | none => .faulty
    else symbolFrom (2 * word) (2 * (first + count)) (symbols.drop count) counts bits

/-- Reads a symbol. -/
def symbol (c : PrefixCode) (bits : Bits) : Taken Nat := symbolFrom 0 0 c.symbols c.counts bits

end PrefixCode

end ProviderCatalog.Archive
