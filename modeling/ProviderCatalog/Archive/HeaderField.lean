import ProviderCatalog.Text.Blank
import ProviderCatalog.Text.Search
import ProviderCatalog.Text.Utf8

/-!
# Fields of tar headers

The fields of a header are texts that a zero byte ends and numbers that are spelt with octal digits
or, marked by their first byte, with the bytes themselves. An extension record holds a keyword and
a value after the length of the whole record.

## Main definitions

* `Tar.fieldText`, `Tar.fieldNumber?`: the texts and numbers of a header.
* `Tar.checksumFits`: whether a header has its checksum.
* `Tar.records?`: the extension records in a block of data.
-/

namespace ProviderCatalog.Archive.Tar

/-- The bytes before the first zero byte. -/
def beforeZero (field : Bytes) : Bytes := field.takeWhile (· != 0)

/-- The text of a field. -/
def fieldText (field : Bytes) : Text := .ofUtf8Escaped (beforeZero field)

/-- The number that octal digits spell, among which single underscores may stand. -/
def octalDigits? (value : Nat) : List Char → Option Nat
  | [] => none
  | c :: cs =>
    if '0' ≤ c && c ≤ '7' then
      let value := 8 * value + (c.toNat - 0x30)
      match cs with
      | [] => some value
      | '_' :: cs => octalDigits? value cs
      | c :: cs => octalDigits? value (c :: cs)
    else none

/-- The number spelt by octal digits with a mark of the base in front, if there is one. -/
def markedOctal? : List Char → Option Nat
  | '0' :: 'o' :: '_' :: cs | '0' :: 'O' :: '_' :: cs => octalDigits? 0 cs
  | '0' :: 'o' :: cs | '0' :: 'O' :: cs => octalDigits? 0 cs
  | cs => octalDigits? 0 cs

/-- The integer spelt by octal digits with a sign in front, if there is one. -/
def signedOctal? : List Char → Option Int
  | '-' :: cs => (markedOctal? cs).map fun n => -(n : Int)
  | '+' :: cs => (markedOctal? cs).map Int.ofNat
  | cs => (markedOctal? cs).map Int.ofNat

/-- The number whose digits to the base 256 are given. -/
def bigEndian (bs : Bytes) : Nat := bs.foldl (fun n b => 256 * n + b.toNat) 0

/-- The number of a field. -/
def fieldNumber? (field : Bytes) : Option Int :=
  match field with
  | 0x80 :: bs => some (bigEndian bs)
  | 0xFF :: bs => some (bigEndian bs - (Nat.pow 256 bs.length : Int))
  | _ =>
    let bs := beforeZero field
    if !bs.all (· < 0x80) then none
    else
      let t : Text := (bs.map fun b => CodePoint.scalar (Char.ofNat b.toNat))
      match t.trim.toChars? with
      | some [] => some 0
      | some cs => signedOctal? cs
      | none => none

/-- The bytes from a position on, up to another. -/
def slice (data : Bytes) (start stop : Nat) : Bytes := (data.take stop).drop start

/-- The value of a byte read as a signed number. -/
def signedByte (b : UInt8) : Int := if b < 0x80 then b.toNat else (b.toNat : Int) - 256

/-- Whether a header has its checksum: the sum of its bytes, the checksum's own taken as blanks. The
bytes may have been summed as signed numbers. -/
def checksumFits (header : Bytes) : Bool :=
  let counted := header.take 148 ++ header.drop 156
  match fieldNumber? (slice header 148 156) with
  | none => false
  | some n =>
    let sum (value : UInt8 → Int) := counted.foldr (fun b n => value b + n) 256
    n = sum (fun b => b.toNat) || n = sum signedByte

/-- A record of an extension. -/
structure Record where
  keyword : Text
  value : Text
deriving Repr

/-- The number spelt by ASCII digits. -/
def asciiDigits (ds : Bytes) : Nat := ds.foldl (fun n b => 10 * n + (b.toNat - 0x30)) 0

/-- Reads a record from the front of some bytes, with its length. -/
def record? (data : Bytes) : Option (Record × Nat) :=
  let digits := data.takeWhile fun b => 0x30 ≤ b && b ≤ 0x39
  let length := asciiDigits digits
  let inside := slice data (digits.length + 1) (length - 1)
  let keyword := inside.takeWhile (· != 0x3D)
  if digits.isEmpty || 20 < digits.length || data[digits.length]? != some 0x20 then none
  else if length < 5 || data.length < length || data[length - 1]? != some 0x0A then none
  else if keyword.isEmpty || keyword.length = inside.length then none
  else some (⟨.ofUtf8Escaped keyword, .ofUtf8Escaped (inside.drop (keyword.length + 1))⟩, length)

/-- Reads records up to a zero byte or the end. Each has at least five bytes, so the number of bytes
bounds their number. -/
def recordsWithin? : Nat → Bytes → Option (List Record)
  | 0, _ => some []
  | bound + 1, data =>
    match data with
    | [] => some []
    | b :: _ =>
      if b == 0 then some []
      else match record? data with
        | none => none
        | some (r, length) => (recordsWithin? bound (data.drop length)).map (r :: ·)

/-- The records in a block of data, up to a zero byte. -/
def records? (data : Bytes) : Option (List Record) := recordsWithin? (data.length + 1) data

end ProviderCatalog.Archive.Tar
