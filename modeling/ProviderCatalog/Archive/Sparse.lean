import ProviderCatalog.Archive.Cursor
import ProviderCatalog.Archive.HeaderField

/-!
# Sparse files in archives

Of a sparse file an archive holds only some parts, one behind the other, and a map that gives for
each of them its offset in the file and its length. The map stands in the header of the file and in
blocks that continue the header, in the records of an extension, or in lines in front of the parts.
The content of the file is read part by part, with zeros in the gaps between them.

## Main definitions

* `Tar.Map`: the parts of a sparse file.
* `Tar.continuedMap`: the map in the blocks that continue a header.
* `Tar.mapInLines`: the map that stands in lines.
* `Tar.segments`, `Tar.restore`: the content of a file.
-/

namespace ProviderCatalog.Archive.Tar

/-- The number of bytes of a block. -/
def blockSize : Nat := 512

/-- The offsets and the lengths of the parts of a sparse file. -/
abbrev Map := List (Int × Int)

/-- Numbers as offsets and lengths by turns; the last one is left out if its partner is missing. -/
def pairUp : List Int → Map
  | offset :: length :: ns => (offset, length) :: pairUp ns
  | _ => []

/-! ### Maps in headers -/

/-- A number of a map, in a field from a position of a block on. -/
def mapNumber (block : Bytes) (position : Nat) : Except Absence Int :=
  match slice block position (position + 12) with
  | [] => .error (.failure .mapCut)
  | field =>
    match fieldNumber? field with
    | none => .error .noHeader
    | some n => .ok n

/-- The first `count` parts of a map that stands in a block from a position on. -/
def mapInFields (block : Bytes) (position : Nat) : Nat → Except Absence Map
  | 0 => .ok []
  | count + 1 => do
    let offset ← mapNumber block position
    let length ← mapNumber block (position + 12)
    let map ← mapInFields block (position + 24) count
    return (offset, length) :: map

/-- The parts of a map that a header gives, the size of its file, and whether the map goes on in
further blocks. -/
def mapInHeader (block : Bytes) : Except Absence (Map × Int × Bool) := do
  let map ← mapInFields block 386 4
  let size ← mapNumber block 483
  return (map, size, block.getD 482 0 != 0)

/-- The parts of a map that a block gives which continues a header, and whether another one follows.
Parts without an offset or without a length are left out. -/
def continuation (block : Bytes) : Except Absence (Map × Bool) := do
  let map ← mapInFields block 0 21
  match block[504]? with
  | none => .error (.failure .mapCut)
  | some b => return (map.filter fun p => p.1 != 0 && p.2 != 0, b != 0)

/-- The parts of a map that stand in the blocks from a place on. Every block takes a byte, so the
number of bytes bounds their number. -/
def continuedMap : Nat → Cursor → Except Absence (Map × Cursor)
  | 0, _ => .error (.failure .mapCut)
  | bound + 1, c => do
    let (block, c) ← c.take blockSize
    let (map, goesOn) ← continuation block
    if goesOn then do
      let (more, c) ← continuedMap bound c
      return (map ++ more, c)
    else return (map, c)

/-! ### Maps in lines -/

/-- The first line of what has been read and not been used. -/
def firstLine (unused : Bytes) (c : Cursor) : Except Absence (Bytes × Bytes × Cursor) :=
  if unused.contains 0x0A then
    .ok (unused.takeWhile (· != 0x0A), (unused.dropWhile (· != 0x0A)).tail, c)
  else .error (.failure .lineOpen)

/-- The next line, for which a block is read if what has been read holds none. -/
def mapLine (unused : Bytes) (c : Cursor) : Except Absence (Bytes × Bytes × Cursor) :=
  if unused.contains 0x0A then firstLine unused c
  else do
    let (block, c) ← c.take blockSize
    firstLine (unused ++ block) c

/-- The number in a line. -/
def lineNumber (line : Bytes) : Except Absence Int :=
  (Decimal.ofBytes line).mapError fun f => .failure (.numeral f)

/-- The numbers in the next lines. -/
def mapNumbers : Nat → Bytes → Cursor → Except Absence (List Int × Cursor)
  | 0, _, c => .ok ([], c)
  | count + 1, unused, c => do
    let (line, unused, c) ← mapLine unused c
    let n ← lineNumber line
    let (ns, c) ← mapNumbers count unused c
    return (n :: ns, c)

/-- The map that stands in lines from a place on, behind a line with the number of parts. -/
def mapInLines (c : Cursor) : Except Absence (Map × Cursor) := do
  let (line, unused, c) ← mapLine [] c
  let count ← lineNumber line
  let (ns, c) ← mapNumbers (2 * count).toNat unused c
  return (pairUp ns, c)

/-! ### Contents -/

/-- A stretch of a file. -/
structure Segment where
  start : Int
  stop : Int
  /-- The position of its bytes in the archive; a gap has none. -/
  place : Option Int

/-- The stretches of a file of a size, after what ends at `last`. Its bytes stand in the archive
from a position on. -/
def segmentsFrom (size : Int) (last place : Int) : Map → List Segment
  | [] => if last < size then [⟨last, size, none⟩] else []
  | (offset, length) :: map =>
    let rest := ⟨offset, offset + length, some place⟩ ::
      segmentsFrom size (offset + length) (place + length) map
    if last < offset then ⟨last, offset, none⟩ :: rest else rest

/-- The stretches of a file. -/
def segments (size place : Int) (map : Map) : List Segment := segmentsFrom size 0 place map

/-- The length from which on a byte string is too long. -/
def lengthLimit : Nat := 0x8000000000000000

/-- The next bytes of a stretch. -/
def Segment.read (s : Segment) (position : Int) (length : Nat) (c : Cursor) :
    Except Absence (Bytes × Cursor) :=
  match s.place with
  | some place => c.takeAt (place + (position - s.start)) length
  | none =>
    if lengthLimit ≤ length then .error (.failure .gapTooLong)
    else .ok (List.replicate length 0, c)

/-- The content of a file from a position on. Stretches are looked for from the one used last, and
behind the last one from the first one on. None is used twice, so their number bounds the steps. -/
def restore (size : Int) : Nat → List Segment → Int → Cursor → Except Absence (Bytes × Cursor)
  | 0, _, _, c => .ok ([], c)
  | bound + 1, segments, position, c =>
    if size ≤ position then .ok ([], c)
    else
      match segments.span fun s => !(s.start ≤ position && position < s.stop) with
      | (_, []) => .ok ([], c)
      | (passed, s :: rest) => do
        let stop := min size s.stop
        let (bytes, c) ← s.read position (stop - position).toNat c
        let (more, c) ← restore size bound (rest ++ passed) stop c
        return (bytes ++ more, c)

/-- The content of a file whose bytes stand in the archive from a place on; without a map it is one
part. -/
def content (size : Int) (map : Option Map) (c : Cursor) : Except Absence (Bytes × Cursor) :=
  let segments := segments size c.position (map.getD [(0, size)])
  restore size segments.length segments 0 c

end ProviderCatalog.Archive.Tar
