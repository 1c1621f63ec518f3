import ProviderCatalog.Archive.Member

/-!
# Packing an archive

Members are packed under long names, each name as a member of its own before the member that bears
it, and the archive is compressed without being made smaller. Reading it back gives the members.

## Main definitions

* `Pack.stream`: members as a stream of blocks.
* `Pack.compressed`: a stream as stored blocks.
* `pack`: members as a compressed archive.
-/

namespace ProviderCatalog.Archive

namespace Pack

/-- The lowest `width` octal digits of a number. -/
def octal : Nat → Nat → Bytes
  | 0, _ => []
  | width + 1, n => octal width (n / 8) ++ [UInt8.ofNat (0x30 + n % 8)]

/-- Bytes filled up with zeros to a width. -/
def padTo (width : Nat) (bs : Bytes) : Bytes := bs ++ List.replicate (width - bs.length) 0

/-- Bytes filled up with zeros to whole blocks. -/
def wholeBlocks (bs : Bytes) : Bytes := bs ++ List.replicate ((512 - bs.length % 512) % 512) 0

/-- The header of a member, whose checksum counts its own field as blanks. -/
def header (name : Bytes) (type : Char) (size : Nat) : Bytes :=
  let front := padTo 100 name ++ padTo 8 (octal 7 0o644) ++ padTo 8 (octal 7 0)
    ++ padTo 8 (octal 7 0) ++ octal 11 size ++ [0] ++ octal 11 0 ++ [0]
  let back := padTo 356 ([UInt8.ofNat type.toNat] ++ padTo 100 [] ++ "ustar".toUTF8.toList
    ++ [0, 0x30, 0x30])
  let sum := (front ++ back).foldr (fun b n => b.toNat + n) 256
  front ++ octal 6 sum ++ [0, 0x20] ++ back

/-- The type of a member: a regular file, or a directory for anything else. -/
def typeOf (m : Member) : Char := if m.isFile then '0' else '5'

/-- A member behind the member that bears its long name. -/
def packMember (m : Member) : Bytes :=
  let name := m.name.toUtf8Lossy
  header [] 'L' (name.length + 1) ++ wholeBlocks (name ++ [0])
    ++ header [0x78] (typeOf m) m.content.length ++ wholeBlocks m.content

/-- Members as a stream of blocks, with two empty blocks at the end. -/
def stream (ms : List Member) : Bytes := ms.flatMap packMember ++ List.replicate 1024 0

/-! ### Compression -/

/-- The most bytes of a stored block. -/
def storedLimit : Nat := 65535

/-- A number in two bytes, the lower one first. -/
def twoBytes (n : Nat) : Bytes := [UInt8.ofNat (n % 256), UInt8.ofNat (n / 256)]

/-- Bytes as at most `blocks + 1` stored blocks. -/
def storedBlocks : Nat → Bytes → Bytes
  | 0, bs => 1 :: twoBytes bs.length ++ twoBytes (storedLimit - bs.length) ++ bs
  | blocks + 1, bs =>
    if bs.length ≤ storedLimit then storedBlocks 0 bs
    else 0 :: twoBytes storedLimit ++ twoBytes 0 ++ bs.take storedLimit
      ++ storedBlocks blocks (bs.drop storedLimit)

/-- A stream as stored blocks, without the trailer that no reader looks at. -/
def compressed (bs : Bytes) : Bytes :=
  [0x1F, 0x8B, 8, 0, 0, 0, 0, 0, 0, 255] ++ storedBlocks (bs.length / storedLimit) bs

end Pack

/-- Members as a compressed archive. -/
def pack (ms : List Member) : Bytes := Pack.compressed (Pack.stream ms)

end ProviderCatalog.Archive
