import ProviderCatalog.Archive.Deflate

/-!
# Gzip streams

A gzip stream is a header and deflated data; the checks after the data are not looked at, nor is
anything behind them. The stream is fetched in blocks of a fixed size, and a block in which the
data turns out faulty gives nothing, while the blocks before it give what they hold.

The extra field of a header is taken from the deflated data instead of the header: what has been
fetched behind the length of the field is decoded, in as many blocks as the field needs, and as many
decoded bytes as the field is long are passed over. The texts of the header are looked for behind
these blocks, and the deflated data goes on behind the texts.

## Main definitions

* `Source`: decoded bytes, and what happens beyond them.
* `Gzip.HeaderFault`: why a header is refused.
* `Gzip.Body`, `Gzip.body`: where the deflated data stands.
* `Gzip.decode`: the decoded bytes of a stream.
-/

namespace ProviderCatalog.Archive

/-- Decoded bytes, of which there may be fewer than there should be. -/
structure Source where
  data : Bytes
  /-- Whether reading beyond the bytes meets faulty data, instead of the end. -/
  isFaulty : Bool
  /-- How many bytes are decoded when a number of them has been asked for. -/
  fetched : Nat → Nat
  /-- How many bytes in front are passed over, if there are so many. -/
  skipped : Nat

/-- The place of the first byte that is not passed over. -/
def Source.start (s : Source) : Nat := min s.skipped s.data.length

namespace Gzip

/-- Why a header is refused. -/
inductive HeaderFault where
  /-- The bytes are not a gzip stream that can be read. -/
  | unreadable
  /-- The header ends before its flags, or before the length of its extra field. -/
  | cutOff
deriving DecidableEq, Repr

/-- The position after the zero byte that ends a text of a header, from a position on. -/
def afterText (position : Nat) : Bytes → Nat
  | [] => position
  | b :: bs => if b == 0 then position + 1 else afterText (position + 1) bs

/-- The position after a text of a header, if its flag is set. -/
def afterFlagged (data : Bytes) (flag : Bool) (position : Nat) : Nat :=
  if flag then afterText position (data.drop position) else position

/-- The number of bytes that are fetched at a time. -/
def fetchSize : Nat := 10240

/-- Where the deflated data of a stream stands. -/
structure Body where
  /-- The data that is decoded for the extra field. -/
  front : Bytes
  /-- The position where the data goes on. -/
  place : Nat
  /-- The length of the extra field. -/
  extra : Nat

/-- The deflated data in the first `n` blocks of a stream with an extra field. -/
def frontBlocks (data : Bytes) (n : Nat) : Bytes := (data.take (n * fetchSize)).drop 12

/-- How many blocks are fetched, `n` of them at least, until an extra field is decoded or there are
no more. The number of blocks that there are bounds the steps. -/
def extraBlocks (data : Bytes) (extra : Nat) : Nat → Nat → Except HeaderFault Nat
  | 0, _ => .error .unreadable
  | bound + 1, n =>
    let r := inflate (frontBlocks data n)
    if r.ending = .faulty then .error .unreadable
    else if extra ≤ r.output.length || data.length ≤ n * fetchSize then .ok n
    else extraBlocks data extra bound (n + 1)

/-- The deflated data of a stream as it stands behind the extra field of its header. -/
def afterExtra (data : Bytes) (flags : UInt8) : Except HeaderFault Body :=
  if !flags.toNat.testBit 2 then .ok ⟨[], 10, 0⟩
  else match data.drop 10 with
    | low :: high :: _ =>
      let extra := low.toNat + 256 * high.toNat
      if extra = 0 then .ok ⟨[], 12, 0⟩
      else (extraBlocks data extra (data.length / fetchSize + 1) 1).map fun n =>
        ⟨frontBlocks data n, n * fetchSize, extra⟩
    | _ => .error .cutOff

/-- The position behind the texts and the checksum of a header, from a position on. -/
def afterTexts (data : Bytes) (flags : UInt8) (position : Nat) : Nat :=
  let position := afterFlagged data (flags.toNat.testBit 3) position
  let position := afterFlagged data (flags.toNat.testBit 4) position
  if flags.toNat.testBit 1 then position + 2 else position

/-- Where the deflated data of a stream stands. -/
def body (data : Bytes) : Except HeaderFault Body :=
  match data with
  | 0x1F :: 0x8B :: 0x08 :: rest =>
    match rest with
    | [] => .error .cutOff
    | flags :: _ =>
      (afterExtra data flags).map fun b => { b with place := afterTexts data flags b.place }
  | _ => .error .unreadable

/-- The deflated data in the first `n` blocks of a stream. -/
def Body.upTo (data : Bytes) (b : Body) (n : Nat) : Bytes :=
  b.front ++ (data.take (n * fetchSize)).drop b.place

/-- The decoded bytes of the first `n` blocks that are fetched of a stream, or of as many before
them as are not faulty. -/
def decodeBlocks (data : Bytes) (b : Body) : Nat → Source
  | 0 =>
    let output := (inflate b.front).output
    ⟨output, true, fun _ => output.length, b.extra⟩
  | n + 1 =>
    let r := inflate (b.upTo data (n + 1))
    if r.ending = .faulty then { decodeBlocks data b n with isFaulty := true }
    else
      let fetched (demand : Nat) : Nat :=
        let before := decodeBlocks data b n
        if demand ≤ before.data.length then before.fetched demand else r.output.length
      ⟨r.output, false, fetched, b.extra⟩

/-- The decoded bytes of a stream. -/
def decode (data : Bytes) : Except HeaderFault Source :=
  (body data).map fun b => decodeBlocks data b (data.length / fetchSize + 1)

end Gzip

end ProviderCatalog.Archive
