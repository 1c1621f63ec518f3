import ProviderCatalog.Archive.Gzip
import ProviderCatalog.Archive.Member

/-!
# Places in decoded bytes

Decoded bytes are read from the front, and there is no way back. Where they end, fewer bytes are
read than were asked for; where they end with a fault, reading fails.

## Main definitions

* `Absence`: why there is nothing at a place.
* `Cursor`: a place in decoded bytes.
* `Cursor.take`, `Cursor.takeAll`, `Cursor.read`: reading from a place on.
* `Cursor.moveTo`: moving on to a place.
-/

namespace ProviderCatalog.Archive

namespace Tar

/-- Why there is no member at a place. -/
inductive Absence where
  /-- The archive ends here. -/
  | endMark
  /-- The block is not whole or no header. -/
  | noHeader
  | failure (f : ReadFailure)
deriving DecidableEq, Repr

namespace Absence

/-- The archive is damaged. -/
abbrev damage : Absence := failure .damaged

/-- What it means that there is no member behind a header that is about the next one. -/
def behind : Absence → Absence
  | endMark | noHeader => damage
  | failure f => failure f

end Absence

/-- A place in the decoded bytes of an archive. -/
structure Cursor where
  position : Nat
  /-- The position up to which bytes have been asked for. -/
  asked : Nat
  rest : Source

namespace Cursor

/-- Takes up to `n` bytes; fewer only where the bytes end without a fault. -/
def take (c : Cursor) (n : Nat) : Except Absence (Bytes × Cursor) :=
  let bytes := c.rest.data.take n
  if bytes.length < n && c.rest.isFaulty then .error .damage
  else .ok (bytes, ⟨c.position + bytes.length, max c.asked (c.position + n),
    { c.rest with data := c.rest.data.drop n }⟩)

/-- Takes exactly `n` bytes. -/
def takeAll (c : Cursor) (n : Nat) : Except Absence (Bytes × Cursor) := do
  let (bytes, c) ← c.take n
  if bytes.length < n then .error .damage else .ok (bytes, c)

/-- How many bytes are decoded already from a place on. -/
def buffered (c : Cursor) : Nat := c.rest.fetched c.asked - c.position

/-- Takes as many bytes as a size says. A negative size says how many of the bytes that are decoded
already are left. -/
def read (c : Cursor) (size : Int) : Except Absence (Bytes × Cursor) :=
  c.take (if 0 ≤ size then size.toNat else c.buffered - (-size).toNat)

/-- Takes exactly `n` bytes from a position on. -/
def takeAt (c : Cursor) (position : Int) (n : Nat) : Except Absence (Bytes × Cursor) :=
  if position < c.position then .error .damage
  else do
    let (_, c) ← c.takeAll (position - c.position).toNat
    c.takeAll n

/-- Moves on to the position of a header, all bytes before which have to be there. The first
position of all counts as the end, unless it is where the reader stands. -/
def moveTo (c : Cursor) (position : Int) : Except Absence Cursor :=
  if position = c.position then .ok c
  else if position = 0 then .error .endMark
  else if position < c.position then .error .damage
  else (c.takeAll (position - c.position).toNat).map (·.2)

end Cursor

end Tar

/-- The place in decoded bytes that follows the first `n` of them, when bytes have been asked for up
to a position. -/
def Source.cursor (s : Source) (n asked : Nat) : Tar.Cursor :=
  ⟨n, asked, { s with data := s.data.drop n }⟩

end ProviderCatalog.Archive
