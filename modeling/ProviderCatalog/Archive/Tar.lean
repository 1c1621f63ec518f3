import ProviderCatalog.Archive.Sparse

/-!
# Tar archives

A tar archive is a sequence of headers in blocks of 512 bytes, each followed by the data of its
member in whole blocks. Headers of their own kinds carry a long name or an extension for the next
header, or an extension for all headers that follow. The archive ends at a block of zeros, at a
header that is not whole or not valid, or where the data stops at the end of a block; but if the
very first header is such a one, or if it follows a long name or an extension, the archive is
damaged.

A header may give its member a negative size. Data of a header for the next one is taken then out of
the bytes that are decoded already, and the position of a next member may lie in front of the
reader, where it cannot go.

## Main definitions

* `Tar.Kind`, `Tar.Header`: the headers.
* `Tar.Extension`: what an extension says about a header.
* `Tar.Entry`: a member before its content is read.
* `Tar.entry`: the next member with its extensions.
* `Tar.list`: the listing of an archive.
-/

namespace ProviderCatalog.Archive.Tar

/-! ### Headers -/

/-- The kinds of headers. -/
inductive Kind where
  | file
  /-- A file of which the archive holds only some parts, by a map in the header. -/
  | sparse
  | directory
  /-- A link, a device or a pipe, which has no data. -/
  | bare
  | longName
  | longLink
  | extension
  | globalExtension
  /-- A kind that is not known, whose data is passed over. -/
  | unknown
deriving DecidableEq, Repr

namespace Kind

/-- The kind that the byte of a header denotes. -/
def ofByte (b : UInt8) : Kind :=
  if b == 0 then file
  else match Char.ofNat b.toNat with
    | '0' | '7' => file
    | 'S' => sparse
    | '1' | '2' | '3' | '4' | '6' => bare
    | '5' => directory
    | 'L' => longName
    | 'K' => longLink
    | 'x' | 'X' => extension
    | 'g' => globalExtension
    | _ => unknown

/-- Whether a header stands for a regular file. -/
def isFile : Kind → Bool
  | file | sparse => true
  | _ => false

/-- Whether a header is followed by data that belongs to its member. -/
def hasData : Kind → Bool
  | file | sparse | unknown => true
  | _ => false

/-- Whether the name of a header can be continued to the left by a field of its own. -/
def takesPrefix : Kind → Bool
  | sparse | longName | longLink => false
  | _ => true

/-- Whether a header carries something for the next one. -/
def introduces : Kind → Bool
  | longName | longLink | extension | globalExtension => true
  | _ => false

end Kind

/-- A header. -/
structure Header where
  kind : Kind
  name : Text
  size : Int
deriving Repr

/-- A name without slashes at its end. -/
def withoutEndSlashes (name : Text) : Text := Text.dropRight (· == .scalar '/') name

/-- The places of the numbers of a header other than its size. -/
def otherNumbers : List (Nat × Nat) :=
  [(100, 108), (108, 116), (116, 124), (136, 148), (329, 337), (337, 345)]

/-- The header in a block. -/
def header (block : Bytes) : Except Absence Header :=
  if block.length < blockSize then .error .noHeader
  else if block.all (· == 0) then .error .endMark
  else if !checksumFits block then .error .noHeader
  else if !otherNumbers.all fun p => (fieldNumber? (slice block p.1 p.2)).isSome then .error .noHeader
  else match fieldNumber? (slice block 124 136) with
    | none => .error .noHeader
    | some size =>
      let name := fieldText (slice block 0 100)
      let type := block.getD 156 0
      let kind := if type == 0 && Text.endsWith name "/" then .directory else Kind.ofByte type
      let name := if kind = .directory then withoutEndSlashes name else name
      let front := fieldText (slice block 345 500)
      .ok ⟨kind, if !front.isEmpty && kind.takesPrefix then front ++ "/" ++ name else name, size⟩

/-! ### Extensions -/

/-- The values that extensions give to keywords, in the order in which the keywords came up. -/
abbrev Extension := List Record

/-- The integer that a value spells. -/
def integer (value : Text) : Except Absence Int :=
  (Decimal.ofText value).mapError fun f => .failure (.numeral f)

/-- A header with what a record says about it. A size that is no number counts as zero, unless it is
the size of a sparse file. -/
def Header.withRecord (h : Header) (r : Record) : Except Absence Header :=
  if r.keyword = ("GNU.sparse.name" : Text) then .ok { h with name := r.value }
  else if r.keyword = ("GNU.sparse.size" : Text) || r.keyword = ("GNU.sparse.realsize" : Text) then
    (integer r.value).map fun size => { h with size }
  else if r.keyword = ("path" : Text) then .ok { h with name := withoutEndSlashes r.value }
  else if r.keyword = ("size" : Text) then
    .ok { h with size := (Decimal.ofText r.value).toOption.getD 0 }
  else .ok h

namespace Extension

/-- An extension with one record more, which takes the place of one with its keyword. -/
def add (x : Extension) (r : Record) : Extension :=
  if x.any (·.keyword = r.keyword) then x.map fun s => if s.keyword = r.keyword then r else s
  else x ++ [r]

/-- An extension with further records. -/
def addRecords (x : Extension) (rs : List Record) : Extension := rs.foldl add x

/-- The value of a keyword. -/
def get? (x : Extension) (keyword : Text) : Option Text :=
  (x.find? (·.keyword = keyword)).map (·.value)

/-- A header with what an extension says about it. -/
def applyTo (x : Extension) (h : Header) : Except Absence Header := x.foldlM Header.withRecord h

end Extension

/-! ### Members -/

/-- A member found in an archive, before its data is read. -/
structure Entry where
  header : Header
  /-- The place of the data. -/
  cursor : Cursor
  /-- The position of the next header. -/
  next : Int
  /-- What the extensions for all headers have said so far. -/
  general : Extension
  /-- The map of a sparse file. -/
  map : Option Map

/-- A number of bytes rounded up to whole blocks. -/
def wholeBlocks (size : Int) : Int := -(-size / blockSize) * blockSize

/-- The position after the data of a header. -/
def afterData (h : Header) (position : Nat) : Int :=
  if h.kind.hasData then position + wholeBlocks h.size else position

/-- The member of a header that carries nothing for another one. -/
def plainEntry (general : Extension) (h : Header) (c : Cursor) : Except Absence Entry :=
  (general.applyTo h).map fun named =>
    let name := if named.kind = .directory then withoutEndSlashes named.name else named.name
    ⟨{ named with name }, c, afterData h c.position, general, none⟩

/-- The member of a header with a map, which stands in a block and in those that continue it. The
header gives the size of its parts, and the map the size of the file. -/
def sparseEntry (general : Extension) (h : Header) (block : Bytes) (c : Cursor) :
    Except Absence Entry := do
  let (map, size, goesOn) ← mapInHeader block
  let (more, c) ← if goesOn then continuedMap (c.rest.data.length + 1) c else pure ([], c)
  return ⟨{ h with size }, c, c.position + wholeBlocks h.size, general, some (map ++ more)⟩

namespace Entry

/-- A member under a name that stands in front of its header. -/
def withName (e : Entry) (name : Text) : Entry :=
  let name := if e.header.kind = .directory then Text.dropSuffix name "/" else name
  { e with header := { e.header with name } }

/-- The parts of a sparse file whose offsets and lengths are records of their own. -/
def partsOf (rs : List Record) : Except Absence Map := do
  let values (keyword : Text) := rs.filterMap fun r =>
    if r.keyword = keyword then some r.value else none
  let offsets ← (values "GNU.sparse.offset").mapM integer
  let lengths ← (values "GNU.sparse.numbytes").mapM integer
  return offsets.zip lengths

/-- A member with the map that an extension gives, which has been said by some records and others in
front of them. Parts that cannot be read count as the end of the archive. -/
def withMap (x : Extension) (rs : List Record) (e : Entry) : Except Absence Entry :=
  match x.get? "GNU.sparse.map" with
  | some value => do
    let ns ← (Text.splitOn (.scalar ',') value).mapM integer
    return { e with map := some (pairUp ns) }
  | none =>
    if (x.get? "GNU.sparse.size").isSome then
      match partsOf rs with
      | .ok map => .ok { e with map := some map }
      | .error _ => .error (if e.next = 0 then .damage else .endMark)
    else if x.get? "GNU.sparse.major" = some ("1" : Text) &&
        x.get? "GNU.sparse.minor" = some ("0" : Text) then do
      let (map, c) ← mapInLines e.cursor
      return { e with map := some map, cursor := c }
    else .ok e

/-- A member under the extension that stands in front of its header. A size in it also moves the
next header. -/
def withExtension (x : Extension) (e : Entry) : Except Absence Entry := do
  let header ← x.applyTo e.header
  let next := if (x.get? "size").isSome then afterData header e.cursor.position else e.next
  return { e with header, next }

end Entry

/-- What a header that carries something tells with its data: the extension for the headers that
follow, and the change to the next member. -/
def Header.tells (general : Extension) (h : Header) (data : Bytes) :
    Except Absence (Extension × (Entry → Except Absence Entry)) :=
  match h.kind with
  | .longName => .ok (general, fun e => .ok (e.withName (fieldText data)))
  | .extension =>
    match records? data with
    | none => .error .noHeader
    | some rs =>
      let x := general.addRecords rs
      .ok (general, fun e => (e.withMap x rs).bind (·.withExtension x))
  | .globalExtension =>
    match records? data with
    | none => .error .noHeader
    | some rs => .ok (general.addRecords rs, fun e => e.withMap e.general rs)
  | _ => .ok (general, fun e => .ok (e.withName e.header.name))

/-- The most headers that may stand in front of the header of a member, each of them carrying
something for the next. It is what the stack of the reader leaves when it is called at the top of a
run. -/
def maxNesting : Nat := 329

/-- The member whose headers begin at a place, with no more than `count` of them in front of its
own. -/
def entry (count : Nat) (general : Extension) (c : Cursor) : Except Absence Entry := do
  let (block, c) ← c.take blockSize
  let h ← header block
  if h.kind.introduces then
    match count with
    | 0 => .error (.failure .nestedTooDeep)
    | count + 1 => do
      let (data, c) ← c.read (wholeBlocks h.size)
      let (general, change) ← h.tells general data
      let e ← (entry count general c).mapError Absence.behind
      change e
  else if h.kind = .sparse then sparseEntry general h block c
  else plainEntry general h c

/-- Reads the data of a member if it is a file whose data is asked for. -/
def Entry.member (reads : Text → Bool) (e : Entry) : Except Absence (Member × Cursor) :=
  if e.header.kind.isFile && reads e.header.name then do
    let (content, c) ← content e.header.size e.map e.cursor
    return (⟨e.header.name, true, content⟩, c)
  else .ok (⟨e.header.name, e.header.kind.isFile, []⟩, e.cursor)

/-- A member from a place on, with the place of the next one. -/
structure Step where
  member : Member
  cursor : Cursor
  general : Extension

/-- The member at a position. -/
def step (reads : Text → Bool) (general : Extension) (c : Cursor) (position : Int) :
    Except Absence (Step × Int) := do
  let c ← c.moveTo position
  let e ← entry maxNesting general c
  let (m, c) ← e.member reads
  return (⟨m, c, e.general⟩, e.next)

/-- The failure with which a listing ends, if it does, where there is no member at a position. -/
def Absence.failureAt (position : Int) : Absence → Option ReadFailure
  | endMark => none
  | noHeader => if position = 0 then some .damaged else none
  | failure f => some f

/-- The listing from a position on, after members found already, the last one first. Every member
takes a block, so the number of bytes bounds their number. -/
def listFrom (reads : Text → Bool) (found : List Member) :
    Nat → Extension → Cursor → Int → Listing
  | 0, _, _, _ => ⟨found.reverse, none⟩
  | bound + 1, general, c, position =>
    match step reads general c position with
    | .ok (s, next) => listFrom reads (s.member :: found) bound s.general s.cursor next
    | .error a => ⟨found.reverse, a.failureAt position⟩

/-- The listing of an archive, in which the data of the files with some names is read. -/
def list (reads : Text → Bool) (s : Source) : Listing :=
  listFrom reads [] (s.data.length + 1) [] (s.cursor s.start s.start) s.start

end ProviderCatalog.Archive.Tar
