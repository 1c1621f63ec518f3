import ProviderCatalog.Archive.PrefixCode

/-!
# Deflated data

Deflated data is a sequence of blocks, the last of which is marked. A block holds plain bytes, or
symbols of a fixed or a described prefix code: literal bytes and references that repeat an earlier
part of the output. What can be decoded of incomplete data is the output of all symbols that are
complete.

## Main definitions

* `Ending`: whether the data was complete, too short or faulty.
* `Inflated`, `inflate`: the output of deflated data with its ending.
-/

namespace ProviderCatalog.Archive

/-- How decoding ended. -/
inductive Ending where
  | complete
  | short
  | faulty
deriving DecidableEq, Repr

/-- The decoded output with the ending of the data. -/
structure Inflated where
  output : Bytes
  ending : Ending
deriving Repr

namespace Deflate

/-- The output so far, the last byte first, and where reading goes on or how it ended. -/
structure Progress where
  reversed : Bytes
  next : Except Ending Bits

/-- The least length of each length symbol and the number of bits that are added to it. -/
def lengthSymbols : List (Nat × Nat) := [
  (3, 0), (4, 0), (5, 0), (6, 0), (7, 0), (8, 0), (9, 0), (10, 0), (11, 1), (13, 1), (15, 1),
  (17, 1), (19, 2), (23, 2), (27, 2), (31, 2), (35, 3), (43, 3), (51, 3), (59, 3), (67, 4), (83, 4),
  (99, 4), (115, 4), (131, 5), (163, 5), (195, 5), (227, 5), (258, 0)]

/-- The least distance of each distance symbol and the number of bits that are added to it. -/
def distanceSymbols : List (Nat × Nat) := [
  (1, 0), (2, 0), (3, 0), (4, 0), (5, 1), (7, 1), (9, 2), (13, 2), (17, 3), (25, 3), (33, 4), (49, 4),
  (65, 5), (97, 5), (129, 6), (193, 6), (257, 7), (385, 7), (513, 8), (769, 8), (1025, 9), (1537, 9),
  (2049, 10), (3073, 10), (4097, 11), (6145, 11), (8193, 12), (12289, 12), (16385, 13), (24577, 13)]

/-- Reads the number that a symbol of a table stands for. -/
def measured (table : List (Nat × Nat)) (symbol : Nat) (bits : Bits) : Taken Nat :=
  match table[symbol]? with
  | none => .faulty
  | some (least, width) =>
    (Bits.number width bits).andThen fun n rest => .found (least + n) rest

/-- Appends `n` bytes of the endless repetition of `period`, of which `ahead` comes first. -/
def appendRepeated (period ahead : Bytes) : Nat → Bytes → Bytes
  | 0, reversed => reversed
  | n + 1, reversed =>
    match ahead with
    | b :: ahead => appendRepeated period ahead n (b :: reversed)
    | [] =>
      match period with
      | b :: ahead => appendRepeated period ahead n (b :: reversed)
      | [] => reversed

/-- Appends `length` bytes, each of which stands `distance` bytes earlier. -/
def appendEarlier (distance length : Nat) (reversed : Bytes) : Bytes :=
  let period := (reversed.take distance).reverse
  appendRepeated period period length reversed

/-- A symbol of a block. -/
inductive Item where
  | literal (b : UInt8)
  | earlier (distance length : Nat)
  | blockEnd

/-- Reads a symbol of a block in its two codes. -/
def item (literals distances : PrefixCode) (bits : Bits) : Taken Item :=
  (literals.symbol bits).andThen fun s rest =>
    if s < 256 then .found (.literal (UInt8.ofNat s)) rest
    else if s = 256 then .found .blockEnd rest
    else
      (measured lengthSymbols (s - 257) rest).andThen fun length rest =>
        (distances.symbol rest).andThen fun d rest =>
          (measured distanceSymbols d rest).andThen fun distance rest =>
            .found (.earlier distance length) rest

/-- Reads the symbols of a block up to its end. Each takes at least one bit, so the number of bits
bounds their number. -/
def codedBlock (literals distances : PrefixCode) : Nat → Bytes → Bits → Progress
  | 0, reversed, _ => ⟨reversed, .error .short⟩
  | bound + 1, reversed, bits =>
    match item literals distances bits with
    | .short => ⟨reversed, .error .short⟩
    | .faulty => ⟨reversed, .error .faulty⟩
    | .found .blockEnd rest => ⟨reversed, .ok rest⟩
    | .found (.literal b) rest => codedBlock literals distances bound (b :: reversed) rest
    | .found (.earlier distance length) rest =>
      if (reversed.take distance).length < distance then ⟨reversed, .error .faulty⟩
      else codedBlock literals distances bound (appendEarlier distance length reversed) rest

/-- Reads `n` plain bytes. -/
def plainBytes : Nat → Bytes → Bits → Progress
  | 0, reversed, bits => ⟨reversed, .ok bits⟩
  | n + 1, reversed, bits =>
    match Bits.number 8 bits with
    | .found b rest => plainBytes n (UInt8.ofNat b :: reversed) rest
    | .short => ⟨reversed, .error .short⟩
    | .faulty => ⟨reversed, .error .faulty⟩

/-- Reads a block of plain bytes: their number, the complement of that, and the bytes. -/
def plainBlock (reversed : Bytes) (bits : Bits) : Progress :=
  let header := (Bits.number 16 bits.toByteBoundary).andThen fun n rest =>
    (Bits.number 16 rest).andThen fun complement rest =>
      if n + complement = 0xFFFF then .found n rest else .faulty
  match header with
  | .found n rest => plainBytes n reversed rest
  | .short => ⟨reversed, .error .short⟩
  | .faulty => ⟨reversed, .error .faulty⟩

/-- The fixed code of literals and lengths. -/
def fixedLiterals : PrefixCode :=
  .ofLengths (List.replicate 144 8 ++ List.replicate 112 9 ++ List.replicate 24 7
    ++ List.replicate 8 8)

/-- The fixed code of distances. -/
def fixedDistances : PrefixCode := .ofLengths (List.replicate 32 5)

/-- The symbols of the code of code lengths, in the order in which their lengths are given. -/
def lengthOrder : List Nat :=
  [16, 17, 18, 0, 8, 7, 9, 6, 10, 5, 11, 4, 12, 3, 13, 2, 14, 1, 15]

/-- Reads `n` numbers of three bits. -/
def triples : Nat → Bits → Taken (List Nat)
  | 0, bits => .found [] bits
  | n + 1, bits =>
    (Bits.number 3 bits).andThen fun m rest =>
      (triples n rest).andThen fun ms rest => .found (m :: ms) rest

/-- Reads code lengths until there are `total`, after `found` of them, the last one first. -/
def codeLengths (code : PrefixCode) (total : Nat) : Nat → List Nat → Bits → Taken (List Nat)
  | 0, _, _ => .short
  | bound + 1, found, bits =>
    if found.length = total then .found found.reverse bits
    else
      let repeated (value width least : Nat) (bits : Bits) : Taken (List Nat) :=
        (Bits.number width bits).andThen fun n rest =>
          if total < found.length + least + n then .faulty
          else codeLengths code total bound (List.replicate (least + n) value ++ found) rest
      (code.symbol bits).andThen fun s rest =>
        if s < 16 then codeLengths code total bound (s :: found) rest
        else if s = 16 then
          match found with
          | [] => .faulty
          | last :: _ => repeated last 2 3 rest
        else if s = 17 then repeated 0 3 3 rest
        else repeated 0 7 11 rest

/-- Reads the description of the two codes of a block. -/
def describedCodes (bits : Bits) : Taken (PrefixCode × PrefixCode) :=
  (Bits.number 5 bits).andThen fun literalCount rest =>
  (Bits.number 5 rest).andThen fun distanceCount rest =>
  (Bits.number 4 rest).andThen fun lengthCount rest =>
    if 29 < literalCount || 29 < distanceCount then .faulty
    else (triples (lengthCount + 4) rest).andThen fun given rest =>
      let lengths := (List.range 19).map fun s => ((lengthOrder.zip given).lookup s).getD 0
      let code := PrefixCode.ofLengths lengths
      let total := literalCount + 257 + (distanceCount + 1)
      if !code.isComplete then .faulty
      else (codeLengths code total (total + 1) [] rest).andThen fun found rest =>
        let literals := PrefixCode.ofLengths (found.take (literalCount + 257))
        let distances := PrefixCode.ofLengths (found.drop (literalCount + 257))
        if found.getD 256 0 = 0 || !literals.isUsable || !distances.isUsable then .faulty
        else .found (literals, distances) rest

/-- Reads the inside of a block of a kind. -/
def blockBody (kind : Nat) (reversed : Bytes) (bits : Bits) : Progress :=
  match kind with
  | 0 => plainBlock reversed bits
  | 1 => codedBlock fixedLiterals fixedDistances (bits.length + 1) reversed bits
  | 2 =>
    match describedCodes bits with
    | .found (literals, distances) rest =>
      codedBlock literals distances (rest.length + 1) reversed rest
    | .short => ⟨reversed, .error .short⟩
    | .faulty => ⟨reversed, .error .faulty⟩
  | _ => ⟨reversed, .error .faulty⟩

/-- Reads blocks up to the last one. Each takes at least three bits, so the number of bits bounds
their number. -/
def blocks : Nat → Bytes → Bits → Inflated
  | 0, reversed, _ => ⟨reversed.reverse, .short⟩
  | bound + 1, reversed, bits =>
    let header := (Bits.number 1 bits).andThen fun last rest =>
      (Bits.number 2 rest).andThen fun kind rest => .found (last, kind) rest
    match header with
    | .short => ⟨reversed.reverse, .short⟩
    | .faulty => ⟨reversed.reverse, .faulty⟩
    | .found (last, kind) rest =>
      let p := blockBody kind reversed rest
      match p.next with
      | .error e => ⟨p.reversed.reverse, e⟩
      | .ok rest =>
        if last = 1 then ⟨p.reversed.reverse, .complete⟩ else blocks bound p.reversed rest

end Deflate

/-- The output of deflated data. -/
def inflate (data : Bytes) : Inflated :=
  let bits := Bits.ofBytes data
  Deflate.blocks (bits.length + 1) [] bits

end ProviderCatalog.Archive
