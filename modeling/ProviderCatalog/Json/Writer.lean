import ProviderCatalog.Datum

/-!
# Writing JSON documents

Documents are written in visible ASCII: other code points are escaped by their UTF-16 code units, so
a lone surrogate is written by its own number.

## Main definitions

* `Json.Layout`: the separators between items and after keys, and the spelling of binary numbers.
* `Json.quote`: a text between quotes.
* `Json.render`: the document of a datum.
-/

namespace ProviderCatalog.Json

/-- The lower-case hexadecimal digit of a number below sixteen. -/
def hexDigit (n : Nat) : Char :=
  if n < 10 then Char.ofNat (0x30 + n) else Char.ofNat (0x57 + n)

/-- The escape by number of a UTF-16 code unit. -/
def escapeUnit (n : Nat) : List Char :=
  ['\\', 'u', hexDigit (n / 4096 % 16), hexDigit (n / 256 % 16), hexDigit (n / 16 % 16),
    hexDigit (n % 16)]

/-- A code point as it is written between quotes. -/
def escape (x : CodePoint) : List Char :=
  match x with
  | .scalar '"' => ['\\', '"']
  | .scalar '\\' => ['\\', '\\']
  | .scalar '\n' => ['\\', 'n']
  | .scalar '\r' => ['\\', 'r']
  | .scalar '\t' => ['\\', 't']
  | .scalar '\x08' => ['\\', 'b']
  | .scalar '\x0c' => ['\\', 'f']
  | .scalar c =>
    let n := c.toNat
    if 0x20 ≤ n && n < 0x7F then [c]
    else if n < 0x10000 then escapeUnit n
    else escapeUnit (0xD800 + (n - 0x10000) / 0x400) ++ escapeUnit (0xDC00 + (n - 0x10000) % 0x400)
  | .surrogate n => escapeUnit (0xD800 + n)

/-- A text between quotes, appended to what is written already. -/
def quoteAfter (acc : String) (t : Text) : String :=
  (t.foldl (fun s x => (escape x).foldl String.push s) (acc.push '"')).push '"'

/-- A text between quotes. -/
def quote (t : Text) : String := quoteAfter "" t

/-- The spelling of a binary number, with the names of the values that are not finite. -/
def renderReal : Binary64 → String
  | .nan => "NaN"
  | .infinite negative => if negative then "-Infinity" else "Infinity"
  | x => x.toText

/-- The spelling of a binary number, as an integer if it is one. -/
def renderPlainReal (x : Binary64) : String :=
  match x.toRat? with
  | some q => if q.den = 1 then toString q.num else renderReal x
  | none => renderReal x

/-- How a document is laid out. -/
structure Layout where
  /-- What stands between items. -/
  item : String
  /-- What stands behind keys. -/
  key : String
  /-- How binary numbers are spelt. -/
  real : Binary64 → String

/-- Separators without blanks, and integers for binary numbers that are integers. -/
def compact : Layout := ⟨",", ":", renderPlainReal⟩

/-- Separators with one blank, and binary numbers with a point or an exponent. -/
def spaced : Layout := ⟨", ", ": ", renderReal⟩

mutual

/-- The document of a datum, appended to what is written already. Byte strings and moments, which
have no notation, are written as null. -/
def renderAfter (layout : Layout) (acc : String) : Datum → String
  | .null | .bytes _ | .moment => acc ++ "null"
  | .bool b => acc ++ (if b then "true" else "false")
  | .int n => acc ++ toString n
  | .real x => acc ++ layout.real x
  | .text t => quoteAfter acc t
  | .list [] => acc ++ "[]"
  | .list (d :: ds) => (renderItems layout (renderAfter layout (acc.push '[') d) ds).push ']'
  | .mapping [] => acc ++ "\x7b\x7d"
  | .mapping (e :: es) => (renderEntries layout (renderEntry layout (acc.push '\x7b') e) es).push '\x7d'

/-- Further items of a list. -/
def renderItems (layout : Layout) (acc : String) : List Datum → String
  | [] => acc
  | d :: ds => renderItems layout (renderAfter layout (acc ++ layout.item) d) ds

/-- Further entries of a mapping. -/
def renderEntries (layout : Layout) (acc : String) : List (Datum × Datum) → String
  | [] => acc
  | e :: es => renderEntries layout (renderEntry layout (acc ++ layout.item) e) es

/-- An entry of a mapping. A key that is not a text is written as an empty one. -/
def renderEntry (layout : Layout) (acc : String) : Datum × Datum → String
  | (.text k, v) => renderAfter layout (quoteAfter acc k ++ layout.key) v
  | (_, v) => renderAfter layout (quoteAfter acc [] ++ layout.key) v

end

/-- The document of a datum. -/
def render (layout : Layout) (d : Datum) : String := renderAfter layout "" d

end ProviderCatalog.Json
