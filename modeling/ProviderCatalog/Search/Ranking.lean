import ProviderCatalog.Search.Question

/-!
# Ranking of hits, and the index of texts

A document is a list of columns, each a text. A phrase of words hits the documents in which it
stands in some column. Hits are ranked by how often the phrase stands in them in proportion to
their length and to the average length of all documents, the best first; equally good hits keep the
order of the documents.

An index keeps the words of rows of a table apart from the table, in the order of their numbers. It
is told of every row that is added, changed or removed, and of the texts that the row has or had:
what it keeps of a row is found again by those texts only. It can also be built anew from all rows.

## Main definitions

* `Document`: the columns of a document with what it stands for.
* `score`: how good a hit is.
* `ranked`: the hits of a phrase, the best first.
* `Index`, `Index.build`: indexes, and the index of given rows.
* `Index.insert`, `Index.remove`, `Index.replace`: an index that is told of a row.
-/

namespace ProviderCatalog.Search

/-- A document that stands for a value, as the words of its columns. -/
structure Document (α : Type) where
  value : α
  columns : List (List Word)
deriving DecidableEq, Repr

namespace Document

variable {α : Type}

/-- The number of words of a document. -/
def size (d : Document α) : Nat := d.columns.foldr (fun c n => c.length + n) 0

/-- How often a phrase stands in a document. -/
def frequency (phrase : List Word) (d : Document α) : Nat :=
  d.columns.foldr (fun c n => occurrences phrase c + n) 0

/-- Whether a phrase stands in a document. -/
def isHit (phrase : List Word) (d : Document α) : Bool := d.frequency phrase ≠ 0

end Document

/-- How soon further occurrences stop to count. -/
def saturation : Float := 1.2

/-- How much the length of a document counts. -/
def lengthWeight : Float := 0.75

/-- The weight of a phrase that `hits` of `total` documents contain, never quite zero. -/
def rarity (total hits : Nat) : Float :=
  let r := Float.log ((total.toFloat - hits.toFloat + 0.5) / (hits.toFloat + 0.5))
  if r <= 0 then 1e-6 else r

/-- How good a hit is in which a phrase of a given weight stands `frequency` times, among documents
of the given average size. -/
def score (weight average : Float) (frequency size : Nat) : Float :=
  let f := frequency.toFloat
  let relative := size.toFloat / average
  weight * ((f * (saturation + 1))
    / (f + saturation * (1 - lengthWeight + lengthWeight * relative)))

variable {α : Type}

/-- The documents in which a phrase stands, the best first. -/
def ranked (phrase : List Word) (documents : List (Document α)) : List α :=
  let hits := documents.filter (·.isHit phrase)
  let size := documents.foldr (fun d n => d.size + n) 0
  let average := size.toFloat / documents.length.toFloat
  let weight := rarity documents.length hits.length
  let scored := hits.map fun d => (score weight average (d.frequency phrase) d.size, d.value)
  (scored.mergeSort fun a b => b.1 <= a.1).map (·.2)

/-! ### The index -/

/-- The words of rows by the numbers of the rows, in ascending order. -/
abbrev Index := List (Document Int)

namespace Index

/-- What is kept of a row with a number and texts. -/
def document (n : Int) (texts : List Text) : Document Int := ⟨n, texts.map words⟩

/-- The index of rows with numbers and texts. -/
def build (rows : List (Int × List Text)) : Index := rows.map fun r => document r.1 r.2

/-- The index with one more row. -/
def insert (i : Index) (n : Int) (texts : List Text) : Index :=
  i.takeWhile (·.value < n) ++ document n texts :: i.dropWhile (·.value < n)

/-- The index without the row that was put in under a number with the given texts. -/
def remove (i : Index) (n : Int) (texts : List Text) : Index := i.erase (document n texts)

/-- The index with other texts for a row. -/
def replace (i : Index) (n : Int) (old new : List Text) : Index := (i.remove n old).insert n new

end Index

end ProviderCatalog.Search
