import ProviderCatalog.Text.Basic

/-!
# Tables of numbered rows

A table numbers its rows. Numbers are given out in ascending order and never again, not even after
their row is gone, and storing a value under a key that is there already uses a number up as well.
Rows stay in the order of their numbers.

## Main definitions

* `Row`, `Table`: rows and tables.
* `Table.find?`, `Table.get?`, `Table.select`, `Table.meets`: rows by a condition or by their number.
* `Table.append`, `Table.put`: a new row, or a new value for the row with the same key.
* `Table.erase`, `Table.change`: rows removed or changed in place.
-/

namespace ProviderCatalog.Store

variable {α κ : Type}

/-- A numbered row. -/
structure Row (α : Type) where
  id : Int
  value : α
deriving DecidableEq, Repr

/-- A table of numbered rows. -/
structure Table (α : Type) where
  /-- The last number that was used up. -/
  last : Int
  rows : List (Row α)
deriving DecidableEq, Repr

namespace Table

/-- The table without rows that has used up no number. -/
def empty : Table α := ⟨0, []⟩

/-- The first row whose value meets a condition. -/
def find? (t : Table α) (p : α → Bool) : Option (Row α) := t.rows.find? fun r => p r.value

/-- The value of the row with a number. -/
def get? (t : Table α) (id : Int) : Option α := (t.rows.find? (·.id == id)).map (·.value)

/-- Whether there is a row with a number. -/
def has (t : Table α) (id : Int) : Bool := t.rows.any (·.id == id)

/-- Whether the row with a number meets a condition. -/
def meets (t : Table α) (p : Row α → Bool) (id : Int) : Bool := t.rows.any fun r => r.id == id && p r

/-- The rows whose values meet a condition, in order. -/
def select (t : Table α) (p : α → Bool) : List (Row α) := t.rows.filter fun r => p r.value

/-- The values of all rows, in order. -/
def values (t : Table α) : List α := t.rows.map (·.value)

/-- The number of the next row. -/
def next (t : Table α) : Int := t.last + 1

/-- The table with one more row. -/
def append (t : Table α) (a : α) : Table α := ⟨t.next, t.rows ++ [⟨t.next, a⟩]⟩

/-- Rows with a value in the place of the first value of the same key, or in a new row with the
given number at the end. -/
def putRow [BEq κ] (key : α → κ) (merge : α → α) (a : α) (id : Int) : List (Row α) → List (Row α)
  | [] => [⟨id, a⟩]
  | r :: rs =>
    if key r.value == key a then ⟨r.id, merge r.value⟩ :: rs else r :: putRow key merge a id rs

/-- The number of the first row with the key of a value, or the given number. -/
def idOf [BEq κ] (key : α → κ) (a : α) (id : Int) : List (Row α) → Int
  | [] => id
  | r :: rs => if key r.value == key a then r.id else idOf key a id rs

/-- Stores a value under its key, and tells the number of its row. A value that has the key already
is replaced by what `merge` makes of it. -/
def putMerging [BEq κ] (t : Table α) (key : α → κ) (merge : α → α) (a : α) : Table α × Int :=
  (⟨t.next, putRow key merge a t.next t.rows⟩, idOf key a t.next t.rows)

/-- Stores a value under its key, in the place of a value that has the key already. -/
def put [BEq κ] (t : Table α) (key : α → κ) (a : α) : Table α × Int :=
  t.putMerging key (fun _ => a) a

/-- The table without the rows that meet a condition. -/
def erase (t : Table α) (p : Row α → Bool) : Table α := ⟨t.last, t.rows.filter (!p ·)⟩

/-- The table with every value changed. -/
def change (t : Table α) (f : α → α) : Table α := ⟨t.last, t.rows.map fun r => ⟨r.id, f r.value⟩⟩

end Table

end ProviderCatalog.Store
