import ProviderCatalog.Number.Binary64

/-!
# Data of foreign documents

A datum is what a document in a self-describing format denotes before it is read as a record: the
scalars, lists and mappings that the formats share. Mappings keep the order of their entries, and
setting a key again replaces its value in place.

## Main definitions

* `Datum`, `Datum.same`: the data, and when two of them are the same.
* `Datum.get?`: the value of a text key in a mapping.
* `Datum.isTruthy`: whether a datum counts as present and not empty.
-/

namespace ProviderCatalog

/-- A datum of a self-describing document. -/
inductive Datum where
  | null
  | bool (b : Bool)
  | int (n : Int)
  | real (x : Binary64)
  | text (t : Text)
  | bytes (bs : List UInt8)
  /-- A date or a time, which only a document with such a notation can hold. -/
  | moment
  | list (items : List Datum)
  | mapping (entries : List (Datum × Datum))
deriving Inhabited, Repr

namespace Datum

instance : Coe Text Datum := ⟨text⟩

mutual

/-- Whether two data are the same, the entries of their mappings in the same order. -/
def same : Datum → Datum → Bool
  | null, null | moment, moment => true
  | bool a, bool b => a == b
  | int m, int n => m == n
  | real x, real y => x == y
  | text s, text t => s == t
  | bytes as, bytes bs => as == bs
  | list as, list bs => sameItems as bs
  | mapping as, mapping bs => sameEntries as bs
  | _, _ => false

/-- Whether two lists have the same items. -/
def sameItems : List Datum → List Datum → Bool
  | [], [] => true
  | a :: as, b :: bs => same a b && sameItems as bs
  | _, _ => false

/-- Whether two mappings have the same entries. -/
def sameEntries : List (Datum × Datum) → List (Datum × Datum) → Bool
  | [], [] => true
  | (k, v) :: as, (l, w) :: bs => same k l && same v w && sameEntries as bs
  | _, _ => false

end

instance : BEq Datum := ⟨same⟩

/-- The value of a text key among the entries of a mapping. -/
def lookup (key : Text) : List (Datum × Datum) → Option Datum
  | [] => none
  | (text k, v) :: rest => if k = key then some v else lookup key rest
  | _ :: rest => lookup key rest

/-- The value of a text key, if the datum is a mapping that has the key. -/
def get? (d : Datum) (key : Text) : Option Datum :=
  match d with
  | mapping entries => lookup key entries
  | _ => none

/-- The entries of a mapping with one key set: in place if the key is there, else at the end. -/
def setEntry (key : Datum) (value : Datum) : List (Datum × Datum) → List (Datum × Datum)
  | [] => [(key, value)]
  | (k, v) :: rest => if k == key then (k, value) :: rest else (k, v) :: setEntry key value rest

/-- Whether a datum is neither null, false, zero nor empty. -/
def isTruthy : Datum → Bool
  | null => false
  | bool b => b
  | int n => n ≠ 0
  | real (.finite _ m _) => m ≠ 0
  | real _ => true
  | text t => !t.isEmpty
  | bytes bs => !bs.isEmpty
  | moment => true
  | list items => !items.isEmpty
  | mapping entries => !entries.isEmpty

/-- The mapping with the given text keys. -/
def ofFields (fields : List (Text × Datum)) : Datum :=
  mapping (fields.map fun (k, v) => (text k, v))

/-- A text, or null in its absence. -/
def ofText? : Option Text → Datum
  | some t => text t
  | none => null

/-- An integer, or null in its absence. -/
def ofInt? : Option Int → Datum
  | some n => int n
  | none => null

/-- A list of texts. -/
def ofTexts (ts : List Text) : Datum := list (ts.map text)

/-- A mapping without the entries that are null or false; any other datum as it is. -/
def sparse : Datum → Datum
  | mapping entries => mapping (entries.filter fun e => !(e.2 == null || e.2 == bool false))
  | d => d

/-- A mapping with further text keys at its end; any other datum as it is. -/
def extended (fields : List (Text × Datum)) : Datum → Datum
  | mapping entries => mapping (entries ++ fields.map fun (k, v) => (text k, v))
  | d => d

end Datum

end ProviderCatalog
