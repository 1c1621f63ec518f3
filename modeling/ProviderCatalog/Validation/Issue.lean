import ProviderCatalog.Datum

/-!
# Issues of records read from data

Reading a record from a datum collects every issue of every field, in the order of the fields,
instead of stopping at the first. An issue names the place where it was found, as a path of field
names and positions, and its kind.

## Main definitions

* `IssueKind`, `Step`, `Issue`: what is wrong with a datum, and where.
* `Checked`: a value or the issues that prevent it, combined by collecting issues.
* `Invalid`: the issues of a whole record, with the record's name.
-/

namespace ProviderCatalog

/-- What can be wrong with a datum. -/
inductive IssueKind where
  | missing
  | textExpected
  | textTooShort
  | textNotUnicode
  | intExpected
  | intUnreadable
  | intTooLong
  | intFromFraction
  | numberNotFinite
  | realExpected
  | realUnreadable
  | boolExpected
  | boolUnreadable
  | tooSmall
  | tooLarge
  | notAllowed
  | refused
  | listExpected
  | recordExpected
  | momentExpected
  | documentUnreadable
deriving DecidableEq, Repr

/-- One step on the way to an issue. -/
inductive Step where
  | field (name : String)
  | index (i : Nat)
deriving DecidableEq, Repr

/-- An issue at a place. -/
structure Issue where
  path : List Step
  kind : IssueKind
deriving DecidableEq, Repr

/-- A value, or the issues that prevent it. -/
inductive Checked (α : Type) where
  | valid (a : α)
  | invalid (issues : List Issue)

namespace Checked

variable {α β : Type}

/-- The value under an issue of the given kind at the datum itself. -/
def fail (kind : IssueKind) : Checked α := invalid [⟨[], kind⟩]

/-- Applies a function to the value. -/
def map (f : α → β) : Checked α → Checked β
  | valid a => valid (f a)
  | invalid es => invalid es

/-- Applies a function to a value, the issues of both collected in order. -/
def apply (f : Checked (α → β)) (x : Checked α) : Checked β :=
  match f, x with
  | valid g, valid a => valid (g a)
  | valid _, invalid es => invalid es
  | invalid es, valid _ => invalid es
  | invalid es, invalid es' => invalid (es ++ es')

instance : Applicative Checked where
  pure := valid
  seq f x := apply f (x ())
  map := map

/-- Continues with the value, if there is one. -/
def andThen (x : Checked α) (f : α → Checked β) : Checked β :=
  match x with
  | valid a => f a
  | invalid es => invalid es

/-- Puts a step in front of the path of every issue. -/
def within (s : Step) : Checked α → Checked α
  | valid a => valid a
  | invalid es => invalid (es.map fun e => ⟨s :: e.path, e.kind⟩)

/-- Reads the items of a list, numbered from `i` on. -/
def each (read : β → Checked α) (i : Nat) : List β → Checked (List α)
  | [] => valid []
  | x :: xs => apply (map List.cons ((read x).within (.index i))) (each read (i + 1) xs)

end Checked

/-- The issues that prevent a record from being read. -/
structure Invalid where
  /-- The name of the record in messages. -/
  record : String
  issues : List Issue
deriving DecidableEq, Repr

namespace Invalid

/-- The first line of the message of an invalid record. -/
def message (e : Invalid) : Text :=
  let noun := if e.issues.length = 1 then " validation error for " else " validation errors for "
  Text.ofNat e.issues.length ++ noun ++ e.record

end Invalid

/-- The value read as a whole record, or the record's issues. -/
def Checked.asRecord {α : Type} (record : String) : Checked α → Except Invalid α
  | valid a => .ok a
  | invalid issues => .error ⟨record, issues⟩

end ProviderCatalog
