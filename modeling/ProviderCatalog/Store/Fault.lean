import ProviderCatalog.Text.EncodingFault

/-!
# Faults of the store

A write is refused when the rows that it would leave behind break a rule of the tables, when there
are no tables, or when the store is out of order. A read fails without tables and on a question that
cannot be read. Numbers that need more than 64 bits and texts that cannot be encoded fit into no
column.

## Main definitions

* `Refusal`, `Fault`, `Fault.message`: the faults and their messages.
* `Param`, `Param.bind`: values on their way into a column, checked in order.
-/

namespace ProviderCatalog.Store

/-- Why a write is refused. -/
inductive Refusal where
  | noTable (name : String)
  /-- The row refers to a row that is not there. -/
  | noParent
  /-- The release has another entry with the same key. -/
  | duplicateEntry
  | outOfOrder
deriving DecidableEq, Repr

/-- The message of a refusal. -/
def Refusal.message : Refusal → Text
  | noTable name => ("no such table: " : Text) ++ name
  | noParent => "FOREIGN KEY constraint failed"
  | duplicateEntry =>
    "UNIQUE constraint failed: provider_release_entries.release_id, provider_release_entries.entry_key"
  | outOfOrder => "disk full"

/-- Why an operation on the store fails. -/
inductive Fault where
  | refused (r : Refusal)
  /-- A read without the named table. -/
  | unreadable (table : String)
  /-- A question that ends before it is complete. -/
  | openQuestion
  | numberTooLarge
  | unencodable (f : EncodeFault)
deriving DecidableEq, Repr

namespace Fault

/-- The message of a fault. -/
def message : Fault → Text
  | refused r => r.message
  | unreadable table => ("no such table: " : Text) ++ table
  | openQuestion => "unterminated string"
  | numberTooLarge => "Python int too large to convert to SQLite INTEGER"
  | unencodable f => f.message

/-- Whether a fault is a refusal, the only kind of fault that a caller of a write reckons with. -/
def isRefusal : Fault → Bool
  | refused _ => true
  | _ => false

end Fault

/-- A value on its way into a column. -/
inductive Param where
  | number (n : Int)
  | text (t : Text)
  | null
deriving DecidableEq, Repr

namespace Param

/-- A text, or null in its absence. -/
def ofText? : Option Text → Param
  | some t => text t
  | none => null

/-- A number, or null in its absence. -/
def ofNumber? : Option Int → Param
  | some n => number n
  | none => null

/-- The fault of a value that fits into no column. -/
def fault? : Param → Option Fault
  | number n => if -0x8000000000000000 ≤ n && n < 0x8000000000000000 then none else some .numberTooLarge
  | text t => t.encodeFault?.map .unencodable
  | null => none

/-- Requires every value to fit into a column; the first that does not is the fault. -/
def bind (params : List Param) : Except Fault Unit :=
  match params.findSome? fault? with
  | some f => .error f
  | none => .ok ()

end Param

end ProviderCatalog.Store
