import ProviderCatalog.Text.Basic

/-!
# Locks of repositories

A lock is known by a name and held by at most one holder. Taking a lock that is held fails at once,
and giving back a lock that is not held does nothing.

Locks are objects of a table, in which each is made when it is first wanted and stays from then on.
What was made does not matter to the answers, only what is held, so that a run keeps the names of
the locks that are held.

## Main definitions

* `LockCall`: the calls that locks answer.
* `LockTable`, `LockTable.answer`: the objects that were made so far, and how they answer.
* `Locks`: the names of the locks that are held.
* `Locks.acquire?`, `Locks.release`, `Locks.isHeld`, `Locks.answer`: their operations.
-/

namespace ProviderCatalog.Sync

/-- The calls that locks answer. -/
inductive LockCall where
  | acquire (name : Text)
  | release (name : Text)
  | isHeld (name : Text)
deriving DecidableEq, Repr

/-! ### Tables of locks -/

/-- The locks that were made so far, each of which is held or not. -/
abbrev LockTable := Text → Option Bool

namespace LockTable

/-- Whether a lock was made and is held. -/
def locked (t : LockTable) (n : Text) : Bool := (t n).getD false

/-- The table with a lock that is made, if it was not, and held or free. -/
def set (t : LockTable) (n : Text) (held : Bool) : LockTable :=
  fun m => if m = n then some held else t m

/-- A table of locks answers. A lock is made when it is first wanted; one that is free, or was never
made, is not given back. -/
def answer (t : LockTable) : LockCall → Option Bool × LockTable
  | .acquire n =>
    let made := t.set n (t.locked n)
    (some (!made.locked n), made.set n true)
  | .release n => (none, if t.locked n then t.set n false else t)
  | .isHeld n => (some (t.locked n), t)

end LockTable

/-! ### Locks that are held -/

/-- The names of the locks that are held. -/
structure Locks where
  held : List Text
deriving DecidableEq, Repr

namespace Locks

/-- No lock is held. -/
def empty : Locks := ⟨[]⟩

/-- Whether a lock is held. -/
def isHeld (l : Locks) (name : Text) : Bool := l.held.contains name

/-- The locks with one more held, if it is free. -/
def acquire? (l : Locks) (name : Text) : Option Locks :=
  if l.isHeld name then none else some ⟨name :: l.held⟩

/-- The locks with one of them free. -/
def release (l : Locks) (name : Text) : Locks := ⟨l.held.filter (· != name)⟩

/-- Locks answer. -/
def answer (l : Locks) : LockCall → Option Bool × Locks
  | .acquire n =>
    match l.acquire? n with
    | some taken => (some true, taken)
    | none => (some false, l)
  | .release n => (none, l.release n)
  | .isHeld n => (some (l.isHeld n), l)

end Locks

end ProviderCatalog.Sync
