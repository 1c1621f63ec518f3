import ProviderCatalog.Text.Utf8

/-!
# Caching responses

A cache keeps the last body stored under each address with the time at which it expires. An expired
body is not given out, but it stays in the cache until it is replaced or everything is dropped.

## Main definitions

* `Cache`: caches with their entries.
* `Cache.get?`, `Cache.set`, `Cache.clear`, `Cache.size`: their operations.
-/

namespace ProviderCatalog.Remote

/-- A body with the time at which it expires. -/
structure CacheEntry where
  body : Bytes
  expiresAt : Rat
deriving DecidableEq, Repr

/-- A cache of bodies by address. -/
structure Cache where
  /-- The time for which a body is kept. -/
  lifetime : Rat
  entries : List (Text × CacheEntry)
deriving DecidableEq, Repr

namespace Cache

/-- The cache without entries. -/
def empty (lifetime : Rat) : Cache := ⟨lifetime, []⟩

/-- The body under an address that is not expired at a reading of the clock. -/
def get? (c : Cache) (address : Text) (now : Rat) : Option Bytes :=
  match c.entries.lookup address with
  | some e => if e.expiresAt ≤ now then none else some e.body
  | none => none

/-- Entries with the one under an address replaced in place, or added at the end. -/
def put (address : Text) (e : CacheEntry) : List (Text × CacheEntry) → List (Text × CacheEntry)
  | [] => [(address, e)]
  | (a, e') :: rest => if a = address then (a, e) :: rest else (a, e') :: put address e rest

/-- Stores a body at a reading of the clock. -/
def set (c : Cache) (address : Text) (body : Bytes) (now : Rat) : Cache :=
  { c with entries := put address ⟨body, now + c.lifetime⟩ c.entries }

/-- Drops every entry. -/
def clear (c : Cache) : Cache := { c with entries := [] }

/-- The number of entries, expired ones included. -/
def size (c : Cache) : Nat := c.entries.length

end Cache

end ProviderCatalog.Remote
