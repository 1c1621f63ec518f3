/-!
# Limiting requests

A limiter holds tokens. Taking one first refills all of them if the clock has passed the time of
the next refill, which then is one window after the reading of the clock.

## Main definitions

* `Limiter`: limiters with their state.
* `Limiter.acquire`: taking a token at a reading of the clock.
-/

namespace ProviderCatalog.Remote

/-- A limiter of requests. -/
structure Limiter where
  /-- The number of tokens after a refill. -/
  capacity : Int
  /-- The time between the reading at a refill and the next refill. -/
  window : Rat
  remaining : Int
  refillAt : Rat
deriving DecidableEq, Repr

namespace Limiter

/-- A full limiter made at a reading of the clock. -/
def full (capacity : Int) (window now : Rat) : Limiter := ⟨capacity, window, capacity, now + window⟩

/-- The limiter after a refill, if the clock has passed the time of one. -/
def refilled (l : Limiter) (now : Rat) : Limiter :=
  if l.refillAt < now then full l.capacity l.window now else l

/-- Takes a token at a reading of the clock; tells whether there was one. -/
def acquire (l : Limiter) (now : Rat) : Bool × Limiter :=
  let l := l.refilled now
  if 0 < l.remaining then (true, { l with remaining := l.remaining - 1 }) else (false, l)

end Limiter

end ProviderCatalog.Remote
