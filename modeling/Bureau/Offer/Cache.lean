import Bureau.Offer.Basic

/-!
# The offer cache

Offers wait under their keys until they are taken or their time has passed. An entry that has
expired may stay until it is asked for or until the cache is swept; it is never handed out. Time
is counted in nanoseconds on a clock of its own.
-/

namespace Bureau

/-- An offer and the reading of the clock at which it is gone. -/
structure CacheEntry where
  offer : Offer
  expiresAt : Nat

namespace CacheEntry

/-- The entry can still be taken. -/
def isLive (e : CacheEntry) (now : Nat) : Bool := now < e.expiresAt

end CacheEntry

/-- The offers that wait to be redeemed; the cache may be out of reach or slow. -/
structure OfferCache where
  /-- At most one entry for each key. -/
  entries : List (String × CacheEntry) := []
  /-- Number of entries from which storing sweeps first. -/
  maxEntries : Nat := 100000
  available : Bool := true
  /-- Nanoseconds before each answer. -/
  latency : Nat := 0

namespace OfferCache

/-- Moments from here on cannot be written down. -/
def horizon : Nat := twoTo 63 * 1000000000

/-- The entry of a key, live or not. -/
def lookup (c : OfferCache) (key : String) : Option CacheEntry :=
  c.entries.lookup key

/-- The cache without the entry of a key. -/
def erase (c : OfferCache) (key : String) : OfferCache :=
  { c with entries := c.entries.filter (·.1 ≠ key) }

/-- Drops every entry that has expired. -/
def evictExpired (c : OfferCache) (now : Nat) : OfferCache :=
  { c with entries := c.entries.filter (·.2.isLive now) }

/-- A span of time as text: seconds with as many decimals as are needed. -/
def spanText (nanos : Nat) : String :=
  let digits := Text.padded 9 (nanos % 1000000000)
  let fraction := (digits.reverse.dropWhile (· == '0')).reverse
  Nat.repr (nanos / 1000000000) ++
    (if fraction.isEmpty then "" else "." ++ String.ofList fraction) ++ "s"

/-- The error of a cache that is out of reach. -/
def check (c : OfferCache) : Except MarketError Unit :=
  if c.available then .ok () else .error (.cacheUnavailable "offer cache is offline")

/-- Stores an offer for some time in place of the one under the key. A full cache is swept first,
even when the offer is then refused. -/
def put (c : OfferCache) (now : Nat) (key : String) (offer : Offer) (lifetime : Nat) :
    Except MarketError Unit × OfferCache :=
  match c.check with
  | .error e => (.error e, c)
  | .ok () =>
    let c := if c.maxEntries ≤ c.entries.length then c.evictExpired now else c
    if horizon ≤ now + lifetime then
      (.error (.cacheUnavailable ("ttl " ++ spanText lifetime ++ " is out of range")), c)
    else
      let c := c.erase key
      (.ok (), { c with entries := c.entries ++ [(key, ⟨offer, now + lifetime⟩)] })

/-- Removes the entry under a key, and hands out its offer unless it has expired. -/
def take (c : OfferCache) (now : Nat) (key : String) :
    Except MarketError (Option Offer) × OfferCache :=
  match c.check with
  | .error e => (.error e, c)
  | .ok () =>
    (.ok (((c.lookup key).filter (·.isLive now)).map (·.offer)), c.erase key)

/-- Entries, and how many of them have not expired. -/
def census (c : OfferCache) (now : Nat) : Nat × Nat :=
  (c.entries.length, c.entries.countP (·.2.isLive now))

end OfferCache

end Bureau
