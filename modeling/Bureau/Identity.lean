import Bureau.Currency
import Bureau.Uuid

/-!
# Identities

Clients, offers and transactions each have an identifier of their own kind. An account belongs to
one client in one currency; accounts are ordered by client and then by currency, which is the
order in which postings lock them.
-/

namespace Bureau

/-- Identifies a client. -/
structure ClientId where
  uuid : Uuid
deriving DecidableEq, Inhabited

instance : ToString ClientId := ⟨fun c => c.uuid.toString⟩
instance : Ord ClientId := ⟨fun a b => compare a.uuid b.uuid⟩

/-- Identifies an offer, in the cache and inside its token. -/
structure OfferId where
  uuid : Uuid
deriving DecidableEq, Inhabited

instance : ToString OfferId := ⟨fun o => o.uuid.toString⟩

namespace OfferId

/-- The key under which the offer is kept in the cache. -/
def cacheKey (o : OfferId) : String := o.uuid.simple

/-- The bytes that an offer token carries. -/
def toBytes (o : OfferId) : Bytes := o.uuid.toBytes

/-- The identifier that was sealed in a token, from sixteen bytes. -/
def ofBytes? (bytes : Bytes) : Option OfferId := (Uuid.ofBytes? bytes).map OfferId.mk

end OfferId

/-- Identifies a settlement; all of its rows carry it. -/
structure TxId where
  uuid : Uuid
deriving DecidableEq, Inhabited

instance : ToString TxId := ⟨fun t => t.uuid.toString⟩
instance : Ord TxId := ⟨fun a b => compare a.uuid b.uuid⟩

/-- A client has at most one account in a currency. -/
structure AccountKey where
  client : ClientId
  currency : Currency
deriving DecidableEq

namespace AccountKey

instance : ToString AccountKey := ⟨fun k => toString k.client ++ ":" ++ k.currency.code⟩

instance : Ord AccountKey :=
  ⟨fun a b => (compare a.client b.client).then (compare a.currency b.currency)⟩

end AccountKey

end Bureau
