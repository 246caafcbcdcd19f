import Bureau.Desk.Basic
import Bureau.Desk.Request

/-!
# Making offers

A sound request is priced, and the offer is put into the cache for its lifetime; the client gets a
token that only this desk can open. The ledger is not touched. An offer whose lifetime passes the
end of the calendar is not made: the desk crashes over it.
-/

namespace Bureau.Desk

open Timed

/-- How long an offer of a kind lives, in milliseconds. -/
def lifetime (d : Desk) (kind : SettlementKind) : Nat :=
  if kind.isCrypto then d.settings.cryptoLifetime else d.settings.fiatLifetime

/-- The quote for a request, if it comes before the deadline. -/
def priced (d : Desk) (r : OfferRequest) (kind : SettlementKind) :
    Timed (Except DeskError Quote) := do
  let asked := Market.quote (r.conversion kind) ⟨r.source, r.destination⟩ r.amount
  match ← within (ms d.settings.quoteDeadline) asked with
  | none => failing .transientFailure (.timedOut "quote")
  | some (.error e) =>
    if e.isTransient then failing .transientFailure (.ofMarket e)
    else return .error (.ofMarket e)
  | some (.ok quote) =>
    if quote.amount.isPositive then return .ok quote
    else
      failing .transientFailure (.transient s!"quote for {quote.pair} produced no credit")

/-- Puts an offer into the cache, if it answers before the deadline. -/
def stored (d : Desk) (offer : Offer) (lifetime : Nat) : Timed (Except DeskError Unit) := do
  let put := OfferCache.callPut offer.id.cacheKey offer (ms lifetime)
  match ← within (ms d.settings.cacheDeadline) put with
  | none => failing .transientFailure (.timedOut "offer cache")
  | some (.error e) => failing .transientFailure (.ofMarket e)
  | some (.ok ()) => return .ok ()

/-- The offer of a quote and the token for it. -/
def drawn (d : Desk) (r : OfferRequest) (quote : Quote) (lifetime : Nat) :
    Timed (Option (Offer × String)) := do
  let id := OfferId.mk (← freshUuid)
  let nonce ← freshNonce
  read fun w =>
    (Offer.ofQuote? id w.now r.client quote r.isPurchase r.isSale lifetime).map fun offer =>
      (offer, d.codec.sealAs .offer nonce id.toBytes)

/-- Makes an offer. -/
def createOffer (d : Desk) (r : OfferRequest) : Timed (Except DeskError OfferTicket) := do
  match r.validate with
  | .error e => return .error e
  | .ok kind =>
    match ← d.priced r kind with
    | .error e => return .error e
    | .ok quote =>
      let lifetime := d.lifetime kind
      match ← d.drawn r quote lifetime with
      | none => crash .moment
      | some (offer, token) =>
        match ← d.stored offer lifetime with
        | .error e => return .error e
        | .ok () =>
          count .offerCreated
          return .ok
            { token
              expiresAt := offer.expiresAt
              rate := offer.rate
              debit := offer.debit
              credit := offer.credit }

end Bureau.Desk
