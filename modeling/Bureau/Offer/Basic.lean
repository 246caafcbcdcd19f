import Bureau.Identity
import Bureau.Market.RateTable
import Bureau.Settlement

/-!
# Offers

An offer is a quote for one client that may be redeemed once before it expires.
-/

namespace Bureau

/-- An exchange at a fixed rate that a client can settle while the offer lives. -/
structure Offer where
  /-- Never shown to the client in clear. -/
  id : OfferId
  client : ClientId
  source : Currency
  destination : Currency
  rate : Decimal
  /-- Taken from the source account on redemption. -/
  debitAmount : Decimal
  /-- Added to the destination account on redemption. -/
  creditAmount : Decimal
  isPurchase : Bool
  isSale : Bool
  createdAt : Instant
  expiresAt : Instant
deriving DecidableEq

namespace Offer

/-- The offer of a quote, good for some milliseconds from now; nothing when it would outlive the
calendar. -/
def ofQuote? (id : OfferId) (now : Instant) (client : ClientId) (quote : Quote)
    (isPurchase isSale : Bool) (lifetimeMs : Int) : Option Offer :=
  (now.addMillis? lifetimeMs).map fun expiresAt =>
    { id, client
      source := quote.pair.base
      destination := quote.pair.quote
      rate := quote.rate
      debitAmount := quote.sourceAmount
      creditAmount := quote.amount
      isPurchase, isSale
      createdAt := now
      expiresAt }

/-- How the offer settles; an offer with both flags does not. -/
def kind? (o : Offer) : Option SettlementKind :=
  SettlementKind.ofFlags? o.isPurchase o.isSale

/-- The moment has come at which the offer expires. -/
def isExpired (o : Offer) (now : Instant) : Bool := o.expiresAt ≤ now

/-- Nanoseconds until the offer expires, zero once it has. -/
def remaining (o : Offer) (now : Instant) : Int :=
  max 0 (o.expiresAt.nanosSince now)

/-- What the client pays. -/
def debit (o : Offer) : Money := ⟨o.debitAmount, o.source⟩

/-- What the client gets. -/
def credit (o : Offer) : Money := ⟨o.creditAmount, o.destination⟩

end Offer

end Bureau
