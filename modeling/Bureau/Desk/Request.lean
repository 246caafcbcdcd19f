import Bureau.Desk.Error
import Bureau.Market.RateTable
import Bureau.Settlement

/-!
# Requests for offers

A request names the settlement it wants by its two flags. Its currencies must be of the classes
which that settlement moves between, and its amount must be fit to be debited.
-/

namespace Bureau

/-- What a client wants to exchange. -/
structure OfferRequest where
  client : ClientId
  source : Currency
  destination : Currency
  /-- Amount of the source currency to debit. -/
  amount : Decimal
  isPurchase : Bool
  isSale : Bool

/-- What the client gets back for a new offer. -/
structure OfferTicket where
  /-- The handle with which the offer is redeemed. -/
  token : String
  expiresAt : Instant
  rate : Decimal
  debit : Money
  credit : Money

namespace OfferRequest

/-- Whether a settlement can move from one currency to another. -/
def shapeAllows (kind : SettlementKind) (source destination : Currency) : Bool :=
  match kind with
  | .fiatExchange => source.isFiat && destination.isFiat
  | .cryptoPurchase => source.isFiat && destination.isCrypto
  | .cryptoSale => source.isCrypto && destination.isFiat
  | .externalDeposit => false

/-- The settlement that a sound request asks for. -/
def validate (r : OfferRequest) : Except DeskError SettlementKind :=
  match SettlementKind.ofFlags? r.isPurchase r.isSale with
  | none => .error (.invalid "isPurchase" "an offer cannot be both a purchase and a sale")
  | some kind =>
    if r.source.isClearing ∨ r.destination.isClearing then
      .error (.invalid "currency" "currency is not tradable")
    else if r.source = r.destination then
      .error (.invalid "destinationCurrency" "source and destination currencies must differ")
    else if !shapeAllows kind r.source r.destination then
      .error (.invalid "currency" s!"{r.source} to {r.destination} is not a valid {kind}")
    else
      match (Money.mk r.amount r.source).validateDebit with
      | .error e => .error (.ofAmount e)
      | .ok () => .ok kind

/-- The conversion that the market prices for a settlement. -/
def conversion (r : OfferRequest) : SettlementKind → RateTable.Conversion
  | .fiatExchange => .fiat
  | _ => if r.isPurchase then .purchase else .sale

end OfferRequest

end Bureau
