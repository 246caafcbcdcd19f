import Bureau.Desk.Request
import Bureau.Desk.Settlement
import Bureau.Wire.Ledger
import Bureau.Wire.Scenario

/-!
# JSON forms at the desk

Money, quotes and offers; requests, tickets and receipts; and all types with a JSON form, under the
names by which they are known outside.
-/

namespace Bureau.Wire

open Json (Fault record?)

/-! ### The market -/

instance : Wire Money where
  encode m := .record [("value", encode m.value), ("currency", encode m.currency)]
  decode := record? <|
    ((field "value").pair (field "currency")).map fun (value, currency) => ⟨value, currency⟩

instance : Wire Quote where
  encode q := .record [
    ("pair", encode q.pair),
    ("rate", encode q.rate),
    ("source_amount", encode q.sourceAmount),
    ("amount", encode q.amount),
    ("quoted_at", encode q.quotedAt)]
  decode := record? <|
    (((((field "pair").pair (field "rate")).pair (field "source_amount")).pair
      (field "amount")).pair (field "quoted_at")).map
    fun ((((pair, rate), sourceAmount), amount), quotedAt) =>
      { pair, rate, sourceAmount, amount, quotedAt }

instance : Wire Offer where
  encode o := .record [
    ("id", encode o.id),
    ("client_id", encode o.client),
    ("source", encode o.source),
    ("destination", encode o.destination),
    ("rate", encode o.rate),
    ("debit_amount", encode o.debitAmount),
    ("credit_amount", encode o.creditAmount),
    ("is_purchase", encode o.isPurchase),
    ("is_sale", encode o.isSale),
    ("created_at", encode o.createdAt),
    ("expires_at", encode o.expiresAt)]
  decode := record? <|
    (((((((((((field "id").pair (field "client_id")).pair (field "source")).pair
      (field "destination")).pair (field "rate")).pair (field "debit_amount")).pair
      (field "credit_amount")).pair (field "is_purchase")).pair (field "is_sale")).pair
      (field "created_at")).pair (field "expires_at")).map
    fun ((((((((((id, client), source), destination), rate), debitAmount), creditAmount),
        isPurchase), isSale), createdAt), expiresAt) =>
      { id, client, source, destination, rate, debitAmount, creditAmount, isPurchase, isSale,
        createdAt, expiresAt }

/-! ### Requests and answers -/

instance : Wire OfferRequest where
  encode r := .record [
    ("client_id", encode r.client),
    ("source", encode r.source),
    ("destination", encode r.destination),
    ("amount", encode r.amount),
    ("is_purchase", encode r.isPurchase),
    ("is_sale", encode r.isSale)]
  decode := record? <|
    ((((((field "client_id").pair (field "source")).pair (field "destination")).pair
      (field "amount")).pair (field "is_purchase")).pair (field "is_sale")).map
    fun (((((client, source), destination), amount), isPurchase), isSale) =>
      { client, source, destination, amount, isPurchase, isSale }

instance : Wire OfferTicket where
  encode t := .record [
    ("token", encode t.token),
    ("expires_at", encode t.expiresAt),
    ("rate", encode t.rate),
    ("debit", encode t.debit),
    ("credit", encode t.credit)]
  decode := record? <|
    (((((field "token").pair (field "expires_at")).pair (field "rate")).pair
      (field "debit")).pair (field "credit")).map
    fun ((((token, expiresAt), rate), debit), credit) => { token, expiresAt, rate, debit, credit }

instance : Wire Receipt where
  encode r := .record [
    ("tx_id", encode r.txId),
    ("kind", encode r.kind),
    ("entries", encode r.entries)]
  decode := record? <|
    (((field "tx_id").pair (field "kind")).pair (field "entries")).map
    fun ((txId, kind), entries) => { txId, kind, entries }

/-! ### All JSON forms -/

/-- What each type makes of a text: the JSON form of the value that the text holds. -/
def registry : List (String × (String → Except Fault Json)) := [
  ("Currency", normalize Currency),
  ("AssetClass", normalize AssetClass),
  ("Money", normalize Money),
  ("CurrencyPair", normalize CurrencyPair),
  ("ClientId", normalize ClientId),
  ("OfferId", normalize OfferId),
  ("TxId", normalize TxId),
  ("AccountKey", normalize AccountKey),
  ("SettlementKind", normalize SettlementKind),
  ("OfferState", normalize OfferState),
  ("Quote", normalize Quote),
  ("Offer", normalize Offer),
  ("Account", normalize Account),
  ("BalanceChange", normalize BalanceChange),
  ("JournalEntry", normalize JournalEntry),
  ("JournalWindow", normalize Window),
  ("JournalKey", normalize JournalKey),
  ("OfferRequest", normalize OfferRequest),
  ("OfferTicket", normalize OfferTicket),
  ("Receipt", normalize Receipt),
  ("Scenario", normalize Scenario)]

end Bureau.Wire
