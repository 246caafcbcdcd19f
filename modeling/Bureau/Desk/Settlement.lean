import Bureau.Desk.Basic

/-!
# Settling

A redemption takes the offer out of the cache before anything else, and whatever happens then the
offer is gone; at most one redemption of a token can therefore ever post. A deposit posts directly.
-/

namespace Bureau

/-- The rows that a settlement has posted. -/
structure Receipt where
  txId : TxId
  kind : SettlementKind
  entries : List JournalEntry

/-- The receipt of what has been posted. -/
def Posted.receipt (p : Posted) : Receipt := ⟨p.txId, p.kind, p.entries⟩

/-- The settlement that an offer taken from the cache asks for, or what is to be counted and
answered instead. -/
def Offer.claim (o : Offer) (client : ClientId) (now : Instant) :
    Except (Countable × DeskError) SettlementKind :=
  if o.client ≠ client then
    .error (.integrityFault,
      .integrityFault s!"offer {o.id} owned by {o.client} presented by {client}")
  else if o.isExpired now then .error (.offerMissed, .notFoundOrExpired)
  else
    match o.kind? with
    | none => .error (.integrityFault, .integrityFault s!"offer {o.id} has no settlement kind")
    | some kind => .ok kind

namespace Desk

open Timed

/-- The offer that a token names. -/
def offerOf? (d : Desk) (token : String) : Option OfferId :=
  match d.codec.openAs .offer token with
  | .ok bytes => OfferId.ofBytes? bytes
  | .error _ => none

/-- Takes an offer out of the cache, if it answers before the deadline. -/
def taken (d : Desk) (id : OfferId) : Timed (Except DeskError Offer) := do
  match ← within (ms d.settings.cacheDeadline) (OfferCache.callTake id.cacheKey) with
  | none => failing .transientFailure (.timedOut "offer cache")
  | some (.error e) => failing .transientFailure (.ofMarket e)
  | some (.ok none) => failing .offerMissed .notFoundOrExpired
  | some (.ok (some offer)) => return .ok offer

/-- Posts a batch before the ledger's deadline. -/
def post (d : Desk) (batch : JournalBatch) : Timed (Except LedgerError Posted) :=
  Posting.post (ms d.settings.ledgerDeadline) batch

/-- Settles an offer that has been taken for a client. -/
def settle (d : Desk) (client : ClientId) (offer : Offer) (kind : SettlementKind) :
    Timed (Except DeskError Receipt) := do
  let txId := TxId.mk (← freshUuid)
  let now ← read (·.now)
  match ← d.post (.conversion txId now kind client offer.debit offer.credit) with
  | .ok posted =>
    count .offerRedeemed
    return .ok posted.receipt
  | .error e =>
    count .settlementFailed
    if e.isTransient then failing .transientFailure (.ofLedger e)
    else return .error (.ofLedger e)

/-- Redeems a token for a client. -/
def redeem (d : Desk) (client : ClientId) (token : String) : Timed (Except DeskError Receipt) := do
  match d.offerOf? token with
  | none => failing .offerMissed .notFoundOrExpired
  | some id =>
    match ← d.taken id with
    | .error e => return .error e
    | .ok offer =>
      match offer.claim client (← read (·.now)) with
      | .error (event, e) => failing event e
      | .ok kind => d.settle client offer kind

/-- Pays money in for a client. -/
def deposit (d : Desk) (client : ClientId) (currency : Currency) (amount : Decimal) :
    Timed (Except DeskError Receipt) := do
  if !currency.isFiat then
    return .error (.invalid "currency" s!"deposits must be in a fiat currency, not {currency}")
  else
    let money : Money := ⟨amount, currency⟩
    match money.validateDebit with
    | .error e => return .error (.ofAmount e)
    | .ok () =>
      let txId := TxId.mk (← freshUuid)
      let now ← read (·.now)
      match ← d.post (.externalDeposit txId now d.settings.treasury client money) with
      | .ok posted =>
        count .deposit
        return .ok posted.receipt
      | .error e =>
        if e.isTransient then failing .transientFailure (.ofLedger e)
        else return .error (.ofLedger e)

end Desk

end Bureau
