/-!
# Settlements and the lifecycle of offers

The four shapes in which a settlement reaches the ledger, and how the two flags of an offer
choose among them. An offer is created, cached, and then ends in one of three ways; no step leads
back.
-/

namespace Bureau

/-! ### Kinds of settlements -/

/-- What a settlement is for, which its currencies tell. -/
inductive SettlementKind where
  /-- Money from outside: the clearing account is debited, the client credited. -/
  | externalDeposit
  /-- Money for money, between two accounts of one client. -/
  | fiatExchange
  /-- Money is debited and crypto credited. -/
  | cryptoPurchase
  /-- Crypto is debited and money credited. -/
  | cryptoSale
deriving DecidableEq, Repr

namespace SettlementKind

/-- The kinds in the order in which they are declared. -/
def all : List SettlementKind := [externalDeposit, fiatExchange, cryptoPurchase, cryptoSale]

/-- The name that is written for the kind. -/
def name : SettlementKind → String
  | externalDeposit => "EXTERNAL_DEPOSIT"
  | fiatExchange => "FIAT_EXCHANGE"
  | cryptoPurchase => "CRYPTO_PURCHASE"
  | cryptoSale => "CRYPTO_SALE"

instance : ToString SettlementKind := ⟨name⟩

/-- The kind of a name; names are told by their case. -/
def ofName? (name : String) : Option SettlementKind :=
  all.find? (·.name == name)

/-- The kind that the flags of an offer name; an offer cannot be both. -/
def ofFlags? (isPurchase isSale : Bool) : Option SettlementKind :=
  match isPurchase, isSale with
  | false, false => some fiatExchange
  | true, false => some cryptoPurchase
  | false, true => some cryptoSale
  | true, true => none

/-- Whether value moves between money and crypto. -/
def isCrypto : SettlementKind → Bool
  | cryptoPurchase | cryptoSale => true
  | externalDeposit | fiatExchange => false

/-- Journal rows that a settlement posts. -/
def rows (_ : SettlementKind) : Nat := 2

end SettlementKind

/-! ### States of offers -/

/-- How far an offer has come. -/
inductive OfferState where
  | created
  | cached
  | redeemed
  | expired
  | consumedButFailed
deriving DecidableEq, Repr

namespace OfferState

/-- The states in the order in which they are declared. -/
def all : List OfferState := [created, cached, redeemed, expired, consumedButFailed]

/-- The name that is written for the state. -/
def name : OfferState → String
  | created => "CREATED"
  | cached => "CACHED"
  | redeemed => "REDEEMED"
  | expired => "EXPIRED"
  | consumedButFailed => "CONSUMED_BUT_FAILED"

/-- The state of a name; names are told by their case. -/
def ofName? (name : String) : Option OfferState :=
  all.find? (·.name == name)

/-- The name used in messages. -/
def label : OfferState → String
  | created => "Created"
  | cached => "Cached"
  | redeemed => "Redeemed"
  | expired => "Expired"
  | consumedButFailed => "ConsumedButFailed"

/-- The states that may follow. -/
def next : OfferState → List OfferState
  | created => [cached]
  | cached => [redeemed, expired, consumedButFailed]
  | redeemed | expired | consumedButFailed => []

/-- Nothing more happens to the offer. -/
def isFinal (s : OfferState) : Bool := s.next.isEmpty

/-- The other state may come next. -/
def canMoveTo (s t : OfferState) : Bool := s.next.contains t

/-- A step that the lifecycle does not allow. -/
structure InvalidTransition where
  source : OfferState
  target : OfferState

/-- What is said about a state that cannot come next. -/
def InvalidTransition.message (e : InvalidTransition) : String :=
  "Invalid offer transition from " ++ e.source.label ++ " to " ++ e.target.label

/-- Moves to a following state. -/
def moveTo (s t : OfferState) : Except InvalidTransition OfferState :=
  if s.canMoveTo t then .ok t else .error ⟨s, t⟩

end OfferState

end Bureau
