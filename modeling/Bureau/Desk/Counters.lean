/-!
# Counters

What the desk has done since it was set up, and the form in which it is reported. The counts have no
bound.
-/

namespace Bureau

/-- How often each thing has happened that is counted. -/
structure Counters where
  /-- Offers priced and cached. -/
  offersCreated : Nat := 0
  /-- Offers settled. -/
  offersRedeemed : Nat := 0
  /-- Redemptions that found no live offer. -/
  offersMissed : Nat := 0
  /-- Offers presented by a client that does not own them, or that cannot settle. -/
  integrityFaults : Nat := 0
  /-- Offers taken from the cache whose posting then failed. -/
  settlementsFailed : Nat := 0
  /-- Deposits posted. -/
  deposits : Nat := 0
  /-- Calls for quotes, to the cache or to the ledger that failed or did not answer in time. -/
  transientFailures : Nat := 0
deriving DecidableEq

/-- What is counted. -/
inductive Countable where
  | offerCreated
  | offerRedeemed
  | offerMissed
  | integrityFault
  | settlementFailed
  | deposit
  | transientFailure
deriving DecidableEq

namespace Countable

/-- What is counted, in the order in which it is reported. -/
def all : List Countable :=
  [offerCreated, offerRedeemed, offerMissed, integrityFault, settlementFailed, deposit,
    transientFailure]

/-- The name of the event that is counted. -/
def name : Countable → String
  | offerCreated => "offer_created"
  | offerRedeemed => "offer_redeemed"
  | offerMissed => "offer_missed"
  | integrityFault => "integrity_fault"
  | settlementFailed => "settlement_failed"
  | deposit => "deposit"
  | transientFailure => "transient_failure"

/-- The name of the counter. -/
def counter : Countable → String
  | offerCreated => "offers_created"
  | offerRedeemed => "offers_redeemed"
  | offerMissed => "offers_missed"
  | integrityFault => "integrity_faults"
  | settlementFailed => "settlements_failed"
  | deposit => "deposits"
  | transientFailure => "transient_failures"

/-- What the report says of the counter. -/
def help : Countable → String
  | offerCreated => "Offers priced and cached"
  | offerRedeemed => "Offers settled"
  | offerMissed => "Redemptions with no live offer"
  | integrityFault => "Offers presented by a non-owner"
  | settlementFailed => "Consumed offers whose posting failed"
  | deposit => "External deposits posted"
  | transientFailure => "Collaborator failures and timeouts"

end Countable

namespace Counters

/-- How often it has happened. -/
def get (c : Counters) : Countable → Nat
  | .offerCreated => c.offersCreated
  | .offerRedeemed => c.offersRedeemed
  | .offerMissed => c.offersMissed
  | .integrityFault => c.integrityFaults
  | .settlementFailed => c.settlementsFailed
  | .deposit => c.deposits
  | .transientFailure => c.transientFailures

/-- One more of a kind. -/
def add (c : Counters) : Countable → Counters
  | .offerCreated => { c with offersCreated := c.offersCreated + 1 }
  | .offerRedeemed => { c with offersRedeemed := c.offersRedeemed + 1 }
  | .offerMissed => { c with offersMissed := c.offersMissed + 1 }
  | .integrityFault => { c with integrityFaults := c.integrityFaults + 1 }
  | .settlementFailed => { c with settlementsFailed := c.settlementsFailed + 1 }
  | .deposit => { c with deposits := c.deposits + 1 }
  | .transientFailure => { c with transientFailures := c.transientFailures + 1 }

/-- One counter in the text format of Prometheus. -/
def exposition (counter help value : String) : String :=
  let metric := "exchequer_" ++ counter ++ "_total"
  "# HELP " ++ metric ++ " " ++ help ++ "\n# TYPE " ++ metric ++ " counter\n" ++
    metric ++ " " ++ value ++ "\n\n"

/-- All counters in the text format of Prometheus. -/
def report (c : Counters) : String :=
  String.join (Countable.all.map fun k => exposition k.counter k.help (Nat.repr (c.get k)))

/-- All counters on one line. -/
def line (c : Counters) : String :=
  "MetricsSnapshot \x7b " ++
    ", ".intercalate (Countable.all.map fun k => k.counter ++ ": " ++ Nat.repr (c.get k)) ++
    " \x7d"

end Counters

end Bureau
