/-!
# Scenarios

A scenario is a named list of steps for simulated clients. Clients, currencies and amounts are
plain text, so that a scenario can be written by hand; they are read when their step is taken.
-/

namespace Bureau

namespace Scenario

/-- An exchange of money that a client asks for. -/
structure Order where
  client : String
  amount : String
  source : String
  destination : String
deriving DecidableEq

/-- What can be made to go wrong. -/
inductive Fault where
  /-- The market answers nothing. -/
  | quoteOutage
  /-- The market answers late. -/
  | quoteLatency (milliseconds : Nat)
  /-- The offer cache answers nothing. -/
  | cacheOutage
deriving DecidableEq

/-- What can be required. -/
inductive Condition where
  /-- A client's balance is an amount. -/
  | balanceEquals (client currency amount : String)
  /-- Every transaction that has been posted so far passes its audit. -/
  | ledgerConsistent
deriving DecidableEq

/-- What is done in one step of a scenario. -/
inductive Step where
  | wait (seconds : Nat)
  | deposit (client amount currency : String)
  /-- Makes an offer and redeems it. -/
  | exchange (order : Order)
  /-- Redeems one offer many times at once. -/
  | redemptionRace (order : Order) (attempts : Nat)
  /-- Redeems offers in both directions of a pair at once. -/
  | opposingExchanges (client amount first second : String) (pairs : Nat)
  /-- Makes an offer, outlives it, and then tries to redeem it. -/
  | expiry (order : Order)
  /-- Lists a client's accounts page by page. -/
  | paginationWalk (client : String) (pageSize : Int)
  | injectFault (fault : Fault)
  | clearFaults
  | require (condition : Condition)
deriving DecidableEq

end Scenario

/-- Steps that are taken one after the other. -/
structure Scenario where
  name : String
  description : String
  steps : List Scenario.Step

namespace Scenario

/-- An exchange, and what the balances are afterwards. -/
def simpleExchange : Scenario where
  name := "simple-exchange"
  description := "One fiat exchange with balance checks"
  steps := [
    .exchange ⟨"ALICE", "100.00", "USD", "CAD"⟩,
    .require (.balanceEquals "ALICE" "USD" "9900.00"),
    .require (.balanceEquals "ALICE" "CAD" "135.00"),
    .require .ledgerConsistent]

/-- One offer, redeemed many times at once. -/
def redemptionRace : Scenario where
  name := "redemption-race"
  description := "Concurrent redemptions of one offer settle once"
  steps := [
    .redemptionRace ⟨"ALICE", "100.00", "USD", "EUR"⟩ 32,
    .require (.balanceEquals "ALICE" "USD" "9900.00")]

/-- Exchanges in both directions of a pair at once. -/
def opposingExchanges : Scenario where
  name := "opposing-exchanges"
  description := "USD/EUR exchanges in both directions lock in one order"
  steps := [
    .exchange ⟨"BOB", "1000.00", "USD", "EUR"⟩,
    .opposingExchanges "BOB" "10.00" "USD" "EUR" 50,
    .require .ledgerConsistent]

/-- A listing, page by page. -/
def pagination : Scenario where
  name := "pagination"
  description := "Walk account pages through encrypted cursors"
  steps := [.paginationWalk "ALICE" 2]

/-- An offer that is redeemed too late. -/
def expiry : Scenario where
  name := "expiry"
  description := "An offer outlived by its client cannot be redeemed"
  steps := [
    .expiry ⟨"CAROL", "50.00", "USD", "GBP"⟩,
    .require (.balanceEquals "CAROL" "USD" "10000.00")]

/-- Exchanges while the market, and then the cache, is out of reach, and one after that. -/
def failureRecovery : Scenario where
  name := "failure-recovery"
  description := "Collaborator outages are transient and recoverable"
  steps := [
    .injectFault .quoteOutage,
    .exchange ⟨"ALICE", "100.00", "USD", "CAD"⟩,
    .clearFaults,
    .injectFault .cacheOutage,
    .exchange ⟨"ALICE", "100.00", "USD", "CAD"⟩,
    .clearFaults,
    .exchange ⟨"ALICE", "100.00", "USD", "CAD"⟩,
    .require (.balanceEquals "ALICE" "USD" "9900.00")]

/-- The scenarios that are known by name. -/
def builtIn : List Scenario :=
  [simpleExchange, redemptionRace, opposingExchanges, pagination, expiry, failureRecovery]

/-- The scenario of a name, among those that are built in. -/
def ofName? (name : String) : Option Scenario :=
  builtIn.find? (·.name == name)

/-- What is said of a name that no scenario has. -/
def unknownMessage (name : String) : String :=
  "Unknown scenario: " ++ name ++ " (built-in: " ++ ", ".intercalate (builtIn.map (·.name)) ++ ")"

end Scenario

end Bureau
