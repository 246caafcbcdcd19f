import Bureau.Simulation.Scenario
import Bureau.Wire.Basic

/-!
# JSON forms of scenarios

A step names its kind in the member `step`; a fault and a condition name theirs in `kind`.
-/

namespace Bureau.Wire

open Json (Fields Variants record?)
open Scenario (Condition Fault Order Step)

/-- Whole numbers of 64 bits. -/
instance : Wire Int := ⟨.int, Json.whole (-twoTo 63) (twoTo 63 - 1)⟩

/-! ### Faults and conditions -/

/-- How each fault is read. -/
def faults : Variants Fault := [
  ("quote_outage", Json.Untagged.empty? .quoteOutage),
  ("quote_latency", Json.Untagged.record? ((field "delay_ms").map .quoteLatency)),
  ("cache_outage", Json.Untagged.empty? .cacheOutage)]

/-- A fault, as it is found in its step. -/
instance : Wire Fault where
  encode
    | .quoteOutage => .record [("kind", encode "quote_outage")]
    | .quoteLatency delay => .record [("kind", encode "quote_latency"), ("delay_ms", encode delay)]
    | .cacheOutage => .record [("kind", encode "cache_outage")]
  decode := Json.keptVariant "kind" faults

/-- How each condition is read. -/
def conditions : Variants Condition := [
  ("balance_equals", Json.Untagged.record?
    ((((field "client").pair (field "currency")).pair (field "amount")).map
      fun ((client, currency), amount) => .balanceEquals client currency amount)),
  ("ledger_consistent", Json.Untagged.empty? .ledgerConsistent)]

/-- A condition, as it is found in its step. -/
instance : Wire Condition where
  encode
    | .balanceEquals client currency amount => .record [
        ("kind", encode "balance_equals"),
        ("client", encode client),
        ("currency", encode currency),
        ("amount", encode amount)]
    | .ledgerConsistent => .record [("kind", encode "ledger_consistent")]
  decode := Json.keptVariant "kind" conditions

/-! ### Steps -/

/-- The members of an order. -/
def orderMembers (o : Order) : List (String × Json) := [
  ("client", encode o.client),
  ("amount", encode o.amount),
  ("from", encode o.source),
  ("to", encode o.destination)]

/-- The members that tell an order. -/
def orderFields : Fields Order :=
  ((((field "client").pair (field "amount")).pair (field "from")).pair (field "to")).map
  fun (((client, amount), source), destination) => ⟨client, amount, source, destination⟩

/-- The name of a step and the members that are written for it. -/
def stepMembers : Step → String × List (String × Json)
  | .wait seconds => ("wait", [("seconds", encode seconds)])
  | .deposit client amount currency =>
    ("deposit", [("client", encode client), ("amount", encode amount),
      ("currency", encode currency)])
  | .exchange order => ("exchange", orderMembers order)
  | .redemptionRace order attempts =>
    ("redemption_race", orderMembers order ++ [("attempts", encode attempts)])
  | .opposingExchanges client amount first second pairs =>
    ("opposing_exchanges", [("client", encode client), ("amount", encode amount),
      ("first", encode first), ("second", encode second), ("pairs", encode pairs)])
  | .expiry order => ("expiry", orderMembers order)
  | .paginationWalk client pageSize =>
    ("pagination_walk", [("client", encode client), ("page_size", encode pageSize)])
  | .injectFault fault => ("inject_fault", [("fault", encode fault)])
  | .clearFaults => ("clear_faults", [])
  | .require condition => ("assert", [("condition", encode condition)])

/-- How each step is read. -/
def steps : Variants Step := [
  ("wait", Json.Untagged.record? ((field "seconds").map .wait)),
  ("deposit", Json.Untagged.record?
    ((((field "client").pair (field "amount")).pair (field "currency")).map
      fun ((client, amount), currency) => .deposit client amount currency)),
  ("exchange", Json.Untagged.record? (orderFields.map .exchange)),
  ("redemption_race", Json.Untagged.record?
    ((orderFields.pair (field "attempts")).map
      fun (order, attempts) => .redemptionRace order attempts)),
  ("opposing_exchanges", Json.Untagged.record?
    ((((((field "client").pair (field "amount")).pair (field "first")).pair
      (field "second")).pair (field "pairs")).map
      fun ((((client, amount), first), second), pairs) =>
        .opposingExchanges client amount first second pairs)),
  ("expiry", Json.Untagged.record? (orderFields.map .expiry)),
  ("pagination_walk", Json.Untagged.record?
    (((field "client").pair (field "page_size")).map
      fun (client, pageSize) => .paginationWalk client pageSize)),
  ("inject_fault", Json.Untagged.record? ((field "fault").map .injectFault)),
  ("clear_faults", Json.Untagged.empty? .clearFaults),
  ("assert", Json.Untagged.record? ((field "condition").map .require))]

/-- A step, as it is found in its scenario: three levels deep. -/
instance : Wire Step where
  encode s :=
    let (kind, members) := stepMembers s
    .record (("step", encode kind) :: members)
  decode := Json.variant "step" 3 steps

instance : Wire Scenario where
  encode s := .record [
    ("name", encode s.name),
    ("description", encode s.description),
    ("steps", encode s.steps)]
  decode := record? <|
    (((field "name").pair (field "description")).pair (field "steps")).map
    fun ((name, description), steps) => ⟨name, description, steps⟩

end Bureau.Wire
