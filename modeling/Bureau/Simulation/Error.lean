import Bureau.Desk.Error
import Bureau.Simulation.Scenario

/-!
# What breaks a simulation off

An error is told as a chain: what the simulation was about, and then what went wrong there.
-/

namespace Bureau

/-- Why a simulation has been broken off. -/
inductive SimulationError where
  | unknownScenario (name : String)
  | unknownClient (name : String)
  | invalidAmount (text : String) (fault : Decimal.TextFault)
  | invalidCurrency (text : String)
  | opening (currency : Currency) (client : String) (error : DeskError)
  | funding (amount : Decimal) (currency : Currency) (client : String) (error : DeskError)
  | deposit (client : String) (error : DeskError)
  | offer (source destination : Currency) (error : DeskError)
  | listing (error : DeskError)
  | audit (txId : TxId) (error : DeskError)
  /-- Redemptions that were made at once took too long. -/
  | unfinished
  /-- A sum did not fit. -/
  | crashed (overflow : SumOverflow)
  /-- One offer was not settled exactly once. -/
  | settlements (count : Nat)
  /-- An offer was settled after its end. -/
  | expiredSettled (txId : TxId)
  /-- An offer was refused after its end, but for another reason. -/
  | expiredFailed (error : DeskError)
  /-- A listing did not show a client's accounts. -/
  | walk (seen expected : List Currency)
  | balance (client currency : String) (actual expected : Decimal)

namespace SimulationError

/-- The codes of some currencies as a list of quoted values. -/
def quotedCodes (currencies : List Currency) : String :=
  "[" ++ ", ".intercalate (currencies.map fun c => "Currency(\"" ++ c.code ++ "\")") ++ "]"

/-- The error, and then its causes. -/
def chain : SimulationError → List String
  | unknownScenario name => [Scenario.unknownMessage name]
  | unknownClient name => ["unknown client " ++ name]
  | invalidAmount text fault => ["invalid amount " ++ text, fault.message]
  | invalidCurrency text => [Currency.unknownMessage text]
  | opening currency client error => [s!"opening {currency} account for {client}", error.message]
  | funding amount currency client error =>
    [s!"funding {amount} {currency} for {client}", error.message]
  | deposit client error => ["deposit for " ++ client, error.message]
  | offer source destination error => [s!"offer {source} -> {destination}", error.message]
  | listing error => ["listing accounts", error.message]
  | audit txId error => [s!"verifying {txId}", error.message]
  | unfinished => ["concurrent redemptions did not finish", "deadline has elapsed"]
  | crashed overflow => [overflow.message]
  | settlements count => [s!"{count} redemptions of one offer settled"]
  | expiredSettled txId => [s!"expired offer settled as {txId}"]
  | expiredFailed error => ["expired offer failed with " ++ error.message]
  | walk seen expected =>
    ["walked " ++ quotedCodes seen ++ ", expected " ++ quotedCodes expected]
  | balance client currency actual expected =>
    [s!"{client} {currency} balance is {actual}, expected {expected}"]

/-- The whole chain on one line. -/
def message (e : SimulationError) : String := ": ".intercalate e.chain

end SimulationError

/-- The scenario of a name. -/
def Scenario.named (name : String) : Except SimulationError Scenario :=
  (Scenario.ofName? name).elim (.error (.unknownScenario name)) .ok

end Bureau
