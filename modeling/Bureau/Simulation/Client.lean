import Bureau.Desk.Accounts
import Bureau.Desk.Settlement
import Bureau.Simulation.Error

/-!
# Simulated clients

A simulated client has a name by which scenarios know it and a list of currencies in which it
holds accounts. Before it takes part its accounts are opened and its opening balances are paid in.
-/

namespace Bureau

/-- A client that scenarios know by its name. -/
structure SimulatedClient where
  id : ClientId
  name : String
  /-- The currencies of its accounts. -/
  currencies : List Currency

namespace SimulatedClient

open Timed

/-- The currencies in which clients usually hold accounts. -/
def standardCurrencies : List Currency := [.usd, .eur, .gbp, .cad, .btc]

/-- Names of the first clients; the others are numbered. -/
def firstNames : List String :=
  ["ALICE", "BOB", "CAROL", "DAVE", "ERIN", "FRANK", "GRACE", "HEIDI", "IVAN", "JUDY"]

/-- The name of the client in a place, counted where the list of names has ended. -/
def nameAt (place : Nat) : String :=
  firstNames.getD place ("CLIENT_" ++ Nat.repr (place + 1))

/-- A new client. -/
def create (name : String) (currencies : List Currency) : Timed SimulatedClient := do
  return ⟨⟨← freshUuid⟩, name, currencies⟩

/-- The usual clients. -/
def crowd (count : Nat) : Timed (List SimulatedClient) :=
  (List.range count).mapM fun place => create (nameAt place) standardCurrencies

/-- What most clients have at the beginning. -/
def standardFunding : List (Currency × Decimal) :=
  [(.usd, .hundredths 1000000),
    (.eur, .hundredths 100000),
    (.gbp, .hundredths 100000)]

/-- Opens the accounts. -/
def openAccounts (desk : Desk) (c : SimulatedClient) :
    List Currency → Timed (Except SimulationError Unit)
  | [] => return .ok ()
  | currency :: rest => do
    match ← desk.openAccount c.id currency with
    | .error e => return .error (.opening currency c.name e)
    | .ok _ => openAccounts desk c rest

/-- Pays in the opening balances; those of zero and those without an account are passed over. -/
def fund (desk : Desk) (c : SimulatedClient) :
    List (Currency × Decimal) → Timed (Except SimulationError Unit)
  | [] => return .ok ()
  | (currency, amount) :: rest => do
    if !c.currencies.contains currency || amount.isZero then fund desk c rest
    else
      match ← desk.deposit c.id currency amount with
      | .error e => return .error (.funding amount currency c.name e)
      | .ok _ => fund desk c rest

/-- Makes the client ready to take part. -/
def onboard (desk : Desk) (c : SimulatedClient) (funding : List (Currency × Decimal)) :
    Timed (Except SimulationError Unit) := do
  match ← openAccounts desk c c.currencies with
  | .error e => return .error e
  | .ok () => fund desk c funding

/-- The balance in a currency, which is zero without an account. -/
def balance (desk : Desk) (c : SimulatedClient) (currency : Currency) : Timed Decimal := do
  match ← desk.balance c.id currency with
  | .error _ => return .zero
  | .ok account => return account.balance

end SimulatedClient

end Bureau
