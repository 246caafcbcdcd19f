import Bureau.Desk.Calls
import Bureau.Desk.Error
import Bureau.Desk.Settings

/-!
# The desk

The desk is where clients open accounts, pay money in, ask for offers and redeem them. It consists
of its settings and of the codec for its tokens; everything that changes is in the world.
-/

namespace Bureau

/-- What is fixed once the bureau has been set up: how it is configured and the key of its tokens.
-/
structure Desk where
  settings : Settings
  codec : TokenCodec

namespace Desk

open Timed

/-- A desk with these settings, if they are sound. -/
def ofSettings (s : Settings) : Except SetupError Desk :=
  match s.fault? with
  | some reason => .error (.config reason)
  | none =>
    match TokenCodec.ofSecret s.secret with
    | .error e => .error (.crypto e)
    | .ok codec => .ok ⟨s, codec⟩

/-- Milliseconds in nanoseconds. -/
def ms (n : Nat) : Nat := n * 1000000

/-- An answer of the ledger, if it comes before the deadline. -/
def ledgerRead {α : Type} (d : Desk) (x : Timed (Except LedgerError α)) :
    Timed (Except DeskError α) := do
  match ← within (ms d.settings.ledgerDeadline) x with
  | none => return .error (.timedOut "ledger read")
  | some (.error e) => return .error (.ofLedger e)
  | some (.ok a) => return .ok a

/-- Counts a failure and reports it. -/
def failing {α : Type} (event : Countable) (e : DeskError) : Timed (Except DeskError α) := do
  count event
  return .error e

end Desk

end Bureau
