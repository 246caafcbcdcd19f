import Bureau.Desk.Basic

/-!
# Accounts and transactions of clients

Opening an account, reading its balance, and looking up what was posted. A client sees its own
rows only.
-/

namespace Bureau.Desk

open Timed

/-- Opens an account without money. -/
def openAccount (d : Desk) (client : ClientId) (currency : Currency) :
    Timed (Except DeskError Account) :=
  if currency.isClearing then
    return .error (.invalid "currency" s!"{currency} is not a holdable currency")
  else
    d.ledgerRead (Ledger.callCreateAccount ⟨client, currency⟩)

/-- The account of a client in a currency. -/
def balance (d : Desk) (client : ClientId) (currency : Currency) :
    Timed (Except DeskError Account) := do
  match ← d.ledgerRead (Ledger.query .account (·.account? ⟨client, currency⟩)) with
  | .error e => return .error e
  | .ok none => return .error (.insufficientFundsOrMissingAccount DeskError.fundsReason)
  | .ok (some account) => return .ok account

/-- The client's own rows of a transaction. -/
def transaction (d : Desk) (client : ClientId) (txId : TxId) :
    Timed (Except DeskError (List JournalEntry)) := do
  match ← d.ledgerRead (Ledger.query .journalFor (·.journalFor txId)) with
  | .error e => return .error e
  | .ok rows =>
    let own := rows.filter (·.client = client)
    if own.isEmpty then return .error (.invalid "tx_id" "unknown transaction")
    else return .ok own

/-- The kind of settlement that the rows of a transaction form. -/
def audit (txId : TxId) : Timed (Except LedgerError SettlementKind) := do
  match ← Ledger.query .journalFor (·.journalFor txId) with
  | .error e => return .error e
  | .ok rows =>
    match checkConsistency rows with
    | .error e => return .error (.inconsistent e.message)
    | .ok kind => return .ok kind

/-- Checks a transaction against the rules of settlements once more. -/
def verify (txId : TxId) : Timed (Except DeskError SettlementKind) := do
  match ← audit txId with
  | .error e => return .error (.ofLedger e)
  | .ok kind => return .ok kind

end Bureau.Desk
