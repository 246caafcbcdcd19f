import Bureau.Decimal.Text
import Bureau.Identity

/-!
# What can go wrong in the ledger
-/

namespace Bureau

/-- Why a call of the ledger has failed. -/
inductive LedgerError where
  | accountExists (key : AccountKey)
  | accountNotFound (key : AccountKey)
  | insufficientFunds (key : AccountKey) (available requested : Decimal)
  /-- The balance would leave the range of amounts. -/
  | balanceOverflow (key : AccountKey) (balance delta : Decimal)
  /-- Rows do not form a settlement. -/
  | inconsistent (reason : String)
  | lockTimeout (key : AccountKey)
  | timeout
  | transactionClosed
  | database (reason : String)
  | decode (reason : String)
deriving DecidableEq

namespace LedgerError

/-- The name of the kind of error. -/
def name : LedgerError → String
  | accountExists _ => "AccountExists"
  | accountNotFound _ => "AccountNotFound"
  | insufficientFunds _ _ _ => "InsufficientFunds"
  | balanceOverflow _ _ _ => "BalanceOverflow"
  | inconsistent _ => "Inconsistent"
  | lockTimeout _ => "LockTimeout"
  | timeout => "Timeout"
  | transactionClosed => "TransactionClosed"
  | database _ => "Database"
  | decode _ => "Decode"

/-- What is said about the call that failed. -/
def message : LedgerError → String
  | accountExists key => s!"account {key} already exists"
  | accountNotFound key => s!"account {key} not found"
  | insufficientFunds key available requested =>
    s!"insufficient funds in {key}: balance {available}, debit {requested}"
  | balanceOverflow key balance delta =>
    s!"balance of {key} would overflow: balance {balance}, change {delta}"
  | inconsistent reason => s!"inconsistent journal: {reason}"
  | lockTimeout key => s!"timed out waiting for lock on {key}"
  | timeout => "ledger deadline exceeded"
  | transactionClosed => "transaction already finished"
  | database reason => s!"database error: {reason}"
  | decode reason => s!"decode error: {reason}"

/-- Whether the cause is contention or an outage and not the request. -/
def isTransient : LedgerError → Bool
  | lockTimeout _ | timeout | database _ | transactionClosed => true
  | _ => false

end LedgerError

end Bureau
