import Bureau.Calendar.Instant
import Bureau.Ledger.Error
import Bureau.Money

/-!
# Accounts and changes of their balances

A change moves a balance by a signed amount. It is computed once, from the balance read under the
account's lock: a debit must leave a balance that is not negative, and no balance may leave the
range of amounts.
-/

namespace Bureau

/-- What a client has in a currency. -/
structure Account where
  client : ClientId
  currency : Currency
  balance : Decimal
  /-- Signed amount of the latest posting. -/
  lastTxAmount : Decimal
  lastTxAt : Option Instant
  createdAt : Instant
deriving DecidableEq

/-- What a posting does to the balance of an account. -/
structure BalanceChange where
  key : AccountKey
  delta : Decimal
  before : Decimal
  after : Decimal
deriving DecidableEq

namespace BalanceChange

/-- The change of a balance by an amount, unless it is refused. -/
def compute (key : AccountKey) (balance delta : Decimal) : Except LedgerError BalanceChange :=
  match (balance.add? delta).filter Decimal.inRange with
  | none => .error (.balanceOverflow key balance delta)
  | some after =>
    if delta.isNegative ∧ after.isNegative then
      .error (.insufficientFunds key balance delta.neg)
    else .ok ⟨key, delta, balance, after⟩

/-- The posting takes from the account. -/
def isDebit (c : BalanceChange) : Bool := c.delta.isNegative

end BalanceChange

namespace Account

/-- An account without money. -/
def opened (key : AccountKey) (now : Instant) : Account :=
  ⟨key.client, key.currency, Decimal.zero, Decimal.zero, none, now⟩

/-- What an account is found by. -/
def key (a : Account) : AccountKey := ⟨a.client, a.currency⟩

/-- The account after a change. -/
def apply (a : Account) (change : BalanceChange) (moment : Instant) : Account :=
  { a with balance := change.after, lastTxAmount := change.delta, lastTxAt := some moment }

end Account

end Bureau
