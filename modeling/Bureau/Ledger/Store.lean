import Bureau.Ledger.Journal

/-!
# The ledger

The ledger holds one account for each client and currency, the journal of everything posted, and
the transactions that are open. A transaction works on copies of the accounts it has locked; what
others see changes only when it commits. A row stays locked until its transaction commits, is
rolled back or is dropped, and no second transaction gets the lock meanwhile.
-/

namespace Bureau

/-- An open transaction. -/
structure Transaction where
  number : Nat
  /-- Copies of the accounts it has locked, with the changes made so far. -/
  working : List Account := []
  /-- Rows that will be added to the journal. -/
  pending : List JournalEntry := []

namespace Transaction

/-- The transaction's own copy of an account, once it has locked it. -/
def copy? (t : Transaction) (key : AccountKey) : Option Account :=
  t.working.find? (·.key = key)

/-- The transaction holds the lock of an account. -/
def holds (t : Transaction) (key : AccountKey) : Bool :=
  t.working.any (·.key = key)

end Transaction

/-- All accounts and rows, and the transactions that may still change them. -/
structure Ledger where
  /-- At most one account for each key. -/
  accounts : List Account := []
  /-- Everything posted, in the order of commits. -/
  journal : List JournalEntry := []
  /-- The transactions that are open. -/
  transactions : List Transaction := []
  /-- Number of the next transaction. -/
  nextNumber : Nat := 0

namespace Ledger

/-! ### Reading -/

/-- The committed account of a key. -/
def account? (l : Ledger) (key : AccountKey) : Option Account :=
  l.accounts.find? (·.key = key)

/-- A client's accounts from a currency on, in the order of codes, at most `limit` of them. -/
def accountsPage (l : Ledger) (client : ClientId) (start : Option Currency) (limit : Nat) :
    List Account :=
  let wanted := l.accounts.filter fun a =>
    a.client = client && start.all fun c => (compare a.currency c).isGE
  (wanted.mergeSort fun a b => (compare a.currency b.currency).isLE).take limit

/-- The rows of an account within a window, from a place on, in the order of the listing, at most
`limit` of them. -/
def journalPage (l : Ledger) (key : AccountKey) (window : Window) (start : Option JournalKey)
    (limit : Nat) : List JournalEntry :=
  let wanted := l.journal.filter fun e =>
    e.key = key && window.contains e.transactedAt &&
      start.all fun k => (compare (JournalKey.ofEntry e) k).isGE
  (wanted.mergeSort fun a b => (compare (JournalKey.ofEntry a) (JournalKey.ofEntry b)).isLE).take
    limit

/-- The rows posted under a transaction identifier. -/
def journalFor (l : Ledger) (txId : TxId) : List JournalEntry :=
  l.journal.filter (·.txId = txId)

/-- The sum of all balances in a currency. -/
def totalBalance (l : Ledger) (currency : Currency) : Except SumOverflow Decimal :=
  orOverflow (Decimal.sum? ((l.accounts.filter (·.currency = currency)).map (·.balance)))

/-! ### Accounts -/

/-- Adds an empty account, unless there is one already. -/
def createAccount (l : Ledger) (key : AccountKey) (now : Instant) :
    Except LedgerError Account × Ledger :=
  if (l.account? key).isSome then (.error (.accountExists key), l)
  else
    let account := Account.opened key now
    (.ok account, { l with accounts := l.accounts ++ [account] })

/-! ### Transactions -/

/-- Opens a transaction. -/
def begin (l : Ledger) : Nat × Ledger :=
  (l.nextNumber,
    { l with
      transactions := l.transactions ++ [{ number := l.nextNumber }]
      nextNumber := l.nextNumber + 1 })

/-- The open transaction of a number. -/
def transaction? (l : Ledger) (number : Nat) : Option Transaction :=
  l.transactions.find? (·.number = number)

/-- Changes an open transaction. -/
def modifyTransaction (l : Ledger) (number : Nat) (f : Transaction → Transaction) : Ledger :=
  { l with transactions := l.transactions.map fun t => if t.number = number then f t else t }

/-- Whether another transaction holds the lock of a row. -/
def isHeldByOther (l : Ledger) (number : Nat) (key : AccountKey) : Bool :=
  l.transactions.any fun t => t.number ≠ number && t.holds key

/-- What happens to a request for the lock of a row. -/
inductive LockOutcome where
  | granted (account : Account) (ledger : Ledger)
  | refused (error : LedgerError)
  /-- Another transaction holds the lock. -/
  | busy

/-- Asks for the lock of a row. A transaction that holds it already gets its own copy. -/
def lock (l : Ledger) (number : Nat) (key : AccountKey) : LockOutcome :=
  match l.transaction? number with
  | none => .refused .transactionClosed
  | some t =>
    match t.copy? key with
    | some account => .granted account l
    | none =>
      match l.account? key with
      | none => .refused (.accountNotFound key)
      | some account =>
        if l.isHeldByOther number key then .busy
        else
          .granted account
            (l.modifyTransaction number fun t => { t with working := t.working ++ [account] })

/-- Writes a change to the copy of a locked row. -/
def update (l : Ledger) (number : Nat) (change : BalanceChange) (moment : Instant) :
    Except LedgerError (Account × Ledger) :=
  match l.transaction? number with
  | none => .error .transactionClosed
  | some t =>
    match t.copy? change.key with
    | none => .error (.accountNotFound change.key)
    | some account =>
      .ok (account.apply change moment,
        l.modifyTransaction number fun t =>
          { t with
            working := t.working.map fun a =>
              if a.key = change.key then a.apply change moment else a })

/-- Adds rows to what a transaction will post. -/
def insert (l : Ledger) (number : Nat) (entries : List JournalEntry) : Except LedgerError Ledger :=
  match l.transaction? number with
  | none => .error .transactionClosed
  | some _ =>
    .ok (l.modifyTransaction number fun t => { t with pending := t.pending ++ entries })

/-- Forgets a transaction: its locks are released and its changes are lost. -/
def drop (l : Ledger) (number : Nat) : Ledger :=
  { l with transactions := l.transactions.filter (·.number ≠ number) }

/-- Makes everything that a transaction has done visible, and closes it. -/
def commit (l : Ledger) (number : Nat) : Except LedgerError Ledger :=
  match l.transaction? number with
  | none => .error .transactionClosed
  | some t =>
    let settled : Ledger :=
      { l with
        accounts := l.accounts.map fun a => (t.copy? a.key).getD a
        journal := l.journal ++ t.pending }
    .ok (settled.drop number)

/-- Closes a transaction without a trace. -/
def rollback (l : Ledger) (number : Nat) : Except LedgerError Ledger :=
  match l.transaction? number with
  | none => .error .transactionClosed
  | some _ => .ok (l.drop number)

end Ledger

end Bureau
