import Bureau.Ledger.Store

/-!
# Postings

A posting brings a batch of rows into the ledger in one transaction, step by step: it opens the
transaction, locks the accounts in order and computes each change under the lock, writes the
changes, inserts the rows and commits. Between two steps other postings may run. A step can fail
from outside, and a deadline can cut the posting off; then nothing of it remains.
-/

namespace Bureau

/-! ### The order of locks

Two postings on the same accounts must ask for their locks in one order, or each may hold what the
other waits for. Every posting therefore asks in the order of account keys, whichever row is the
debit. Clearing accounts are never locked: they stand in the journal only. -/

/-- Inserts a key into an ascending list, unless it is there. -/
def insertKey (key : AccountKey) : List AccountKey → List AccountKey
  | [] => [key]
  | k :: rest =>
    match compare key k with
    | .lt => key :: k :: rest
    | .eq => k :: rest
    | .gt => k :: insertKey key rest

/-- The accounts to lock, each once, in ascending order. -/
def lockOrder (keys : List AccountKey) : List AccountKey :=
  (keys.filter (!·.currency.isClearing)).foldl (fun sorted key => insertKey key sorted) []

/-! ### Postings -/

/-- The steps that a posting takes in the ledger. -/
inductive LedgerCall where
  | begin
  | lock
  | update
  | insert
  | commit
  | rollback
  | createAccount
  | account
  | accountsPage
  | journalPage
  | journalFor
deriving DecidableEq

namespace LedgerCall

/-- The calls in the order in which they are declared. -/
def all : List LedgerCall :=
  [begin, lock, update, insert, commit, rollback, createAccount, account, accountsPage,
    journalPage, journalFor]

/-- The name under which mishaps of the call are asked for. -/
def name : LedgerCall → String
  | begin => "begin"
  | lock => "lock"
  | update => "update"
  | insert => "insert"
  | commit => "commit"
  | rollback => "rollback"
  | createAccount => "create_account"
  | account => "account"
  | accountsPage => "accounts_page"
  | journalPage => "journal_page"
  | journalFor => "journal_for_tx"

end LedgerCall

namespace Posting

/-- What a posting does next. -/
inductive Phase where
  | beginning
  | locking (key : AccountKey) (todo : List AccountKey) (changes : List BalanceChange)
  | updating (change : BalanceChange) (todo changes : List BalanceChange)
  | inserting (changes : List BalanceChange)
  | committing (changes : List BalanceChange)
  /-- The transaction is rolled back for this reason. -/
  | aborting (error : LedgerError)
  | finished (result : Except LedgerError (List BalanceChange))

end Posting

/-- A batch on its way into the ledger, which it may share with other postings. -/
structure Posting where
  batch : JournalBatch
  /-- Net change of every account. -/
  deltas : List (AccountKey × Decimal)
  /-- Number of its transaction, once it has one. -/
  number : Nat := 0
  phase : Posting.Phase := .beginning

namespace Posting

/-- A posting of a batch whose rows form the settlement it declares. -/
def ofBatch (batch : JournalBatch) : Except LedgerError Posting :=
  match batch.check with
  | .error e => .error (.inconsistent e.message)
  | .ok () =>
    match batch.deltas with
    | .error _ => .error (.inconsistent SumOverflow.addition.message)
    | .ok deltas => .ok { batch, deltas }

/-- The accounts of the batch in the order in which they are locked. -/
def keys (p : Posting) : List AccountKey :=
  lockOrder (p.deltas.map (·.1))

/-- Net change of an account; zero where the batch has no row for it. -/
def delta (p : Posting) (key : AccountKey) : Decimal :=
  (p.deltas.lookup key).getD Decimal.zero

/-- The moment that the accounts remember. -/
def moment (p : Posting) : Instant :=
  (p.batch.entries.head?.map (·.transactedAt)).getD default

/-- The step that comes next. -/
def call? (p : Posting) : Option LedgerCall :=
  match p.phase with
  | .beginning => some .begin
  | .locking _ _ _ => some .lock
  | .updating _ _ _ => some .update
  | .inserting _ => some .insert
  | .committing _ => some .commit
  | .aborting _ => some .rollback
  | .finished _ => none

/-- How the posting has ended, once it has. -/
def result? (p : Posting) : Option (Except LedgerError (List BalanceChange)) :=
  match p.phase with
  | .finished result => some result
  | _ => none

/-- Writes the changes that are left and then inserts the rows. -/
def toUpdate (todo changes : List BalanceChange) : Phase :=
  match todo with
  | [] => .inserting changes
  | change :: todo => .updating change todo changes

/-- Locks the accounts that are left and then writes the changes. -/
def toLock (todo : List AccountKey) (changes : List BalanceChange) : Phase :=
  match todo with
  | [] => toUpdate changes changes
  | key :: todo => .locking key todo changes

/-- The posting and the ledger after a step, or the row that the step has to wait for. -/
inductive Outcome where
  | went (posting : Posting) (ledger : Ledger)
  | waits (key : AccountKey)

/-- The posting after its step has failed. A transaction that could not be committed or rolled
back is dropped. -/
def fail (p : Posting) (l : Ledger) (error : LedgerError) : Posting × Ledger :=
  match p.phase with
  | .beginning => ({ p with phase := .finished (.error error) }, l)
  | .locking _ _ _ | .updating _ _ _ | .inserting _ => ({ p with phase := .aborting error }, l)
  | .committing _ => ({ p with phase := .finished (.error error) }, l.drop p.number)
  | .aborting reason => ({ p with phase := .finished (.error reason) }, l.drop p.number)
  | .finished _ => (p, l)

/-- A failed step as an outcome. -/
def failed (p : Posting) (l : Ledger) (error : LedgerError) : Outcome :=
  let (p, l) := p.fail l error
  .went p l

/-- The ledger without the posting's transaction. -/
def cutOff (p : Posting) (l : Ledger) : Ledger :=
  match p.phase with
  | .beginning | .finished _ => l
  | _ => l.drop p.number

/-- Takes the next step. -/
def step (p : Posting) (l : Ledger) : Outcome :=
  match p.phase with
  | .beginning =>
    let (number, l) := l.begin
    .went { p with number, phase := toLock p.keys [] } l
  | .locking key todo changes =>
    match l.lock p.number key with
    | .busy => .waits key
    | .refused e => p.failed l e
    | .granted account l =>
      match BalanceChange.compute key account.balance (p.delta key) with
      | .error e => p.failed l e
      | .ok change => .went { p with phase := toLock todo (changes ++ [change]) } l
  | .updating change todo changes =>
    match l.update p.number change p.moment with
    | .error e => p.failed l e
    | .ok (_, l) => .went { p with phase := toUpdate todo changes } l
  | .inserting changes =>
    match l.insert p.number p.batch.entries with
    | .error e => p.failed l e
    | .ok l => .went { p with phase := .committing changes } l
  | .committing changes =>
    match l.commit p.number with
    | .error e => p.failed l e
    | .ok l => .went { p with phase := .finished (.ok changes) } l
  | .aborting error =>
    match l.rollback p.number with
    | .error e => p.failed l e
    | .ok l => .went { p with phase := .finished (.error error) } l
  | .finished _ => .went p l

/-- A bound on the steps that are left. -/
def remaining (p : Posting) : Nat :=
  match p.phase with
  | .beginning => 2 * p.keys.length + 4
  | .locking _ todo changes => 2 * todo.length + changes.length + 5
  | .updating _ todo _ => todo.length + 4
  | .inserting _ => 3
  | .committing _ => 2
  | .aborting _ => 1
  | .finished _ => 0

end Posting

/-- What a posting has done. -/
structure Posted where
  txId : TxId
  kind : SettlementKind
  entries : List JournalEntry
  /-- The changes, in the order of the locks. -/
  changes : List BalanceChange

end Bureau
