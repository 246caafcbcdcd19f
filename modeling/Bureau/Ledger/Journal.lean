import Bureau.Calendar.Instant
import Bureau.Ledger.Account
import Bureau.Settlement

/-!
# Journal rows and settlements

Every settlement posts two rows under one transaction identifier: a debit with a negative amount
and a credit with a positive one. Only four shapes of such a pair are settlements, and the
currencies of the rows tell which one it is.
-/

namespace Bureau

/-- One signed row of the journal. -/
structure JournalEntry where
  txId : TxId
  client : ClientId
  currency : Currency
  /-- Negative for a debit. -/
  amount : Decimal
  transactedAt : Instant
deriving DecidableEq

namespace JournalEntry

/-- The account that the row belongs to. -/
def key (e : JournalEntry) : AccountKey := ⟨e.client, e.currency⟩

/-- The row takes from its account. -/
def isDebit (e : JournalEntry) : Bool := e.amount.isNegative

/-- Whether the row belongs to one of the bureau's own accounts. -/
def isClearing (e : JournalEntry) : Bool := e.currency.isClearing

end JournalEntry

/-- Where a row stands in the listing of an account: by time and then by transaction. -/
structure JournalKey where
  transactedAt : Instant
  txId : TxId
deriving DecidableEq

namespace JournalKey

/-- The place of a row in a listing. -/
def ofEntry (e : JournalEntry) : JournalKey := ⟨e.transactedAt, e.txId⟩

instance : Ord JournalKey :=
  ⟨fun a b => (compare a.transactedAt b.transactedAt).then (compare a.txId b.txId)⟩

end JournalKey

/-! ### Consistency -/

/-- Why rows do not form a settlement. -/
inductive ConsistencyError where
  | rowCount (found : Nat)
  | mixedTransactions
  | zeroAmount
  | outOfRange (amount : Decimal)
  | direction
  | unbalanced (sum : Decimal)
  | clientMismatch
  | unknownShape (debit credit : Currency)
  | kindMismatch (declared found : SettlementKind)
deriving DecidableEq

namespace ConsistencyError

/-- The name of the kind of fault. -/
def name : ConsistencyError → String
  | rowCount _ => "RowCount"
  | mixedTransactions => "MixedTransactions"
  | zeroAmount => "ZeroAmount"
  | outOfRange _ => "OutOfRange"
  | direction => "Direction"
  | unbalanced _ => "Unbalanced"
  | clientMismatch => "ClientMismatch"
  | unknownShape _ _ => "UnknownShape"
  | kindMismatch _ _ => "KindMismatch"

/-- What is said about rows that are no settlement. -/
def message : ConsistencyError → String
  | rowCount found => s!"expected 2 rows, found {found}"
  | mixedTransactions => "rows carry different transaction ids"
  | zeroAmount => "zero amount row"
  | outOfRange amount => s!"row amount {amount} is outside the amount range"
  | direction => "expected one debit and one credit"
  | unbalanced sum => s!"single-currency rows sum to {sum}, not zero"
  | clientMismatch => "legs belong to different clients"
  | unknownShape debit credit => s!"no settlement kind matches currencies {debit} -> {credit}"
  | kindMismatch declared found => s!"declared {declared} but rows form {found}"

end ConsistencyError

/-- A sum of decimals that must exist. -/
def orOverflow (sum : Option Decimal) : Except SumOverflow Decimal :=
  match sum with
  | some d => .ok d
  | none => .error .addition

/-- The sum of two amounts in range always fits; zero stands for any other. -/
def sumOf (a b : Decimal) : Decimal := (a.add? b).getD Decimal.zero

/-- The kind of a debit row and a credit row. -/
def shapeOf (debit credit : JournalEntry) : Except ConsistencyError SettlementKind :=
  let unknown := ConsistencyError.unknownShape debit.currency credit.currency
  if debit.currency = credit.currency then .error (.unbalanced (sumOf debit.amount credit.amount))
  else if debit.currency = Currency.deposit then
    if !credit.currency.isFiat then .error unknown
    else
      let net := sumOf debit.amount credit.amount
      if net.isZero then .ok .externalDeposit else .error (.unbalanced net)
  else if debit.client ≠ credit.client then .error .clientMismatch
  else
    match debit.currency.assetClass, credit.currency.assetClass with
    | .fiat, .fiat => .ok .fiatExchange
    | .fiat, .crypto => .ok .cryptoPurchase
    | .crypto, .fiat => .ok .cryptoSale
    | _, _ => .error unknown

/-- The kind of settlement that rows form. -/
def checkConsistency (entries : List JournalEntry) : Except ConsistencyError SettlementKind :=
  match entries with
  | [a, b] =>
    if a.txId ≠ b.txId then .error .mixedTransactions
    else if a.amount.isZero ∨ b.amount.isZero then .error .zeroAmount
    else if !a.amount.inRange then .error (.outOfRange a.amount)
    else if !b.amount.inRange then .error (.outOfRange b.amount)
    else
      match a.isDebit, b.isDebit with
      | true, false => shapeOf a b
      | false, true => shapeOf b a
      | _, _ => .error .direction
  | _ => .error (.rowCount entries.length)

/-! ### Batches -/

/-- The rows that one settlement posts. -/
structure JournalBatch where
  txId : TxId
  kind : SettlementKind
  entries : List JournalEntry

namespace JournalBatch

/-- Money from outside: the bureau's clearing account is debited, the client credited. -/
def externalDeposit (txId : TxId) (now : Instant) (treasury client : ClientId) (amount : Money) :
    JournalBatch :=
  let moment := now.toMicros
  { txId
    kind := .externalDeposit
    entries := [⟨txId, treasury, Currency.deposit, amount.value.neg, moment⟩,
      ⟨txId, client, amount.currency, amount.value, moment⟩] }

/-- A conversion between two accounts of one client. -/
def conversion (txId : TxId) (now : Instant) (kind : SettlementKind) (client : ClientId)
    (debit credit : Money) : JournalBatch :=
  let moment := now.toMicros
  { txId, kind
    entries := [⟨txId, client, debit.currency, debit.value.neg, moment⟩,
      ⟨txId, client, credit.currency, credit.value, moment⟩] }

/-- Adds an amount to the total kept for a name. -/
def addTo {κ : Type} [BEq κ] (k : κ) (amount : Decimal) :
    List (κ × Decimal) → Except SumOverflow (List (κ × Decimal))
  | [] => (orOverflow (Decimal.zero.add? amount)).map fun sum => [(k, sum)]
  | (l, total) :: rest =>
    if k == l then (orOverflow (total.add? amount)).map fun sum => (l, sum) :: rest
    else (addTo k amount rest).map fun rest => (l, total) :: rest

/-- Totals of the rows under a name for each row, in the order of first appearance. -/
def totalsBy {κ : Type} [BEq κ] (name : JournalEntry → κ) (entries : List JournalEntry) :
    Except SumOverflow (List (κ × Decimal)) :=
  entries.foldlM (fun totals e => addTo (name e) e.amount totals) []

/-- Net change of every account, clearing accounts included. -/
def deltas (b : JournalBatch) : Except SumOverflow (List (AccountKey × Decimal)) :=
  totalsBy JournalEntry.key b.entries

/-- Whether rows of a single currency sum to zero; rows of several always pass. -/
def isBalanced (b : JournalBatch) : Except SumOverflow Bool :=
  (totalsBy JournalEntry.currency b.entries).map fun sums =>
    1 < sums.length || sums.all (·.2.isZero)

/-- Everything debited, as a positive number. -/
def totalDebits (b : JournalBatch) : Except SumOverflow Decimal :=
  orOverflow (Decimal.sum? ((b.entries.filter JournalEntry.isDebit).map (·.amount.neg)))

/-- Whether the rows form a settlement of the declared kind. -/
def check (b : JournalBatch) : Except ConsistencyError Unit :=
  match checkConsistency b.entries with
  | .error e => .error e
  | .ok found => if found = b.kind then .ok () else .error (.kindMismatch b.kind found)

end JournalBatch

end Bureau
