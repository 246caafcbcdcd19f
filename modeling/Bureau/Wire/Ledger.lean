import Bureau.Ledger.Journal
import Bureau.Wire.Basic

/-!
# JSON forms of the ledger

Accounts, changes of balances, journal rows, and the windows and keys by which the journal is
listed.
-/

namespace Bureau.Wire

open Json (Fields record?)

instance : Wire Account where
  encode a := .record [
    ("client_id", encode a.client),
    ("currency", encode a.currency),
    ("balance", encode a.balance),
    ("last_tx_amount", encode a.lastTxAmount),
    ("last_tx_at", a.lastTxAt.elim .null encode),
    ("created_at", encode a.createdAt)]
  decode := record? <|
    ((((((field "client_id").pair (field "currency")).pair (field "balance")).pair
      (field "last_tx_amount")).pair (Fields.absentable "last_tx_at" decode)).pair
      (field "created_at")).map
    fun (((((client, currency), balance), lastTxAmount), lastTxAt), createdAt) =>
      { client, currency, balance, lastTxAmount, lastTxAt, createdAt }

instance : Wire BalanceChange where
  encode c := .record [
    ("key", encode c.key),
    ("delta", encode c.delta),
    ("balance_before", encode c.before),
    ("balance_after", encode c.after)]
  decode := record? <|
    ((((field "key").pair (field "delta")).pair (field "balance_before")).pair
      (field "balance_after")).map
    fun (((key, delta), before), after) => { key, delta, before, after }

instance : Wire JournalEntry where
  encode e := .record [
    ("tx_id", encode e.txId),
    ("client_id", encode e.client),
    ("currency", encode e.currency),
    ("amount", encode e.amount),
    ("transacted_at", encode e.transactedAt)]
  decode := record? <|
    (((((field "tx_id").pair (field "client_id")).pair (field "currency")).pair
      (field "amount")).pair (field "transacted_at")).map
    fun ((((txId, client), currency), amount), transactedAt) =>
      { txId, client, currency, amount, transactedAt }

instance : Wire Window where
  encode w := .record [("start", encode w.start), ("end", encode w.stop)]
  decode := record? <|
    ((field "start").pair (field "end")).map fun (start, stop) => ⟨start, stop⟩

instance : Wire JournalKey where
  encode k := .record [("transacted_at", encode k.transactedAt), ("tx_id", encode k.txId)]
  decode := record? <|
    ((field "transacted_at").pair (field "tx_id")).map fun (transactedAt, txId) =>
      ⟨transactedAt, txId⟩

end Bureau.Wire
