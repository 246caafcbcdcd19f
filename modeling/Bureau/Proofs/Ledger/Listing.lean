import Bureau.Ledger.Store
import Bureau.Proofs.Ledger.LockOrder

/-!
# Rows in the order of a listing

What a listing shows from a place on is sorted strictly by key, when no two of its rows have the
same key. For accounts the key is the currency, and for journal rows it is the time and then the
transaction; both are linear orders.
-/

namespace Bureau

open Std

/-! ### The order of journal rows -/

instance : TransOrd Instant :=
  inferInstanceAs (TransCmp (compareLex (compareOn Instant.seconds) (compareOn Instant.nanos)))

instance : LawfulEqOrd Instant where
  compare_self := ReflOrd.compare_self
  eq_of_compare {a b} h := by
    obtain ⟨seconds, nanos⟩ := Ordering.then_eq_eq.1 h
    cases a; cases b
    congr
    · exact LawfulEqOrd.eq_of_compare seconds
    · exact LawfulEqOrd.eq_of_compare nanos

instance : TransOrd TxId :=
  inferInstanceAs (TransCmp (compareOn TxId.uuid))

instance : LawfulEqOrd TxId where
  compare_self := ReflOrd.compare_self (α := Uuid)
  eq_of_compare {a b} h := by
    cases a; cases b
    congr
    exact LawfulEqOrd.eq_of_compare (α := Uuid) h

instance : TransOrd JournalKey :=
  inferInstanceAs
    (TransCmp (compareLex (compareOn JournalKey.transactedAt) (compareOn JournalKey.txId)))

instance : LawfulEqOrd JournalKey where
  compare_self := ReflOrd.compare_self
  eq_of_compare {a b} h := by
    obtain ⟨moment, txId⟩ := Ordering.then_eq_eq.1 h
    cases a; cases b
    congr
    · exact LawfulEqOrd.eq_of_compare moment
    · exact LawfulEqOrd.eq_of_compare txId

/-! ### Sorted lists -/

section Sorted

variable {α κ : Type} [Ord κ] {key : α → κ}

/-- The keys of a list ascend strictly. -/
def Ascending (key : α → κ) (xs : List α) : Prop :=
  xs.Pairwise fun a b => compare (key a) (key b) = .lt

variable [TransOrd κ]

theorem Ascending.nodup {xs : List α} (h : Ascending key xs) : xs.Nodup :=
  h.imp fun {a b} before same => by
    rw [same, ReflOrd.compare_self] at before
    cases before

variable [LawfulEqOrd κ]

theorem ascending_mergeSort {xs : List α} (distinct : (xs.map key).Nodup) :
    Ascending key (xs.mergeSort fun a b => (compare (key a) (key b)).isLE) := by
  have total (a b : α) :
      ((compare (key a) (key b)).isLE || (compare (key b) (key a)).isLE) = true := by
    rw [show compare (key a) (key b) = (compare (key b) (key a)).swap from OrientedCmp.eq_swap]
    cases compare (key b) (key a) <;> rfl
  have sorted : (xs.mergeSort fun a b => (compare (key a) (key b)).isLE).Pairwise
      fun a b => (compare (key a) (key b)).isLE = true :=
    List.pairwise_mergeSort (fun a b c => TransCmp.isLE_trans) total xs
  have different : (xs.mergeSort fun a b => (compare (key a) (key b)).isLE).Pairwise
      fun a b => key a ≠ key b := by
    refine List.pairwise_map.1 ?_
    exact ((List.mergeSort_perm xs _).map key).nodup_iff.2 distinct
  refine (sorted.and different).imp fun {a b} both => ?_
  obtain ⟨notAfter, notSame⟩ := both
  cases order : compare (key a) (key b) with
  | lt => rfl
  | eq => exact absurd (LawfulEqOrd.eq_of_compare order) notSame
  | gt =>
    rw [order] at notAfter
    cases notAfter

end Sorted

/-! ### Listings of the ledger -/

namespace Ledger

/-- A client's accounts from a currency on, in the order of codes. -/
def accountsFrom (l : Ledger) (client : ClientId) (start : Option Currency) : List Account :=
  (l.accounts.filter fun a =>
    a.client = client && start.all fun c => (compare a.currency c).isGE).mergeSort
      fun a b => (compare a.currency b.currency).isLE

theorem accountsPage_eq (l : Ledger) (client : ClientId) (start : Option Currency) (limit : Nat) :
    l.accountsPage client start limit = (l.accountsFrom client start).take limit :=
  rfl

/-- The rows of an account within a window, from a place on, in the order of the listing. -/
def rowsFrom (l : Ledger) (key : AccountKey) (window : Window) (start : Option JournalKey) :
    List JournalEntry :=
  (l.journal.filter fun e =>
    e.key = key && window.contains e.transactedAt &&
      start.all fun k => (compare (JournalKey.ofEntry e) k).isGE).mergeSort
        fun a b => (compare (JournalKey.ofEntry a) (JournalKey.ofEntry b)).isLE

theorem journalPage_eq (l : Ledger) (key : AccountKey) (window : Window)
    (start : Option JournalKey) (limit : Nat) :
    l.journalPage key window start limit = (l.rowsFrom key window start).take limit :=
  rfl

variable {l : Ledger}

theorem mem_accountsFrom {client : ClientId} {start : Option Currency} {a : Account} :
    a ∈ l.accountsFrom client start ↔ (a ∈ l.accounts ∧ a.client = client) ∧
      ∀ c ∈ start, (compare a.currency c).isGE := by
  simp [accountsFrom, List.mem_mergeSort, Option.all_eq_true, and_assoc]

theorem mem_rowsFrom {key : AccountKey} {window : Window} {start : Option JournalKey}
    {e : JournalEntry} :
    e ∈ l.rowsFrom key window start ↔
      (e ∈ l.journal ∧ e.key = key ∧ window.contains e.transactedAt) ∧
        ∀ k ∈ start, (compare (JournalKey.ofEntry e) k).isGE := by
  simp [rowsFrom, List.mem_mergeSort, Option.all_eq_true, and_assoc]

/-- A client has at most one account in each currency. -/
theorem ascending_accountsFrom (keys : (l.accounts.map Account.key).Nodup) (client : ClientId)
    (start : Option Currency) : Ascending Account.currency (l.accountsFrom client start) := by
  refine ascending_mergeSort (List.pairwise_map.2 ?_)
  refine ((List.pairwise_map.1 keys).filter _).imp_of_mem fun {a b} ha hb different same => ?_
  have own (x : Account) (hx : x ∈ l.accounts.filter fun a =>
      a.client = client && start.all fun c => (compare a.currency c).isGE) : x.client = client := by
    have := (List.mem_filter.1 hx).2
    simp only [Bool.and_eq_true, decide_eq_true_eq] at this
    exact this.1
  exact different (by rw [Account.key, Account.key, own a ha, own b hb, same])

/-- No two rows of an account in the journal are of one moment and one transaction. -/
def Separate (l : Ledger) (key : AccountKey) : Prop :=
  (l.journal.filter (·.key = key)).Pairwise fun a b => JournalKey.ofEntry a ≠ JournalKey.ofEntry b

theorem ascending_rowsFrom {key : AccountKey} (separate : l.Separate key) (window : Window)
    (start : Option JournalKey) :
    Ascending JournalKey.ofEntry (l.rowsFrom key window start) := by
  refine ascending_mergeSort (List.pairwise_map.2 ?_)
  have fewer : (l.journal.filter fun e => e.key = key && window.contains e.transactedAt &&
      start.all fun k => (compare (JournalKey.ofEntry e) k).isGE) =
      (l.journal.filter (·.key = key)).filter fun e => window.contains e.transactedAt &&
        start.all fun k => (compare (JournalKey.ofEntry e) k).isGE := by
    rw [List.filter_filter]
    exact List.filter_congr fun e _ => by
      rw [Bool.and_assoc, Bool.and_comm]
  rw [fewer]
  exact separate.filter _

end Ledger

end Bureau
