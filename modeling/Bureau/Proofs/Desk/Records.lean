import Bureau.Desk.Settlement
import Bureau.Proofs.Ledger.Listing
import Bureau.Proofs.Ledger.Shapes

/-!
# A journal that consists of the rows of receipts

Every transaction is posted with one debit row and one credit row of different accounts, so a
journal that consists of receipts tells which transactions have been posted (`Ledger.postings`).
When these are distinct, the rows of a receipt are found again under its identifier, and the rows
of an account differ in their places.
-/

namespace Bureau

/-- The transactions that have been posted, each as often as it has a debit row. -/
def Ledger.postings (l : Ledger) : List TxId :=
  (l.journal.filter JournalEntry.isDebit).map (·.txId)

/-- The rows form the settlement that the receipt names, and they are its own. -/
structure Receipt.Consistent (r : Receipt) : Prop where
  consistent : checkConsistency r.entries = .ok r.kind
  own : ∀ e ∈ r.entries, e.txId = r.txId

/-- The journal consists of the rows of these receipts. -/
structure Ledger.Records (l : Ledger) (receipts : List Receipt) : Prop where
  journal : l.journal = receipts.flatMap Receipt.entries
  consistent : ∀ r ∈ receipts, r.Consistent

/-- Of two rows that form a settlement exactly one is a debit. -/
theorem exists_debit_of_checkConsistency {entries : List JournalEntry} {kind : SettlementKind}
    (h : checkConsistency entries = .ok kind) :
    ∃ e ∈ entries, entries.filter JournalEntry.isDebit = [e] := by
  obtain ⟨debit, credit, rows, opposes, -⟩ := checkConsistency_eq_ok_iff.1 h
  obtain ⟨-, negative, positive, -⟩ := JournalEntry.opposes_iff.1 opposes
  refine ⟨debit, ?_, ?_⟩
  · rcases rows with rfl | rfl <;> simp
  · rcases rows with rfl | rfl <;> simp [negative, positive]

/-- Where names are distinct, only a member itself bears its name. -/
theorem filter_eq_singleton {α β : Type} [DecidableEq β] {name : α → β} {l : List α}
    (distinct : (l.map name).Nodup) {a : α} (there : a ∈ l) : l.filter (name · = name a) = [a] := by
  induction l with
  | nil => cases there
  | cons b rest ih =>
    rw [List.map_cons, List.nodup_cons] at distinct
    rcases List.mem_cons.1 there with rfl | later
    · have others : rest.filter (name · = name a) = [] :=
        List.filter_eq_nil_iff.2 fun c hc same =>
          distinct.1 (of_decide_eq_true same ▸ List.mem_map_of_mem hc)
      simp [others]
    · have other : name b ≠ name a := fun same => distinct.1 (same ▸ List.mem_map_of_mem later)
      rw [List.filter_cons_of_neg (by simpa using other), ih distinct.2 later]

namespace Receipt.Consistent

variable {r : Receipt}

theorem length_eq (h : r.Consistent) : r.entries.length = 2 := by
  obtain ⟨a, b, rows, -⟩ := exists_rows_of_checkConsistency h.consistent
  rw [rows]
  rfl

theorem postings (h : r.Consistent) :
    (r.entries.filter JournalEntry.isDebit).map (·.txId) = [r.txId] := by
  obtain ⟨e, he, debit⟩ := exists_debit_of_checkConsistency h.consistent
  rw [debit, List.map_singleton, h.own e he]

/-- No two rows of a receipt are of one account. -/
theorem alone (h : r.Consistent) (key : AccountKey) :
    (r.entries.filter (·.key = key)).length ≤ 1 := by
  obtain ⟨a, b, rows, different, -⟩ := exists_rows_of_checkConsistency h.consistent
  rw [rows]
  by_cases ha : a.key = key
  · have hb : b.key ≠ key := fun hb =>
      different (congrArg AccountKey.currency (ha.trans hb.symm))
    simp [ha, hb]
  · rw [List.filter_cons_of_neg (by simpa using ha)]
    exact List.length_filter_le _ [b]

theorem filter_txId (h : r.Consistent) (txId : TxId) :
    r.entries.filter (·.txId = txId) = if r.txId = txId then r.entries else [] := by
  split
  · rename_i same
    exact List.filter_eq_self.2 fun e he => by simp [h.own e he, same]
  · rename_i different
    exact List.filter_eq_nil_iff.2 fun e he => by simp [h.own e he, different]

end Receipt.Consistent

namespace Ledger.Records

variable {l : Ledger} {receipts : List Receipt} {r : Receipt}

theorem postings_eq (h : l.Records receipts) : l.postings = receipts.map (·.txId) := by
  rw [postings, h.journal]
  replace h := h.consistent
  induction receipts with
  | nil => rfl
  | cons r rest ih =>
    rw [List.flatMap_cons, List.filter_append, List.map_append,
      (h r List.mem_cons_self).postings, ih fun q hq => h q (List.mem_cons_of_mem _ hq)]
    rfl

/-- The rows under an identifier are those of the receipts that bear it. -/
theorem journalFor_eq_flatMap (h : l.Records receipts) (txId : TxId) :
    l.journalFor txId = (receipts.filter (·.txId = txId)).flatMap Receipt.entries := by
  rw [journalFor, h.journal]
  replace h := h.consistent
  induction receipts with
  | nil => rfl
  | cons r rest ih =>
    obtain ⟨first, others⟩ := List.forall_mem_cons.1 h
    rw [List.flatMap_cons, List.filter_append, first.filter_txId, ih others]
    by_cases same : r.txId = txId <;> simp [same]

/-- The rows under the identifier of a receipt are its own. -/
theorem journalFor_eq (h : l.Records receipts) (distinct : l.postings.Nodup)
    (there : r ∈ receipts) : l.journalFor r.txId = r.entries := by
  rw [h.postings_eq] at distinct
  rw [h.journalFor_eq_flatMap, filter_eq_singleton distinct there, List.flatMap_singleton]

/-- Rows of one account belong to different transactions. -/
theorem separate (h : l.Records receipts) (distinct : l.postings.Nodup) (key : AccountKey) :
    l.Separate key := by
  rw [h.postings_eq] at distinct
  rw [Separate, h.journal, List.filter_flatMap, List.pairwise_flatMap]
  refine ⟨fun r hr => ?_, (List.pairwise_map.1 distinct).imp_of_mem fun {q r} hq hr different => ?_⟩
  · have alone := (h.consistent r hr).alone key
    cases rows : r.entries.filter (·.key = key) with
    | nil => exact List.Pairwise.nil
    | cons e rest =>
      rw [rows] at alone
      obtain rfl : rest = [] := List.eq_nil_of_length_eq_zero (by simpa using alone)
      exact List.pairwise_singleton _ _
  · intro x hx y hy same
    have own {s : Receipt} (hs : s ∈ receipts) {e : JournalEntry}
        (he : e ∈ s.entries.filter (·.key = key)) : e.txId = s.txId :=
      (h.consistent s hs).own e (List.mem_filter.1 he).1
    exact different (by rw [← own hq hx, ← own hr hy]; exact congrArg JournalKey.txId same)

end Ledger.Records

end Bureau
