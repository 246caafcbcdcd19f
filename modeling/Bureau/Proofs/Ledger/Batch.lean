import Bureau.Proofs.Ledger.Posting

/-!
# Batches that are settlements

A batch that passes its check has two rows, in different currencies and with amounts in range. So
no account is touched by both, and the net change of an account is the amount of its row.
-/

namespace Bureau

/-- What is known of two rows that form a settlement. -/
theorem shapeOf_ok {debit credit : JournalEntry} {kind : SettlementKind}
    (h : shapeOf debit credit = .ok kind) : debit.currency ≠ credit.currency := by
  intro same
  simp [shapeOf, same] at h

theorem exists_rows_of_checkConsistency {entries : List JournalEntry} {kind : SettlementKind}
    (h : checkConsistency entries = .ok kind) :
    ∃ a b, entries = [a, b] ∧ a.currency ≠ b.currency ∧
      a.amount.inRange = true ∧ b.amount.inRange = true := by
  unfold checkConsistency at h
  split at h
  · rename_i a b
    refine ⟨a, b, rfl, ?_⟩
    split at h
    · cases h
    · split at h
      · cases h
      · split at h
        · cases h
        · rename_i rangeA
          split at h
          · cases h
          · rename_i rangeB
            refine ⟨?_, by simpa using rangeA, by simpa using rangeB⟩
            split at h
            · exact shapeOf_ok h
            · exact (shapeOf_ok h).symm
            · cases h
  · cases h

namespace JournalBatch

/-- The declared kind is the one that the rows form. -/
theorem check_eq_ok_iff {b : JournalBatch} :
    b.check = .ok () ↔ checkConsistency b.entries = .ok b.kind := by
  unfold check
  split
  · rename_i refused
    simp [refused]
  · rename_i found consistent
    simp [consistent]

theorem exists_rows {b : JournalBatch} (h : b.check = .ok ()) :
    ∃ r s, b.entries = [r, s] ∧ r.currency ≠ s.currency ∧
      r.amount.inRange = true ∧ s.amount.inRange = true :=
  exists_rows_of_checkConsistency (check_eq_ok_iff.1 h)

/-- Two rows of different accounts are their own totals. -/
theorem deltas_rows {b : JournalBatch} {r s : JournalEntry} (rows : b.entries = [r, s])
    (different : s.key ≠ r.key) :
    b.deltas = .ok [(r.key, r.amount), (s.key, s.amount)] := by
  have key : (s.key == r.key) = false := by simpa using different
  have zero (d : Decimal) : Decimal.zero.add? d = some d := rfl
  have first : addTo r.key r.amount [] = .ok [(r.key, r.amount)] := by
    rw [addTo, zero]
    rfl
  have second : addTo s.key s.amount [(r.key, r.amount)] =
      .ok [(r.key, r.amount), (s.key, s.amount)] := by
    rw [addTo, if_neg (by simp [key]), addTo, zero]
    rfl
  rw [deltas, totalsBy, rows, List.foldlM_cons, first]
  exact congrArg (· >>= pure) second

end JournalBatch

namespace Posting

/-- The changes of a posting are those of the rows of its batch. -/
structure Rows (p : Posting) : Prop where
  /-- Every amount fits the range of amounts. -/
  inRange : ∀ e ∈ p.batch.entries, e.amount.inRange = true
  /-- A row is the only one of its account. -/
  alone : ∀ e ∈ p.batch.entries, p.batch.entries.filter (·.key = e.key) = [e]
  delta : ∀ e ∈ p.batch.entries, p.delta e.key = e.amount
  keys : ∀ key, key ∈ p.keys ↔
    (∃ e ∈ p.batch.entries, e.key = key) ∧ key.currency.isClearing = false

theorem rows_of_ofBatch {batch : JournalBatch} {p : Posting} (h : ofBatch batch = .ok p) :
    p.Rows := by
  unfold ofBatch at h
  split at h
  · cases h
  · rename_i check
    obtain ⟨r, s, rows, different, rangeR, rangeS⟩ := JournalBatch.exists_rows check
    have keys : s.key ≠ r.key := fun same => different (congrArg AccountKey.currency same).symm
    rw [JournalBatch.deltas_rows rows keys] at h
    cases h
    have filterR : [r, s].filter (·.key = r.key) = [r] := by simp [keys]
    have filterS : [r, s].filter (·.key = s.key) = [s] := by simp [keys.symm]
    refine ⟨?_, ?_, ?_, fun key => ?_⟩
    · simp [rows, rangeR, rangeS]
    · simp only [rows, List.mem_cons, List.not_mem_nil, or_false]
      rintro e (rfl | rfl)
      · exact filterR
      · exact filterS
    · simp only [rows, List.mem_cons, List.not_mem_nil, or_false]
      rintro e (rfl | rfl)
      · simp [Posting.delta]
      · have : (e.key == r.key) = false := by simpa using keys
        simp [Posting.delta, List.lookup_cons, this]
    · rw [Posting.keys, mem_lockOrder_iff]
      simp [rows, @eq_comm _ key]

end Posting

end Bureau
