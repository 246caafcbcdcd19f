import Bureau.Ledger.Posting
import Bureau.Proofs.Decimal.Sum
import Bureau.Proofs.Ledger.Batch

/-!
# Sums that nobody checks

The rules of settlements add amounts without asking whether the sum fits, and a sum that does not
fit breaks off whatever asks for it. Here the rules are written out with such sums, for any way of
adding. They add nothing but amounts that have been found to be in range
(`JournalBatch.checkBy_congr`), and these have a sum; so the rules are never broken off, and answer
as if every sum were there (`JournalBatch.checkBy_plus`). The net changes of a batch that has passed
the check are never broken off either (`JournalBatch.exists_deltas`).
-/

namespace Bureau

/-- A way of adding amounts, in which a sum may break off what asks for it. -/
abbrev Adding : Type := Decimal → Decimal → Except SumOverflow Decimal

/-- The plain sum, which breaks off when it does not fit. -/
def Decimal.plus : Adding := fun a b => orOverflow (a.add? b)

/-- Amounts in range have a plain sum. -/
theorem Decimal.plus_eq {a b : Decimal} (ha : a.inRange = true) (hb : b.inRange = true) :
    a.plus b = .ok (sumOf a b) := by
  obtain ⟨c, sum⟩ := exists_add?_of_inRange ha hb
  simp only [plus, sumOf, sum, orOverflow, Option.getD_some]

/-- The two ways of adding do the same with amounts in range. -/
def Adding.AgreesInRange (plus plus' : Adding) : Prop :=
  ∀ a b : Decimal, a.inRange = true → b.inRange = true → plus a b = plus' a b

/-! ### The rules, with any way of adding -/

/-- The debit row and the credit row, both in range. -/
def legs (entries : List JournalEntry) : Except ConsistencyError (JournalEntry × JournalEntry) :=
  match entries with
  | [a, b] =>
    if a.txId ≠ b.txId then .error .mixedTransactions
    else if a.amount.isZero ∨ b.amount.isZero then .error .zeroAmount
    else if !a.amount.inRange then .error (.outOfRange a.amount)
    else if !b.amount.inRange then .error (.outOfRange b.amount)
    else
      match a.isDebit, b.isDebit with
      | true, false => .ok (a, b)
      | false, true => .ok (b, a)
      | _, _ => .error .direction
  | _ => .error (.rowCount entries.length)

section Rules

variable (plus : Adding)

/-- The kind of a debit row and a credit row. -/
def shapeBy (debit credit : JournalEntry) :
    Except SumOverflow (Except ConsistencyError SettlementKind) := do
  let unknown := ConsistencyError.unknownShape debit.currency credit.currency
  if debit.currency = credit.currency then
    let sum ← plus debit.amount credit.amount
    return .error (.unbalanced sum)
  else if debit.currency = Currency.deposit then
    if !credit.currency.isFiat then return .error unknown
    else
      let net ← plus debit.amount credit.amount
      if net.isZero then return .ok .externalDeposit else return .error (.unbalanced net)
  else if debit.client ≠ credit.client then return .error .clientMismatch
  else
    match debit.currency.assetClass, credit.currency.assetClass with
    | .fiat, .fiat => return .ok .fiatExchange
    | .fiat, .crypto => return .ok .cryptoPurchase
    | .crypto, .fiat => return .ok .cryptoSale
    | _, _ => return .error unknown

/-- The kind of settlement that rows form. -/
def consistencyBy (entries : List JournalEntry) :
    Except SumOverflow (Except ConsistencyError SettlementKind) :=
  match legs entries with
  | .error e => return .error e
  | .ok (debit, credit) => shapeBy plus debit credit

/-- Whether the rows form a settlement of the declared kind. -/
def JournalBatch.checkBy (b : JournalBatch) :
    Except SumOverflow (Except ConsistencyError Unit) := do
  match ← consistencyBy plus b.entries with
  | .error e => return .error e
  | .ok found =>
    if found = b.kind then return .ok () else return .error (.kindMismatch b.kind found)

/-- A posting of a batch whose rows form the settlement it declares. -/
def Posting.ofBatchBy (batch : JournalBatch) :
    Except SumOverflow (Except LedgerError Posting) := do
  match ← batch.checkBy plus with
  | .error e => return .error (.inconsistent e.message)
  | .ok () =>
    let deltas ← batch.deltas
    return .ok { batch, deltas }

end Rules

/-! ### What is added -/

/-- The rules first tell the two rows apart and then look at their shape. -/
theorem checkConsistency_eq_legs (entries : List JournalEntry) :
    checkConsistency entries = match legs entries with
      | .error e => .error e
      | .ok (debit, credit) => shapeOf debit credit := by
  unfold checkConsistency legs
  rcases entries with _ | ⟨a, _ | ⟨b, _ | ⟨c, rest⟩⟩⟩
  · rfl
  · rfl
  · dsimp only
    split
    · rfl
    · split
      · rfl
      · split
        · rfl
        · split
          · rfl
          · cases a.isDebit <;> cases b.isDebit <;> rfl
  · rfl

theorem inRange_of_legs {entries : List JournalEntry} {debit credit : JournalEntry}
    (h : legs entries = .ok (debit, credit)) :
    debit.amount.inRange = true ∧ credit.amount.inRange = true := by
  unfold legs at h
  split at h
  · rename_i a b
    split at h
    · cases h
    · split at h
      · cases h
      · split at h
        · cases h
        · rename_i rangeA
          split at h
          · cases h
          · rename_i rangeB
            rw [Bool.not_eq_true', Bool.not_eq_false] at rangeA rangeB
            split at h
            · cases h
              exact ⟨rangeA, rangeB⟩
            · cases h
              exact ⟨rangeB, rangeA⟩
            · cases h
  · cases h

variable {plus plus' : Adding}

/-- The two rows are all that is added. -/
theorem shapeBy_congr {debit credit : JournalEntry}
    (same : plus debit.amount credit.amount = plus' debit.amount credit.amount) :
    shapeBy plus debit credit = shapeBy plus' debit credit := by
  simp only [shapeBy, same]

/-- When the two rows have a sum, the kind is the one that the ledger finds. -/
theorem shapeBy_eq {debit credit : JournalEntry}
    (sum : plus debit.amount credit.amount = .ok (sumOf debit.amount credit.amount)) :
    shapeBy plus debit credit = .ok (shapeOf debit credit) := by
  unfold shapeBy shapeOf
  rw [sum]
  split
  · rfl
  · split
    · split
      · rfl
      · dsimp only [bind, Except.bind]
        split <;> rfl
    · split
      · rfl
      · cases debit.currency.assetClass <;> cases credit.currency.assetClass <;> rfl

/-- Amounts are only added when they are in range. -/
theorem consistencyBy_congr (same : plus.AgreesInRange plus') (entries : List JournalEntry) :
    consistencyBy plus entries = consistencyBy plus' entries := by
  unfold consistencyBy
  split
  · rfl
  · rename_i found
    obtain ⟨debit, credit⟩ := inRange_of_legs found
    exact shapeBy_congr (same _ _ debit credit)

theorem consistencyBy_plus (entries : List JournalEntry) :
    consistencyBy Decimal.plus entries = .ok (checkConsistency entries) := by
  rw [consistencyBy, checkConsistency_eq_legs]
  split
  · rfl
  · rename_i found
    obtain ⟨debit, credit⟩ := inRange_of_legs found
    exact shapeBy_eq (Decimal.plus_eq debit credit)

namespace JournalBatch

/-- A check adds no amount that it has not found to be in range. -/
theorem checkBy_congr (same : plus.AgreesInRange plus') (b : JournalBatch) :
    b.checkBy plus = b.checkBy plus' := by
  rw [checkBy, consistencyBy_congr same, checkBy]

/-- No sum breaks off a check. -/
theorem checkBy_plus (b : JournalBatch) : b.checkBy Decimal.plus = .ok b.check := by
  rw [checkBy, consistencyBy_plus, check]
  cases checkConsistency b.entries with
  | error e => rfl
  | ok found =>
    dsimp only [bind, Except.bind]
    split <;> rfl

/-- No sum breaks off the net changes of a batch that has passed its check. -/
theorem exists_deltas {b : JournalBatch} (h : b.check = .ok ()) :
    ∃ totals, b.deltas = .ok totals := by
  obtain ⟨r, s, rows, different, -, -⟩ := exists_rows h
  exact ⟨_, deltas_rows rows fun same => different (congrArg AccountKey.currency same).symm⟩

end JournalBatch

/-- No sum breaks off a posting before it begins. -/
theorem Posting.ofBatchBy_plus (batch : JournalBatch) :
    ofBatchBy Decimal.plus batch = .ok (ofBatch batch) := by
  rw [ofBatchBy, JournalBatch.checkBy_plus, ofBatch]
  cases check : batch.check with
  | error e => rfl
  | ok _ =>
    obtain ⟨totals, deltas⟩ := JournalBatch.exists_deltas check
    simp only [deltas]
    rfl

end Bureau
