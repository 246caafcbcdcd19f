import Bureau.Proofs.Ledger.Overflow

/-!
# The four shapes of a settlement

Two rows are a settlement when one of them takes what the other gives (`JournalEntry.Opposes`) and
their clients and currencies are those of one of the four kinds (`SettlementKind.Moves`). Nothing
else passes the check of the ledger, and it does not matter which row comes first
(`checkConsistency_eq_ok_iff`). The ledger finds out whether a deposit is balanced from a sum that
may have been rounded; that is enough, because rounding never turns a sum into zero.
-/

namespace Bureau

namespace Currency

theorem isFiat_iff {c : Currency} : c.isFiat = true ↔ c.assetClass = .fiat := beq_iff_eq

theorem isCrypto_iff {c : Currency} : c.isCrypto = true ↔ c.assetClass = .crypto := beq_iff_eq

theorem assetClass_deposit : deposit.assetClass = .clearing := by decide +kernel

theorem isClearing_deposit : deposit.isClearing = true := beq_iff_eq.2 assetClass_deposit

theorem ne_deposit {c : Currency} (h : c.isClearing = false) : c ≠ deposit := by
  rintro rfl
  rw [isClearing_deposit] at h
  cases h

end Currency

/-- The debit row takes what the credit row gives, in one transaction and in amounts in range. -/
structure JournalEntry.Opposes (debit credit : JournalEntry) : Prop where
  together : debit.txId = credit.txId
  debited : debit.amount.value < 0
  credited : 0 < credit.amount.value
  debit_le : |debit.amount.value| ≤ maxAmount.value
  credit_le : |credit.amount.value| ≤ maxAmount.value

/-- What a settlement moves, by the clients and the currencies of its rows. Only a deposit has two
rows of one amount. -/
def SettlementKind.Moves (kind : SettlementKind) (debit credit : JournalEntry) : Prop :=
  match kind with
  | .externalDeposit => debit.currency = Currency.deposit ∧ credit.currency.isFiat = true ∧
      debit.amount.value + credit.amount.value = 0
  | .fiatExchange => debit.client = credit.client ∧ debit.currency.isFiat = true ∧
      credit.currency.isFiat = true ∧ debit.currency ≠ credit.currency
  | .cryptoPurchase => debit.client = credit.client ∧ debit.currency.isFiat = true ∧
      credit.currency.isCrypto = true
  | .cryptoSale => debit.client = credit.client ∧ debit.currency.isCrypto = true ∧
      credit.currency.isFiat = true

section Shapes

variable {entries : List JournalEntry} {debit credit a b : JournalEntry} {kind : SettlementKind}

/-! ### Debit and credit -/

theorem JournalEntry.isDebit_iff : a.isDebit = true ↔ a.amount.value < 0 :=
  Decimal.isNegative_iff_value _

/-- A row with an amount in range that is no debit is a credit. -/
theorem JournalEntry.opposes_iff : debit.Opposes credit ↔
    debit.txId = credit.txId ∧ debit.isDebit = true ∧ credit.isDebit = false ∧
      credit.amount.isZero = false ∧ debit.amount.inRange = true ∧
      credit.amount.inRange = true := by
  have positive : credit.isDebit = false ∧ credit.amount.isZero = false ↔
      0 < credit.amount.value := by
    rw [← Bool.not_eq_true, isDebit_iff, ← Bool.not_eq_true, Decimal.isZero_iff_value, not_lt]
    exact ⟨fun h => h.1.lt_of_ne' h.2, fun h => ⟨h.le, h.ne'⟩⟩
  rw [isDebit_iff, Decimal.inRange_iff_abs_value_le, Decimal.inRange_iff_abs_value_le]
  constructor
  · intro h
    obtain ⟨noDebit, nonzero⟩ := positive.2 h.credited
    exact ⟨h.together, h.debited, noDebit, nonzero, h.debit_le, h.credit_le⟩
  · rintro ⟨together, debited, noDebit, nonzero, debit_le, credit_le⟩
    exact ⟨together, debited, positive.1 ⟨noDebit, nonzero⟩, debit_le, credit_le⟩

theorem legs_pair_iff : legs [a, b] = .ok (debit, credit) ↔
    a.txId = b.txId ∧ a.amount.isZero = false ∧ b.amount.isZero = false ∧
      a.amount.inRange = true ∧ b.amount.inRange = true ∧
      (a.isDebit = true ∧ b.isDebit = false ∧ a = debit ∧ b = credit ∨
        a.isDebit = false ∧ b.isDebit = true ∧ b = debit ∧ a = credit) := by
  dsimp only [legs]
  split_ifs with mixed zero rangeA rangeB
  · simp [mixed]
  · rcases zero with zero | zero <;> simp [zero]
  · simp_all
  · simp_all
  · rw [not_not] at mixed
    rw [not_or, Bool.not_eq_true, Bool.not_eq_true] at zero
    rw [Bool.not_eq_true', Bool.not_eq_false] at rangeA rangeB
    cases a.isDebit <;> cases b.isDebit <;> simp [mixed, zero, rangeA, rangeB]

/-- The two rows are told apart by their signs, whichever comes first. -/
theorem legs_eq_ok_iff : legs entries = .ok (debit, credit) ↔
    (entries = [debit, credit] ∨ entries = [credit, debit]) ∧ debit.Opposes credit := by
  have nonzero (h : debit.isDebit = true) : debit.amount.isZero = false := by
    rw [← Bool.not_eq_true, Decimal.isZero_iff_value]
    exact (JournalEntry.isDebit_iff.1 h).ne
  constructor
  · intro h
    obtain ⟨a, b, rfl⟩ : ∃ a b, entries = [a, b] := by
      unfold legs at h
      split at h
      · exact ⟨_, _, rfl⟩
      · cases h
    obtain ⟨mixed, zeroA, zeroB, rangeA, rangeB, ⟨negA, posB, rfl, rfl⟩ | ⟨posA, negB, rfl, rfl⟩⟩ :=
      legs_pair_iff.1 h
    · exact ⟨.inl rfl, JournalEntry.opposes_iff.2 ⟨mixed, negA, posB, zeroB, rangeA, rangeB⟩⟩
    · exact ⟨.inr rfl, JournalEntry.opposes_iff.2 ⟨mixed.symm, negB, posA, zeroA, rangeB, rangeA⟩⟩
  · rintro ⟨rows, opposes⟩
    obtain ⟨together, negative, positive, zero, rangeD, rangeC⟩ :=
      JournalEntry.opposes_iff.1 opposes
    rcases rows with rfl | rfl
    · exact legs_pair_iff.2 ⟨together, nonzero negative, zero, rangeD, rangeC,
        .inl ⟨negative, positive, rfl, rfl⟩⟩
    · exact legs_pair_iff.2 ⟨together.symm, zero, nonzero negative, rangeC, rangeD,
        .inr ⟨positive, negative, rfl, rfl⟩⟩

/-! ### Clients and currencies -/

/-- The sum that a deposit is checked by is zero exactly when its rows are balanced. -/
theorem isZero_sumOf_iff (opposes : debit.Opposes credit) :
    (sumOf debit.amount credit.amount).isZero = true ↔
      debit.amount.value + credit.amount.value = 0 := by
  obtain ⟨sum, added⟩ := Decimal.exists_add?_of_inRange
    ((Decimal.inRange_iff_abs_value_le _).2 opposes.debit_le)
    ((Decimal.inRange_iff_abs_value_le _).2 opposes.credit_le)
  rw [sumOf, added, Option.getD_some]
  exact Decimal.isZero_of_add?_iff added

/-- The deposit account takes part in deposits only. -/
theorem SettlementKind.moves_iff_of_deposit (deposit : debit.currency = Currency.deposit) :
    kind.Moves debit credit ↔ kind = .externalDeposit ∧ credit.currency.isFiat = true ∧
      debit.amount.value + credit.amount.value = 0 := by
  cases kind <;>
    simp [Moves, Currency.isFiat_iff, Currency.isCrypto_iff, deposit, Currency.assetClass_deposit]

theorem SettlementKind.Moves.client_eq (moves : kind.Moves debit credit)
    (own : debit.currency ≠ Currency.deposit) : debit.client = credit.client := by
  cases kind with
  | externalDeposit => exact absurd moves.1 own
  | fiatExchange | cryptoPurchase | cryptoSale => exact moves.1

theorem SettlementKind.Moves.currency_ne (moves : kind.Moves debit credit) :
    debit.currency ≠ credit.currency := by
  intro same
  cases kind with
  | externalDeposit =>
    obtain ⟨deposit, fiat, -⟩ := moves
    rw [← same, deposit, Currency.isFiat_iff, Currency.assetClass_deposit] at fiat
    cases fiat
  | fiatExchange => exact moves.2.2.2 same
  | cryptoPurchase =>
    obtain ⟨-, fiat, crypto⟩ := moves
    rw [← same, Currency.isCrypto_iff, Currency.isFiat_iff.1 fiat] at crypto
    cases crypto
  | cryptoSale =>
    obtain ⟨-, crypto, fiat⟩ := moves
    rw [← same, Currency.isFiat_iff, Currency.isCrypto_iff.1 crypto] at fiat
    cases fiat

theorem shapeOf_eq_ok_iff (opposes : debit.Opposes credit) :
    shapeOf debit credit = .ok kind ↔ kind.Moves debit credit := by
  have balanced := isZero_sumOf_iff opposes
  dsimp only [shapeOf]
  split_ifs with same deposit foreign net other
  · exact iff_of_false (by simp) fun moves => moves.currency_ne same
  · rw [Bool.not_eq_true'] at foreign
    simp [SettlementKind.moves_iff_of_deposit deposit, foreign]
  · rw [Bool.not_eq_true', Bool.not_eq_false] at foreign
    rw [SettlementKind.moves_iff_of_deposit deposit, ← balanced]
    simp [foreign, net, eq_comm]
  · rw [SettlementKind.moves_iff_of_deposit deposit, ← balanced]
    simp [net]
  · exact iff_of_false (by simp) fun moves => other (moves.client_eq deposit)
  · -- What is left is decided by the classes of the two currencies.
    rw [not_not] at other
    simp only [SettlementKind.Moves, Currency.isFiat_iff, Currency.isCrypto_iff, other, deposit,
      false_and, true_and]
    generalize debit.currency.assetClass = from_
    generalize credit.currency.assetClass = to_
    cases kind <;> cases from_ <;> cases to_ <;> simp [same]

/-! ### What the ledger accepts -/

theorem checkConsistency_iff_moves (rows : entries = [debit, credit] ∨ entries = [credit, debit])
    (opposes : debit.Opposes credit) :
    checkConsistency entries = .ok kind ↔ kind.Moves debit credit := by
  rw [checkConsistency_eq_legs, legs_eq_ok_iff.2 ⟨rows, opposes⟩]
  exact shapeOf_eq_ok_iff opposes

/-- The rows pass the check as a settlement of a kind exactly when they are a debit and a credit, in
either order, that move what a settlement of this kind moves. -/
theorem checkConsistency_eq_ok_iff : checkConsistency entries = .ok kind ↔
    ∃ debit credit, (entries = [debit, credit] ∨ entries = [credit, debit]) ∧
      debit.Opposes credit ∧ kind.Moves debit credit := by
  constructor
  · intro h
    obtain ⟨debit, credit, found⟩ : ∃ debit credit, legs entries = .ok (debit, credit) := by
      rw [checkConsistency_eq_legs] at h
      split at h
      · cases h
      · exact ⟨_, _, ‹_›⟩
    obtain ⟨rows, opposes⟩ := legs_eq_ok_iff.1 found
    exact ⟨debit, credit, rows, opposes, (checkConsistency_iff_moves rows opposes).1 h⟩
  · rintro ⟨debit, credit, rows, opposes, moves⟩
    exact (checkConsistency_iff_moves rows opposes).2 moves

/-- The ledger accepts the four settlements and nothing else. It does not matter which row comes
first, and rows of one currency are never accepted. -/
theorem accepts_settlements (entries : List JournalEntry) (kind : SettlementKind) :
    (checkConsistency entries = .ok kind ↔
      ∃ debit credit, (entries = [debit, credit] ∨ entries = [credit, debit]) ∧
        debit.Opposes credit ∧ kind.Moves debit credit) ∧
    (checkConsistency entries.reverse = .ok kind ↔ checkConsistency entries = .ok kind) ∧
    ∀ a b : JournalEntry, a.currency = b.currency → checkConsistency [a, b] ≠ .ok kind := by
  refine ⟨checkConsistency_eq_ok_iff, ?_, fun a b same accepted => ?_⟩
  · rw [checkConsistency_eq_ok_iff, checkConsistency_eq_ok_iff]
    refine exists_congr fun debit => exists_congr fun credit => and_congr_left fun _ => ?_
    rw [List.reverse_eq_iff, List.reverse_eq_iff, or_comm]
    rfl
  · obtain ⟨debit, credit, rows, -, moves⟩ := checkConsistency_eq_ok_iff.1 accepted
    rcases rows with rows | rows <;> cases rows
    · exact moves.currency_ne same
    · exact moves.currency_ne same.symm

/-- Ten dollars for nine euros, and ten dollars for nine dollars. -/
theorem accepts_settlements_dollars :
    let paid : JournalEntry :=
      ⟨default, default, Currency.usd, (Decimal.hundredths 1000).neg, default⟩
    let euros : JournalEntry := ⟨default, default, Currency.eur, .hundredths 900, default⟩
    let dollars : JournalEntry := ⟨default, default, Currency.usd, .hundredths 900, default⟩
    checkConsistency [paid, euros] = .ok .fiatExchange ∧
      checkConsistency [euros, paid] = .ok .fiatExchange ∧
      checkConsistency [paid, dollars] ≠ .ok .fiatExchange := by
  intro paid euros dollars
  obtain ⟨-, swapped, never⟩ := accepts_settlements [paid, euros] .fiatExchange
  have accepted : checkConsistency [paid, euros] = .ok .fiatExchange := by decide +kernel
  exact ⟨accepted, swapped.2 accepted, never paid dollars rfl⟩

end Shapes

end Bureau
