import Bureau.Desk.Request
import Bureau.Offer.Basic
import Bureau.Proofs.Decimal.Value
import Bureau.Proofs.Ledger.Shapes

/-!
# Sound offers

A request is valid exactly when its amount may be debited and the ledger would take the conversion
that it asks for (`OfferRequest.validate_iff_check`); the table of rates then supports it, too
(`OfferRequest.supports_conversion`). An offer made from the market's quote for a valid request is
sound, and the conversion of a sound offer passes the check of the ledger under the kind that the
offer was made for (`Offer.Sound.ofBatch`).
-/

namespace Bureau

/-! ### Requests -/

namespace OfferRequest

/-- What is known of a request that is valid for a settlement. -/
structure Valid (r : OfferRequest) (kind : SettlementKind) : Prop where
  flags : SettlementKind.ofFlags? r.isPurchase r.isSale = some kind
  source : r.source.isClearing = false
  destination : r.destination.isClearing = false
  differ : r.source ≠ r.destination
  shape : shapeAllows kind r.source r.destination = true
  debit : (Money.mk r.amount r.source).validateDebit = .ok ()

variable {r : OfferRequest} {kind : SettlementKind}

theorem validate_eq_ok_iff : r.validate = .ok kind ↔ r.Valid kind := by
  constructor
  · intro h
    unfold validate at h
    split at h
    · cases h
    · rename_i flags
      split at h
      · cases h
      · rename_i holdable
        rw [not_or, Bool.not_eq_true, Bool.not_eq_true] at holdable
        split at h
        · cases h
        · rename_i differ
          split at h
          · cases h
          · rename_i shape
            split at h
            · cases h
            · rename_i debit
              cases h
              exact ⟨flags, holdable.1, holdable.2, differ, by simpa using shape, debit⟩
  · rintro ⟨flags, source, destination, differ, shape, debit⟩
    simp [validate, flags, source, destination, differ, shape, debit]

theorem valid_of_validate (h : r.validate = .ok kind) : r.Valid kind := validate_eq_ok_iff.1 h

/-- No settlement moves to or from a clearing currency. -/
theorem isClearing_of_shapeAllows {source destination : Currency}
    (allowed : shapeAllows kind source destination = true) :
    source.isClearing = false ∧ destination.isClearing = false := by
  cases kind <;>
    simp_all [shapeAllows, Currency.isFiat_iff, Currency.isCrypto_iff, Currency.isClearing]

/-- The currencies that a request may name are those that the ledger lets a conversion move
between. -/
theorem moves_iff_shapeAllows {debit credit : JournalEntry} (own : debit.client = credit.client)
    (conversion : kind ≠ .externalDeposit) : kind.Moves debit credit ↔
      debit.currency ≠ credit.currency ∧
        shapeAllows kind debit.currency credit.currency = true := by
  refine ⟨fun moves => ⟨moves.currency_ne, ?_⟩, fun ⟨differ, allowed⟩ => ?_⟩
  · cases kind with
    | externalDeposit => exact absurd rfl conversion
    | fiatExchange =>
      obtain ⟨-, source, destination, -⟩ := moves
      exact Bool.and_eq_true_iff.2 ⟨source, destination⟩
    | cryptoPurchase | cryptoSale => exact Bool.and_eq_true_iff.2 moves.2
  · cases kind with
    | externalDeposit => exact absurd rfl conversion
    | fiatExchange =>
      obtain ⟨source, destination⟩ := Bool.and_eq_true_iff.1 allowed
      exact ⟨own, source, destination, differ⟩
    | cryptoPurchase | cryptoSale => exact ⟨own, Bool.and_eq_true_iff.1 allowed⟩

/-- The table of rates supports the same currencies for the conversion that it is asked for. -/
theorem supports_conversion (flags : SettlementKind.ofFlags? r.isPurchase r.isSale = some kind)
    (pair : CurrencyPair) :
    (r.conversion kind).supports pair = shapeAllows kind pair.base pair.quote := by
  unfold conversion
  cases purchase : r.isPurchase <;> cases sale : r.isSale <;> rw [purchase, sale] at flags <;>
    cases flags <;> rfl

end OfferRequest

/-- The conversion of two amounts in range passes the check of the ledger exactly when a request
may name its currencies. -/
theorem JournalBatch.check_conversion_iff {kind : SettlementKind}
    (conversion : kind ≠ .externalDeposit) {debit credit : Money}
    (debited : 0 < debit.value.value ∧ debit.value.value ≤ maxAmount.value)
    (credited : 0 < credit.value.value ∧ credit.value.value ≤ maxAmount.value)
    (txId : TxId) (now : Instant) (client : ClientId) :
    (JournalBatch.conversion txId now kind client debit credit).check = .ok () ↔
      debit.currency ≠ credit.currency ∧
        OfferRequest.shapeAllows kind debit.currency credit.currency = true := by
  let taken : JournalEntry := ⟨txId, client, debit.currency, debit.value.neg, now.toMicros⟩
  let given : JournalEntry := ⟨txId, client, credit.currency, credit.value, now.toMicros⟩
  have opposes : taken.Opposes given := {
    together := rfl
    debited := by simpa [taken] using debited.1
    credited := credited.1
    debit_le := by simpa [taken, abs_of_pos debited.1] using debited.2
    credit_le := by simpa [given, abs_of_pos credited.1] using credited.2 }
  rw [check_eq_ok_iff, JournalBatch.conversion, checkConsistency_iff_moves (.inl rfl) opposes]
  exact OfferRequest.moves_iff_shapeAllows rfl conversion

/-- No request asks for a deposit. -/
theorem SettlementKind.ne_externalDeposit_of_ofFlags? {kind : SettlementKind}
    {isPurchase isSale : Bool} (flags : ofFlags? isPurchase isSale = some kind) :
    kind ≠ .externalDeposit := by
  rintro rfl
  cases isPurchase <;> cases isSale <;> cases flags

/-- A request for an amount that may be debited is valid exactly when its conversion, at whatever
price, passes the check of the ledger. -/
theorem OfferRequest.validate_iff_check {r : OfferRequest} {kind : SettlementKind}
    {credit : Decimal} (debit : (Money.mk r.amount r.source).validateDebit = .ok ())
    (credited : 0 < credit.value ∧ credit.value ≤ maxAmount.value) (txId : TxId) (now : Instant) :
    r.validate = .ok kind ↔ SettlementKind.ofFlags? r.isPurchase r.isSale = some kind ∧
      (JournalBatch.conversion txId now kind r.client ⟨r.amount, r.source⟩
        ⟨credit, r.destination⟩).check = .ok () := by
  let given : Money := ⟨credit, r.destination⟩
  have credited : 0 < given.value.value ∧ given.value.value ≤ maxAmount.value := credited
  have check (flags : SettlementKind.ofFlags? r.isPurchase r.isSale = some kind) :=
    JournalBatch.check_conversion_iff (SettlementKind.ne_externalDeposit_of_ofFlags? flags)
      (Money.validateDebit_eq_ok_iff.1 debit).2 credited txId now r.client
  rw [validate_eq_ok_iff]
  constructor
  · intro valid
    exact ⟨valid.flags, (check valid.flags).2 ⟨valid.differ, valid.shape⟩⟩
  · rintro ⟨flags, checked⟩
    obtain ⟨differ, shape⟩ := (check flags).1 checked
    obtain ⟨source, destination⟩ := isClearing_of_shapeAllows shape
    exact ⟨flags, source, destination, differ, shape, debit⟩

/-! ### Offers -/

namespace Offer

/-- What holds of every offer that the desk makes from the market's own quotes. -/
structure Sound (o : Offer) : Prop where
  source : o.source.isClearing = false
  destination : o.destination.isClearing = false
  differ : o.source ≠ o.destination
  kind : ∃ kind, o.kind? = some kind ∧
    OfferRequest.shapeAllows kind o.source o.destination = true
  debit : o.debit.IsExact
  credit : o.credit.IsExact
  debited : o.debitAmount.isPositive = true ∧ o.debitAmount.inRange = true
  credited : o.creditAmount.isPositive = true ∧ o.creditAmount.inRange = true

variable {o : Offer} {kind : SettlementKind}

theorem Sound.shapeAllows (h : o.Sound) (hkind : o.kind? = some kind) :
    OfferRequest.shapeAllows kind o.source o.destination = true := by
  obtain ⟨kind', found, allowed⟩ := h.kind
  obtain rfl := Option.some.inj (found.symm.trans hkind)
  exact allowed

/-- The rows of a sound offer form a settlement of the kind that it was made for. -/
theorem Sound.check (h : o.Sound) (hkind : o.kind? = some kind) (txId : TxId) (now : Instant)
    (client : ClientId) :
    (JournalBatch.conversion txId now kind client o.debit o.credit).check = .ok () := by
  have allowed := h.shapeAllows hkind
  have conversion : kind ≠ .externalDeposit := by
    rintro rfl
    cases allowed
  have bounds {x : Decimal} (amount : x.isPositive = true ∧ x.inRange = true) :
      0 < x.value ∧ x.value ≤ maxAmount.value :=
    ⟨(Decimal.isPositive_iff_value _).1 amount.1,
      (le_abs_self _).trans ((Decimal.inRange_iff_abs_value_le _).1 amount.2)⟩
  exact (JournalBatch.check_conversion_iff conversion (bounds h.debited) (bounds h.credited) txId
    now client).2 ⟨h.differ, allowed⟩

/-- The rows of a sound offer are exact. -/
theorem Sound.places (h : o.Sound) {txId : TxId} {now : Instant} {client : ClientId} :
    ∀ e ∈ (JournalBatch.conversion txId now kind client o.debit o.credit).entries,
      e.amount.HasPlaces e.currency.places := by
  simp only [JournalBatch.conversion, List.mem_cons, List.not_mem_nil, or_false]
  rintro e (rfl | rfl)
  · exact Decimal.HasPlaces.neg h.debit
  · exact h.credit

/-- The conversion of a sound offer is taken up by the ledger; it moves the two amounts. -/
theorem Sound.ofBatch (h : o.Sound) (hkind : o.kind? = some kind) (txId : TxId) (now : Instant)
    (client : ClientId) :
    let batch := JournalBatch.conversion txId now kind client o.debit o.credit
    Posting.ofBatch batch = .ok
      { batch
        deltas := [(⟨client, o.source⟩, o.debitAmount.neg),
          (⟨client, o.destination⟩, o.creditAmount)] } := by
  intro batch
  have different : (⟨client, o.destination⟩ : AccountKey) ≠ ⟨client, o.source⟩ := fun same =>
    h.differ (congrArg AccountKey.currency same).symm
  have deltas := JournalBatch.deltas_rows (b := batch) rfl different
  simp only [Posting.ofBatch, h.check hkind txId now client, batch, deltas]
  rfl

end Offer

end Bureau
