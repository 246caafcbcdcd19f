import Bureau.Proofs.Decimal.Product

/-!
# Truncated amounts and debits

Truncating an amount to the places of its currency takes it to the nearest multiple of the smallest
unit toward zero, whatever its size and however many places it is written with
(`Decimal.isTruncation_truncate`). So an amount is at scale exactly when its value is such a
multiple, and whether it may be debited depends on its value only (`Money.truncates_exactly`).
-/

namespace Bureau

namespace Decimal

/-- The decimal is the multiple of a unit of so many places that is nearest to another one toward
zero, and it is written with no more places than these and than the other one has. -/
structure IsTruncation (t d : Decimal) (places : Nat) : Prop where
  units : ∃ n : Int, t.value = n / 10 ^ places
  le : |t.value| ≤ |d.value|
  close : |d.value| - |t.value| < 1 / 10 ^ places
  sign : 0 ≤ t.value * d.value
  negative : t.negative = true → d.negative = true
  scale : t.scale = min d.scale places

theorem truncate_of_scale_le {d : Decimal} {places : Nat} (h : d.scale ≤ places) :
    d.truncate places = d := dif_pos h

theorem truncate_truncate (d : Decimal) (places : Nat) :
    (d.truncate places).truncate places = d.truncate places :=
  truncate_of_scale_le (by simp)

theorem negative_of_truncate {d : Decimal} {places : Nat}
    (h : (d.truncate places).negative = true) : d.negative = true := by
  rw [truncate] at h
  split at h
  · exact h
  · exact (Bool.and_eq_true_iff.1 h).1

theorem truncate_value_mul_nonneg (d : Decimal) (places : Nat) :
    0 ≤ (d.truncate places).value * d.value := by
  rw [value_truncate]
  rcases le_total 0 d.value with nonneg | neg
  · exact mul_nonneg (cutOff_nonneg places nonneg) nonneg
  · have opposite := cutOff_nonneg places (neg_nonneg.2 neg)
    rw [cutOff_neg] at opposite
    exact mul_nonneg_of_nonpos_of_nonpos (neg_nonneg.1 opposite) neg

theorem isTruncation_truncate (d : Decimal) {places : Nat} (le : places ≤ maxScale) :
    (d.truncate places).IsTruncation d places where
  units := (hasPlaces_truncate d places).exists_value le
  le := by
    rw [value_truncate]
    exact abs_cutOff_le places d.value
  close := by
    rw [value_truncate]
    linarith [abs_lt_abs_cutOff_add places d.value]
  sign := truncate_value_mul_nonneg d places
  negative := negative_of_truncate
  scale := scale_truncate d places

theorem value_truncate_mono {d e : Decimal} (places : Nat) (h : d.value ≤ e.value) :
    (d.truncate places).value ≤ (e.truncate places).value := by
  rw [value_truncate, value_truncate]
  exact cutOff_mono places h

end Decimal

namespace Money

/-- The digits past the places of the currency may be zeros. -/
theorem isAtScale_iff (m : Money) :
    m.isAtScale = true ↔ ∃ n : Int, m.value.value = n / 10 ^ m.currency.places := by
  have places : m.currency.places ≤ Decimal.maxScale := m.currency.places_le.trans (by decide)
  refine ⟨fun h => (isExact_of_isAtScale h).exists_value places, fun ⟨n, units⟩ => ?_⟩
  have same : m.value.value = (truncateToScale m.value m.currency).value := by
    rw [truncateToScale, Decimal.value_truncate, Decimal.cutOff_of_exact units]
  rw [isAtScale, Decimal.sameValue, beq_iff_eq]
  exact le_antisymm (Decimal.value_le_value.1 same.le) (Decimal.value_le_value.1 same.ge)

/-- How the amount is written does not matter. -/
theorem validateDebit_iff_units (m : Money) : m.validateDebit = .ok () ↔
    (∃ n : Int, m.value.value = n / 10 ^ m.currency.places) ∧
      0 < m.value.value ∧ m.value.value ≤ maxAmount.value := by
  rw [validateDebit_eq_ok_iff, isAtScale_iff]

/-- What is truncated to a currency is the multiple of the smallest unit nearest to it toward zero,
truncating it again changes nothing, and a larger amount is truncated to no less. Exactly the
multiples of the smallest unit that are greater than zero and no larger than the largest amount may
be debited, and so equal amounts alike. -/
theorem truncates_exactly (currency : Currency) (d e : Decimal) :
    (truncateToScale d currency).IsTruncation d currency.places ∧
    truncateToScale (truncateToScale d currency) currency = truncateToScale d currency ∧
    (d.value ≤ e.value →
      (truncateToScale d currency).value ≤ (truncateToScale e currency).value) ∧
    ((Money.mk d currency).validateDebit = .ok () ↔
      (∃ n : Int, d.value = n / 10 ^ currency.places) ∧
        0 < d.value ∧ d.value ≤ maxAmount.value) ∧
    (d.value = e.value →
      ((Money.mk d currency).validateDebit = .ok () ↔
        (Money.mk e currency).validateDebit = .ok ())) := by
  have places : currency.places ≤ Decimal.maxScale := currency.places_le.trans (by decide)
  refine ⟨d.isTruncation_truncate places, d.truncate_truncate _, Decimal.value_truncate_mono _,
    validateDebit_iff_units ⟨d, currency⟩, fun same => ?_⟩
  rw [validateDebit_iff_units, validateDebit_iff_units, same]

/-- A debt of 28 places is truncated to no more than a dollar is, and a dollar may be debited with
28 places as with two. -/
theorem truncates_exactly_dollars :
    let debt : Decimal := ⟨true, 79228162514264337593543950335, 28, by decide, by decide⟩
    let dollar : Decimal := ⟨false, 10000000000000000000000000000, 28, by decide, by decide⟩
    (truncateToScale debt .usd).value ≤ (truncateToScale dollar .usd).value ∧
      (Money.mk dollar .usd).validateDebit = .ok () ∧
      (Money.mk (.hundredths 100) .usd).validateDebit = .ok () := by
  intro debt dollar
  have owed : debt.value ≤ 0 := by norm_num [debt, Decimal.value]
  have one : dollar.value = 1 := by norm_num [dollar, Decimal.value]
  have same : dollar.value = (Decimal.hundredths 100).value :=
    le_antisymm (Decimal.value_le_value.2 (by decide)) (Decimal.value_le_value.2 (by decide))
  have two : Currency.usd.places = 2 := by decide
  obtain ⟨-, -, order, -⟩ := truncates_exactly .usd debt dollar
  obtain ⟨-, -, -, debit, alike⟩ := truncates_exactly .usd dollar (.hundredths 100)
  have accepted : (Money.mk dollar .usd).validateDebit = .ok () := by
    refine debit.2 ⟨⟨100, ?_⟩, ?_, ?_⟩
    · rw [one, two]
      norm_num
    · norm_num [one]
    · norm_num [one, value_maxAmount]
  exact ⟨order (owed.trans (by norm_num [one])), accepted, (alike same).1 accepted⟩

end Money

end Bureau
