import Bureau.Market.RateTable
import Bureau.Proofs.Decimal.Product

/-!
# What a quote credits

The product of amount and rate is rounded to a decimal first, and only then cut off at the places of
the destination. Cutting off loses, but rounding may have gained: when it reaches the next unit, the
credit is one unit more than the exact product has (`Quote.amount_of_price`). Neither step depends
on how the operands are written, and neither changes an order (`Quote.price_mono`).
-/

namespace Bureau

namespace Quote

open Decimal

variable {now now' : Instant} {pair : CurrencyPair} {rate amount : Decimal}

theorem price_eq_ok_iff {q : Quote} :
    price now pair rate amount = .ok q ↔
      ∃ converted, convert? pair rate amount = some converted ∧
        q = ⟨pair, rate, amount, converted, now⟩ := by
  unfold price
  cases convert? pair rate amount <;> simp [eq_comm]

theorem value_of_convert? {converted : Decimal} (h : convert? pair rate amount = some converted) :
    |amount.value * rate.value| < mantissaLimit ∧
      converted.value = cutOff pair.quote.places (nearest (amount.value * rate.value)) ∧
      |converted.value| ≤ maxAmount.value := by
  obtain ⟨made, range⟩ := Option.filter_eq_some_iff.1 h
  obtain ⟨product, formed, rfl⟩ := Option.map_eq_some_iff.1 made
  obtain ⟨small, value⟩ := value_of_mul? formed
  exact ⟨small, by rw [truncateToScale, value_truncate, value],
    (inRange_iff_abs_value_le _).1 range⟩

theorem exists_convert? (pair : CurrencyPair) (rate amount : Decimal)
    (small : |amount.value * rate.value| < mantissaLimit)
    (range : |cutOff pair.quote.places (nearest (amount.value * rate.value))| ≤ maxAmount.value) :
    ∃ converted, convert? pair rate amount = some converted ∧
      converted.value = cutOff pair.quote.places (nearest (amount.value * rate.value)) := by
  obtain ⟨product, formed, value⟩ := exists_mul?_value small
  have cut : (truncateToScale product pair.quote).value =
      cutOff pair.quote.places (nearest (amount.value * rate.value)) := by
    rw [truncateToScale, value_truncate, value]
  refine ⟨truncateToScale product pair.quote, ?_, cut⟩
  rw [convert?, formed]
  exact Option.filter_eq_some_iff.2 ⟨rfl, (inRange_iff_abs_value_le _).2 (cut ▸ range)⟩

/-! ### Exact products -/

/-- A product whose price is in range is in range itself, but for the digits that are cut off. -/
theorem abs_mul_le_of_convert? {converted : Decimal}
    (h : convert? pair rate amount = some converted) : |amount.value * rate.value| ≤ 10 ^ 20 := by
  obtain ⟨-, value, range⟩ := value_of_convert? h
  rw [value, abs_cutOff, ← abs_nearest, value_maxAmount] at range
  by_contra large
  have large := (not_le.1 large).le
  have whole :
      (10 : ℚ) ^ 20 = (10 ^ 20 * 10 ^ pair.quote.places : Int) / 10 ^ pair.quote.places := by
    rw [eq_div_iff (by positivity)]
    push_cast
    rfl
  have exact : nearest ((10 : ℚ) ^ 20) = 10 ^ 20 :=
    nearest_of_exact (10 ^ 20) (Nat.zero_le _) (by decide) (by norm_num)
  have := cutOff_le_cutOff pair.quote.places (nearest_nonneg (by positivity))
    (nearest_le_nearest (by positivity) large)
  rw [exact, cutOff_of_exact whole] at this
  linarith

/-- A credit exceeds the exact product by no more than rounding does. -/
theorem abs_value_le_of_convert? {converted : Decimal}
    (h : convert? pair rate amount = some converted) :
    |converted.value| ≤ |amount.value * rate.value| +
      max (1 / 2) |amount.value * rate.value| / 10 ^ 28 := by
  obtain ⟨-, value, -⟩ := value_of_convert? h
  generalize amount.value * rate.value = exact at value ⊢
  calc |converted.value| = cutOff pair.quote.places |nearest exact| := by rw [value, abs_cutOff]
    _ ≤ |nearest exact| := cutOff_le _ (abs_nonneg _)
    _ ≤ |exact| + |nearest exact - exact| := by
        have := abs_add_le exact (nearest exact - exact)
        rwa [add_sub_cancel] at this
    _ ≤ |exact| + max (1 / 2) |exact| / 10 ^ 28 := add_le_add_right (abs_nearest_sub_le exact) _

theorem value_le_of_convert? {converted : Decimal}
    (h : convert? pair rate amount = some converted) (nonneg : 0 ≤ amount.value * rate.value) :
    converted.value ≤ amount.value * rate.value +
      max (1 / 2) (amount.value * rate.value) / 10 ^ 28 := by
  have credit := abs_value_le_of_convert? h
  rw [abs_of_nonneg nonneg] at credit
  exact (le_abs_self _).trans credit

/-- A product that a mantissa and 28 places have room for is not rounded. -/
theorem nearest_mul {a b : Decimal} (places : a.scale + b.scale ≤ 28)
    (digits : a.mantissa * b.mantissa < 2 ^ 96) :
    nearest (a.value * b.value) = a.value * b.value := by
  rw [value_mul, nearest_sign_mul]
  congr 1
  refine nearest_of_exact (a.mantissa * b.mantissa : Nat) places ?_ (by norm_num)
  rw [Nat.abs_cast]
  exact_mod_cast digits

/-- A quote credits the decimal nearest to the exact product, cut off. That is the exact product cut
off, or one unit of the last place more where rounding reaches the next unit; it is never less.
Where the exact product needs no rounding, the quote truncates it. -/
theorem amount_of_price (now : Instant) (pair : CurrencyPair) (rate amount : Decimal) (q : Quote)
    (priced : price now pair rate amount = .ok q) :
    let exact := amount.value * rate.value
    let places := pair.quote.places
    q.amount.value = cutOff places (nearest exact) ∧
    |q.amount.value| ≤ |exact| + max (1 / 2) |exact| / 10 ^ 28 ∧
    (q.amount.value = cutOff places exact ∨
      |q.amount.value| = |cutOff places exact| + 1 / 10 ^ places) ∧
    (amount.scale + rate.scale ≤ 28 → amount.mantissa * rate.mantissa < 2 ^ 96 →
      q.amount.value = cutOff places exact) := by
  intro exact places
  obtain ⟨converted, made, rfl⟩ := price_eq_ok_iff.1 priced
  obtain ⟨-, value, -⟩ := value_of_convert? made
  refine ⟨value, abs_value_le_of_convert? made, ?_, fun few digits => ?_⟩
  · rw [value]
    exact cutOff_nearest pair.quote.places_le (abs_mul_le_of_convert? made)
  · rw [value, nearest_mul few digits]

/-- Half a dollar at two for one. -/
theorem amount_of_price_half :
    ∃ q, price ⟨0, 0⟩ ⟨.usd, .cad⟩ (.whole 2) (.hundredths 50) = .ok q ∧
      q.amount.value = cutOff 2 ((Decimal.hundredths 50).value * (Decimal.whole 2).value) := by
  obtain ⟨q, priced⟩ : ∃ q, price ⟨0, 0⟩ ⟨.usd, .cad⟩ (.whole 2) (.hundredths 50) = .ok q :=
    ⟨_, rfl⟩
  obtain ⟨-, -, -, exact⟩ := amount_of_price _ _ _ _ q priced
  exact ⟨q, priced, exact (by decide) (by decide)⟩

/-- A quote may credit more than the exact product: half a dollar at a rate just short of one is
rounded to half a dollar, and not cut off to the cent below. -/
theorem not_cutOff_of_price :
    let half : Decimal := ⟨false, 50, 2, by decide, by decide⟩
    let rate : Decimal := ⟨false, 9999999999999999999999999999, 28, by decide, by decide⟩
    ∃ q, price ⟨0, 0⟩ ⟨.usd, .cad⟩ rate half = .ok q ∧ q.amount.value = 50 / 100 ∧
      half.value * rate.value < 50 / 100 ∧ cutOff 2 (half.value * rate.value) = 49 / 100 := by
  intro half rate
  have product : half.value * rate.value = 1 / 2 - 1 / (2 * 10 ^ 28) := by
    norm_num [half, rate, Decimal.value]
  have converted : convert? ⟨.usd, .cad⟩ rate half = some half := by decide +kernel
  refine ⟨_, price_eq_ok_iff.2 ⟨half, converted, rfl⟩, ?_, ?_, ?_⟩
  · norm_num [half, Decimal.value]
  · rw [product]
    norm_num
  · have floor : ⌊(1 / 2 - 1 / (2 * 10 ^ 28) : ℚ) * 10 ^ 2⌋ = 49 := by
      rw [Int.floor_eq_iff]
      norm_num
    rw [product, cutOff_of_nonneg _ (by norm_num), floor]
    norm_num

/-! ### Order -/

/-- Where a larger amount has a price at a larger rate, a smaller amount has one at a smaller rate,
and is credited no more; and the same amount at the same rate is credited the same, however the
two are written. -/
theorem price_mono (now now' : Instant) (pair : CurrencyPair) (x y r s : Decimal) (q : Quote)
    (priced : price now pair s y = .ok q) :
    (0 ≤ x.value → x.value ≤ y.value → 0 ≤ r.value → r.value ≤ s.value →
      ∃ p, price now' pair r x = .ok p ∧ p.amount.value ≤ q.amount.value) ∧
    (x.value = y.value → r.value = s.value →
      ∃ p, price now' pair r x = .ok p ∧ p.amount.value = q.amount.value) := by
  obtain ⟨large, converted, rfl⟩ := price_eq_ok_iff.1 priced
  obtain ⟨small, value, range⟩ := value_of_convert? converted
  dsimp only
  constructor
  · intro hx hxy hr hrs
    have nonneg : 0 ≤ x.value * r.value := mul_nonneg hx hr
    have le : x.value * r.value ≤ y.value * s.value := mul_le_mul hxy hrs hr (hx.trans hxy)
    have credit : cutOff pair.quote.places (nearest (x.value * r.value)) ≤ large.value := by
      rw [value]
      exact cutOff_le_cutOff _ (nearest_nonneg nonneg) (nearest_le_nearest nonneg le)
    obtain ⟨less, made, same⟩ := exists_convert? pair r x
      (by rw [abs_of_nonneg nonneg]; exact le.trans_lt ((le_abs_self _).trans_lt small))
      (by
        rw [abs_of_nonneg (cutOff_nonneg _ (nearest_nonneg nonneg))]
        exact credit.trans ((le_abs_self _).trans range))
    exact ⟨_, price_eq_ok_iff.2 ⟨less, made, rfl⟩, same ▸ credit⟩
  · intro hxy hrs
    rw [← hxy, ← hrs] at small value
    obtain ⟨less, made, same⟩ := exists_convert? pair r x small (value ▸ range)
    exact ⟨_, price_eq_ok_iff.2 ⟨less, made, rfl⟩, same.trans value.symm⟩

/-- A dollar at two for one, and a dollar and a half at the same rate written with two places. -/
theorem price_mono_dollars :
    ∃ q p, price ⟨0, 0⟩ ⟨.usd, .cad⟩ (.hundredths 200) (.hundredths 150) = .ok q ∧
      price ⟨0, 0⟩ ⟨.usd, .cad⟩ (.whole 2) (.whole 1) = .ok p ∧
      p.amount.value ≤ q.amount.value := by
  obtain ⟨q, priced⟩ :
      ∃ q, price ⟨0, 0⟩ ⟨.usd, .cad⟩ (.hundredths 200) (.hundredths 150) = .ok q := ⟨_, rfl⟩
  obtain ⟨less, -⟩ := price_mono ⟨0, 0⟩ ⟨0, 0⟩ ⟨.usd, .cad⟩ (.whole 1) _ (.whole 2) _ q priced
  obtain ⟨p, cheaper, le⟩ := less (value_nonneg.2 (by decide)) (value_le_value.2 (by decide))
    (value_nonneg.2 (by decide)) (value_le_value.2 (by decide))
  exact ⟨q, p, priced, cheaper, le⟩

end Quote

end Bureau
