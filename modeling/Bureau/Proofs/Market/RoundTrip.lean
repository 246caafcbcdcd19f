import Bureau.Market.RateTable
import Bureau.Proofs.Market.Quote
import Bureau.Proofs.Money

/-!
# There and back

The table serves one direction of a pair by the rate that it keeps and the other one by the
reciprocal, rounded to 28 places. Amount and return are multiples of one unit, so a return is a gain
only if it exceeds the amount by a whole unit (`le_of_lt_add_unit`). Rounding the reciprocal alone
does that for huge rates only, of which the reciprocal has few digits left; the bounds in
`RateTable.round_trip` say how huge.
-/

namespace Bureau

open Decimal

/-! ### Units -/

namespace Decimal

/-- A number and its rounded reciprocal are about one. -/
theorem mul_nearest_inv_le {r : ℚ} (pos : 0 < r) :
    r * nearest r⁻¹ ≤ 1 + max (r / 2) 1 / 10 ^ 28 := by
  have error := (abs_le.1 (abs_nearest_sub_le r⁻¹)).2
  rw [abs_of_pos (inv_pos.2 pos)] at error
  have scaled : r * max (1 / 2) r⁻¹ = max (r / 2) 1 := by
    rw [mul_max_of_nonneg _ _ pos.le, mul_inv_cancel₀ pos.ne', mul_one_div]
  calc r * nearest r⁻¹ ≤ r * (r⁻¹ + max (1 / 2) r⁻¹ / 10 ^ 28) :=
        mul_le_mul_of_nonneg_left (by linarith) pos.le
    _ = 1 + max (r / 2) 1 / 10 ^ 28 := by
        rw [mul_add, mul_inv_cancel₀ pos.ne', ← mul_div_assoc, scaled]

/-- Multiples of a unit differ by a unit at least. -/
theorem le_of_lt_add_unit {places : Nat} {n m : Int}
    (h : (n : ℚ) / 10 ^ places < m / 10 ^ places + 1 / 10 ^ places) :
    (n : ℚ) / 10 ^ places ≤ m / 10 ^ places := by
  have pos : (0 : ℚ) < 10 ^ places := by positivity
  rw [← add_div, div_lt_div_iff_of_pos_right pos] at h
  rw [div_le_div_iff_of_pos_right pos]
  have : n < m + 1 := by exact_mod_cast h
  exact_mod_cast Int.lt_add_one_iff.1 this

section Return

variable {places : Nat} {x y z a b r : ℚ}

theorem mul_mul_nearest_inv_le (nonneg : 0 ≤ x) (pos : 0 < r) :
    x * (r * nearest r⁻¹) ≤ x + max (x * r / 2) x / 10 ^ 28 := by
  calc x * (r * nearest r⁻¹) ≤ x * (1 + max (r / 2) 1 / 10 ^ 28) :=
        mul_le_mul_of_nonneg_left (mul_nearest_inv_le pos) nonneg
    _ = x + max (x * r / 2) x / 10 ^ 28 := by
        rw [mul_add, mul_one, ← mul_div_assoc, mul_max_of_nonneg _ _ nonneg, mul_one, mul_div_assoc]

/-- The reciprocal alone gains less than a unit, unless the rate is huge. -/
theorem mul_mul_nearest_inv_lt (few : places ≤ 8) (nonneg : 0 ≤ x) (pos : 0 < r)
    (bounded : x < 10 ^ 20) (small : x * r < 2 * 10 ^ (28 - places)) :
    x * (r * nearest r⁻¹) < x + 1 / 10 ^ places := by
  have grains : (10 : ℚ) ^ (28 - places) * 10 ^ places = 10 ^ 28 := by
    rw [← pow_add, Nat.sub_add_cancel (by omega)]
  have many : (10 : ℚ) ^ 20 ≤ 10 ^ (28 - places) := pow_le_pow_right₀ (by norm_num) (by omega)
  have slack : max (x * r / 2) x / 10 ^ 28 < 1 / 10 ^ places := by
    rw [div_lt_div_iff₀ (by positivity) (by positivity), one_mul, ← grains]
    refine mul_lt_mul_of_pos_right (max_lt ?_ ?_) (by positivity) <;> linarith
  linarith [mul_mul_nearest_inv_le nonneg pos]

/-- Both products rounded as well, the gain is still less than a unit as long as the amount, what it
is worth at the rate kept and the rate back are not huge. -/
theorem lt_add_unit_of_rounded (few : places ≤ 8) (nonneg : 0 ≤ x) (pos : 0 < r) (rate : 0 ≤ b)
    (rates : a * b = r * nearest r⁻¹)
    (outward : y ≤ x * a + max (1 / 2) (x * a) / 10 ^ 28)
    (homeward : z ≤ y * b + max (1 / 2) (y * b) / 10 ^ 28)
    (amount : x ≤ 10 ^ (27 - places)) (worth : x * r ≤ 10 ^ (27 - places))
    (back : b ≤ 10 ^ (27 - places)) : z < x + 1 / 10 ^ places := by
  have unit : (10 : ℚ) ^ (27 - places) / 10 ^ 28 = 1 / 10 ^ places / 10 := by
    have grains : (10 : ℚ) ^ (27 - places) * 10 ^ places * 10 = 10 ^ 28 := by
      rw [← pow_add, Nat.sub_add_cancel (by omega), ← pow_succ]
    rw [← grains]
    field_simp
  have many : (10 : ℚ) ^ 19 ≤ 10 ^ (27 - places) := pow_le_pow_right₀ (by norm_num) (by omega)
  have le_one : (1 : ℚ) / 10 ^ places ≤ 1 :=
    div_le_one_of_le₀ (one_le_pow₀ (by norm_num)) (by positivity)
  have unit_pos : (0 : ℚ) < 1 / 10 ^ places := by positivity
  generalize (10 : ℚ) ^ (27 - places) = huge at *
  generalize (1 : ℚ) / 10 ^ places = u at *
  -- A tenth of a unit for the reciprocal, and two tenths for each product.
  have slack {e : ℚ} (h : e ≤ 2 * huge) : e / 10 ^ 28 ≤ u / 5 := by
    have := div_le_div_of_nonneg_right h (by positivity : (0 : ℚ) ≤ 10 ^ 28)
    rw [mul_div_assoc, unit] at this
    linarith
  have first : x * (a * b) ≤ x + u / 10 := by
    have larger : max (x * r / 2) x ≤ huge := max_le (by linarith [mul_nonneg nonneg pos.le]) amount
    have := div_le_div_of_nonneg_right larger (by positivity : (0 : ℚ) ≤ 10 ^ 28)
    rw [rates]
    linarith [mul_mul_nearest_inv_le nonneg pos]
  have second : y * b ≤ x * (a * b) + u / 5 := by
    have scaled : b * max (1 / 2) (x * a) = max (b / 2) (x * (a * b)) := by
      rw [mul_max_of_nonneg _ _ rate, mul_one_div]
      congr 1
      ring
    calc y * b ≤ (x * a + max (1 / 2) (x * a) / 10 ^ 28) * b :=
          mul_le_mul_of_nonneg_right outward rate
      _ = x * (a * b) + max (b / 2) (x * (a * b)) / 10 ^ 28 := by
          rw [← scaled]
          ring
      _ ≤ x * (a * b) + u / 5 :=
          add_le_add_right (slack (max_le (by linarith) (by linarith))) _
  have third : z ≤ y * b + u / 5 :=
    homeward.trans (add_le_add_right (slack (max_le (by linarith) (by linarith))) _)
  linarith

end Return

end Decimal

namespace Money

/-- Amounts that may be debited are decimals of few places, below the bound of their range. -/
theorem units_of_validateDebit {m : Money} (valid : m.validateDebit = .ok ()) :
    (∃ n : Int, m.value.value = n / 10 ^ m.currency.places) ∧ 0 < m.value.value ∧
      m.value.value < 10 ^ 20 := by
  obtain ⟨units, positive, small⟩ := (validateDebit_iff_units m).1 valid
  rw [value_maxAmount] at small
  exact ⟨units, positive, by linarith⟩

end Money

/-! ### Rates -/

namespace RateTable

variable {t : RateTable} {now : Instant} {pair : CurrencyPair} {amount rate stored : Decimal}
  {q : Quote}

theorem quote_eq_ok_iff :
    t.quote now pair amount = .ok q ↔ t.available = true ∧ t.rate? pair = some q.rate ∧
      Quote.convert? pair q.rate amount = some q.amount ∧
      q = ⟨pair, q.rate, amount, q.amount, now⟩ := by
  unfold quote
  cases t.available with
  | false => simp
  | true =>
    cases t.rate? pair with
    | none => simp
    | some rate =>
      simp only [Bool.not_true, Bool.false_eq_true, if_false, Quote.price_eq_ok_iff, true_and,
        Option.some.injEq]
      constructor
      · rintro ⟨converted, made, rfl⟩
        exact ⟨rfl, made, rfl⟩
      · rintro ⟨rfl, made, whole⟩
        exact ⟨q.amount, made, whole⟩

theorem rate?_of_kept (h : t.kept? pair = some rate) : t.rate? pair = some rate := by
  rw [rate?, h]
  rfl

theorem rate?_of_inverse (none : t.kept? pair = none) (h : t.kept? pair.inverse = some rate) :
    t.rate? pair = rate.reciprocal? := by
  rw [rate?, none, h]
  rfl

/-- The table keeps a rate for exactly one direction of the pair. -/
def KeepsOne (t : RateTable) (pair : CurrencyPair) (rate : Decimal) : Prop :=
  (t.kept? pair = some rate ∧ t.kept? pair.inverse = none) ∨
    (t.kept? pair = none ∧ t.kept? pair.inverse = some rate)

/-- The rates of the two directions: the one that is kept, and its rounded reciprocal. -/
theorem KeepsOne.rates {there back : Decimal} (h : t.KeepsOne pair stored)
    (outward : t.rate? pair = some there) (homeward : t.rate? pair.inverse = some back) :
    (there.value = stored.value ∧ back.value = nearest stored.value⁻¹) ∨
      (there.value = nearest stored.value⁻¹ ∧ back.value = stored.value) := by
  rcases h with ⟨kept, none⟩ | ⟨none, kept⟩
  · rw [rate?_of_kept kept] at outward
    rw [rate?_of_inverse none (show t.kept? pair.inverse.inverse = _ from kept)] at homeward
    cases outward
    exact .inl ⟨rfl, value_of_reciprocal? homeward⟩
  · rw [rate?_of_kept kept] at homeward
    rw [rate?_of_inverse none kept] at outward
    cases homeward
    exact .inr ⟨value_of_reciprocal? outward, rfl⟩

variable {there back : Decimal}

theorem KeepsOne.rates_mul (h : t.KeepsOne pair stored) (outward : t.rate? pair = some there)
    (homeward : t.rate? pair.inverse = some back) :
    there.value * back.value = stored.value * nearest stored.value⁻¹ := by
  rcases h.rates outward homeward with ⟨out, home⟩ | ⟨out, home⟩
  · rw [out, home]
  · rw [out, home, mul_comm]

theorem KeepsOne.rates_nonneg (h : t.KeepsOne pair stored) (positive : 0 < stored.value)
    (outward : t.rate? pair = some there) (homeward : t.rate? pair.inverse = some back) :
    0 ≤ there.value ∧ 0 ≤ back.value := by
  have inverse : 0 ≤ nearest stored.value⁻¹ := nearest_nonneg (inv_pos.2 positive).le
  rcases h.rates outward homeward with ⟨out, home⟩ | ⟨out, home⟩
  · exact ⟨out ▸ positive.le, home ▸ inverse⟩
  · exact ⟨out ▸ inverse, home ▸ positive.le⟩

/-! ### Both ways -/

/-- What the amount is worth in the destination, where the way there is served by the rate kept. -/
theorem worth_lt_of_kept (few : pair.base.places ≤ 8) (kept : t.kept? pair = some stored)
    (outRate : t.rate? pair = some rate)
    (made : Quote.convert? pair rate amount = some back) :
    amount.value * stored.value < 2 * 10 ^ (28 - pair.base.places) := by
  obtain rfl : stored = rate := Option.some.inj ((rate?_of_kept kept).symm.trans outRate)
  have worth := Quote.abs_mul_le_of_convert? made
  have many : (10 : ℚ) ^ 20 ≤ 10 ^ (28 - pair.base.places) :=
    pow_le_pow_right₀ (by norm_num) (by omega)
  linarith [le_abs_self (amount.value * stored.value)]

/-- A client converts an amount, and then what that has brought, while the table keeps a rate for
one direction only. If neither quote credits more than its exact product, the return is at most the
amount times the product of both rates; and it is at most the amount when the reciprocal serves the
way back, or is not rounded up, or when the amount is not worth too much. As long as the amount,
its worth and the rate back are moderate, quotes may even round their products up. -/
theorem round_trip (t : RateTable) (now now' : Instant) (pair : CurrencyPair)
    (stored amount : Decimal) (there back : Quote) (keeps : t.KeepsOne pair stored)
    (positive : stored.isPositive = true)
    (valid : Money.validateDebit ⟨amount, pair.base⟩ = .ok ())
    (outward : t.quote now pair amount = .ok there) (gets : there.amount.isPositive = true)
    (homeward : t.quote now' pair.inverse there.amount = .ok back) :
    let x := amount.value
    let y := there.amount.value
    let z := back.amount.value
    let r := stored.value
    let places := pair.base.places
    (y ≤ x * there.rate.value → z ≤ y * back.rate.value →
      z ≤ x * (r * nearest r⁻¹) ∧
      (t.kept? pair = some stored ∨ nearest r⁻¹ ≤ r⁻¹ ∨ x * r < 2 * 10 ^ (28 - places) →
        z ≤ x)) ∧
    (x ≤ 10 ^ (27 - places) → x * r ≤ 10 ^ (27 - places) →
      back.rate.value ≤ 10 ^ (27 - places) → z ≤ x) := by
  intro x y z r places
  obtain ⟨-, outRate, outMade, -⟩ := quote_eq_ok_iff.1 outward
  obtain ⟨-, homeRate, homeMade, -⟩ := quote_eq_ok_iff.1 homeward
  have few : places ≤ 8 := pair.base.places_le
  obtain ⟨⟨n, units⟩, x_pos, bounded⟩ := Money.units_of_validateDebit valid
  obtain ⟨m, units'⟩ : ∃ m : Int, z = m / 10 ^ places :=
    ⟨_, (Quote.value_of_convert? homeMade).2.1⟩
  -- Both amounts are whole units, so a gain of less than a unit is no gain.
  have whole (h : z < x + 1 / 10 ^ places) : z ≤ x := by
    rw [show x = n / 10 ^ places from units, units'] at h ⊢
    exact le_of_lt_add_unit h
  have y_pos : 0 < y := value_pos_of_isPositive gets
  have r_pos : 0 < r := value_pos_of_isPositive positive
  have product := keeps.rates_mul outRate homeRate
  have nonneg := keeps.rates_nonneg r_pos outRate homeRate
  refine ⟨fun paid returned => ?_, fun small worth rate => whole ?_⟩
  · have gain : z ≤ x * (r * nearest r⁻¹) := by
      calc z ≤ y * back.rate.value := returned
        _ ≤ x * there.rate.value * back.rate.value := mul_le_mul_of_nonneg_right paid nonneg.2
        _ = x * (r * nearest r⁻¹) := by rw [mul_assoc, product]
    have below (worth : x * r < 2 * 10 ^ (28 - places)) : z ≤ x :=
      whole (gain.trans_lt (mul_mul_nearest_inv_lt few x_pos.le r_pos bounded worth))
    refine ⟨gain, ?_⟩
    rintro (kept | down | worth)
    · exact below (worth_lt_of_kept few kept outRate outMade)
    · calc z ≤ x * (r * nearest r⁻¹) := gain
        _ ≤ x * (r * r⁻¹) :=
          mul_le_mul_of_nonneg_left (mul_le_mul_of_nonneg_left down r_pos.le) x_pos.le
        _ = x := by rw [mul_inv_cancel₀ r_pos.ne', mul_one]
    · exact below worth
  · exact lt_add_unit_of_rounded few x_pos.le r_pos nonneg.2 product
      (Quote.value_le_of_convert? outMade (mul_nonneg x_pos.le nonneg.1))
      (Quote.value_le_of_convert? homeMade (mul_nonneg y_pos.le nonneg.2)) small worth rate

/-- A hundred dollars at two for one, and back at the reciprocal. -/
theorem round_trip_dollars :
    let two : Decimal := ⟨false, 2, 0, by decide, by decide⟩
    let hundred : Decimal := ⟨false, 10000, 2, by decide, by decide⟩
    let t : RateTable := { name := "", rates := [(⟨.usd, .cad⟩, two)] }
    ∃ there back, t.quote ⟨0, 0⟩ ⟨.usd, .cad⟩ hundred = .ok there ∧
      t.quote ⟨0, 0⟩ ⟨.cad, .usd⟩ there.amount = .ok back ∧
      back.amount.value ≤ hundred.value * (two.value * nearest two.value⁻¹) ∧
      back.amount.value ≤ hundred.value := by
  intro two hundred t
  let there : Quote := ⟨⟨.usd, .cad⟩, two, hundred, ⟨false, 20000, 2, by decide, by decide⟩, ⟨0, 0⟩⟩
  let half : Decimal := ⟨false, 5, 1, by decide, by decide⟩
  let back : Quote := ⟨⟨.cad, .usd⟩, half, there.amount, hundred, ⟨0, 0⟩⟩
  have outward : t.quote ⟨0, 0⟩ ⟨.usd, .cad⟩ hundred = .ok there :=
    quote_eq_ok_iff.2 ⟨rfl, by decide, by decide +kernel, rfl⟩
  have homeward : t.quote ⟨0, 0⟩ ⟨.cad, .usd⟩ there.amount = .ok back :=
    quote_eq_ok_iff.2 ⟨rfl, by decide +kernel, by decide +kernel, rfl⟩
  obtain ⟨exact, small⟩ := round_trip t ⟨0, 0⟩ ⟨0, 0⟩ ⟨.usd, .cad⟩ two hundred there back
    (.inl ⟨rfl, by decide⟩) (by decide) (by decide) outward (by decide) homeward
  have cents : Currency.usd.places = 2 := by decide
  rw [cents] at small
  refine ⟨there, back, outward, homeward, (exact ?_ ?_).1, small ?_ ?_ ?_⟩ <;>
    norm_num [two, hundred, half, there, back, Decimal.value]

/-- A huge rate, of whose reciprocal a single digit is left: the way back pays for a satoshi a fifth
more than it has cost. -/
theorem round_trip_gains :
    let stored : Decimal := ⟨false, 6000000000000000000000000000, 0, by decide, by decide⟩
    let amount : Decimal := ⟨false, 5000000000000000000000, 2, by decide, by decide⟩
    let t : RateTable := { name := "", rates := [(⟨.btc, .usd⟩, stored)] }
    t.KeepsOne ⟨.usd, .btc⟩ stored ∧ stored.isPositive = true ∧
      Money.validateDebit ⟨amount, .usd⟩ = .ok () ∧
      ∃ there back, t.quote ⟨0, 0⟩ ⟨.usd, .btc⟩ amount = .ok there ∧
        there.amount.isPositive = true ∧
        t.quote ⟨0, 0⟩ ⟨.btc, .usd⟩ there.amount = .ok back ∧
        there.amount.value ≤ amount.value * there.rate.value ∧
        back.amount.value ≤ there.amount.value * back.rate.value ∧
        amount.value < back.amount.value := by
  intro stored amount t
  let satoshi : Decimal := ⟨false, 1, 8, by decide, by decide⟩
  let there : Quote := ⟨⟨.usd, .btc⟩, ⟨false, 2, 28, by decide, by decide⟩, amount, satoshi, ⟨0, 0⟩⟩
  let back : Quote := ⟨⟨.btc, .usd⟩, stored, satoshi,
    ⟨false, 6000000000000000000000, 2, by decide, by decide⟩, ⟨0, 0⟩⟩
  have outward : t.quote ⟨0, 0⟩ ⟨.usd, .btc⟩ amount = .ok there :=
    quote_eq_ok_iff.2 ⟨rfl, by decide +kernel, by decide +kernel, rfl⟩
  have homeward : t.quote ⟨0, 0⟩ ⟨.btc, .usd⟩ satoshi = .ok back :=
    quote_eq_ok_iff.2 ⟨rfl, by decide, by decide +kernel, rfl⟩
  refine ⟨.inr ⟨by decide, rfl⟩, by decide, by decide, there, back, outward, by decide, homeward,
    ?_, ?_, ?_⟩ <;> norm_num [stored, amount, there, back, satoshi, Decimal.value]

end RateTable

end Bureau
