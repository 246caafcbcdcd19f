import Bureau.Decimal.Arithmetic
import Bureau.Money
import Mathlib.Algebra.Order.Field.Basic
import Mathlib.Algebra.Order.Ring.Rat
import Mathlib.Tactic.FieldSimp
import Mathlib.Tactic.Linarith
import Mathlib.Tactic.NormNum
import Mathlib.Tactic.Push
import Mathlib.Tactic.Ring

/-!
# Values of decimals

`Decimal.value` is the exact rational number that a decimal stands for. Everything that decimals
are asked for (sign, range, equality by value) is asked of `grains`, the same value counted in
units of `10⁻²⁸`. A decimal has at most so many places when its grains are a multiple of the unit
of these places.
-/

namespace Bureau

namespace Decimal

/-- The number that the decimal stands for. -/
def value (d : Decimal) : ℚ :=
  (if d.negative then -1 else 1) * d.mantissa / 10 ^ d.scale

/-- How many grains one unit of so many decimal places is. -/
def grain (places : Nat) : Int := ((tenTo (maxScale - places) : Nat) : Int)

/-- The value has at most so many decimal places. -/
def HasPlaces (d : Decimal) (places : Nat) : Prop := grain places ∣ d.grains

theorem grains_eq (d : Decimal) :
    d.grains = (if d.negative then -1 else 1) * (d.mantissa * grain d.scale) := by
  unfold grains grain
  split <;> push_cast <;> ring

/-! ### Grains and values -/

theorem tenTo_cast (n : Nat) : ((tenTo n : Nat) : ℚ) = 10 ^ n := by
  simp [tenTo]

theorem grain_cast {places : Nat} (h : places ≤ maxScale) :
    (grain places : ℚ) = 10 ^ maxScale / 10 ^ places := by
  rw [grain, Int.cast_natCast, tenTo_cast, pow_sub₀ _ (by norm_num) h]
  rfl

theorem value_eq_grains (d : Decimal) : d.value = d.grains / 10 ^ maxScale := by
  have h := grain_cast d.scale_le
  have ten : (10 : ℚ) ^ maxScale ≠ 0 := by positivity
  rw [grains_eq, value]
  push_cast
  rw [h]
  field_simp

theorem HasPlaces.exists_value {d : Decimal} {places : Nat} (h : d.HasPlaces places)
    (bound : places ≤ maxScale) : ∃ n : Int, d.value = n / 10 ^ places := by
  obtain ⟨n, hn⟩ := h
  have ten : (10 : ℚ) ^ maxScale ≠ 0 := by positivity
  refine ⟨n, ?_⟩
  rw [value_eq_grains, hn]
  push_cast
  rw [grain_cast bound]
  field_simp

theorem hasPlaces_of_value {d : Decimal} {places : Nat} {n : Int} (bound : places ≤ maxScale)
    (h : d.value = n / 10 ^ places) : d.HasPlaces places := by
  have ten : (10 : ℚ) ^ maxScale ≠ 0 := by positivity
  refine ⟨n, ?_⟩
  rw [value_eq_grains, div_eq_iff ten] at h
  have units : (d.grains : ℚ) = grain places * n := by
    rw [h, grain_cast bound]
    ring
  exact_mod_cast units

theorem value_nonneg {d : Decimal} : 0 ≤ d.value ↔ 0 ≤ d.grains := by
  have ten : (0 : ℚ) < 10 ^ maxScale := by positivity
  rw [value_eq_grains, le_div_iff₀ ten, zero_mul, Int.cast_nonneg_iff]

theorem value_le_value {a b : Decimal} : a.value ≤ b.value ↔ a.grains ≤ b.grains := by
  have ten : (0 : ℚ) < 10 ^ maxScale := by positivity
  rw [value_eq_grains, value_eq_grains, div_le_div_iff_of_pos_right ten, Int.cast_le]

theorem abs_value (x : Decimal) : |x.value| = |x.grains| / 10 ^ maxScale := by
  rw [value_eq_grains, abs_div, abs_of_pos (by positivity : (0 : ℚ) < 10 ^ maxScale), Int.cast_abs]

theorem add_value_le {a b c : Decimal} :
    a.value + b.value ≤ c.value ↔ a.grains + b.grains ≤ c.grains := by
  have ten : (0 : ℚ) < 10 ^ maxScale := by positivity
  rw [value_eq_grains, value_eq_grains, value_eq_grains, ← add_div,
    div_le_div_iff_of_pos_right ten, ← Int.cast_add, Int.cast_le]

theorem value_add {a b c : Decimal} (h : c.grains = a.grains + b.grains) :
    c.value = a.value + b.value := by
  rw [value_eq_grains, value_eq_grains, value_eq_grains, h]
  push_cast
  ring

theorem grains_add {a b c : Decimal} (h : c.value = a.value + b.value) :
    c.grains = a.grains + b.grains := by
  have ten : (10 : ℚ) ^ maxScale ≠ 0 := by positivity
  rw [value_eq_grains, value_eq_grains, value_eq_grains, ← add_div, div_left_inj' ten] at h
  exact_mod_cast h

theorem sum_value (ds : List Decimal) :
    (ds.map value).sum = ((ds.map grains).sum : Int) / 10 ^ maxScale := by
  induction ds with
  | nil => simp
  | cons d ds ih =>
    rw [List.map_cons, List.sum_cons, List.map_cons, List.sum_cons, ih, value_eq_grains]
    push_cast
    ring

/-! ### Signs -/

theorem grain_pos (places : Nat) : 0 < grain places :=
  Int.natCast_pos.2 (tenTo_pos _)

@[simp] theorem grains_neg (d : Decimal) : d.neg.grains = -d.grains := by
  rw [grains_eq, grains_eq, neg]
  cases d.negative <;> simp

@[simp] theorem grains_zero : zero.grains = 0 := rfl

theorem grains_abs (d : Decimal) : d.abs.grains = |d.grains| := by
  have : 0 ≤ (d.mantissa : Int) * grain d.scale :=
    Int.mul_nonneg (Int.natCast_nonneg _) (grain_pos _).le
  rw [grains_eq, grains_eq, abs]
  cases d.negative <;> simp [abs_of_nonneg this]

theorem isZero_iff (d : Decimal) : d.isZero = true ↔ d.grains = 0 := by
  have := (grain_pos d.scale).ne'
  rw [grains_eq, isZero]
  cases d.negative <;> simp [this]

theorem isZero_iff_value (d : Decimal) : d.isZero = true ↔ d.value = 0 := by
  have ten : (10 : ℚ) ^ maxScale ≠ 0 := by positivity
  rw [isZero_iff, value_eq_grains, div_eq_zero_iff, or_iff_left ten, Int.cast_eq_zero]

theorem value_of_isZero {d : Decimal} (h : d.isZero = true) : d.value = 0 :=
  (isZero_iff_value d).1 h

theorem isNegative_iff (d : Decimal) : d.isNegative = true ↔ d.grains < 0 := by
  have pos := grain_pos d.scale
  have nonneg : 0 ≤ (d.mantissa : Int) * grain d.scale :=
    Int.mul_nonneg (Int.natCast_nonneg _) pos.le
  rw [grains_eq, isNegative]
  cases d.negative
  · simpa using nonneg
  · rcases Nat.eq_zero_or_pos d.mantissa with h | h
    · simp [h]
    · have := Int.mul_pos (Int.natCast_pos.2 h) pos
      simp [h.ne', this]

theorem isPositive_iff (d : Decimal) : d.isPositive = true ↔ 0 < d.grains := by
  have pos := grain_pos d.scale
  have nonneg : 0 ≤ (d.mantissa : Int) * grain d.scale :=
    Int.mul_nonneg (Int.natCast_nonneg _) pos.le
  rw [grains_eq, isPositive]
  cases d.negative
  · rcases Nat.eq_zero_or_pos d.mantissa with h | h
    · simp [h]
    · have := Int.mul_pos (Int.natCast_pos.2 h) pos
      simp [h.ne', this]
  · simpa using nonneg

theorem isNegative_iff_value (d : Decimal) : d.isNegative = true ↔ d.value < 0 := by
  have ten : (0 : ℚ) < 10 ^ maxScale := by positivity
  rw [isNegative_iff, value_eq_grains, div_lt_iff₀ ten, zero_mul, Int.cast_lt_zero]

theorem isPositive_iff_value (d : Decimal) : d.isPositive = true ↔ 0 < d.value := by
  have ten : (0 : ℚ) < 10 ^ maxScale := by positivity
  rw [isPositive_iff, value_eq_grains, lt_div_iff₀ ten, zero_mul, Int.cast_pos]

theorem value_pos_of_isPositive {x : Decimal} (h : x.isPositive = true) : 0 < x.value :=
  (isPositive_iff_value x).1 h

@[simp] theorem value_neg (d : Decimal) : d.neg.value = -d.value := by
  rw [value_eq_grains, value_eq_grains, grains_neg, Int.cast_neg, neg_div]

theorem inRange_iff (d : Decimal) : d.inRange = true ↔ |d.grains| ≤ maxAmount.grains := by
  rw [inRange, decide_eq_true_iff, ← grains_abs]
  rfl

theorem inRange_iff_abs_value_le (x : Decimal) :
    x.inRange = true ↔ |x.value| ≤ maxAmount.value := by
  have ten : (0 : ℚ) < 10 ^ maxScale := by positivity
  rw [inRange_iff, abs_value, value_eq_grains maxAmount, div_le_div_iff_of_pos_right ten]
  exact_mod_cast Iff.rfl

/-! ### Places -/

theorem hasPlaces_zero (places : Nat) : zero.HasPlaces places := dvd_zero _

theorem HasPlaces.neg {d : Decimal} {places : Nat} (h : d.HasPlaces places) :
    d.neg.HasPlaces places := by
  rw [HasPlaces, grains_neg]
  exact Int.dvd_neg.2 h

theorem HasPlaces.mono {d : Decimal} {places more : Nat} (h : d.HasPlaces places)
    (le : places ≤ more) : d.HasPlaces more := by
  refine dvd_trans (Int.natCast_dvd_natCast.2 ?_) h
  exact Nat.pow_dvd_pow 10 (by omega)

theorem hasPlaces_scale (d : Decimal) : d.HasPlaces d.scale := by
  rw [HasPlaces, grains_eq]
  exact Dvd.dvd.mul_left (dvd_mul_left _ _) _

@[simp] theorem scale_truncate (d : Decimal) (places : Nat) :
    (d.truncate places).scale = min d.scale places := by
  rw [truncate]
  split
  · omega
  · dsimp only
    omega

theorem hasPlaces_truncate (d : Decimal) (places : Nat) : (d.truncate places).HasPlaces places :=
  (hasPlaces_scale _).mono (by simp)

end Decimal

namespace Money

/-- The amount has no digits past the decimal places of its currency. -/
def IsExact (m : Money) : Prop := m.value.HasPlaces m.currency.places

theorem isExact_truncated (m : Money) : m.truncated.IsExact :=
  Decimal.hasPlaces_truncate _ _

theorem isExact_of_isAtScale {m : Money} (h : m.isAtScale = true) : m.IsExact := by
  have : m.value.grains = m.truncated.value.grains := by
    simpa [isAtScale, Decimal.sameValue, truncated] using h
  rw [IsExact, Decimal.HasPlaces, this]
  exact m.isExact_truncated

/-- Exactly the amounts at scale that are positive and in range may be debited. -/
theorem validateDebit_eq_ok_iff {m : Money} : m.validateDebit = .ok () ↔
    m.isAtScale = true ∧ 0 < m.value.value ∧ m.value.value ≤ maxAmount.value := by
  have small : m.value.value ≤ maxAmount.value ↔ ¬ maxAmount < m.value :=
    Decimal.value_le_value.trans Int.not_lt.symm
  rw [small, ← Decimal.isPositive_iff_value]
  unfold validateDebit
  split_ifs <;> simp_all

theorem isExact_of_validateDebit {m : Money} (h : m.validateDebit = .ok ()) : m.IsExact :=
  isExact_of_isAtScale (validateDebit_eq_ok_iff.1 h).1

theorem inRange_of_validateDebit {m : Money} (h : m.validateDebit = .ok ()) :
    m.value.inRange = true := by
  obtain ⟨-, positive, small⟩ := validateDebit_eq_ok_iff.1 h
  rwa [Decimal.inRange_iff_abs_value_le, abs_of_pos positive]

end Money

theorem value_maxAmount : maxAmount.value = 99999999999999999999 := by
  have digits : maxAmount.mantissa = 99999999999999999999 := by decide
  have sign : maxAmount.negative = false := rfl
  have scale : maxAmount.scale = 0 := rfl
  rw [Decimal.value, digits, sign, scale]
  norm_num

theorem Currency.places_le (c : Currency) : c.places ≤ 8 := by
  unfold Currency.places
  split <;> decide

end Bureau
