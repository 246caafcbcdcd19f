import Bureau.Proofs.Decimal.Value
import Mathlib.Algebra.Order.Floor.Ring
import Mathlib.Algebra.Ring.Int.Parity
import Mathlib.Data.Nat.Find
import Mathlib.Data.Rat.Floor

/-!
# Rounding to a decimal

`Decimal.nearest` rounds a rational number to as many places, at most 28, as leave its digits room
in 96 bits. It depends on the number only, not on how the number came about. It keeps the order of
numbers even where the number of places changes (`nearest_le_nearest`): the largest mantissa with
one place more stands for less than the smallest one that needed to give up this place.
`Decimal.cutOff` drops the places that are too many.
-/

namespace Bureau.Decimal

/-! ### Whole numbers -/

/-- The nearest whole number, of two the even one. -/
def roundEven (q : ℚ) : Int :=
  if ⌊q⌋ + 1 / 2 < q ∨ (q = ⌊q⌋ + 1 / 2 ∧ ¬Even ⌊q⌋) then ⌊q⌋ + 1 else ⌊q⌋

/-- Rounding up to `k` reaches to the half above `k`, which belongs to the even side. -/
theorem roundEven_le_iff {q : ℚ} {k : Int} :
    roundEven q ≤ k ↔ q < k + 1 / 2 ∨ (q = k + 1 / 2 ∧ Even k) := by
  have low := Int.floor_le q
  have high := Int.lt_floor_add_one q
  unfold roundEven
  generalize ⌊q⌋ = n at low high ⊢
  rcases lt_trichotomy k n with less | rfl | more
  · have : (k : ℚ) + 1 ≤ n := by exact_mod_cast less
    have far : ¬(q < k + 1 / 2 ∨ (q = k + 1 / 2 ∧ Even k)) := by
      rintro (h | ⟨h, -⟩) <;> linarith
    have : ¬(if n + 1 / 2 < q ∨ (q = n + 1 / 2 ∧ ¬Even n) then n + 1 else n) ≤ k := by
      split <;> omega
    tauto
  · rcases lt_trichotomy q (k + 1 / 2) with below | half | above
    · rw [if_neg (by rintro (h | ⟨h, -⟩) <;> linarith)]
      exact iff_of_true (le_refl k) (.inl below)
    · by_cases even : Even k <;> simp [half, even]
    · rw [if_pos (.inl above)]
      exact iff_of_false (by omega) (by rintro (h | ⟨h, -⟩) <;> linarith)
  · have : (n : ℚ) + 1 ≤ k := by exact_mod_cast more
    have near : q < k + 1 / 2 := by linarith
    have : (if n + 1 / 2 < q ∨ (q = n + 1 / 2 ∧ ¬Even n) then n + 1 else n) ≤ k := by
      split <;> omega
    tauto

theorem roundEven_le_roundEven {p q : ℚ} (h : p ≤ q) : roundEven p ≤ roundEven q := by
  rcases roundEven_le_iff.1 (le_refl (roundEven q)) with less | ⟨half, even⟩
  · exact roundEven_le_iff.2 (.inl (h.trans_lt less))
  · rcases h.lt_or_eq with less | rfl
    · exact roundEven_le_iff.2 (.inl (half ▸ less))
    · exact le_refl _

@[simp] theorem roundEven_intCast (k : Int) : roundEven k = k := by
  simp [roundEven]

theorem roundEven_neg (q : ℚ) : roundEven (-q) = -roundEven q := by
  refine eq_of_forall_ge_iff fun k => ?_
  have flip : -roundEven q ≤ k ↔ ¬roundEven q ≤ -k - 1 := by omega
  have parity : Even (-k - 1) ↔ ¬Even k := by
    rw [Int.even_sub_one, even_neg]
  rw [flip, roundEven_le_iff, roundEven_le_iff, parity]
  push_cast
  constructor
  · rintro (h | ⟨h, even⟩)
    · rintro (h' | ⟨h', -⟩) <;> linarith
    · rintro (h' | ⟨-, odd⟩)
      · linarith
      · exact odd even
  · intro h
    push Not at h
    rcases h.1.lt_or_eq with less | half
    · exact .inl (by linarith)
    · exact .inr ⟨by linarith, h.2 (by linarith)⟩

/-- No whole number is nearer than a half. -/
theorem abs_roundEven_sub_le (q : ℚ) : |roundEven q - q| ≤ 1 / 2 := by
  have above : roundEven q ≤ q + 1 / 2 := by
    by_contra far
    have : roundEven q ≤ roundEven q - 1 :=
      roundEven_le_iff.2 (.inl (by push_cast; linarith))
    omega
  have below : q ≤ roundEven q + 1 / 2 := by
    rcases roundEven_le_iff.1 (le_refl (roundEven q)) with less | ⟨half, -⟩
    · exact less.le
    · exact half.le
  exact abs_le.2 ⟨by linarith, by linarith⟩

/-! ### Mantissas -/

/-- Numbers below it are rounded to whole numbers of 96 bits. -/
def mantissaLimit : ℚ := mantissaBound - 1 / 2

theorem mantissaBound_cast : (mantissaBound : ℚ) = 79228162514264337593543950336 := by
  have : mantissaBound = 79228162514264337593543950336 := by decide
  rw [this]
  norm_num

theorem mantissaLimit_eq : mantissaLimit = 79228162514264337593543950336 - 1 / 2 := by
  rw [mantissaLimit, mantissaBound_cast]

theorem roundEven_lt_mantissaBound_iff {q : ℚ} :
    roundEven q < mantissaBound ↔ q < mantissaLimit := by
  have odd : ¬Even ((mantissaBound : Int) - 1) := by decide
  rw [← Int.le_sub_one_iff, roundEven_le_iff, mantissaLimit]
  push_cast
  constructor
  · rintro (h | ⟨-, even⟩)
    · linarith
    · exact absurd even odd
  · exact fun h => .inl (by linarith)

theorem cast_le_of_lt_mantissaBound {k : Int} (h : k < mantissaBound) :
    (k : ℚ) ≤ 79228162514264337593543950335 := by
  have room : ((k + 1 : Int) : ℚ) ≤ ((mantissaBound : Int) : ℚ) := Int.cast_le.2 h
  rw [Int.cast_add, Int.cast_one, Int.cast_natCast, mantissaBound_cast] at room
  linarith

/-- The smallest mantissa that is left when a digit must go. -/
theorem le_roundEven_of_mantissaLimit_le {q : ℚ} (h : mantissaLimit ≤ q * 10) :
    7922816251426433759354395034 ≤ roundEven q := by
  by_contra less
  have less : roundEven q ≤ 7922816251426433759354395033 := by omega
  rw [mantissaLimit_eq] at h
  rcases roundEven_le_iff.1 less with near | ⟨near, -⟩ <;> push_cast at near <;> linarith

/-! ### Places kept -/

/-- How many places, at most 28, leave a number's digits room in 96 bits. -/
def keptPlaces (q : ℚ) : Nat :=
  Nat.findGreatest (fun places => |q| * 10 ^ places < mantissaLimit) maxScale

theorem keptPlaces_le (q : ℚ) : keptPlaces q ≤ maxScale := Nat.findGreatest_le _

/-- One place more, and the digits do not fit. -/
theorem keptPlaces_full (q : ℚ) :
    keptPlaces q = maxScale ∨ mantissaLimit ≤ |q| * 10 ^ (keptPlaces q + 1) := by
  rcases (keptPlaces_le q).lt_or_eq with less | all
  · exact .inr (not_lt.1 (Nat.findGreatest_is_greatest (Nat.lt_succ_self _) less))
  · exact .inl all

theorem keptPlaces_eq {q : ℚ} {places : Nat} (le : places ≤ maxScale)
    (fits : |q| * 10 ^ places < mantissaLimit)
    (full : places = maxScale ∨ mantissaLimit ≤ |q| * 10 ^ (places + 1)) :
    keptPlaces q = places := by
  refine Nat.findGreatest_eq_iff.2 ⟨le, fun _ => fits, fun more less most => not_lt.2 ?_⟩
  rcases full with all | next
  · omega
  · refine next.trans (mul_le_mul_of_nonneg_left ?_ (abs_nonneg q))
    exact pow_le_pow_right₀ (by norm_num) less

theorem keptPlaces_neg (q : ℚ) : keptPlaces (-q) = keptPlaces q := by
  rw [keptPlaces, keptPlaces, abs_neg]

/-- A larger number keeps no more places. -/
theorem keptPlaces_anti {p q : ℚ} (h : |p| ≤ |q|) : keptPlaces q ≤ keptPlaces p := by
  refine Nat.findGreatest_mono_left (fun places fits => lt_of_le_of_lt ?_ fits) _
  exact mul_le_mul_of_nonneg_right h (by positivity)

/-! ### The nearest decimal -/

/-- The number rounded to the places that are kept of it. -/
def nearest (q : ℚ) : ℚ := roundEven (q * 10 ^ keptPlaces q) / 10 ^ keptPlaces q

theorem nearest_of_kept {q : ℚ} {places : Nat} (le : places ≤ maxScale)
    (fits : |q| * 10 ^ places < mantissaLimit)
    (full : places = maxScale ∨ mantissaLimit ≤ |q| * 10 ^ (places + 1)) :
    nearest q = roundEven (q * 10 ^ places) / 10 ^ places := by
  rw [nearest, keptPlaces_eq le fits full]

/-- What has digits for 96 bits with the places that it has is not rounded. -/
theorem nearest_of_exact {q : ℚ} {places : Nat} (mantissa : Int) (le : places ≤ maxScale)
    (fits : |mantissa| < mantissaBound) (exact : q = mantissa / 10 ^ places) : nearest q = q := by
  have whole : |q| * 10 ^ places = |mantissa| := by
    rw [exact, abs_div, abs_of_pos (by positivity : (0 : ℚ) < 10 ^ places), Int.cast_abs]
    field_simp
  have kept : places ≤ keptPlaces q := by
    refine Nat.le_findGreatest le ?_
    have := cast_le_of_lt_mantissaBound fits
    rw [whole, mantissaLimit_eq]
    linarith
  obtain ⟨more, split⟩ := Nat.exists_eq_add_of_le kept
  have digits : q * 10 ^ keptPlaces q = (mantissa * 10 ^ more : Int) := by
    rw [split, pow_add, exact]
    push_cast
    field_simp
  rw [nearest, digits, roundEven_intCast, ← digits]
  field_simp

theorem nearest_neg (q : ℚ) : nearest (-q) = -nearest q := by
  rw [nearest, nearest, keptPlaces_neg, neg_mul, roundEven_neg]
  push_cast
  ring

theorem nearest_sign_mul (negative : Bool) (q : ℚ) :
    nearest ((if negative then -1 else 1) * q) = (if negative then -1 else 1) * nearest q := by
  cases negative <;> simp [nearest_neg]

@[simp] theorem nearest_zero : nearest 0 = 0 :=
  nearest_of_exact 0 (Nat.zero_le _) (by decide) (by simp)

/-- With one place more than these, a number is no more than the largest mantissa there. -/
theorem nearest_le_of_lt_keptPlaces {p : ℚ} {places : Nat} (nonneg : 0 ≤ p)
    (more : places < keptPlaces p) :
    nearest p ≤ 79228162514264337593543950335 / 10 / 10 ^ places := by
  have fits : |p| * 10 ^ keptPlaces p < mantissaLimit :=
    Nat.findGreatest_of_ne_zero (P := fun places => |p| * 10 ^ places < mantissaLimit) rfl
      (by omega)
  rw [abs_of_nonneg nonneg] at fits
  have digits := cast_le_of_lt_mantissaBound (roundEven_lt_mantissaBound_iff.2 fits)
  have power : (10 : ℚ) * 10 ^ places ≤ 10 ^ keptPlaces p := by
    rw [← pow_succ']
    exact pow_le_pow_right₀ (by norm_num) more
  rw [div_div]
  calc nearest p ≤ 79228162514264337593543950335 / 10 ^ keptPlaces p :=
        div_le_div_of_nonneg_right digits (by positivity)
    _ ≤ 79228162514264337593543950335 / (10 * 10 ^ places) :=
        div_le_div_of_nonneg_left (by norm_num) (by positivity) power

/-- A number that had to give up a place is no less than the smallest mantissa that does so. -/
theorem le_nearest_of_keptPlaces_lt {q : ℚ} (nonneg : 0 ≤ q) (less : keptPlaces q < maxScale) :
    7922816251426433759354395034 / 10 ^ keptPlaces q ≤ nearest q := by
  have full := (keptPlaces_full q).resolve_left less.ne
  rw [abs_of_nonneg nonneg, pow_succ, ← mul_assoc] at full
  refine div_le_div_of_nonneg_right ?_ (by positivity)
  exact_mod_cast le_roundEven_of_mantissaLimit_le full

theorem nearest_le_nearest {p q : ℚ} (nonneg : 0 ≤ p) (h : p ≤ q) : nearest p ≤ nearest q := by
  have sizes : |p| ≤ |q| := by rwa [abs_of_nonneg nonneg, abs_of_nonneg (nonneg.trans h)]
  rcases (keptPlaces_anti sizes).lt_or_eq with less | same
  · -- The digits of `p` fit with a place that had to go from `q`.
    calc nearest p ≤ 79228162514264337593543950335 / 10 / 10 ^ keptPlaces q :=
          nearest_le_of_lt_keptPlaces nonneg less
      _ ≤ 7922816251426433759354395034 / 10 ^ keptPlaces q :=
          div_le_div_of_nonneg_right (by norm_num) (by positivity)
      _ ≤ nearest q :=
          le_nearest_of_keptPlaces_lt (nonneg.trans h) (less.trans_le (keptPlaces_le p))
  · rw [nearest, nearest, same]
    refine div_le_div_of_nonneg_right ?_ (by positivity)
    exact_mod_cast roundEven_le_roundEven (mul_le_mul_of_nonneg_right h (by positivity))

theorem nearest_nonneg {q : ℚ} (h : 0 ≤ q) : 0 ≤ nearest q := by
  simpa using nearest_le_nearest le_rfl h

theorem abs_nearest (q : ℚ) : nearest |q| = |nearest q| := by
  rcases le_total 0 q with nonneg | neg
  · rw [abs_of_nonneg nonneg, abs_of_nonneg (nearest_nonneg nonneg)]
  · have nonneg := nearest_nonneg (neg_nonneg.2 neg)
    rw [nearest_neg] at nonneg
    rw [abs_of_nonpos neg, nearest_neg, abs_of_nonpos (neg_nonneg.1 nonneg)]

/-- A decimal is the nearest to its own value. -/
@[simp] theorem nearest_value (d : Decimal) : nearest d.value = d.value := by
  refine nearest_of_exact ((if d.negative then -1 else 1) * d.mantissa) d.scale_le ?_ ?_
  · cases d.negative <;> simp [d.mantissa_lt]
  · rw [value]
    push_cast
    rfl

/-- A single grain is not lost. -/
theorem nearest_grains_ne_zero {n : Int} (h : n ≠ 0) : nearest (n / 10 ^ maxScale) ≠ 0 := by
  have grain : nearest ((1 : Int) / 10 ^ maxScale) = (1 : Int) / 10 ^ maxScale :=
    nearest_of_exact 1 le_rfl (by decide) rfl
  have one : ((1 : Int) : ℚ) ≤ |(n : ℚ)| := by exact_mod_cast Int.one_le_abs h
  have size : ((1 : Int) : ℚ) / 10 ^ maxScale ≤ |(n : ℚ) / 10 ^ maxScale| := by
    rw [abs_div, abs_of_pos (by positivity : (0 : ℚ) < 10 ^ maxScale)]
    exact div_le_div_of_nonneg_right one (by positivity)
  have most := nearest_le_nearest (by positivity) size
  rw [grain, abs_nearest] at most
  have pos : (0 : ℚ) < (1 : Int) / 10 ^ maxScale := by positivity
  exact abs_pos.1 (pos.trans_le most)

/-- Rounding moves a number by half a unit of the last place that is kept, at most. -/
theorem abs_nearest_sub_le_half (q : ℚ) : |nearest q - q| ≤ 1 / 2 / 10 ^ keptPlaces q := by
  have pos : (0 : ℚ) < 10 ^ keptPlaces q := by positivity
  have scaled : nearest q - q =
      (roundEven (q * 10 ^ keptPlaces q) - q * 10 ^ keptPlaces q) / 10 ^ keptPlaces q := by
    rw [nearest]
    field_simp
  rw [scaled, abs_div, abs_of_pos pos]
  exact div_le_div_of_nonneg_right (abs_roundEven_sub_le _) pos.le

/-- Places for which the digits have room are kept. -/
theorem abs_nearest_sub_le_of_lt {q : ℚ} {places : Nat} (le : places ≤ maxScale)
    (fits : |q| * 10 ^ places < mantissaLimit) : |nearest q - q| ≤ 1 / 2 / 10 ^ places := by
  have kept : places ≤ keptPlaces q := Nat.le_findGreatest le fits
  refine (abs_nearest_sub_le_half q).trans ?_
  exact div_le_div_of_nonneg_left (by norm_num) (by positivity)
    (pow_le_pow_right₀ (by norm_num) kept)

/-- Rounding moves a number by half a grain at most or, a large one, by its `10²⁸`th part. -/
theorem abs_nearest_sub_le (q : ℚ) : |nearest q - q| ≤ max (1 / 2) |q| / 10 ^ 28 := by
  have pos : (0 : ℚ) < 10 ^ keptPlaces q := by positivity
  refine (abs_nearest_sub_le_half q).trans ?_
  rcases keptPlaces_full q with all | full
  · rw [all]
    exact div_le_div_of_nonneg_right (le_max_left _ _) (by positivity)
  · refine le_trans ?_ (div_le_div_of_nonneg_right (le_max_right _ _) (by positivity))
    rw [div_le_div_iff₀ pos (by positivity)]
    rw [mantissaLimit_eq, pow_succ] at full
    linarith

/-! ### Cutting off -/

/-- The number without the digits past so many places. -/
def cutOff (places : Nat) (q : ℚ) : ℚ :=
  (if q < 0 then ⌈q * 10 ^ places⌉ else ⌊q * 10 ^ places⌋ : Int) / 10 ^ places

theorem cutOff_of_nonneg (places : Nat) {q : ℚ} (h : 0 ≤ q) :
    cutOff places q = ⌊q * 10 ^ places⌋ / 10 ^ places := by
  rw [cutOff, if_neg (not_lt.2 h)]

theorem cutOff_neg (places : Nat) (q : ℚ) : cutOff places (-q) = -cutOff places q := by
  rcases lt_trichotomy q 0 with neg | rfl | pos
  · rw [cutOff_of_nonneg _ (by linarith), cutOff, if_pos neg, neg_mul, Int.floor_neg]
    push_cast
    ring
  · simp [cutOff]
  · rw [cutOff_of_nonneg _ pos.le, cutOff, if_pos (by linarith), neg_mul, Int.ceil_neg]
    push_cast
    ring

variable (places : Nat) {p q : ℚ}

theorem cutOff_le_cutOff (nonneg : 0 ≤ p) (h : p ≤ q) : cutOff places p ≤ cutOff places q := by
  rw [cutOff_of_nonneg _ nonneg, cutOff_of_nonneg _ (nonneg.trans h)]
  refine div_le_div_of_nonneg_right ?_ (by positivity)
  exact_mod_cast Int.floor_mono (mul_le_mul_of_nonneg_right h (by positivity))

theorem cutOff_nonneg (h : 0 ≤ q) : 0 ≤ cutOff places q := by
  rw [cutOff_of_nonneg _ h]
  have : 0 ≤ ⌊q * 10 ^ places⌋ := Int.floor_nonneg.2 (by positivity)
  positivity

theorem cutOff_le (h : 0 ≤ q) : cutOff places q ≤ q := by
  rw [cutOff_of_nonneg _ h, div_le_iff₀ (by positivity)]
  exact Int.floor_le _

/-- Less than a unit of the last place goes. -/
theorem lt_cutOff_add (h : 0 ≤ q) : q < cutOff places q + 1 / 10 ^ places := by
  have pos : (0 : ℚ) < 10 ^ places := by positivity
  rw [cutOff_of_nonneg _ h, ← add_div, lt_div_iff₀ pos]
  exact Int.lt_floor_add_one _

variable {places}

/-- What has no digit to lose is kept. -/
theorem cutOff_of_exact {n : Int} (exact : q = n / 10 ^ places) : cutOff places q = q := by
  have whole : q * 10 ^ places = n := by
    rw [exact]
    field_simp
  rw [cutOff, whole, Int.ceil_intCast, Int.floor_intCast, ite_self, exact]

theorem abs_cutOff (places : Nat) (q : ℚ) : |cutOff places q| = cutOff places |q| := by
  rcases le_total 0 q with nonneg | neg
  · rw [abs_of_nonneg nonneg, abs_of_nonneg (cutOff_nonneg _ nonneg)]
  · have nonneg : 0 ≤ -q := by linarith
    rw [abs_of_nonpos neg, ← abs_neg, ← cutOff_neg, abs_of_nonneg (cutOff_nonneg _ nonneg)]

theorem abs_cutOff_le (places : Nat) (q : ℚ) : |cutOff places q| ≤ |q| := by
  rw [abs_cutOff]
  exact cutOff_le _ (abs_nonneg q)

theorem abs_lt_abs_cutOff_add (places : Nat) (q : ℚ) :
    |q| < |cutOff places q| + 1 / 10 ^ places := by
  rw [abs_cutOff]
  exact lt_cutOff_add _ (abs_nonneg q)

/-- Across zero the order is kept because nothing changes its sign. -/
theorem cutOff_mono (places : Nat) (h : p ≤ q) : cutOff places p ≤ cutOff places q := by
  rcases le_total 0 p with nonneg | neg
  · exact cutOff_le_cutOff _ nonneg h
  · rcases le_total 0 q with nonneg | neg'
    · have below := cutOff_nonneg places (neg_nonneg.2 neg)
      rw [cutOff_neg] at below
      exact (neg_nonneg.1 below).trans (cutOff_nonneg places nonneg)
    · have flipped := cutOff_le_cutOff places (neg_nonneg.2 neg') (neg_le_neg h)
      rwa [cutOff_neg, cutOff_neg, neg_le_neg_iff] at flipped

/-- Numbers of units that amounts reach are decimals. -/
theorem nearest_of_units (few : places ≤ 8) {n : Int} (nonneg : 0 ≤ n) (le : n ≤ 10 ^ 28 + 1) :
    nearest (n / 10 ^ places) = n / 10 ^ places := by
  have bound : (10 : Int) ^ 28 + 1 < mantissaBound := by decide
  refine nearest_of_exact n (few.trans (by decide)) ?_ rfl
  rw [abs_of_nonneg nonneg]
  exact le.trans_lt bound

theorem floor_units_le (few : places ≤ 8) (small : q ≤ 10 ^ 20) :
    ⌊q * 10 ^ places⌋ ≤ (10 : Int) ^ 28 := by
  have power : (10 : ℚ) ^ places ≤ 10 ^ 8 := pow_le_pow_right₀ (by norm_num) few
  have units : q * 10 ^ places ≤ 10 ^ 20 * 10 ^ 8 := by gcongr
  have : (⌊q * 10 ^ places⌋ : ℚ) ≤ 10 ^ 28 := (Int.floor_le _).trans (by linarith)
  exact_mod_cast this

/-- Rounding before cutting off gains one unit of the last place at most: both neighbours among the
multiples of the unit are decimals, so rounding stays between them. -/
theorem cutOff_nearest_of_nonneg (few : places ≤ 8) (nonneg : 0 ≤ q) (small : q ≤ 10 ^ 20) :
    cutOff places (nearest q) = cutOff places q ∨
      cutOff places (nearest q) = cutOff places q + 1 / 10 ^ places := by
  have pos : (0 : ℚ) < 10 ^ places := by positivity
  have n_nonneg : 0 ≤ ⌊q * 10 ^ places⌋ := Int.floor_nonneg.2 (by positivity)
  have n_le := floor_units_le few small
  have cut := cutOff_of_nonneg places nonneg
  have cut' := cutOff_of_nonneg places (nearest_nonneg nonneg)
  generalize ⌊q * 10 ^ places⌋ = n at n_nonneg n_le cut
  generalize ⌊nearest q * 10 ^ places⌋ = m at cut'
  have next : cutOff places q + 1 / 10 ^ places = (n + 1 : Int) / 10 ^ places := by
    rw [cut, ← add_div]
    push_cast
    rfl
  have low : cutOff places q ≤ nearest q := by
    have below := nearest_le_nearest (cutOff_nonneg _ nonneg) (cutOff_le places nonneg)
    rwa [cut, nearest_of_units few n_nonneg (by omega), ← cut] at below
  have high : nearest q ≤ cutOff places q + 1 / 10 ^ places := by
    have above := nearest_le_nearest nonneg (lt_cutOff_add places nonneg).le
    rwa [next, nearest_of_units few (by omega) (by omega), ← next] at above
  have least : n ≤ m := by
    have := cutOff_le_cutOff places (cutOff_nonneg _ nonneg) low
    rw [cutOff_of_exact cut, cut, cut', div_le_div_iff_of_pos_right pos] at this
    exact_mod_cast this
  have most : m ≤ n + 1 := by
    have := (cutOff_le places (nearest_nonneg nonneg)).trans high
    rw [next, cut', div_le_div_iff_of_pos_right pos] at this
    exact_mod_cast this
  rcases least.lt_or_eq with less | same
  · obtain rfl : m = n + 1 := by omega
    exact .inr (cut'.trans next.symm)
  · exact .inl (by rw [cut', cut, same])

theorem cutOff_nearest (few : places ≤ 8) (small : |q| ≤ 10 ^ 20) :
    cutOff places (nearest q) = cutOff places q ∨
      |cutOff places (nearest q)| = |cutOff places q| + 1 / 10 ^ places := by
  rcases le_total 0 q with nonneg | neg
  · rw [abs_of_nonneg nonneg] at small
    rw [abs_of_nonneg (cutOff_nonneg _ nonneg),
      abs_of_nonneg (cutOff_nonneg _ (nearest_nonneg nonneg))]
    exact cutOff_nearest_of_nonneg few nonneg small
  · rw [abs_of_nonpos neg] at small
    have nonneg : 0 ≤ -q := by linarith
    have size := cutOff_nonneg places nonneg
    have size' := cutOff_nonneg places (nearest_nonneg nonneg)
    have steps := cutOff_nearest_of_nonneg few nonneg small
    rw [nearest_neg, cutOff_neg, cutOff_neg] at steps
    rw [nearest_neg, cutOff_neg] at size'
    rw [cutOff_neg] at size
    rw [abs_of_nonpos (neg_nonneg.1 size), abs_of_nonpos (neg_nonneg.1 size')]
    exact steps.imp_left neg_inj.1

end Bureau.Decimal
