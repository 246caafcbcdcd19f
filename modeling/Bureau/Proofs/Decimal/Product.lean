import Bureau.Proofs.Decimal.Fit

/-!
# What decimals are multiplied and divided to

The product of two decimals is the decimal nearest to the exact product, the reciprocal the one
nearest to the exact reciprocal, and a truncated decimal is the exact one cut off. How many digits
an operand is written with has no bearing on any of them.
-/

namespace Bureau.Decimal

/-! ### Products -/

theorem value_mul (a b : Decimal) :
    a.value * b.value = (if a.negative != b.negative then -1 else 1) *
      (((a.mantissa * b.mantissa : Nat) : ℚ) / 10 ^ (a.scale + b.scale)) := by
  rw [value, value, pow_add]
  push_cast
  cases a.negative <;> cases b.negative <;> simp <;> field_simp

theorem abs_value_mul (a b : Decimal) :
    |a.value * b.value| = ((a.mantissa * b.mantissa : Nat) : ℚ) / 10 ^ (a.scale + b.scale) := by
  rw [value_mul, abs_mul, abs_of_nonneg (by positivity : (0 : ℚ) ≤
    ((a.mantissa * b.mantissa : Nat) : ℚ) / 10 ^ (a.scale + b.scale))]
  split <;> simp

/-- Less than half a grain is nothing. -/
theorem nearest_of_tiny {q : ℚ} (h : |q| * 10 ^ 28 < 1 / 2) : nearest q = 0 := by
  have kept : |q| * 10 ^ maxScale < mantissaLimit := by
    rw [mantissaLimit_eq]
    linarith
  have tiny : |q * 10 ^ maxScale| < 1 / 2 := by
    rwa [abs_mul, abs_of_pos (by positivity : (0 : ℚ) < 10 ^ maxScale)]
  obtain ⟨low, high⟩ := abs_lt.1 tiny
  have none : roundEven (q * 10 ^ maxScale) = 0 := by
    refine le_antisymm (roundEven_le_iff.2 (.inl (by push_cast; linarith))) ?_
    by_contra neg
    have neg : roundEven (q * 10 ^ maxScale) ≤ -1 := by omega
    rcases roundEven_le_iff.1 neg with below | ⟨below, -⟩ <;> push_cast at below <;> linarith
  rw [nearest_of_kept le_rfl kept (.inl rfl), none]
  simp

/-- Operands whose product is zero without being formed. -/
def Negligible (a b : Decimal) : Prop :=
  a.isZero = true ∨ b.isZero = true ∨
    ((a.mantissa < twoTo 32 ∧ b.mantissa < twoTo 32) ∧ shortProductPlaces < a.scale + b.scale)

/-- The product of two short mantissas at too many places is less than half a grain. -/
theorem Negligible.tiny {a b : Decimal} (h : Negligible a b) :
    |a.value * b.value| * 10 ^ 28 < 1 / 2 := by
  rcases h with none | none | ⟨⟨ha, hb⟩, places⟩
  · simp [value_of_isZero none]
  · simp [value_of_isZero none]
  · have small : a.mantissa * b.mantissa < 2 * 10 ^ 19 := by
      have : twoTo 32 * twoTo 32 < 2 * 10 ^ 19 := by decide
      exact (Nat.mul_lt_mul'' ha hb).trans this
    have small : ((a.mantissa * b.mantissa : Nat) : ℚ) < 2 * 10 ^ 19 := by exact_mod_cast small
    have many : (10 : ℚ) ^ 48 ≤ 10 ^ (a.scale + b.scale) :=
      pow_le_pow_right₀ (by norm_num) places
    rw [abs_value_mul, div_mul_eq_mul_div, div_lt_iff₀ (by positivity)]
    linarith

/-- A product whose digits before the point fit is the decimal nearest to the exact one. -/
theorem exists_mul?_value {a b : Decimal} (h : |a.value * b.value| < mantissaLimit) :
    ∃ c, a.mul? b = some c ∧ c.value = nearest (a.value * b.value) := by
  by_cases plain : Negligible a b
  · refine ⟨zero, if_pos plain, ?_⟩
    rw [nearest_of_tiny plain.tiny, value_of_isZero (by decide)]
  · rw [abs_value_mul] at h
    obtain ⟨c, made, value⟩ := exists_fit?_value (a.negative != b.negative) h
    refine ⟨c, (if_neg plain).trans made, ?_⟩
    rw [value, value_mul, nearest_sign_mul]

theorem mul?_eq_none {a b : Decimal} (h : mantissaLimit ≤ |a.value * b.value|) :
    a.mul? b = none := by
  have plain : ¬Negligible a b := by
    intro plain
    have := plain.tiny
    rw [mantissaLimit_eq] at h
    linarith
  rw [abs_value_mul] at h
  exact (if_neg plain).trans (fit?_eq_none _ h)

theorem value_of_mul? {a b c : Decimal} (h : a.mul? b = some c) :
    |a.value * b.value| < mantissaLimit ∧ c.value = nearest (a.value * b.value) := by
  have small : |a.value * b.value| < mantissaLimit := by
    by_contra large
    rw [mul?_eq_none (not_lt.1 large)] at h
    cases h
  obtain ⟨c', made, value⟩ := exists_mul?_value small
  rw [h] at made
  cases made
  exact ⟨small, value⟩

/-! ### Reciprocals -/

/-- At the scale found the whole part fits, if it does without places, and with one place more it
does not. -/
theorem quotientScale_spec {n d : Nat} (fits : n / d < mantissaBound) (limit : Nat) :
    quotientScale n d limit ≤ limit ∧
      n * tenTo (quotientScale n d limit) / d < mantissaBound ∧
      (quotientScale n d limit = limit ∨
        mantissaBound ≤ n * tenTo (quotientScale n d limit + 1) / d) := by
  induction limit with
  | zero => exact ⟨le_rfl, by simpa [quotientScale] using fits, .inl rfl⟩
  | succ limit ih =>
    rw [quotientScale]
    split
    · rename_i room
      exact ⟨le_rfl, room, .inl rfl⟩
    · rename_i full
      obtain ⟨le, room, most⟩ := ih
      refine ⟨Nat.le_succ_of_le le, room, .inr ?_⟩
      rcases most with all | more
      · rw [all]
        exact not_lt.1 full
      · exact more

/-- Trailing zeros are places only. -/
theorem trimZeros_spec (mantissa scale : Nat) :
    (trimZeros mantissa scale).1 ≤ mantissa ∧ (trimZeros mantissa scale).2 ≤ scale ∧
      ((trimZeros mantissa scale).1 : ℚ) / 10 ^ (trimZeros mantissa scale).2 =
        mantissa / 10 ^ scale := by
  induction scale generalizing mantissa with
  | zero => simp [trimZeros]
  | succ scale ih =>
    rw [trimZeros]
    split
    · rename_i zero
      obtain ⟨less, few, same⟩ := ih (mantissa / 10)
      refine ⟨less.trans (Nat.div_le_self _ _), few.trans (Nat.le_succ _), ?_⟩
      have whole : (mantissa : ℚ) = (mantissa / 10 : Nat) * 10 := by
        exact_mod_cast (Nat.div_mul_cancel (Nat.dvd_of_mod_eq_zero zero)).symm
      rw [same, whole, pow_succ]
      field_simp
    · exact ⟨le_rfl, le_rfl, rfl⟩

/-- The digits that a quotient is rounded to, before trailing zeros go. -/
theorem exists_quotient {n d scale : Nat} (pos : 0 < d) (fits : n / d + 1 < mantissaBound)
    (le : scale ≤ maxScale) (under : n * tenTo scale / d < mantissaBound)
    (most : scale = maxScale ∨ mantissaBound ≤ n * tenTo (scale + 1) / d) :
    ∃ digits places : Nat, digits < mantissaBound ∧ places ≤ maxScale ∧
      nearest ((n : ℚ) / d) = digits / 10 ^ places ∧
      (if roundHalfEven (n * tenTo scale) d < mantissaBound then
        trimZeros (roundHalfEven (n * tenTo scale) d) scale
      else trimZeros (roundHalfEven (roundHalfEven (n * tenTo scale) d) 10) (scale - 1)) =
        trimZeros digits places := by
  have scaled (places : Nat) : (n : ℚ) / d * 10 ^ places = (n * tenTo places : Nat) / d := by
    rw [Nat.cast_mul, tenTo_cast]
    ring
  have nonneg : 0 ≤ (n : ℚ) / d := by positivity
  by_cases kept : roundHalfEven (n * tenTo scale) d < mantissaBound
  · refine ⟨_, scale, kept, le, ?_, if_pos kept⟩
    refine nearest_of_roundHalfEven nonneg pos le (scaled scale) kept (most.imp_right ?_)
    rw [scaled]
    exact mantissaLimit_le_div pos
  · cases scale with
    | zero =>
      have one : n * tenTo 0 = n := Nat.mul_one n
      rw [one] at kept
      exact absurd (lt_of_le_of_lt (roundHalfEven_le n d) fits) kept
    | succ scale =>
      obtain ⟨carry, value⟩ := nearest_of_carry nonneg pos le (scaled (scale + 1)) under kept
      have small : roundHalfEven mantissaBound 10 < mantissaBound := by decide
      exact ⟨_, scale, by rwa [carry], by omega, value, if_neg kept⟩

/-- A reciprocal is the decimal nearest to the exact one. -/
theorem value_of_reciprocal? {x y : Decimal} (h : x.reciprocal? = some y) :
    y.value = nearest x.value⁻¹ := by
  have nonzero : ¬x.isZero = true := by
    intro zero
    rw [reciprocal?, if_pos zero] at h
    cases h
  have pos : 0 < x.mantissa := Nat.pos_of_ne_zero (by simpa [isZero] using nonzero)
  have fits : tenTo x.scale / x.mantissa + 1 < mantissaBound := by
    have whole : tenTo x.scale / x.mantissa ≤ tenTo maxScale :=
      (Nat.div_le_self _ _).trans (Nat.pow_le_pow_right (by decide) x.scale_le)
    have room : tenTo maxScale + 1 < mantissaBound := by decide
    exact lt_of_le_of_lt (Nat.add_le_add_right whole 1) room
  have inverse : x.value⁻¹ =
      (if x.negative then -1 else 1) * ((tenTo x.scale : Nat) / x.mantissa) := by
    rw [value, tenTo_cast]
    cases x.negative <;> simp [div_neg]
  rw [reciprocal?, if_neg nonzero] at h
  extract_lets n scale rounded at h
  obtain ⟨le, under, most⟩ : scale ≤ maxScale ∧ n * tenTo scale / x.mantissa < mantissaBound ∧
      (scale = maxScale ∨ mantissaBound ≤ n * tenTo (scale + 1) / x.mantissa) :=
    quotientScale_spec (Nat.lt_of_succ_lt fits) maxScale
  have digits_eq : rounded = roundHalfEven (n * tenTo scale) x.mantissa := rfl
  -- From here on the scale is only known by what it is good for.
  clear_value rounded scale
  subst digits_eq
  obtain ⟨digits, places, less, few, quotient, trimmed⟩ := exists_quotient pos fits le under most
  rw [trimmed] at h
  obtain ⟨least, shorter, same⟩ := trimZeros_spec digits places
  generalize trimZeros digits places = trimmed at h least shorter same
  obtain ⟨z, made, value⟩ :=
    exists_ofParts?_value (least.trans_lt less) (shorter.trans few) x.negative
  obtain rfl : z = y := Option.some.inj (made.symm.trans h)
  rw [value, same, inverse, nearest_sign_mul, quotient]

/-! ### Truncation -/

theorem cutOff_sign_mul (negative : Bool) (places : Nat) (q : ℚ) :
    cutOff places ((if negative then -1 else 1) * q) =
      (if negative then -1 else 1) * cutOff places q := by
  cases negative <;> simp [cutOff_neg]

theorem value_truncate (x : Decimal) (places : Nat) :
    (x.truncate places).value = cutOff places x.value := by
  rw [truncate]
  split
  · rename_i few
    obtain ⟨more, rfl⟩ := Nat.exists_eq_add_of_le few
    refine (cutOff_of_exact (n := (if x.negative then -1 else 1) * x.mantissa * 10 ^ more) ?_).symm
    rw [value, pow_add]
    split <;> push_cast <;> field_simp
  · rename_i many
    have le : places ≤ x.scale := by omega
    have digits : (x.mantissa : ℚ) / 10 ^ x.scale * 10 ^ places =
        x.mantissa / (tenTo (x.scale - places) : Nat) := by
      simpa [Nat.sub_sub_self le] using
        mul_left_places x.mantissa (Nat.sub_le x.scale places)
    have cut : cutOff places ((x.mantissa : ℚ) / 10 ^ x.scale) =
        (x.mantissa / tenTo (x.scale - places) : Nat) / 10 ^ places := by
      rw [cutOff_of_nonneg _ (by positivity), digits, Rat.floor_natCast_div_natCast,
        ← Int.natCast_ediv, Int.cast_natCast]
    simp only [value, mul_div_assoc]
    rw [cutOff_sign_mul, cut]
    rcases Nat.eq_zero_or_pos (x.mantissa / tenTo (x.scale - places)) with zero | pos
    · simp only [zero, Nat.cast_zero, zero_div, mul_zero]
    · simp only [bne_iff_ne.2 pos.ne', Bool.and_true]

end Bureau.Decimal
