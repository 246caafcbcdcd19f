import Bureau.Proofs.Decimal.Rounding

/-!
# Fitting an exact result into a decimal

An operation looks for the places that it keeps among those of the exact result. What it comes to is
the decimal nearest to the exact result (`exists_fit?_value`), and it comes to nothing only when the
digits before the point do not fit (`fit?_eq_none`). When rounding carries past the last mantissa,
the carry is rounded once more, and that does not change the result (`nearest_of_carry`).
-/

namespace Bureau.Decimal

/-! ### Rounded quotients -/

theorem roundHalfEven_mul (q : Nat) {d : Nat} (h : 0 < d) : roundHalfEven (q * d) d = q := by
  simp only [roundHalfEven, Nat.mul_mod_left, Nat.mul_div_left q h]
  rw [if_neg (by omega)]

theorem roundHalfEven_le (n d : Nat) : roundHalfEven n d ≤ n / d + 1 := by
  dsimp only [roundHalfEven]
  split
  · exact Nat.le_refl _
  · exact Nat.le_succ _

theorem roundHalfEven_cast (n : Nat) {d : Nat} (pos : 0 < d) :
    (roundHalfEven n d : Int) = roundEven (n / d) := by
  have split : (n : ℚ) = d * (n / d : Nat) + (n % d : Nat) := by
    exact_mod_cast (Nat.div_add_mod n d).symm
  have pos' : (0 : ℚ) < d := by exact_mod_cast pos
  have quotient : (n : ℚ) / d = (n / d : Nat) + (n % d : Nat) / d := by
    rw [div_eq_iff pos'.ne', split]
    field_simp
  have more : ((n / d : Nat) : ℚ) + 1 / 2 < n / d ↔ d < 2 * (n % d) := by
    rw [quotient, add_lt_add_iff_left, lt_div_iff₀ pos', ← Nat.cast_lt (α := ℚ)]
    push_cast
    constructor <;> intro h <;> linarith
  have half : (n : ℚ) / d = (n / d : Nat) + 1 / 2 ↔ 2 * (n % d) = d := by
    rw [quotient, add_right_inj, div_eq_iff pos'.ne', ← Nat.cast_inj (R := ℚ)]
    push_cast
    constructor <;> intro h <;> linarith
  have parity : ¬Even ((n / d : Nat) : Int) ↔ n / d % 2 = 1 := by
    rw [Int.even_coe_nat, Nat.not_even_iff]
  have floor : ⌊(n : ℚ) / d⌋ = ((n / d : Nat) : Int) := by
    rw [Rat.floor_natCast_div_natCast, Int.natCast_ediv]
  simp only [roundEven, floor, Int.cast_natCast, more, half, parity, roundHalfEven]
  split <;> simp

variable {q : ℚ} {n d places : Nat}

theorem mantissaLimit_le_div (pos : 0 < d) (h : mantissaBound ≤ n / d) :
    mantissaLimit ≤ (n : ℚ) / d := by
  have large : (mantissaBound : ℚ) * d ≤ n := by
    exact_mod_cast (Nat.le_div_iff_mul_le pos).1 h
  rw [mantissaLimit]
  linarith [(le_div_iff₀ (by exact_mod_cast pos)).2 large]

/-- A quotient that fits, where one place more does not. -/
theorem nearest_of_roundHalfEven (nonneg : 0 ≤ q) (pos : 0 < d) (le : places ≤ maxScale)
    (scaled : q * 10 ^ places = n / d) (fits : roundHalfEven n d < mantissaBound)
    (full : places = maxScale ∨ mantissaLimit ≤ q * 10 ^ (places + 1)) :
    nearest q = roundHalfEven n d / 10 ^ places := by
  have rounded : roundEven (q * 10 ^ places) = roundHalfEven n d := by
    rw [scaled, roundHalfEven_cast n pos]
  rw [nearest_of_kept le, rounded, Int.cast_natCast]
  · rw [abs_of_nonneg nonneg, ← roundEven_lt_mantissaBound_iff, rounded]
    exact_mod_cast fits
  · rwa [abs_of_nonneg nonneg]

/-- A quotient that fits only before it is rounded, and loses one digit more. -/
theorem nearest_of_carry (nonneg : 0 ≤ q) (pos : 0 < d) (le : places + 1 ≤ maxScale)
    (scaled : q * 10 ^ (places + 1) = n / d) (under : n / d < mantissaBound)
    (exceeds : ¬roundHalfEven n d < mantissaBound) :
    roundHalfEven n d = mantissaBound ∧
      nearest q = roundHalfEven (roundHalfEven n d) 10 / 10 ^ places := by
  have rounded := roundHalfEven_le n d
  have carry : roundHalfEven n d = mantissaBound := by omega
  have again : roundHalfEven mantissaBound 10 = 7922816251426433759354395034 := by decide
  have exceeds : mantissaLimit ≤ q * 10 ^ (places + 1) := by
    rw [scaled, ← not_lt, ← roundEven_lt_mantissaBound_iff, ← roundHalfEven_cast n pos]
    exact_mod_cast exceeds
  have under : q * 10 ^ (places + 1) < mantissaBound := by
    rw [scaled, div_lt_iff₀ (by exact_mod_cast pos)]
    exact_mod_cast (Nat.div_lt_iff_lt_mul pos).1 under
  rw [mantissaBound_cast, pow_succ, ← mul_assoc] at under
  have tenth : roundEven (q * 10 ^ places) = 7922816251426433759354395034 := by
    refine le_antisymm (roundEven_le_iff.2 (.inl ?_)) (le_roundEven_of_mantissaLimit_le ?_)
    · push_cast
      linarith
    · rwa [mul_assoc, ← pow_succ]
  refine ⟨carry, ?_⟩
  rw [carry, again, nearest_of_kept (Nat.le_of_succ_le le), tenth]
  · norm_num
  · rw [abs_of_nonneg nonneg, mantissaLimit_eq]
    linarith
  · rw [abs_of_nonneg nonneg]
    exact .inr exceeds

/-! ### Fitting -/

theorem exists_ofParts?_value {mantissa scale : Nat} (fits : mantissa < mantissaBound)
    (le : scale ≤ maxScale) (negative : Bool) :
    ∃ x, ofParts? negative mantissa scale = some x ∧
      x.value = (if negative then -1 else 1) * (mantissa / 10 ^ scale) := by
  refine ⟨_, dif_pos ⟨fits, le⟩, ?_⟩
  rw [value, mul_div_assoc]
  rcases Nat.eq_zero_or_pos mantissa with rfl | pos
  · simp
  · simp [pos.ne']

theorem surplusDigits_le (magnitude available : Nat) :
    surplusDigits magnitude available ≤ available := by
  induction available generalizing magnitude with
  | zero => exact Nat.le_refl _
  | succ available ih =>
    rw [surplusDigits]
    split
    · exact Nat.zero_le _
    · exact Nat.succ_le_succ (ih _)

/-- Digits go one by one, and no more than must. -/
theorem mantissaBound_le_of_lt_surplusDigits {magnitude available gone : Nat}
    (h : gone < surplusDigits magnitude available) : mantissaBound ≤ magnitude / tenTo gone := by
  induction available generalizing magnitude gone with
  | zero => simp [surplusDigits] at h
  | succ available ih =>
    rw [surplusDigits] at h
    split at h
    · omega
    · rename_i large
      cases gone with
      | zero => simpa using large
      | succ gone =>
        rw [tenTo_succ, Nat.mul_comm, ← Nat.div_div_eq_div_mul]
        exact ih (by omega)

theorem div_lt_of_surplusDigits_lt {magnitude available : Nat}
    (h : surplusDigits magnitude available < available) :
    magnitude / tenTo (surplusDigits magnitude available) < mantissaBound := by
  induction available generalizing magnitude with
  | zero => omega
  | succ available ih =>
    rw [surplusDigits] at h ⊢
    split at h
    · rename_i small
      simp [small]
    · rename_i large
      rw [if_neg large, tenTo_succ, Nat.mul_comm, ← Nat.div_div_eq_div_mul]
      exact ih (by omega)

/-- How many digits go from the right. -/
def droppedDigits (magnitude scale : Nat) : Nat :=
  max (surplusDigits magnitude scale) (scale - maxScale)

variable {magnitude scale : Nat}

theorem fit?_eq (negative : Bool) (magnitude scale : Nat) :
    fit? negative magnitude scale =
      let rounded := roundHalfEven magnitude (tenTo (droppedDigits magnitude scale))
      if rounded < mantissaBound then
        ofParts? negative rounded (scale - droppedDigits magnitude scale)
      else if scale = droppedDigits magnitude scale then none
      else ofParts? negative (roundHalfEven rounded 10)
        (scale - droppedDigits magnitude scale - 1) := rfl

theorem droppedDigits_le (magnitude scale : Nat) : droppedDigits magnitude scale ≤ scale :=
  max_le (surplusDigits_le magnitude scale) (Nat.sub_le _ _)

/-- What stands before the places that are left. -/
theorem mul_left_places (magnitude : Nat) {gone : Nat} (le : gone ≤ scale) :
    (magnitude : ℚ) / 10 ^ scale * 10 ^ (scale - gone) = magnitude / (tenTo gone : Nat) := by
  rw [tenTo_cast]
  nth_rewrite 1 [← Nat.sub_add_cancel le]
  rw [pow_add]
  field_simp

theorem div_droppedDigits_lt (h : droppedDigits magnitude scale < scale) :
    magnitude / tenTo (droppedDigits magnitude scale) < mantissaBound := by
  have more : tenTo (surplusDigits magnitude scale) ≤ tenTo (droppedDigits magnitude scale) :=
    Nat.pow_le_pow_right (by decide) (le_max_left _ _)
  exact lt_of_le_of_lt (Nat.div_le_div_left more (tenTo_pos _))
    (div_lt_of_surplusDigits_lt (lt_of_le_of_lt (le_max_left _ _) h))

/-- With one digit more the mantissa would not fit, or the places would be too many. -/
theorem droppedDigits_full (some : droppedDigits magnitude scale ≠ 0) :
    scale - droppedDigits magnitude scale = maxScale ∨
      mantissaLimit ≤
        (magnitude : ℚ) / 10 ^ scale * 10 ^ (scale - droppedDigits magnitude scale + 1) := by
  have le := droppedDigits_le magnitude scale
  by_cases most : scale - droppedDigits magnitude scale = maxScale
  · exact .inl most
  · have last : droppedDigits magnitude scale - 1 < surplusDigits magnitude scale := by
      rw [droppedDigits] at some most ⊢
      omega
    have large := mantissaBound_le_of_lt_surplusDigits last
    have places : scale - droppedDigits magnitude scale + 1 =
        scale - (droppedDigits magnitude scale - 1) := by omega
    refine .inr ?_
    rw [places, mul_left_places magnitude (by omega)]
    exact mantissaLimit_le_div (tenTo_pos _) large

/-- The mantissa that is left fits as soon as it is rounded. -/
theorem exists_fit?_of_kept (negative : Bool)
    (kept : roundHalfEven magnitude (tenTo (droppedDigits magnitude scale)) < mantissaBound) :
    ∃ x, fit? negative magnitude scale = some x ∧
      x.value = (if negative then -1 else 1) * nearest (magnitude / 10 ^ scale) := by
  have le := droppedDigits_le magnitude scale
  have few : scale - droppedDigits magnitude scale ≤ maxScale := by
    rw [droppedDigits]
    omega
  obtain ⟨x, made, value⟩ := exists_ofParts?_value kept few negative
  refine ⟨x, by rw [fit?_eq]; exact (if_pos kept).trans made, ?_⟩
  rw [value]
  congr 1
  symm
  by_cases all : droppedDigits magnitude scale = 0
  · -- Nothing is dropped, so nothing is rounded.
    have whole : roundHalfEven magnitude (tenTo 0) = magnitude := by
      simpa using roundHalfEven_mul magnitude Nat.one_pos
    rw [all, whole] at kept
    rw [all, Nat.sub_zero] at few
    rw [all, whole, Nat.sub_zero]
    refine nearest_of_exact magnitude few ?_ (by simp)
    rw [Nat.abs_cast]
    exact_mod_cast kept
  · exact nearest_of_roundHalfEven (by positivity) (tenTo_pos _) few
      (mul_left_places magnitude le) kept (droppedDigits_full all)

/-- The mantissa that is left does not fit when it is rounded, and loses one digit more. -/
theorem exists_fit?_of_carry (negative : Bool)
    (exceeds : ¬roundHalfEven magnitude (tenTo (droppedDigits magnitude scale)) < mantissaBound)
    (digits : droppedDigits magnitude scale < scale) :
    ∃ x, fit? negative magnitude scale = some x ∧
      x.value = (if negative then -1 else 1) * nearest (magnitude / 10 ^ scale) := by
  obtain ⟨places, split⟩ : ∃ places, scale - droppedDigits magnitude scale = places + 1 :=
    ⟨_, (Nat.sub_add_cancel (by omega)).symm⟩
  have few : places + 1 ≤ maxScale := by
    rw [← split, droppedDigits]
    omega
  have scaled := mul_left_places magnitude digits.le
  rw [split] at scaled
  obtain ⟨carry, value⟩ := nearest_of_carry (by positivity) (tenTo_pos _) few scaled
    (div_droppedDigits_lt digits) exceeds
  have fits : roundHalfEven mantissaBound 10 < mantissaBound := by decide
  have made : fit? negative magnitude scale =
      ofParts? negative (roundHalfEven mantissaBound 10) places := by
    rw [fit?_eq]
    dsimp only
    rw [if_neg exceeds, if_neg digits.ne', carry, split, Nat.add_sub_cancel]
  rw [made, value, carry]
  exact exists_ofParts?_value fits (Nat.le_of_succ_le few) negative

/-- A number whose digits before the point fit is rounded to the nearest decimal. -/
theorem exists_fit?_value (negative : Bool) (h : (magnitude : ℚ) / 10 ^ scale < mantissaLimit) :
    ∃ x, fit? negative magnitude scale = some x ∧
      x.value = (if negative then -1 else 1) * nearest (magnitude / 10 ^ scale) := by
  by_cases kept : roundHalfEven magnitude (tenTo (droppedDigits magnitude scale)) < mantissaBound
  · exact exists_fit?_of_kept negative kept
  · refine exists_fit?_of_carry negative kept ((droppedDigits_le _ _).lt_of_ne fun all => kept ?_)
    have scaled := mul_left_places magnitude (droppedDigits_le magnitude scale)
    rw [all] at scaled ⊢
    rw [Nat.sub_self, pow_zero, mul_one] at scaled
    rw [scaled, ← roundEven_lt_mantissaBound_iff, ← roundHalfEven_cast _ (tenTo_pos _)] at h
    exact_mod_cast h

/-- A number whose digits before the point do not fit has no decimal. -/
theorem fit?_eq_none (negative : Bool) (h : mantissaLimit ≤ (magnitude : ℚ) / 10 ^ scale) :
    fit? negative magnitude scale = none := by
  have scaled := mul_left_places magnitude (droppedDigits_le magnitude scale)
  have pos : (0 : ℚ) < (tenTo (droppedDigits magnitude scale) : Nat) := by
    exact_mod_cast tenTo_pos _
  have exceeds :
      ¬roundHalfEven magnitude (tenTo (droppedDigits magnitude scale)) < mantissaBound := by
    rw [← Nat.cast_lt (α := Int), roundHalfEven_cast _ (tenTo_pos _),
      roundEven_lt_mantissaBound_iff, ← scaled, not_lt]
    exact h.trans (le_mul_of_one_le_right (by positivity) (one_le_pow₀ (by norm_num)))
  have all : scale = droppedDigits magnitude scale := by
    by_contra ne
    have digits := (droppedDigits_le magnitude scale).lt_of_ne (Ne.symm ne)
    have under :
        (magnitude : ℚ) / (tenTo (droppedDigits magnitude scale) : Nat) < mantissaBound := by
      rw [div_lt_iff₀ pos]
      exact_mod_cast (Nat.div_lt_iff_lt_mul (tenTo_pos _)).1 (div_droppedDigits_lt digits)
    have ten : (10 : ℚ) ≤ 10 ^ (scale - droppedDigits magnitude scale) :=
      le_self_pow₀ (by norm_num) (by omega)
    rw [mantissaLimit_eq] at h
    rw [mantissaBound_cast, ← scaled] at under
    have := mul_le_mul_of_nonneg_left ten (by linarith : 0 ≤ (magnitude : ℚ) / 10 ^ scale)
    linarith
  rw [fit?_eq]
  dsimp only
  rw [if_neg exceeds, if_pos all]

end Bureau.Decimal
