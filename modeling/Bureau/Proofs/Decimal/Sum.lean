import Bureau.Proofs.Decimal.Fit
import Mathlib.Algebra.Order.BigOperators.Group.List
import Mathlib.Algebra.Order.Ring.Abs

/-!
# Sums

Whenever there is a sum it is the decimal nearest to the exact one (`value_of_add?`), and there is
one whenever the digits before the point have room (`exists_add?_value`). It is exact when it has
room with the places of both operands (`exists_add?_of_hasPlaces`); amounts in range with at most
eight decimal places are far from filling 96 bits, so their sum is exact (`exists_add?`). A sum that
is rounded is zero only when the exact one is (`isZero_of_add?_iff`).

A list is summed from left to right. As long as the exact sum has room with the places of all items,
so have the sums on the way, and the result is exact (`exists_sum?`). Otherwise every step may round
to as many places as the largest sum has room for (`exists_sum?_near`).
-/

namespace Bureau.Decimal

/-- The mantissa at a higher scale stands for the same value. -/
theorem mantissaAt_mul_grain {d : Decimal} {scale : Nat} (le : d.scale ≤ scale)
    (places : scale ≤ maxScale) : mantissaAt scale d * grain scale = d.grains := by
  have : maxScale - d.scale = (scale - d.scale) + (maxScale - scale) := by omega
  rw [grains_eq, mantissaAt, grain, grain, this, tenTo_add]
  split <;> push_cast <;> ring

/-- A sum is one of the operands, when the other is zero, or else the exact sum that is fitted into
a decimal. -/
theorem add?_eq (a b : Decimal) :
    (∃ c, a.add? b = some c ∧ c.value = a.value + b.value) ∨
      ∃ (negative : Bool) (magnitude scale : Nat), a.add? b = fit? negative magnitude scale ∧
        a.value + b.value = (if negative then -1 else 1) * (magnitude / 10 ^ scale) := by
  by_cases zero : a.isZero = true
  · exact .inl ⟨b, by rw [add?, if_pos zero], by rw [value_of_isZero zero, zero_add]⟩
  by_cases zero' : b.isZero = true
  · exact .inl ⟨a, by rw [add?, if_neg zero, if_pos zero'], by rw [value_of_isZero zero', add_zero]⟩
  have le : max a.scale b.scale ≤ maxScale := Nat.max_le.2 ⟨a.scale_le, b.scale_le⟩
  have sum : (mantissaAt (max a.scale b.scale) a + mantissaAt (max a.scale b.scale) b) *
      grain (max a.scale b.scale) = a.grains + b.grains := by
    rw [add_mul, mantissaAt_mul_grain (Nat.le_max_left _ _) le,
      mantissaAt_mul_grain (Nat.le_max_right _ _) le]
  refine .inr ⟨_, _, _, by rw [add?, if_neg zero, if_neg zero'], ?_⟩
  generalize mantissaAt (max a.scale b.scale) a + mantissaAt (max a.scale b.scale) b = total at sum
  generalize max a.scale b.scale = scale at le sum
  have ten : (10 : ℚ) ^ maxScale ≠ 0 := by positivity
  have sign : (total : ℚ) = (if decide (total < 0) then -1 else 1) * (total.natAbs : ℚ) := by
    rcases lt_or_ge total 0 with neg | nonneg
    · simp [neg, abs_of_neg neg]
    · simp [not_lt.2 nonneg, abs_of_nonneg nonneg]
  rw [value_eq_grains, value_eq_grains, ← add_div, ← Int.cast_add, ← sum, Int.cast_mul,
    grain_cast le, ← mul_div_assoc (if decide (total < 0) then (-1 : ℚ) else 1), ← sign]
  field_simp

variable {a b c : Decimal}

/-- There is a sum when the digits before the point have room. -/
theorem exists_add?_value (h : |a.value + b.value| < mantissaLimit) :
    ∃ c, a.add? b = some c ∧ c.value = nearest (a.value + b.value) := by
  rcases add?_eq a b with ⟨c, added, exact⟩ | ⟨negative, magnitude, scale, added, whole⟩
  · exact ⟨c, added, by rw [← exact, nearest_value]⟩
  · have size : |a.value + b.value| = magnitude / 10 ^ scale := by
      rw [whole, abs_mul, abs_of_nonneg (by positivity : (0 : ℚ) ≤ magnitude / 10 ^ scale)]
      cases negative <;> simp
    rw [size] at h
    obtain ⟨c, made, value⟩ := exists_fit?_value negative h
    exact ⟨c, added.trans made, by rw [value, whole, nearest_sign_mul]⟩

/-- A sum is the decimal nearest to the exact one. -/
theorem value_of_add? (h : a.add? b = some c) : c.value = nearest (a.value + b.value) := by
  rcases add?_eq a b with ⟨d, added, exact⟩ | ⟨negative, magnitude, scale, added, whole⟩
  · obtain rfl := Option.some.inj (added.symm.trans h)
    rw [← exact, nearest_value]
  · rw [added] at h
    by_cases fits : (magnitude : ℚ) / 10 ^ scale < mantissaLimit
    · obtain ⟨d, made, value⟩ := exists_fit?_value negative fits
      obtain rfl := Option.some.inj (made.symm.trans h)
      rw [value, whole, nearest_sign_mul]
    · rw [fit?_eq_none _ (not_lt.1 fits)] at h
      cases h

/-- A sum that has room with the places of both operands is exact. -/
theorem exists_add?_of_hasPlaces {places : Nat} (le : places ≤ maxScale)
    (ha : a.HasPlaces places) (hb : b.HasPlaces places)
    (fits : |a.value + b.value| * 10 ^ places < mantissaBound) :
    ∃ c, a.add? b = some c ∧ c.grains = a.grains + b.grains := by
  obtain ⟨m, hm⟩ := ha.exists_value le
  obtain ⟨n, hn⟩ := hb.exists_value le
  have pos : (0 : ℚ) < 10 ^ places := by positivity
  have digits : a.value + b.value = ((m + n : Int) : ℚ) / 10 ^ places := by
    rw [hm, hn, ← add_div, Int.cast_add]
  have size : |a.value + b.value| * 10 ^ places = (|m + n| : Int) := by
    rw [digits, abs_div, abs_of_pos pos, div_mul_cancel₀ _ pos.ne', Int.cast_abs]
  have small : |m + n| < mantissaBound := by
    rwa [size, ← Int.cast_natCast mantissaBound, Int.cast_lt] at fits
  have room : |a.value + b.value| < mantissaLimit := by
    have := cast_le_of_lt_mantissaBound small
    rw [← size] at this
    have := le_mul_of_one_le_right (abs_nonneg (a.value + b.value))
      (one_le_pow₀ (by norm_num) : (1 : ℚ) ≤ 10 ^ places)
    rw [mantissaLimit_eq]
    linarith
  obtain ⟨c, added, value⟩ := exists_add?_value room
  rw [nearest_of_exact (m + n) le small digits] at value
  exact ⟨c, added, grains_add value⟩

/-! ### Sums of amounts -/

/-- Decimal places of amounts never number more. -/
abbrev amountPlaces : Nat := 8

theorem abs_add_le_of_inRange (ha : a.inRange = true) (hb : b.inRange = true) :
    |a.value + b.value| ≤ 99999999999999999999 + 99999999999999999999 := by
  rw [inRange_iff_abs_value_le, value_maxAmount] at ha hb
  exact (abs_add_le a.value b.value).trans (add_le_add ha hb)

/-- Amounts can be added, and their sum is exact. -/
theorem exists_add? (ha : a.HasPlaces amountPlaces) (hb : b.HasPlaces amountPlaces)
    (hra : a.inRange = true) (hrb : b.inRange = true) :
    ∃ c, a.add? b = some c ∧ c.grains = a.grains + b.grains := by
  refine exists_add?_of_hasPlaces (by decide) ha hb ?_
  have := abs_add_le_of_inRange hra hrb
  rw [mantissaBound_cast, amountPlaces]
  linarith

/-- Two amounts in range have a sum, however many places they are written with. -/
theorem exists_add?_of_inRange (ha : a.inRange = true) (hb : b.inRange = true) :
    ∃ c, a.add? b = some c := by
  have size := abs_add_le_of_inRange ha hb
  have room : |a.value + b.value| < mantissaLimit := by
    rw [mantissaLimit_eq]
    linarith
  obtain ⟨c, added, -⟩ := exists_add?_value room
  exact ⟨c, added⟩

/-- A sum of decimals that is not zero is not rounded to zero either. -/
theorem isZero_of_add?_iff (h : a.add? b = some c) :
    c.isZero = true ↔ a.value + b.value = 0 := by
  rw [isZero_iff_value, value_of_add? h]
  constructor
  · intro rounded
    by_contra nonzero
    have grains : a.value + b.value = (a.grains + b.grains : Int) / 10 ^ maxScale := by
      rw [value_eq_grains, value_eq_grains, ← add_div, Int.cast_add]
    rw [grains] at rounded nonzero
    exact nearest_grains_ne_zero (by rintro none; simp [none] at nonzero) rounded
  · intro exact
    rw [exact, nearest_zero]

/-- The sum of amounts in range misses the exact one by half a unit of the last place of amounts, at
most. -/
theorem abs_value_sub_le_of_add? (ha : a.inRange = true) (hb : b.inRange = true)
    (h : a.add? b = some c) :
    |c.value - (a.value + b.value)| ≤ 1 / 2 / 10 ^ amountPlaces := by
  have size := abs_add_le_of_inRange ha hb
  rw [value_of_add? h]
  refine abs_nearest_sub_le_of_lt (by decide) ?_
  rw [mantissaLimit_eq, amountPlaces]
  linarith

/-! ### Sums of lists -/

variable {ds : List Decimal} {places : Nat}

/-- The sums on the way are no larger than the whole, so they have room when it has. -/
theorem exists_foldlM_add? (le : places ≤ maxScale) (each : ∀ d ∈ ds, d.HasPlaces places)
    (nonneg : ∀ d ∈ ds, 0 ≤ d.value) {start : Decimal} (hs : start.HasPlaces places)
    (hs' : 0 ≤ start.value)
    (fits : (start.value + (ds.map value).sum) * 10 ^ places < mantissaBound) :
    ∃ t, ds.foldlM add? start = some t ∧ t.value = start.value + (ds.map value).sum := by
  induction ds generalizing start with
  | nil => exact ⟨start, rfl, by simp⟩
  | cons d ds ih =>
    rw [List.map_cons, List.sum_cons, ← add_assoc] at fits ⊢
    have own := nonneg d List.mem_cons_self
    have rest : 0 ≤ (ds.map value).sum := List.sum_nonneg fun v hv => by
      obtain ⟨e, he, rfl⟩ := List.mem_map.1 hv
      exact nonneg e (List.mem_cons_of_mem _ he)
    have partly : |start.value + d.value| * 10 ^ places < mantissaBound := by
      rw [abs_of_nonneg (add_nonneg hs' own)]
      refine lt_of_le_of_lt (mul_le_mul_of_nonneg_right ?_ (by positivity)) fits
      exact le_add_of_nonneg_right rest
    have here := each d List.mem_cons_self
    obtain ⟨c, added, grains⟩ := exists_add?_of_hasPlaces le hs here partly
    have value := value_add grains
    have hc : c.HasPlaces places := by
      rw [HasPlaces, grains]
      exact dvd_add hs here
    rw [← value] at fits ⊢
    obtain ⟨t, folded, sum⟩ := ih (fun e he => each e (List.mem_cons_of_mem _ he))
      (fun e he => nonneg e (List.mem_cons_of_mem _ he)) hc (value ▸ add_nonneg hs' own) fits
    exact ⟨t, by rw [List.foldlM_cons, added]; exact folded, sum⟩

/-- A list has an exact sum when this has room with the places of the items. -/
theorem exists_sum? (le : places ≤ maxScale) (each : ∀ d ∈ ds, d.HasPlaces places)
    (nonneg : ∀ d ∈ ds, 0 ≤ d.value)
    (fits : (ds.map value).sum * 10 ^ places < mantissaBound) :
    ∃ t, sum? ds = some t ∧ t.value = (ds.map value).sum := by
  have nothing : zero.value = 0 := value_of_isZero rfl
  have := exists_foldlM_add? le each nonneg (hasPlaces_zero places) nothing.ge
    (by rwa [nothing, zero_add])
  rwa [nothing, zero_add] at this

/-- Every step rounds to the places for which the digits of the largest possible sum have room. -/
theorem exists_foldlM_add?_near {most : ℚ} (le : places ≤ maxScale)
    (nonneg : ∀ d ∈ ds, 0 ≤ d.value) (small : ∀ d ∈ ds, d.value + 1 / 2 / 10 ^ places ≤ most)
    {start : Decimal} (hs : 0 ≤ start.value)
    (room : (start.value + ds.length * most) * 10 ^ places < mantissaLimit) :
    ∃ t, ds.foldlM add? start = some t ∧
      |t.value - (start.value + (ds.map value).sum)| ≤ ds.length * (1 / 2 / 10 ^ places) := by
  -- Each addition adds half a unit of the last place; the start carries what came before.
  induction ds generalizing start with
  | nil => exact ⟨start, rfl, by simp⟩
  | cons d ds ih =>
    rw [List.map_cons, List.sum_cons]
    rw [List.length_cons, Nat.cast_add, Nat.cast_one] at room ⊢
    have own := nonneg d List.mem_cons_self
    have bound := small d List.mem_cons_self
    have half : (0 : ℚ) < 1 / 2 / 10 ^ places := by positivity
    have later : 0 ≤ (ds.length : ℚ) * most := mul_nonneg (Nat.cast_nonneg _) (by linarith)
    have sum := add_nonneg hs own
    have partly : |start.value + d.value| * 10 ^ places < mantissaLimit := by
      rw [abs_of_nonneg sum]
      refine lt_of_le_of_lt (mul_le_mul_of_nonneg_right ?_ (by positivity)) room
      linarith
    have whole : |start.value + d.value| < mantissaLimit :=
      lt_of_le_of_lt (le_mul_of_one_le_right (abs_nonneg _) (one_le_pow₀ (by norm_num))) partly
    obtain ⟨c, added, value⟩ := exists_add?_value whole
    have near := abs_nearest_sub_le_of_lt le partly
    rw [← value] at near
    have above := (abs_le.1 near).2
    have positive : 0 ≤ c.value := value ▸ nearest_nonneg sum
    obtain ⟨t, folded, close⟩ := ih (fun e he => nonneg e (List.mem_cons_of_mem _ he))
      (fun e he => small e (List.mem_cons_of_mem _ he)) positive
      (lt_of_le_of_lt (mul_le_mul_of_nonneg_right (by linarith) (by positivity)) room)
    refine ⟨t, by rw [List.foldlM_cons, added]; exact folded, ?_⟩
    calc |t.value - (start.value + (d.value + (ds.map Decimal.value).sum))|
        = |(t.value - (c.value + (ds.map Decimal.value).sum)) +
            (c.value - (start.value + d.value))| := by ring_nf
      _ ≤ ds.length * (1 / 2 / 10 ^ places) + 1 / 2 / 10 ^ places :=
          (abs_add_le _ _).trans (add_le_add close near)
      _ = (ds.length + 1) * (1 / 2 / 10 ^ places) := by ring

/-- The errors of a sum add up to half a unit of the last place for each item, at most. -/
theorem exists_sum?_near {most : ℚ} (le : places ≤ maxScale) (nonneg : ∀ d ∈ ds, 0 ≤ d.value)
    (small : ∀ d ∈ ds, d.value + 1 / 2 / 10 ^ places ≤ most)
    (room : ds.length * most * 10 ^ places < mantissaLimit) :
    ∃ t, sum? ds = some t ∧
      |t.value - (ds.map value).sum| ≤ ds.length * (1 / 2 / 10 ^ places) := by
  have nothing : zero.value = 0 := value_of_isZero rfl
  have := exists_foldlM_add?_near le nonneg small nothing.ge (by rwa [nothing, zero_add])
  rwa [nothing, zero_add] at this

end Bureau.Decimal
