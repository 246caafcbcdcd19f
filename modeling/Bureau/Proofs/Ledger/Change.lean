import Bureau.Ledger.Account
import Bureau.Proofs.Decimal.Sum

/-!
# Changes of a balance

What comes of an amount that is brought into a balance is decided by the sum of the two
(`BalanceChange.compute_of_sum`). A balance and an amount in range of at most eight places, however
they are written, have an exact sum; so the change is refused exactly when the sum is negative or
larger than the largest amount (`BalanceChange.computes_exactly`).
-/

namespace Bureau.BalanceChange

open Decimal (amountPlaces)

variable {key : AccountKey} {balance delta after : Decimal} {c : BalanceChange}

/-! ### What is decided by the sum -/

theorem compute_of_sum (key : AccountKey) (sum : balance.add? delta = some after) :
    compute key balance delta =
      if after.inRange = false then .error (.balanceOverflow key balance delta)
      else if delta.isNegative ∧ after.isNegative then
        .error (.insufficientFunds key balance delta.neg)
      else .ok ⟨key, delta, balance, after⟩ := by
  rw [compute, sum, Option.filter_some]
  cases after.inRange <;> rfl

theorem compute_eq_ok (h : compute key balance delta = .ok c) :
    ∃ after, balance.add? delta = some after ∧ after.inRange = true ∧
      (delta.isNegative = true → after.isNegative = false) ∧ c = ⟨key, delta, balance, after⟩ := by
  cases sum : balance.add? delta with
  | none => simp [compute, sum] at h
  | some after =>
    rw [compute_of_sum key sum] at h
    split_ifs at h with inRange covered
    cases h
    exact ⟨after, rfl, by simpa using inRange, fun negative => by simpa [negative] using covered,
      rfl⟩

theorem compute_of_add? (sum : balance.add? delta = some after) (inRange : after.inRange = true)
    (covered : after.isNegative = false) :
    compute key balance delta = .ok ⟨key, delta, balance, after⟩ := by
  rw [compute_of_sum key sum, if_neg (by simp [inRange]), if_neg (by simp [covered])]

theorem key_of_compute (h : compute key balance delta = .ok c) : c.key = key := by
  obtain ⟨after, -, -, -, rfl⟩ := compute_eq_ok h
  rfl

theorem inRange_of_compute (h : compute key balance delta = .ok c) : c.after.inRange = true := by
  obtain ⟨after, -, inRange, -, rfl⟩ := compute_eq_ok h
  exact inRange

theorem compute_ne_inconsistent (key : AccountKey) (balance delta : Decimal) {reason : String} :
    compute key balance delta ≠ .error (.inconsistent reason) := by
  cases sum : balance.add? delta with
  | none => simp [compute, sum]
  | some after =>
    rw [compute_of_sum key sum]
    split_ifs <;> simp

/-! ### Changes of few places -/

/-- The exact sum alone decides. -/
theorem compute_cases (key : AccountKey) (hb : balance.HasPlaces amountPlaces)
    (hd : delta.HasPlaces amountPlaces) (nonneg : 0 ≤ balance.value)
    (most : balance.value ≤ maxAmount.value) (inRange : |delta.value| ≤ maxAmount.value) :
    (0 ≤ balance.value + delta.value ∧ balance.value + delta.value ≤ maxAmount.value ∧
      ∃ after : Decimal, after.value = balance.value + delta.value ∧
        compute key balance delta = .ok ⟨key, delta, balance, after⟩) ∨
    (balance.value + delta.value < 0 ∧
      compute key balance delta = .error (.insufficientFunds key balance delta.neg)) ∨
    (maxAmount.value < balance.value + delta.value ∧
      compute key balance delta = .error (.balanceOverflow key balance delta)) := by
  obtain ⟨after, sum, grains⟩ := Decimal.exists_add? hb hd
    ((Decimal.inRange_iff_abs_value_le _).2 (by rwa [abs_of_nonneg nonneg]))
    ((Decimal.inRange_iff_abs_value_le _).2 inRange)
  have value := Decimal.value_add grains
  have debit := (abs_le.1 inRange).1
  rcases lt_or_ge maxAmount.value (balance.value + delta.value) with beyond | within
  · have outside : after.inRange = false := by
      rw [Bool.eq_false_iff, Ne, Decimal.inRange_iff_abs_value_le, value, not_le]
      exact beyond.trans_le (le_abs_self _)
    exact .inr (.inr ⟨beyond, by rw [compute_of_sum key sum, if_pos outside]⟩)
  have inside : ¬after.inRange = false := by
    rw [Bool.not_eq_false, Decimal.inRange_iff_abs_value_le, value, abs_le]
    exact ⟨by linarith, within⟩
  rcases lt_or_ge (balance.value + delta.value) 0 with short | covered
  · have negative : delta.isNegative = true ∧ after.isNegative = true := by
      rw [Decimal.isNegative_iff_value, Decimal.isNegative_iff_value, value]
      exact ⟨by linarith, short⟩
    exact .inr (.inl ⟨short, by rw [compute_of_sum key sum, if_neg inside, if_pos negative]⟩)
  · have positive : ¬(delta.isNegative = true ∧ after.isNegative = true) := by
      rw [Decimal.isNegative_iff_value, Decimal.isNegative_iff_value, value]
      exact fun h => absurd h.2 (not_lt.2 covered)
    exact .inl ⟨covered, within, after, value,
      by rw [compute_of_sum key sum, if_neg inside, if_neg positive]⟩

/-- An amount can be brought into a balance exactly when their sum is from zero to the largest
amount, and then it is added exactly. A sum below zero is refused for want of funds and one beyond
the largest amount as too large; there are no others. -/
theorem computes_exactly (key : AccountKey) (balance delta : Decimal)
    (units : ∃ n : Int, balance.value = n / 10 ^ 8) (units' : ∃ n : Int, delta.value = n / 10 ^ 8)
    (nonneg : 0 ≤ balance.value) (most : balance.value ≤ maxAmount.value)
    (inRange : |delta.value| ≤ maxAmount.value) :
    ((∃ c, compute key balance delta = .ok c) ↔
      0 ≤ balance.value + delta.value ∧ balance.value + delta.value ≤ maxAmount.value) ∧
    (∀ c, compute key balance delta = .ok c →
      c.key = key ∧ c.delta = delta ∧ c.before = balance ∧
        c.after.value = balance.value + delta.value) ∧
    (compute key balance delta = .error (.insufficientFunds key balance delta.neg) ↔
      -maxAmount.value ≤ balance.value + delta.value ∧ balance.value + delta.value < 0) ∧
    (compute key balance delta = .error (.balanceOverflow key balance delta) ↔
      maxAmount.value < balance.value + delta.value) ∧
    -maxAmount.value ≤ balance.value + delta.value := by
  have least : -maxAmount.value ≤ balance.value + delta.value := by
    linarith [(abs_le.1 inRange).1]
  have positive : (0 : ℚ) < maxAmount.value := by
    rw [value_maxAmount]
    norm_num
  have places (d : Decimal) : (∃ n : Int, d.value = n / 10 ^ 8) → d.HasPlaces amountPlaces :=
    fun ⟨_, units⟩ => Decimal.hasPlaces_of_value (by decide) units
  rcases compute_cases key (places _ units) (places _ units') nonneg most inRange with
    ⟨covered, within, after, value, computed⟩ | ⟨short, computed⟩ | ⟨beyond, computed⟩ <;>
    rw [computed]
  · refine ⟨iff_of_true ⟨_, rfl⟩ ⟨covered, within⟩, fun c h => ?_,
      iff_of_false nofun fun h => ?_, iff_of_false nofun (not_lt.2 within), least⟩
    · cases h
      exact ⟨rfl, rfl, rfl, value⟩
    · exact absurd h.2 (not_lt.2 covered)
  · refine ⟨iff_of_false nofun fun h => ?_, nofun, iff_of_true rfl ⟨least, short⟩,
      iff_of_false nofun fun h => ?_, least⟩
    · exact absurd h.1 (not_le.2 short)
    · linarith
  · refine ⟨iff_of_false nofun fun h => ?_, nofun, iff_of_false nofun fun h => ?_,
      iff_of_true rfl beyond, least⟩
    · exact absurd h.2 (not_le.2 beyond)
    · linarith

/-- From the largest balance the smallest amount can be taken exactly, and not be added to it. -/
theorem computes_exactly_largest :
    let key : AccountKey := ⟨⟨.ofRandom 1⟩, .btc⟩
    let least : Decimal := ⟨false, 1, 8, by decide, by decide⟩
    (∃ c, compute key maxAmount least.neg = .ok c ∧
      c.after.value = 99999999999999999998.99999999) ∧
    compute key maxAmount least = .error (.balanceOverflow key maxAmount least) := by
  intro key least
  have value : least.value = 1 / 10 ^ 8 := by norm_num [least, Decimal.value]
  have units : ∃ n : Int, maxAmount.value = n / 10 ^ 8 :=
    ⟨9999999999999999999900000000, by norm_num [value_maxAmount]⟩
  have small : |least.value| ≤ maxAmount.value := by norm_num [value, value_maxAmount]
  have nonneg : 0 ≤ maxAmount.value := by norm_num [value_maxAmount]
  obtain ⟨taken, exact, -⟩ := computes_exactly key maxAmount least.neg units
    ⟨-1, by norm_num [value]⟩ nonneg le_rfl (by rwa [Decimal.value_neg, abs_neg])
  obtain ⟨-, -, -, added, -⟩ := computes_exactly key maxAmount least units
    ⟨1, by norm_num [value]⟩ nonneg le_rfl small
  obtain ⟨c, computed⟩ := taken.2 (by norm_num [value, value_maxAmount])
  obtain ⟨-, -, -, after⟩ := exact c computed
  refine ⟨⟨c, computed, ?_⟩, added.2 (by norm_num [value, value_maxAmount])⟩
  rw [after, Decimal.value_neg, value, value_maxAmount]
  norm_num

end Bureau.BalanceChange
