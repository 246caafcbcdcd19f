import Bureau.Ledger.Store
import Bureau.Proofs.Decimal.Sum

/-!
# Totals of the ledger

The total of a currency is summed over its accounts in the order in which they come. With balances
from zero to the largest amount and fewer than `2²⁰` accounts there always is a total. It is exact,
and so the same in every order, as long as the digits of the exact sum have room in 96 bits with the
places of the currency: always for money, and for crypto with at most seven accounts. Past that the
total is rounded on the way, by half a hundredth for each account at most, and depends on the order
(`Ledger.totals_close`, `Ledger.total_varies`).
-/

namespace Bureau

/-- The balance is at the scale of its currency, not negative and no larger than the largest
amount. -/
structure Account.Regular (a : Account) : Prop where
  atScale : (Money.mk a.balance a.currency).isAtScale = true
  notNegative : a.balance.isNegative = false
  inRange : a.balance.inRange = true

instance (a : Account) : Decidable a.Regular :=
  decidable_of_iff ((Money.mk a.balance a.currency).isAtScale = true ∧
      a.balance.isNegative = false ∧ a.balance.inRange = true)
    ⟨fun ⟨atScale, notNegative, inRange⟩ => ⟨atScale, notNegative, inRange⟩,
      fun h => ⟨h.atScale, h.notNegative, h.inRange⟩⟩

namespace Account.Regular

variable {a : Account}

theorem hasPlaces (h : a.Regular) : a.balance.HasPlaces a.currency.places :=
  Money.isExact_of_isAtScale h.atScale

theorem nonneg (h : a.Regular) : 0 ≤ a.balance.value := by
  have := h.notNegative
  rwa [Bool.eq_false_iff, Ne, Decimal.isNegative_iff_value, not_lt] at this

theorem value_le (h : a.Regular) : a.balance.value ≤ 99999999999999999999 := by
  have := (Decimal.inRange_iff_abs_value_le _).1 h.inRange
  rwa [value_maxAmount, abs_of_nonneg h.nonneg] at this

end Account.Regular

namespace Ledger

/-- The balances of all accounts in a currency. -/
def balances (l : Ledger) (currency : Currency) : List Decimal :=
  (l.accounts.filter (·.currency = currency)).map (·.balance)

/-- The exact sum of all balances in a currency. -/
def exactTotal (l : Ledger) (currency : Currency) : ℚ :=
  ((l.balances currency).map Decimal.value).sum

variable {l : Ledger} {currency : Currency} {accounts : List Account}

theorem totalBalance_eq_ok {t : Decimal} (h : Decimal.sum? (l.balances currency) = some t) :
    l.totalBalance currency = .ok t := by
  rw [balances] at h
  rw [totalBalance, h]
  rfl

theorem balances_perm (order : accounts.Perm l.accounts) (currency : Currency) :
    (({ l with accounts } : Ledger).balances currency).Perm (l.balances currency) :=
  (order.filter _).map _

theorem exactTotal_perm (order : accounts.Perm l.accounts) (currency : Currency) :
    ({ l with accounts } : Ledger).exactTotal currency = l.exactTotal currency :=
  ((balances_perm order currency).map _).sum_eq

theorem length_balances_le (l : Ledger) (currency : Currency) :
    (l.balances currency).length ≤ l.accounts.length := by
  rw [balances, List.length_map]
  exact List.length_filter_le _ _

section Regular

variable (regular : ∀ a ∈ l.accounts, a.Regular)

include regular

theorem regular_of_mem_balances {d : Decimal} (h : d ∈ l.balances currency) :
    d.HasPlaces currency.places ∧ 0 ≤ d.value ∧ d.value ≤ 99999999999999999999 := by
  obtain ⟨a, ha, rfl⟩ := List.mem_map.1 h
  obtain ⟨there, same⟩ := List.mem_filter.1 ha
  obtain rfl := of_decide_eq_true same
  have own := regular a there
  exact ⟨own.hasPlaces, own.nonneg, own.value_le⟩

theorem exactTotal_le (currency : Currency) :
    l.exactTotal currency ≤ (l.balances currency).length * 99999999999999999999 := by
  have := List.sum_le_card_nsmul ((l.balances currency).map Decimal.value) 99999999999999999999
    fun v hv => by
      obtain ⟨d, hd, rfl⟩ := List.mem_map.1 hv
      exact (regular_of_mem_balances regular hd).2.2
  rwa [List.length_map, nsmul_eq_mul] at this

/-- The total is exact when it has room with the places of the currency. -/
theorem exists_totalBalance
    (fits : l.exactTotal currency * 10 ^ currency.places < Decimal.mantissaBound) :
    ∃ t, l.totalBalance currency = .ok t ∧ t.value = l.exactTotal currency := by
  obtain ⟨t, summed, value⟩ := Decimal.exists_sum?
    (currency.places_le.trans (by decide))
    (fun d hd => (regular_of_mem_balances regular hd).1)
    (fun d hd => (regular_of_mem_balances regular hd).2.1) fits
  exact ⟨t, totalBalance_eq_ok summed, value⟩

/-- With fewer than `2²⁰` accounts two places are never lost. -/
theorem exists_totalBalance_near (few : l.accounts.length < twoTo 20) (currency : Currency) :
    ∃ t, l.totalBalance currency = .ok t ∧ |t.value - l.exactTotal currency| ≤
      (l.balances currency).length * (1 / 2 / 10 ^ 2) := by
  have length : (l.balances currency).length ≤ 1048576 :=
    (length_balances_le l currency).trans few.le
  have length' : ((l.balances currency).length : ℚ) ≤ 1048576 := by exact_mod_cast length
  have small : ∀ d ∈ l.balances currency,
      d.value + 1 / 2 / 10 ^ 2 ≤ 100000000000000000000 := by
    intro d hd
    have := (regular_of_mem_balances regular hd).2.2
    linarith
  have room : ((l.balances currency).length : ℚ) * 100000000000000000000 * 10 ^ 2 <
      Decimal.mantissaLimit := by
    rw [Decimal.mantissaLimit_eq]
    linarith
  obtain ⟨t, summed, close⟩ := Decimal.exists_sum?_near (by decide)
    (fun d hd => (regular_of_mem_balances regular hd).2.1) small room
  exact ⟨t, totalBalance_eq_ok summed, close⟩

/-- Two places always have room, and so have eight for as many as seven accounts. -/
theorem exactTotal_fits (few : l.accounts.length < twoTo 20)
    (h : currency.places ≤ 2 ∨ (l.balances currency).length ≤ 7) :
    l.exactTotal currency * 10 ^ currency.places < Decimal.mantissaBound := by
  have sum := exactTotal_le regular currency
  have count {bound : Nat} (le : (l.balances currency).length ≤ bound) :
      ((l.balances currency).length : ℚ) ≤ bound := by exact_mod_cast le
  have more {places : Nat} (le : currency.places ≤ places) :
      l.exactTotal currency * 10 ^ currency.places ≤
        (l.balances currency).length * 99999999999999999999 * 10 ^ places :=
    mul_le_mul sum (pow_le_pow_right₀ (by norm_num) le) (by positivity) (by positivity)
  rw [Decimal.mantissaBound_cast]
  rcases h with two | seven
  · have := more two
    have := count ((length_balances_le l currency).trans few.le)
    push_cast at this
    linarith
  · have := more currency.places_le
    have := count seven
    push_cast at this
    linarith

end Regular

/-- In whatever order the accounts come, there is a total, and it misses the exact one by half a
hundredth for each account in the currency at most. It is the exact one whenever this has room with
the places of the currency, and so for every currency of two places, and for any currency in which
there are at most seven accounts. -/
theorem totals_close (l : Ledger) (regular : ∀ a ∈ l.accounts, a.Regular)
    (few : l.accounts.length < twoTo 20) (currency : Currency) {accounts : List Account}
    (order : accounts.Perm l.accounts) :
    ∃ t, ({ l with accounts } : Ledger).totalBalance currency = .ok t ∧
      |t.value - l.exactTotal currency| ≤ (l.balances currency).length * (1 / 2 / 10 ^ 2) ∧
      (l.exactTotal currency * 10 ^ currency.places < Decimal.mantissaBound →
        t.value = l.exactTotal currency) ∧
      (currency.places ≤ 2 ∨ (l.balances currency).length ≤ 7 →
        t.value = l.exactTotal currency) := by
  have regular' : ∀ a ∈ ({ l with accounts } : Ledger).accounts, a.Regular :=
    fun a ha => regular a (order.subset ha)
  have few' : ({ l with accounts } : Ledger).accounts.length < twoTo 20 :=
    order.length_eq ▸ few
  obtain ⟨t, total, close⟩ := exists_totalBalance_near regular' few' currency
  rw [exactTotal_perm order, (balances_perm order currency).length_eq] at close
  have exact : l.exactTotal currency * 10 ^ currency.places < Decimal.mantissaBound →
      t.value = l.exactTotal currency := by
    intro fits
    rw [← exactTotal_perm order] at fits
    obtain ⟨t', total', value⟩ := exists_totalBalance regular' fits
    obtain rfl : t = t' := Except.ok.inj (total.symm.trans total')
    rw [value, exactTotal_perm order]
  exact ⟨t, total, close, exact, fun h => exact (exactTotal_fits regular few h)⟩

/-- An account of a client of its own that holds so much. -/
def holding (client : BitVec 128) (currency : Currency) (balance : Decimal) : Account :=
  { Account.opened ⟨⟨.ofRandom client⟩, currency⟩ default with balance }

/-- The largest amount of money that there is, twice, and a hundredth: the total is exact in both
orders. -/
theorem totals_close_dollars :
    let large : Decimal := .hundredths 9999999999999999999900
    let l : Ledger :=
      { accounts := [holding 1 Currency.usd large, holding 2 Currency.usd large,
          holding 3 Currency.usd (.hundredths 1)] }
    let reversed : Ledger := { accounts := l.accounts.reverse }
    (∃ t, l.totalBalance Currency.usd = .ok t ∧ t.value = l.exactTotal Currency.usd) ∧
      ∃ t, reversed.totalBalance Currency.usd = .ok t ∧ t.value = l.exactTotal Currency.usd := by
  intro large l reversed
  have regular : ∀ a ∈ l.accounts, a.Regular := by decide +kernel
  have few : l.accounts.length < twoTo 20 := by decide
  have two : Currency.usd.places ≤ 2 := by decide
  obtain ⟨t, total, -, -, exact⟩ := totals_close l regular few Currency.usd (.refl _)
  obtain ⟨t', total', -, -, exact'⟩ :=
    totals_close l regular few Currency.usd l.accounts.reverse_perm
  exact ⟨⟨t, total, exact (.inl two)⟩, t', total', exact' (.inl two)⟩

/-- Eight large balances in bitcoin and a small one: the exact total has one digit too many for 96
bits. Which decimal is answered depends on whether the small balance comes last or first, and
neither is the exact total. -/
theorem total_varies :
    let large : Decimal := ⟨false, 9999999999999999999899999999, 8, by decide, by decide⟩
    let small : Decimal := ⟨false, 4, 8, by decide, by decide⟩
    let rich := [1, 2, 3, 4, 5, 6, 7, 8].map fun n => holding n Currency.btc large
    let l : Ledger := { accounts := rich ++ [holding 9 Currency.btc small] }
    let l' : Ledger := { accounts := holding 9 Currency.btc small :: rich }
    (∀ a ∈ l.accounts, a.Regular) ∧ l.accounts.length < twoTo 20 ∧
      (l.accounts.map Account.key).Nodup ∧ l'.accounts.Perm l.accounts ∧
      ∃ t t', l.totalBalance Currency.btc = .ok t ∧ l'.totalBalance Currency.btc = .ok t' ∧
        t.value ≠ t'.value ∧ t.value ≠ l.exactTotal Currency.btc ∧
        t'.value ≠ l.exactTotal Currency.btc := by
  intro large small rich l l'
  have differ {t : Decimal}
      (h : t.grains ≠ ((l.balances Currency.btc).map Decimal.grains).sum) :
      t.value ≠ l.exactTotal Currency.btc := by
    intro same
    have ten : (10 : ℚ) ^ Decimal.maxScale ≠ 0 := by positivity
    rw [exactTotal, Decimal.sum_value, Decimal.value_eq_grains, div_left_inj' ten] at same
    exact h (by exact_mod_cast same)
  refine ⟨by decide +kernel, by decide, by decide +kernel, (List.perm_append_singleton _ _).symm,
    ⟨false, 7999999999999999999919999999, 7, by decide, by decide⟩,
    ⟨false, 7999999999999999999920000000, 7, by decide, by decide⟩, by decide +kernel,
    by decide +kernel, ?_, differ (by decide +kernel), differ (by decide +kernel)⟩
  intro same
  exact absurd (Decimal.value_le_value.1 same.ge) (by decide +kernel)

end Ledger

end Bureau
