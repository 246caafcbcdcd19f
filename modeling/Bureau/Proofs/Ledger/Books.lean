import Bureau.Proofs.Decimal.Sum
import Bureau.Proofs.Ledger.Batch

/-!
# Balanced books

The books balance when every account is the sum of its rows and its latest row is the one that it
remembers. Opening an account keeps them balanced, and so does a posting whose rows are exact and
bear one date: the balances are computed without rounding because they are in range and exact
themselves. Such a posting goes through when no account is overdrawn or overfilled, and it changes
just what its rows say (`Ledger.Balanced.books`).
-/

namespace Bureau

namespace Posting

/-- The change that is computed for an account is the one that is applied to it. -/
theorem Computed.settled {p : Posting} {l : Ledger} {keys : List AccountKey}
    {changes : List BalanceChange} (h : p.Computed l keys changes) {a : Account}
    (found : l.account? a.key = some a) (hkey : a.key ∈ keys) (moment : Instant) :
    ∃ c, BalanceChange.compute a.key a.balance (p.delta a.key) = .ok c ∧
      a.settled changes moment = a.apply c moment := by
  induction h with
  | nil => cases hkey
  | @cons key c keys changes hc _ ih =>
    have ckey : c.key = key := key_of_changeIn hc
    by_cases same : key = a.key
    · refine ⟨c, ?_, ?_⟩
      · rw [same, changeIn_eq found] at hc
        exact hc
      · simp [Account.settled, ckey, same]
    · obtain ⟨d, hd, settled⟩ := ih ((List.mem_cons.1 hkey).resolve_left (Ne.symm same))
      refine ⟨d, hd, ?_⟩
      rw [← settled]
      simp [Account.settled, ckey, same]

end Posting

/-! ### Accounts and their rows -/

/-- The rows of an account. -/
def Account.rows (a : Account) (journal : List JournalEntry) : List JournalEntry :=
  journal.filter (·.key = a.key)

/-- The account is what its rows make of it. -/
structure Account.Agrees (a : Account) (journal : List JournalEntry) : Prop where
  holdable : a.currency.isClearing = false
  sum : a.balance.grains = ((a.rows journal).map (·.amount.grains)).sum
  nonneg : 0 ≤ a.balance.grains
  inRange : a.balance.inRange = true
  places : a.balance.HasPlaces a.currency.places
  lastAmount : a.lastTxAmount = ((a.rows journal).getLast?.map (·.amount)).getD Decimal.zero
  lastAt : a.lastTxAt = (a.rows journal).getLast?.map (·.transactedAt)

namespace Account

theorem agrees_opened {key : AccountKey} {journal : List JournalEntry} (now : Instant)
    (holdable : key.currency.isClearing = false) (new : ∀ e ∈ journal, e.key ≠ key) :
    (opened key now).Agrees journal := by
  have rows : (opened key now).rows journal = [] :=
    List.filter_eq_nil_iff.2 fun e he same => new e he (of_decide_eq_true same)
  exact {
    holdable
    sum := by rw [rows]; exact Decimal.grains_zero
    nonneg := Decimal.grains_zero.ge
    inRange := (by decide : Decimal.zero.inRange = true)
    places := Decimal.hasPlaces_zero _
    lastAmount := by rw [rows]; rfl
    lastAt := by rw [rows]; rfl }

/-- Rows of others do not concern the account. -/
theorem Agrees.append {a : Account} {journal entries : List JournalEntry} (h : a.Agrees journal)
    (others : a.rows entries = []) : a.Agrees (journal ++ entries) := by
  have rows : a.rows (journal ++ entries) = a.rows journal := by
    rw [Account.rows, List.filter_append]
    exact (congrArg _ others).trans (List.append_nil _)
  exact {
    holdable := h.holdable
    sum := rows.symm ▸ h.sum
    nonneg := h.nonneg
    inRange := h.inRange
    places := h.places
    lastAmount := rows.symm ▸ h.lastAmount
    lastAt := rows.symm ▸ h.lastAt }

section Agrees

variable {a : Account} {journal : List JournalEntry} {delta : Decimal} (h : a.Agrees journal)
  (inRange : delta.inRange = true) (places : delta.HasPlaces a.currency.places)
include h inRange places

/-- What is added to the balance is added without rounding. -/
theorem Agrees.exists_add? :
    ∃ after, a.balance.add? delta = some after ∧
      after.grains = a.balance.grains + delta.grains :=
  Decimal.exists_add? (h.places.mono a.currency.places_le) (places.mono a.currency.places_le)
    h.inRange inRange

theorem Agrees.of_compute {c : BalanceChange}
    (computed : BalanceChange.compute a.key a.balance delta = .ok c) :
    c.key = a.key ∧ c.delta = delta ∧ c.after.grains = a.balance.grains + delta.grains ∧
      c.after.inRange = true ∧ (delta.isNegative = true → c.after.isNegative = false) := by
  obtain ⟨after, added, afterRange, covered, rfl⟩ := BalanceChange.compute_eq_ok computed
  obtain ⟨sum, found, exact⟩ := h.exists_add? inRange places
  obtain rfl := Option.some.inj (found.symm.trans added)
  exact ⟨rfl, rfl, exact, afterRange, covered⟩

/-- A change is allowed that leaves a balance which is neither negative nor too large. -/
theorem Agrees.compute (covered : 0 ≤ a.balance.grains + delta.grains)
    (room : a.balance.grains + delta.grains ≤ maxAmount.grains) :
    ∃ c, BalanceChange.compute a.key a.balance delta = .ok c := by
  obtain ⟨after, added, exact⟩ := h.exists_add? inRange places
  rw [← exact] at covered room
  refine ⟨_, BalanceChange.compute_of_add? added ?_ ?_⟩
  · rw [Decimal.inRange_iff, abs_of_nonneg covered]
    exact room
  · rw [← Bool.not_eq_true, Decimal.isNegative_iff, not_lt]
    exact covered

end Agrees

/-- The account agrees with one row more when the row's amount has been added to its balance. -/
theorem Agrees.apply {a : Account} {journal entries : List JournalEntry} {e : JournalEntry}
    {c : BalanceChange} (h : a.Agrees journal) (own : a.rows entries = [e])
    (inRange : e.amount.inRange = true) (places : e.amount.HasPlaces a.currency.places)
    (computed : BalanceChange.compute a.key a.balance e.amount = .ok c) :
    (a.apply c e.transactedAt).Agrees (journal ++ entries) := by
  obtain ⟨-, delta, exact, afterRange, covered⟩ := h.of_compute inRange places computed
  have rows (moment : Instant) :
      (a.apply c moment).rows (journal ++ entries) = a.rows journal ++ [e] := by
    rw [← own]
    exact List.filter_append ..
  refine ⟨h.holdable, ?_, ?_, afterRange, ?_, ?_, ?_⟩
  · rw [rows, List.map_append, List.sum_append, ← h.sum, List.map_singleton, List.sum_singleton]
    exact exact
  · change 0 ≤ c.after.grains
    by_cases negative : e.amount.isNegative = true
    · have := covered negative
      rwa [← Bool.not_eq_true, Decimal.isNegative_iff, not_lt] at this
    · rw [Decimal.isNegative_iff, not_lt] at negative
      rw [exact]
      exact Int.add_nonneg h.nonneg negative
  · change Decimal.grain a.currency.places ∣ c.after.grains
    rw [exact]
    exact Int.dvd_add h.places places
  · rw [rows, List.getLast?_concat]
    exact delta
  · rw [rows, List.getLast?_concat]
    rfl

end Account

namespace Ledger

/-- Every account agrees with the journal, and no row is without its account. -/
structure Balanced (l : Ledger) : Prop where
  atRest : l.AtRest
  accounts : ∀ a ∈ l.accounts, a.Agrees l.journal
  rows : ∀ e ∈ l.journal, e.isClearing = false → ∃ a ∈ l.accounts, a.key = e.key

theorem balanced_empty : ({} : Ledger).Balanced where
  atRest := atRest_empty
  accounts _ h := absurd h List.not_mem_nil
  rows _ h := absurd h List.not_mem_nil

/-- Two ledgers at rest that show the same. -/
theorem Balanced.congr {l l' : Ledger} (h : l.Balanced) (atRest : l'.AtRest)
    (accounts : l'.accounts = l.accounts) (journal : l'.journal = l.journal) : l'.Balanced where
  atRest
  accounts := by rw [accounts, journal]; exact h.accounts
  rows := by rw [accounts, journal]; exact h.rows

theorem Balanced.createAccount {l : Ledger} (h : l.Balanced) {key : AccountKey} (now : Instant)
    (holdable : key.currency.isClearing = false) : (l.createAccount key now).2.Balanced := by
  have atRest := h.atRest.createAccount key now
  by_cases present : (l.account? key).isSome = true
  · rw [Ledger.createAccount, if_pos present]
    exact h
  · rw [Ledger.createAccount, if_neg present] at atRest ⊢
    have none : ∀ a ∈ l.accounts, a.key ≠ key := by simpa [Ledger.account?] using present
    refine ⟨atRest, fun a ha => ?_, fun e he open_ => ?_⟩
    · rcases List.mem_append.1 ha with ha | ha
      · exact h.accounts a ha
      · obtain rfl := List.mem_singleton.1 ha
        refine Account.agrees_opened now holdable fun e he same => ?_
        obtain ⟨b, hb, hkey⟩ := h.rows e he (by rw [← same] at holdable; exact holdable)
        exact none b hb (hkey.trans same)
    · obtain ⟨b, hb, hkey⟩ := h.rows e he open_
      exact ⟨b, List.mem_append_left _ hb, hkey⟩

/-- A posting keeps the books balanced when the rows of clients are exact and all are of one
date. -/
theorem Balanced.post {l l' : Ledger} (h : l.Balanced) {p : Posting}
    {changes : List BalanceChange} (rows : p.Rows)
    (places : ∀ e ∈ p.batch.entries, e.isClearing = false →
      e.amount.HasPlaces e.currency.places)
    (dated : ∀ e ∈ p.batch.entries, e.transactedAt = p.moment)
    (posts : p.Posts changes l l') (atRest : l'.AtRest) : l'.Balanced := by
  obtain ⟨computed, accounts, journal⟩ := posts
  refine ⟨atRest, fun b hb => ?_, fun e he open_ => ?_⟩
  · rw [accounts] at hb
    obtain ⟨a, ha, rfl⟩ := List.mem_map.1 hb
    have agrees := h.accounts a ha
    rw [journal]
    -- At most one row of a settlement is for this account, so its change is that row.
    by_cases touched : ∃ e ∈ p.batch.entries, e.key = a.key
    · obtain ⟨e, he, hkey⟩ := touched
      have found : l.account? a.key = some a := h.atRest.sound.account?_eq_some_iff.2 ⟨ha, rfl⟩
      obtain ⟨c, hc, settled⟩ := computed.settled found
        ((rows.keys _).2 ⟨⟨e, he, hkey⟩, agrees.holdable⟩) p.moment
      have own : a.rows p.batch.entries = [e] := by
        rw [Account.rows, ← hkey]
        exact rows.alone e he
      have currency : e.currency = a.currency := congrArg AccountKey.currency hkey
      have exactRow := places e he (by rw [JournalEntry.isClearing, currency, agrees.holdable])
      rw [currency] at exactRow
      rw [← hkey, rows.delta e he, hkey] at hc
      rw [settled, ← dated e he]
      exact agrees.apply own (rows.inRange e he) exactRow hc
    · have notKey : a.key ∉ changes.map BalanceChange.key := by
        rw [computed.keys_eq, rows.keys]
        exact fun hk => touched hk.1
      rw [a.settled_of_notMem notKey]
      refine agrees.append ?_
      simpa [Account.rows] using touched
  · rw [accounts]
    rw [journal] at he
    obtain ⟨a, ha, hkey⟩ : ∃ a ∈ l.accounts, a.key = e.key := by
      rcases List.mem_append.1 he with he | he
      · exact h.rows e he open_
      · obtain ⟨a, -, ha, -⟩ := computed.account? ((rows.keys e.key).2 ⟨⟨e, he, rfl⟩, open_⟩)
        exact ⟨a, mem_of_account? ha, key_of_account? ha⟩
    exact ⟨_, List.mem_map_of_mem ha, (a.key_settled changes p.moment).trans hkey⟩

/-- The journal has grown by these rows. The account of each row of a client has been changed by
its amount and remembers it, and no other account has changed. -/
structure Books (l l' : Ledger) (rows : List JournalEntry) : Prop where
  journal : l'.journal = l.journal ++ rows
  changed : ∀ e ∈ rows, e.isClearing = false → ∃ a balance, l.account? e.key = some a ∧
    l'.account? e.key = some { a with
      balance, lastTxAmount := e.amount, lastTxAt := some e.transactedAt } ∧
    balance.value = a.balance.value + e.amount.value
  others : ∀ key, (∀ e ∈ rows, e.key ≠ key) → l'.account? key = l.account? key
  keys : l'.accounts.map Account.key = l.accounts.map Account.key

/-- On balanced books, a posting of exact rows changes just what its rows say. -/
theorem Balanced.books {l l' : Ledger} (h : l.Balanced) {p : Posting}
    {changes : List BalanceChange} (rows : p.Rows)
    (places : ∀ e ∈ p.batch.entries, e.isClearing = false →
      e.amount.HasPlaces e.currency.places)
    (dated : ∀ e ∈ p.batch.entries, e.transactedAt = p.moment)
    (posts : p.Posts changes l l') : l.Books l' p.batch.entries where
  journal := posts.journal
  changed e he open_ := by
    have touched : e.key ∈ p.keys := (rows.keys e.key).2 ⟨⟨e, he, rfl⟩, open_⟩
    obtain ⟨a, -, found, -⟩ := posts.computed.account? touched
    have key : a.key = e.key := key_of_account? found
    have currency : e.currency = a.currency := (congrArg AccountKey.currency key).symm
    have agrees := h.accounts a (mem_of_account? found)
    obtain ⟨c, computed, settled⟩ :=
      posts.computed.settled (key ▸ found) (key ▸ touched) p.moment
    rw [key, rows.delta e he, ← key] at computed
    obtain ⟨-, delta, exact, -⟩ :=
      agrees.of_compute (rows.inRange e he) (currency ▸ places e he open_) computed
    refine ⟨a, c.after, found, ?_, Decimal.value_add exact⟩
    rw [posts.account?, found, Option.map_some, settled, dated e he, Account.apply, delta]
  others key untouched := by
    rw [posts.account?]
    cases found : l.account? key with
    | none => rfl
    | some a =>
      have notKey : a.key ∉ changes.map BalanceChange.key := by
        rw [posts.computed.keys_eq, rows.keys, key_of_account? found]
        rintro ⟨⟨e, he, same⟩, -⟩
        exact untouched e he same
      rw [Option.map_some, a.settled_of_notMem notKey]
  keys := by
    rw [posts.accounts, List.map_map]
    exact List.map_congr_left fun a _ => a.key_settled changes p.moment

/-- A posting of exact rows can be computed when no account of a client is overdrawn or
overfilled. -/
theorem Balanced.exists_computed {l : Ledger} (h : l.Balanced) {p : Posting} (rows : p.Rows)
    (places : ∀ e ∈ p.batch.entries, e.isClearing = false →
      e.amount.HasPlaces e.currency.places)
    (allowed : ∀ e ∈ p.batch.entries, e.isClearing = false → ∃ a, l.account? e.key = some a ∧
      0 ≤ a.balance.grains + e.amount.grains ∧
      a.balance.grains + e.amount.grains ≤ maxAmount.grains) :
    ∃ changes, p.Computed l p.keys changes := by
  refine Posting.exists_computed fun key touched => ?_
  obtain ⟨⟨e, he, rfl⟩, open_⟩ := (rows.keys _).1 touched
  obtain ⟨a, found, covered, room⟩ := allowed e he open_
  have key : a.key = e.key := key_of_account? found
  have currency : e.currency = a.currency := (congrArg AccountKey.currency key).symm
  have agrees := h.accounts a (mem_of_account? found)
  obtain ⟨c, computed⟩ := agrees.compute (rows.inRange e he)
    (currency ▸ places e he open_) covered room
  rw [Posting.changeIn_eq found, rows.delta e he, ← key]
  exact ⟨c, computed⟩

end Ledger

end Bureau
