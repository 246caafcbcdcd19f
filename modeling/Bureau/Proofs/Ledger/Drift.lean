import Bureau.Proofs.Ledger.Books

/-!
# Balances and rows of any precision

The ledger takes rows with any number of places, and a balance to which such a row is added may be
rounded. How far it then is from its rows is bounded, posting by posting
(`BalanceChange.Carries.close`). It is not rounded at all as long as no row of the account has more
places than amounts have, whatever the rows of other accounts are (`BalanceChange.Carries.exact`).
-/

namespace Bureau

open Decimal (amountPlaces)

/-- The balance is in range, and it has few places when all rows of the account have few. -/
structure Account.Kept (a : Account) (journal : List JournalEntry) : Prop where
  inRange : a.balance.inRange = true
  places : (∀ e ∈ a.rows journal, e.amount.HasPlaces amountPlaces) →
    a.balance.HasPlaces amountPlaces

/-- The change brings a row into the balance of its account. -/
structure BalanceChange.Carries (c : BalanceChange) (e : JournalEntry) (l l' : Ledger) : Prop where
  key : c.key = e.key
  delta : c.delta = e.amount
  before : (l.account? e.key).map (·.balance) = some c.before
  after : (l'.account? e.key).map (·.balance) = some c.after
  rounded : c.after.value = Decimal.nearest (c.before.value + e.amount.value)
  close : |c.after.value - (c.before.value + e.amount.value)| ≤ 1 / 2 / 10 ^ amountPlaces
  /-- Rows of few places are added as they are. -/
  exact : (∀ r ∈ l'.journal, r.key = e.key → r.amount.HasPlaces amountPlaces) →
    c.after.value = c.before.value + e.amount.value

/-- Nothing is going on, and every account is kept. -/
structure Ledger.Kept (l : Ledger) : Prop where
  atRest : l.AtRest
  accounts : ∀ a ∈ l.accounts, a.Kept l.journal

namespace Account

variable {a : Account} {journal entries : List JournalEntry} {e : JournalEntry} {c : BalanceChange}

theorem kept_opened (key : AccountKey) (now : Instant) (journal : List JournalEntry) :
    (opened key now).Kept journal where
  inRange := (by decide : Decimal.zero.inRange = true)
  places _ := Decimal.hasPlaces_zero _

/-- More rows say no less about the account. -/
theorem Kept.append (h : a.Kept journal) (entries : List JournalEntry) :
    a.Kept (journal ++ entries) where
  inRange := h.inRange
  places few := h.places fun e he => few e (by
    rw [rows, List.filter_append]
    exact List.mem_append_left _ he)

theorem Kept.exists_grains (h : a.Kept journal) (inRange : e.amount.inRange = true)
    (few : ∀ r ∈ a.rows journal, r.amount.HasPlaces amountPlaces)
    (places : e.amount.HasPlaces amountPlaces)
    (computed : BalanceChange.compute a.key a.balance e.amount = .ok c) :
    c.after.grains = a.balance.grains + e.amount.grains := by
  obtain ⟨after, added, -, -, rfl⟩ := BalanceChange.compute_eq_ok computed
  obtain ⟨sum, found, exact⟩ := Decimal.exists_add? (h.places few) places h.inRange inRange
  obtain rfl := Option.some.inj (found.symm.trans added)
  exact exact

/-- The account is kept when a row has been added to its balance. -/
theorem Kept.apply (h : a.Kept journal) (inRange : e.amount.inRange = true) (own : e.key = a.key)
    (there : e ∈ entries) (computed : BalanceChange.compute a.key a.balance e.amount = .ok c)
    (moment : Instant) : (a.apply c moment).Kept (journal ++ entries) where
  inRange := by
    obtain ⟨after, -, afterRange, -, rfl⟩ := BalanceChange.compute_eq_ok computed
    exact afterRange
  places few := by
    have few (r : JournalEntry) (hr : r ∈ journal ++ entries) (same : r.key = a.key) :
        r.amount.HasPlaces amountPlaces :=
      few r (List.mem_filter.2 ⟨hr, decide_eq_true same⟩)
    have places := few e (List.mem_append_right _ there) own
    have earlier (r : JournalEntry) (hr : r ∈ a.rows journal) :
        r.amount.HasPlaces amountPlaces := by
      obtain ⟨hr, same⟩ := List.mem_filter.1 hr
      exact few r (List.mem_append_left _ hr) (of_decide_eq_true same)
    have exact := h.exists_grains inRange earlier places computed
    change Decimal.grain amountPlaces ∣ c.after.grains
    rw [exact]
    exact Int.dvd_add (h.places earlier) places

end Account

namespace Ledger

variable {l l' : Ledger} {p : Posting} {changes : List BalanceChange} {e : JournalEntry}
  {c : BalanceChange}

theorem kept_empty : ({} : Ledger).Kept := ⟨atRest_empty, fun _ h => absurd h List.not_mem_nil⟩

theorem Kept.congr (h : l.Kept) (atRest : l'.AtRest) (accounts : l'.accounts = l.accounts)
    (journal : l'.journal = l.journal) : l'.Kept :=
  ⟨atRest, by rw [accounts, journal]; exact h.accounts⟩

theorem Kept.createAccount (h : l.Kept) (key : AccountKey) (now : Instant) :
    (l.createAccount key now).2.Kept := by
  refine ⟨h.atRest.createAccount key now, ?_⟩
  unfold Ledger.createAccount
  split
  · exact h.accounts
  · intro a ha
    rcases List.mem_append.1 ha with ha | ha
    · exact h.accounts a ha
    · rw [List.mem_singleton.1 ha]
      exact Account.kept_opened key now _

section Posts

variable (h : l.Kept) (rows : p.Rows) (posts : p.Posts changes l l')
include h rows posts

/-- A row of an account that is not the bureau's is brought into its balance. -/
theorem Kept.carries (he : e ∈ p.batch.entries) (open_ : e.isClearing = false)
    (hc : p.changeIn l e.key = .ok c) : c.Carries e l l' := by
  have touched : e.key ∈ p.keys := (rows.keys e.key).2 ⟨⟨e, he, rfl⟩, open_⟩
  obtain ⟨a, found, computed⟩ := Posting.account?_of_changeIn hc
  have key : a.key = e.key := key_of_account? found
  have kept := h.accounts a (mem_of_account? found)
  obtain ⟨d, again, settled⟩ := posts.computed.settled (key ▸ found) (key ▸ touched) p.moment
  rw [key, computed] at again
  cases again
  rw [rows.delta e he] at computed
  obtain ⟨after, added, -, -, made⟩ := BalanceChange.compute_eq_ok computed
  refine {
    key := congrArg BalanceChange.key made
    delta := congrArg BalanceChange.delta made
    before := by rw [found, made]; rfl
    after := by rw [posts.account?, found, Option.map_some, Option.map_some, settled]; rfl
    rounded := by rw [made]; exact Decimal.value_of_add? added
    close := by
      rw [made]
      exact Decimal.abs_value_sub_le_of_add? kept.inRange (rows.inRange e he) added
    exact := fun few => ?_ }
  rw [posts.journal] at few
  have exact := kept.exists_grains (rows.inRange e he) (fun r hr => ?_)
    (few e (List.mem_append_right _ he) rfl) (key ▸ computed)
  · rw [made] at exact ⊢
    exact Decimal.value_add exact
  · obtain ⟨hr, same⟩ := List.mem_filter.1 hr
    exact few r (List.mem_append_left _ hr) ((of_decide_eq_true same).trans key)

/-- Every account is still kept after a posting. -/
theorem Kept.post (atRest : l'.AtRest) : l'.Kept := by
  refine ⟨atRest, fun b hb => ?_⟩
  rw [posts.accounts] at hb
  obtain ⟨a, ha, rfl⟩ := List.mem_map.1 hb
  have kept := h.accounts a ha
  rw [posts.journal]
  by_cases touched : a.key ∈ p.keys
  · obtain ⟨⟨e, he, hkey⟩, open_⟩ := (rows.keys a.key).1 touched
    have found : l.account? a.key = some a := h.atRest.sound.account?_eq_some_iff.2 ⟨ha, rfl⟩
    obtain ⟨c, computed, settled⟩ := posts.computed.settled found touched p.moment
    rw [← hkey, rows.delta e he, hkey] at computed
    rw [settled]
    exact kept.apply (rows.inRange e he) hkey he computed p.moment
  · rw [a.settled_of_notMem (by rwa [posts.computed.keys_eq])]
    exact kept.append _

/-- Every row of a client is carried by one of the changes, and the changes carry nothing else. -/
theorem Kept.carried :
    (∀ e ∈ p.batch.entries, e.isClearing = false → ∃ c ∈ changes, c.Carries e l l') ∧
      ∀ c ∈ changes, ∃ e ∈ p.batch.entries, e.isClearing = false ∧ c.Carries e l l' := by
  refine ⟨fun e he open_ => ?_, fun c hc => ?_⟩
  · have touched : e.key ∈ p.keys := (rows.keys e.key).2 ⟨⟨e, he, rfl⟩, open_⟩
    obtain ⟨a, c, -, hc⟩ := posts.computed.account? touched
    have key : c.key = e.key := Posting.key_of_changeIn hc
    exact ⟨c, posts.computed.mem_iff.2 (key ▸ ⟨touched, hc⟩), h.carries rows posts he open_ hc⟩
  · obtain ⟨touched, computed⟩ := posts.computed.mem_iff.1 hc
    obtain ⟨⟨e, he, hkey⟩, open_⟩ := (rows.keys c.key).1 touched
    rw [← hkey] at open_ computed
    exact ⟨e, he, open_, h.carries rows posts he open_ computed⟩

end Posts

end Ledger

end Bureau
