import Bureau.Ledger.Store
import Mathlib.Data.List.Nodup

/-!
# What a ledger shows

A ledger is seen through two look-ups: the committed account of a key (`account?`) and the open
transaction of a number (`transaction?`), which is in turn seen through its copies (`copy?`). Each
operation is described by what it does to these. `Sound` is what every ledger keeps: one account
for each key, one transaction for each number, and no row locked twice.
-/

namespace Bureau

/-- Where keys are not repeated, looking up a key finds exactly the member that has it. -/
theorem find?_key_eq_some_iff {α κ : Type} [DecidableEq κ] {key : α → κ} {xs : List α}
    (nodup : (xs.map key).Nodup) {k : κ} {x : α} :
    xs.find? (key · = k) = some x ↔ x ∈ xs ∧ key x = k := by
  refine ⟨fun h => ⟨List.mem_of_find?_eq_some h, by simpa using List.find?_some h⟩, ?_⟩
  rintro ⟨hx, rfl⟩
  obtain ⟨y, hy⟩ : ∃ y, xs.find? (key · = key x) = some y := by
    rw [← Option.isSome_iff_exists, List.find?_isSome]
    exact ⟨x, hx, by simp⟩
  have hkey : key y = key x := by simpa using List.find?_some hy
  rw [hy, List.inj_on_of_nodup_map nodup (List.mem_of_find?_eq_some hy) hx hkey]

namespace Account

@[simp] theorem key_apply (a : Account) (change : BalanceChange) (moment : Instant) :
    (a.apply change moment).key = a.key := rfl

@[simp] theorem key_opened (key : AccountKey) (now : Instant) : (opened key now).key = key := rfl

end Account

namespace Transaction

theorem key_of_copy? {t : Transaction} {key : AccountKey} {a : Account}
    (h : t.copy? key = some a) : a.key = key := by
  simpa using List.find?_some h

theorem holds_iff (t : Transaction) (key : AccountKey) :
    t.holds key = true ↔ (t.copy? key).isSome = true := by
  simp [holds, copy?]

/-- The transaction with a copy of one more account. -/
def withCopy (t : Transaction) (a : Account) : Transaction :=
  { t with working := t.working ++ [a] }

/-- A new copy is seen under its key, unless there is a copy already. -/
theorem copy?_withCopy (t : Transaction) (a : Account) (key : AccountKey) :
    (t.withCopy a).copy? key = (t.copy? key).or (if a.key = key then some a else none) := by
  by_cases h : a.key = key <;> simp [copy?, withCopy, List.find?_append, h]

theorem holds_withCopy {t : Transaction} {a : Account} {key : AccountKey}
    (h : (t.withCopy a).holds key = true) : t.holds key = true ∨ a.key = key := by
  simpa [holds, withCopy] using h

/-- The copies with a change written to the one under its key. -/
def write (t : Transaction) (change : BalanceChange) (moment : Instant) : Transaction :=
  { t with
    working := t.working.map fun a => if a.key = change.key then a.apply change moment else a }

theorem copy?_write (t : Transaction) (change : BalanceChange) (moment : Instant)
    (key : AccountKey) :
    (t.write change moment).copy? key =
      (t.copy? key).map fun a => if key = change.key then a.apply change moment else a := by
  have same : (fun a : Account => decide (a.key = key)) ∘
      (fun a => if a.key = change.key then a.apply change moment else a) =
        fun a => decide (a.key = key) := by
    funext a
    by_cases h : a.key = change.key <;> simp [h]
  rw [copy?, write, List.find?_map, same, copy?]
  cases h : t.working.find? (·.key = key) with
  | none => rfl
  | some a =>
    have hkey : a.key = key := by simpa using List.find?_some h
    rw [Option.map_some, Option.map_some, hkey]

@[simp] theorem holds_write (t : Transaction) (change : BalanceChange) (moment : Instant)
    (key : AccountKey) : (t.write change moment).holds key = t.holds key := by
  rw [Bool.eq_iff_iff, holds_iff, holds_iff, copy?_write, Option.isSome_map]

end Transaction

namespace Ledger

theorem key_of_account? {l : Ledger} {key : AccountKey} {a : Account}
    (h : l.account? key = some a) : a.key = key := by
  simpa using List.find?_some h

theorem mem_of_account? {l : Ledger} {key : AccountKey} {a : Account}
    (h : l.account? key = some a) : a ∈ l.accounts :=
  List.mem_of_find?_eq_some h

theorem number_of_transaction? {l : Ledger} {n : Nat} {t : Transaction}
    (h : l.transaction? n = some t) : t.number = n := by
  simpa using List.find?_some h

theorem mem_of_transaction? {l : Ledger} {n : Nat} {t : Transaction}
    (h : l.transaction? n = some t) : t ∈ l.transactions :=
  List.mem_of_find?_eq_some h

/-! ### Transactions, seen by number -/

theorem transaction?_begin (l : Ledger) (n : Nat) :
    l.begin.2.transaction? n = (l.transaction? n).or
      (if l.nextNumber = n then some { number := l.nextNumber } else none) := by
  by_cases h : l.nextNumber = n <;> simp [begin, transaction?, List.find?_append, h]

theorem transaction?_modify (l : Ledger) (n m : Nat) (f : Transaction → Transaction)
    (hf : ∀ t, (f t).number = t.number) :
    (l.modifyTransaction n f).transaction? m =
      if m = n then (l.transaction? m).map f else l.transaction? m := by
  have same : (fun t : Transaction => decide (t.number = m)) ∘
      (fun t => if t.number = n then f t else t) = fun t => decide (t.number = m) := by
    funext t
    by_cases h : t.number = n <;> simp [h, hf]
  rw [transaction?, modifyTransaction, List.find?_map, same, transaction?]
  cases h : l.transactions.find? (·.number = m) with
  | none => simp
  | some t =>
    have hnumber : t.number = m := by simpa using List.find?_some h
    by_cases hm : m = n <;> simp [hnumber, hm]

theorem transaction?_modify_self {l : Ledger} {n : Nat} {t : Transaction}
    {f : Transaction → Transaction} (hf : ∀ t, (f t).number = t.number)
    (h : l.transaction? n = some t) : (l.modifyTransaction n f).transaction? n = some (f t) := by
  rw [transaction?_modify l n n f hf, if_pos rfl, h, Option.map_some]

theorem transaction?_modify_of_ne {l : Ledger} {n m : Nat} {t : Transaction}
    {f : Transaction → Transaction} (hf : ∀ t, (f t).number = t.number)
    (h : l.transaction? m = some t) (hne : m ≠ n) :
    (l.modifyTransaction n f).transaction? m = some t := by
  rw [transaction?_modify l n m f hf, if_neg hne, h]

theorem transaction?_drop (l : Ledger) (n m : Nat) :
    (l.drop n).transaction? m = if m = n then none else l.transaction? m := by
  simp only [drop, transaction?, List.find?_filter]
  by_cases h : m = n
  · rw [if_pos h, List.find?_eq_none]
    intro t _
    simp only [decide_eq_true_eq, not_and]
    rintro hne hnumber
    exact hne (hnumber.trans h)
  · rw [if_neg h]
    congr 1
    funext t
    by_cases ht : t.number = m <;> simp [ht, h]

theorem transaction?_drop_eq_some_iff {l : Ledger} {n m : Nat} {t : Transaction} :
    (l.drop n).transaction? m = some t ↔ m ≠ n ∧ l.transaction? m = some t := by
  rw [transaction?_drop]
  split <;> simp_all

theorem drop_modify (l : Ledger) {n : Nat} {f : Transaction → Transaction}
    (hf : ∀ t, (f t).number = t.number) :
    ((l.modifyTransaction n f).drop n).transactions = (l.drop n).transactions := by
  simp only [drop, modifyTransaction]
  induction l.transactions with
  | nil => rfl
  | cons t rest ih =>
    by_cases h : t.number = n
    · simpa [h, hf] using ih
    · simpa [h] using ih

/-- Another transaction holds a lock when one does that is left without this one. -/
theorem isHeldByOther_eq (l : Ledger) (n : Nat) (key : AccountKey) :
    l.isHeldByOther n key = (l.drop n).transactions.any (·.holds key) := by
  rw [isHeldByOther, drop, List.any_filter]

/-! ### What each operation leaves alone -/

@[simp] theorem accounts_modify (l : Ledger) (n : Nat) (f : Transaction → Transaction) :
    (l.modifyTransaction n f).accounts = l.accounts := rfl
@[simp] theorem accounts_drop (l : Ledger) (n : Nat) : (l.drop n).accounts = l.accounts := rfl

theorem account?_congr {l l' : Ledger} (h : l'.accounts = l.accounts) (key : AccountKey) :
    l'.account? key = l.account? key := by
  rw [account?, h, account?]

/-! ### Locking -/

/-- A lock is granted when the transaction holds it already, or when nobody else holds it. -/
theorem granted_cases {l l' : Ledger} {n : Nat} {key : AccountKey} {a : Account}
    (h : l.lock n key = .granted a l') :
    ∃ t, l.transaction? n = some t ∧
      ((t.copy? key = some a ∧ l' = l) ∨
        (t.copy? key = none ∧ l.account? key = some a ∧ l.isHeldByOther n key = false ∧
          l' = l.modifyTransaction n (·.withCopy a))) := by
  unfold lock at h
  split at h
  · cases h
  · rename_i t ht
    refine ⟨t, ht, ?_⟩
    split at h
    · rename_i held
      cases h
      exact .inl ⟨held, rfl⟩
    · rename_i absent
      split at h
      · cases h
      · rename_i account found
        split at h
        · cases h
        · rename_i free
          cases h
          exact .inr ⟨absent, found, by simpa using free, rfl⟩

/-- A lock that is not granted for now is held by another transaction. -/
theorem exists_holder_of_busy {l : Ledger} {n : Nat} {key : AccountKey}
    (h : l.lock n key = .busy) : ∃ t ∈ l.transactions, t.number ≠ n ∧ t.holds key = true := by
  unfold lock at h
  split at h
  · cases h
  · split at h
    · cases h
    · split at h
      · cases h
      · split at h
        · rename_i held
          simpa [isHeldByOther] using held
        · cases h

/-! ### Writing -/

section Writing

variable {l l' : Ledger} {n : Nat}

theorem update_eq_ok {change : BalanceChange} {moment : Instant} {a : Account}
    (h : l.update n change moment = .ok (a, l')) :
    l' = l.modifyTransaction n (·.write change moment) := by
  unfold update at h
  split at h
  · cases h
  · split at h
    · cases h
    · cases h
      rfl

theorem insert_eq_ok {entries : List JournalEntry} (h : l.insert n entries = .ok l') :
    l' = l.modifyTransaction n fun t => { t with pending := t.pending ++ entries } := by
  unfold insert at h
  split at h
  · cases h
  · cases h
    rfl

theorem rollback_eq_ok (h : l.rollback n = .ok l') : l' = l.drop n := by
  unfold rollback at h
  split at h
  · cases h
  · cases h
    rfl

end Writing

/-! ### Committing -/

/-- The ledger in which a transaction's copies and rows have become visible. -/
def settledBy (l : Ledger) (t : Transaction) : Ledger :=
  { l with
    accounts := l.accounts.map fun a => (t.copy? a.key).getD a
    journal := l.journal ++ t.pending }

theorem commit_eq {l : Ledger} {n : Nat} {t : Transaction} (h : l.transaction? n = some t) :
    l.commit n = .ok ((l.settledBy t).drop n) := by
  simp only [commit, h, settledBy]

theorem commit_eq_ok {l l' : Ledger} {n : Nat} (h : l.commit n = .ok l') :
    ∃ t, l.transaction? n = some t ∧ l' = (l.settledBy t).drop n := by
  cases ht : l.transaction? n with
  | none => simp [commit, ht] at h
  | some t =>
    rw [commit_eq ht] at h
    cases h
    exact ⟨t, rfl, rfl⟩

theorem key_copy?_getD (t : Transaction) (a : Account) : ((t.copy? a.key).getD a).key = a.key := by
  cases h : t.copy? a.key with
  | none => rfl
  | some b => exact Transaction.key_of_copy? h

/-- A commit changes exactly the accounts that the transaction has copies of. -/
theorem account?_settledBy (l : Ledger) (t : Transaction) (key : AccountKey) :
    (l.settledBy t).account? key = (l.account? key).map fun a => (t.copy? key).getD a := by
  have same : (fun a : Account => decide (a.key = key)) ∘ (fun a => (t.copy? a.key).getD a) =
      fun a => decide (a.key = key) := by
    funext a
    simp only [Function.comp, key_copy?_getD]
  rw [account?, settledBy, List.find?_map, same, account?]
  cases h : l.accounts.find? (·.key = key) with
  | none => rfl
  | some a =>
    have hkey : a.key = key := by simpa using List.find?_some h
    rw [Option.map_some, Option.map_some, hkey]

/-! ### Sound ledgers -/

/-- What every ledger keeps. -/
structure Sound (l : Ledger) : Prop where
  /-- One account for each key. -/
  keys : (l.accounts.map Account.key).Nodup
  /-- One transaction for each number. -/
  numbers : (l.transactions.map Transaction.number).Nodup
  /-- Numbers to come are not in use. -/
  fresh : ∀ t ∈ l.transactions, t.number < l.nextNumber
  /-- No two transactions hold the lock of one row. -/
  exclusive : ∀ t ∈ l.transactions, ∀ u ∈ l.transactions, ∀ key,
    t.holds key → u.holds key → t.number = u.number

/-- A ledger on which nothing is going on. -/
structure AtRest (l : Ledger) : Prop where
  keys : (l.accounts.map Account.key).Nodup
  transactions : l.transactions = []

theorem AtRest.sound {l : Ledger} (h : l.AtRest) : l.Sound where
  keys := h.keys
  numbers := by simp [h.transactions]
  fresh := by simp [h.transactions]
  exclusive := by simp [h.transactions]

theorem atRest_empty : ({} : Ledger).AtRest := ⟨List.nodup_nil, rfl⟩

namespace Sound

variable {l : Ledger}

theorem account?_eq_some_iff (h : l.Sound) {key : AccountKey} {a : Account} :
    l.account? key = some a ↔ a ∈ l.accounts ∧ a.key = key :=
  find?_key_eq_some_iff h.keys

theorem transaction?_eq_some_iff (h : l.Sound) {n : Nat} {t : Transaction} :
    l.transaction? n = some t ↔ t ∈ l.transactions ∧ t.number = n :=
  find?_key_eq_some_iff h.numbers

/-- The number that the next transaction gets is not in use. -/
theorem transaction?_nextNumber (h : l.Sound) : l.transaction? l.nextNumber = none := by
  rw [transaction?, List.find?_eq_none]
  intro t ht
  have := h.fresh t ht
  simp only [decide_eq_true_eq]
  omega

theorem begin (h : l.Sound) : l.begin.2.Sound where
  keys := h.keys
  numbers := by
    simp only [Ledger.begin, List.map_append, List.map_cons, List.map_nil]
    refine List.nodup_append.2 ⟨h.numbers, List.nodup_singleton _, ?_⟩
    rintro n hn m hm rfl
    obtain ⟨t, ht, rfl⟩ := List.mem_map.1 hn
    have := h.fresh t ht
    rw [List.mem_singleton] at hm
    omega
  fresh := by
    intro t ht
    rcases List.mem_append.1 ht with ht | ht
    · exact Nat.lt_succ_of_lt (h.fresh t ht)
    · rw [List.mem_singleton.1 ht]
      exact Nat.lt_succ_self _
  exclusive := by
    intro t ht u hu key htk huk
    rcases List.mem_append.1 ht with ht | ht
    · rcases List.mem_append.1 hu with hu | hu
      · exact h.exclusive t ht u hu key htk huk
      · rw [List.mem_singleton.1 hu] at huk
        cases huk
    · rw [List.mem_singleton.1 ht] at htk
      cases htk

/-- Changing a transaction keeps the ledger sound when the locks it gains were free. -/
theorem modify (h : l.Sound) {n : Nat} {f : Transaction → Transaction}
    (hnumber : ∀ t, (f t).number = t.number)
    (hholds : ∀ t key, (f t).holds key → t.holds key ∨ l.isHeldByOther n key = false) :
    (l.modifyTransaction n f).Sound where
  keys := h.keys
  numbers := by
    have same : (l.modifyTransaction n f).transactions.map Transaction.number =
        l.transactions.map Transaction.number := by
      rw [modifyTransaction, List.map_map]
      refine List.map_congr_left fun t _ => ?_
      by_cases ht : t.number = n <;> simp [ht, hnumber]
    rw [same]
    exact h.numbers
  fresh := by
    intro t ht
    obtain ⟨u, hu, rfl⟩ := List.mem_map.1 ht
    have := h.fresh u hu
    by_cases hun : u.number = n <;> simpa [hun, hnumber, modifyTransaction] using this
  exclusive := by
    -- A lock gained by `t` cannot be held by `u` as well, unless they are the same transaction.
    have gained : ∀ t ∈ l.transactions, ∀ u ∈ l.transactions, ∀ key, t.number = n →
        (f t).holds key → u.holds key → t.number = u.number := by
      intro t ht u hu key hn htk huk
      by_contra hne
      rcases hholds t key htk with htk | hfree
      · exact hne (h.exclusive t ht u hu key htk huk)
      · rw [isHeldByOther, List.any_eq_false] at hfree
        exact hfree u hu (by simpa [huk] using fun e => hne (hn.trans e.symm))
    intro t' ht' u' hu' key htk huk
    obtain ⟨t, ht, rfl⟩ := List.mem_map.1 ht'
    obtain ⟨u, hu, rfl⟩ := List.mem_map.1 hu'
    by_cases htn : t.number = n <;> by_cases hun : u.number = n <;>
      simp only [htn, hun, if_true, if_false, hnumber] at htk huk ⊢
    · exact htn.symm.trans (gained t ht u hu key htn htk huk)
    · exact htn ((gained u hu t ht key hun huk htk).symm.trans hun)
    · exact h.exclusive t ht u hu key htk huk

theorem lock (h : l.Sound) {l' : Ledger} {n : Nat} {key : AccountKey} {a : Account}
    (granted : l.lock n key = .granted a l') : l'.Sound := by
  obtain ⟨t, -, ⟨-, rfl⟩ | ⟨-, found, free, rfl⟩⟩ := granted_cases granted
  · exact h
  · refine h.modify (fun t => rfl) fun t k hk => ?_
    rcases Transaction.holds_withCopy hk with hk | rfl
    · exact .inl hk
    · exact .inr (by rwa [key_of_account? found])

theorem drop (h : l.Sound) (n : Nat) : (l.drop n).Sound where
  keys := h.keys
  numbers := h.numbers.sublist (List.filter_sublist.map _)
  fresh t ht := h.fresh t (List.mem_of_mem_filter ht)
  exclusive t ht u hu := h.exclusive t (List.mem_of_mem_filter ht) u (List.mem_of_mem_filter hu)

theorem settledBy (h : l.Sound) (t : Transaction) : (l.settledBy t).Sound where
  keys := by
    have same : (l.settledBy t).accounts.map Account.key = l.accounts.map Account.key := by
      rw [Ledger.settledBy, List.map_map]
      exact List.map_congr_left fun a _ => key_copy?_getD t a
    rw [same]
    exact h.keys
  numbers := h.numbers
  fresh := h.fresh
  exclusive := h.exclusive

/-- No other transaction is left without the one that has just been opened. -/
theorem drop_begin (h : l.Sound) : (l.begin.2.drop l.nextNumber).transactions = l.transactions := by
  have others : ∀ t ∈ l.transactions, t.number ≠ l.nextNumber := fun t ht =>
    Nat.ne_of_lt (h.fresh t ht)
  simp only [Ledger.drop, Ledger.begin, List.filter_append]
  rw [List.filter_eq_self.2 (by simpa using others)]
  simp

end Sound

/-! ### Opening accounts -/

section CreateAccount

variable {l : Ledger} (key : AccountKey) (now : Instant)

/-- An account that is not opened changes nothing. -/
theorem createAccount_of_error {e : LedgerError} (h : (l.createAccount key now).1 = .error e) :
    (l.createAccount key now).2 = l := by
  unfold createAccount at h ⊢
  split
  · rfl
  · rename_i absent
    rw [if_neg absent] at h
    cases h

/-- An account that is opened is the client's, and there is no money in it. -/
theorem createAccount_eq_ok {a : Account} (h : (l.createAccount key now).1 = .ok a) :
    a = Account.opened key now := by
  unfold createAccount at h
  split at h
  · cases h
  · cases h
    rfl

theorem transactions_createAccount :
    (l.createAccount key now).2.transactions = l.transactions := by
  unfold createAccount
  split <;> rfl

theorem journal_createAccount : (l.createAccount key now).2.journal = l.journal := by
  unfold createAccount
  split <;> rfl

theorem nodup_createAccount (h : (l.accounts.map Account.key).Nodup) :
    ((l.createAccount key now).2.accounts.map Account.key).Nodup := by
  unfold createAccount
  split
  · exact h
  · rename_i absent
    rw [List.map_append, List.map_cons, List.map_nil]
    refine List.nodup_append.2 ⟨h, List.nodup_singleton _, ?_⟩
    rintro k hk k' hk' rfl
    obtain ⟨a, ha, rfl⟩ := List.mem_map.1 hk
    rw [List.mem_singleton, Account.key_opened] at hk'
    exact absent (by simpa [account?] using ⟨a, ha, hk'⟩)

theorem AtRest.createAccount (h : l.AtRest) : (l.createAccount key now).2.AtRest :=
  ⟨nodup_createAccount key now h.keys, (transactions_createAccount key now).trans h.transactions⟩

theorem Sound.createAccount (h : l.Sound) : (l.createAccount key now).2.Sound where
  keys := nodup_createAccount key now h.keys
  numbers := by rw [transactions_createAccount]; exact h.numbers
  fresh := by
    rw [transactions_createAccount]
    unfold Ledger.createAccount
    split <;> exact h.fresh
  exclusive := by rw [transactions_createAccount]; exact h.exclusive

end CreateAccount

end Ledger

end Bureau
