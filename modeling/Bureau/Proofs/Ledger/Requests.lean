import Bureau.Proofs.Ledger.Store

/-!
# Requests to a ledger

Any number of transactions may be open at once, and whoever holds one may ask anything of it in any
order. `Ledger.serve` is one request and `Ledger.Serves` says once what it can do: what the ledger
shows changes with a commit or a new account only (`Serves.looksLike`), and a transaction that is
over stays so (`IsOver.serves`) and refuses everything (`IsOver.serve`).
-/

namespace Bureau

namespace Ledger

/-- What can be asked of a ledger, apart from looking at it. Transactions go by their numbers. -/
inductive Request where
  | createAccount (key : AccountKey) (now : Instant)
  | begin
  | lock (number : Nat) (key : AccountKey)
  | update (number : Nat) (change : BalanceChange) (moment : Instant)
  | insert (number : Nat) (entries : List JournalEntry)
  | commit (number : Nat)
  | rollback (number : Nat)
  | drop (number : Nat)

/-- The transaction that is asked. -/
def Request.number? : Request → Option Nat
  | .createAccount _ _ | .begin => none
  | .lock n _ | .update n _ _ | .insert n _ | .commit n | .rollback n | .drop n => some n

/-- The open transaction that goes on with its work. -/
def Request.worker? : Request → Option Nat
  | .lock n _ | .update n _ _ | .insert n _ => some n
  | .createAccount _ _ | .begin | .commit _ | .rollback _ | .drop _ => none

/-- What is answered, with the account that is shown if there is one, and the ledger afterwards. A
lock that another transaction holds is given up after a while. -/
def serve (l : Ledger) : Request → Except LedgerError (Option Account) × Ledger
  | .createAccount key now =>
    let (answer, l) := l.createAccount key now
    (answer.map some, l)
  | .begin => (.ok none, l.begin.2)
  | .lock n key =>
    match l.lock n key with
    | .granted account l => (.ok account, l)
    | .refused e => (.error e, l)
    | .busy => (.error (.lockTimeout key), l)
  | .update n change moment =>
    match l.update n change moment with
    | .ok (account, l) => (.ok account, l)
    | .error e => (.error e, l)
  | .insert n entries =>
    match l.insert n entries with
    | .ok l => (.ok none, l)
    | .error e => (.error e, l)
  | .commit n =>
    match l.commit n with
    | .ok l => (.ok none, l)
    | .error e => (.error e, l)
  | .rollback n =>
    match l.rollback n with
    | .ok l => (.ok none, l)
    | .error e => (.error e, l)
  | .drop n => (.ok none, l.drop n)

/-- Whoever looks at the ledgers sees the same. -/
structure LooksLike (l l' : Ledger) : Prop where
  account? : ∀ key, l'.account? key = l.account? key
  accountsPage : ∀ client start limit,
    l'.accountsPage client start limit = l.accountsPage client start limit
  journalPage : ∀ key window start limit,
    l'.journalPage key window start limit = l.journalPage key window start limit
  journalFor : ∀ txId, l'.journalFor txId = l.journalFor txId

theorem looksLike_of_eq {l l' : Ledger} (accounts : l'.accounts = l.accounts)
    (journal : l'.journal = l.journal) : l.LooksLike l' where
  account? := account?_congr accounts
  accountsPage _ _ _ := by simp only [Ledger.accountsPage, accounts]
  journalPage _ _ _ _ := by simp only [Ledger.journalPage, journal]
  journalFor _ := by simp only [Ledger.journalFor, journal]

/-- What a request can do. -/
inductive Serves (l : Ledger) : Request → Except LedgerError (Option Account) → Ledger → Prop
  | refused (r : Request) (e : LedgerError) : Serves l r (.error e) l
  | opened {key : AccountKey} (now : Instant) (absent : l.account? key = none) :
      Serves l (.createAccount key now) (.ok (some (.opened key now)))
        { l with accounts := l.accounts ++ [.opened key now] }
  | begun : Serves l .begin (.ok none) l.begin.2
  | relocked {n : Nat} {key : AccountKey} {t : Transaction} {a : Account}
      (transaction : l.transaction? n = some t) (held : t.copy? key = some a) :
      Serves l (.lock n key) (.ok (some a)) l
  | locked {n : Nat} {key : AccountKey} {t : Transaction} {a : Account}
      (transaction : l.transaction? n = some t) (absent : t.copy? key = none)
      (account : l.account? key = some a) (free : l.isHeldByOther n key = false) :
      Serves l (.lock n key) (.ok (some a)) (l.modifyTransaction n (·.withCopy a))
  | updated {n : Nat} {change : BalanceChange} {t : Transaction} {a : Account} (moment : Instant)
      (transaction : l.transaction? n = some t) (held : t.copy? change.key = some a) :
      Serves l (.update n change moment) (.ok (some (a.apply change moment)))
        (l.modifyTransaction n (·.write change moment))
  | inserted {n : Nat} {t : Transaction} (entries : List JournalEntry)
      (transaction : l.transaction? n = some t) :
      Serves l (.insert n entries) (.ok none)
        (l.modifyTransaction n fun t => { t with pending := t.pending ++ entries })
  | committed {n : Nat} {t : Transaction} (transaction : l.transaction? n = some t) :
      Serves l (.commit n) (.ok none) ((l.settledBy t).drop n)
  | rolledBack {n : Nat} {t : Transaction} (transaction : l.transaction? n = some t) :
      Serves l (.rollback n) (.ok none) (l.drop n)
  | dropped (n : Nat) : Serves l (.drop n) (.ok none) (l.drop n)

theorem serves_serve (l : Ledger) (r : Request) : l.Serves r (l.serve r).1 (l.serve r).2 := by
  cases r with
  | createAccount key now =>
    simp only [serve, Ledger.createAccount]
    split
    · exact .refused _ _
    · rename_i absent
      exact .opened now (by simpa using absent)
  | begin => exact .begun
  | lock n key =>
    simp only [serve]
    split
    · rename_i a l' granted
      obtain ⟨t, transaction, ⟨held, rfl⟩ | ⟨absent, account, free, rfl⟩⟩ := granted_cases granted
      · exact .relocked transaction held
      · exact .locked transaction absent account free
    · exact .refused _ _
    · exact .refused _ _
  | update n change moment =>
    simp only [serve, Ledger.update]
    cases transaction : l.transaction? n with
    | none => exact .refused _ _
    | some t =>
      dsimp only
      cases held : t.copy? change.key with
      | none => exact .refused _ _
      | some a => exact .updated moment transaction held
  | insert n entries =>
    simp only [serve, Ledger.insert]
    cases transaction : l.transaction? n with
    | none => exact .refused _ _
    | some t => exact .inserted entries transaction
  | commit n =>
    simp only [serve]
    split
    · rename_i l' committed
      obtain ⟨t, transaction, rfl⟩ := commit_eq_ok committed
      exact .committed transaction
    · exact .refused _ _
  | rollback n =>
    simp only [serve, Ledger.rollback]
    cases transaction : l.transaction? n with
    | none => exact .refused _ _
    | some t => exact .rolledBack transaction
  | drop n => exact .dropped n

namespace Serves

variable {l l' : Ledger} {r : Request} {answer : Except LedgerError (Option Account)}

theorem sound (h : l.Serves r answer l') (sound : l.Sound) : l'.Sound := by
  cases h with
  | refused | relocked => exact sound
  | @opened key now absent =>
    have opened : l.createAccount key now = (.ok (.opened key now),
        { l with accounts := l.accounts ++ [.opened key now] }) := by
      rw [createAccount, absent]
      rfl
    have := sound.createAccount key now
    rwa [opened] at this
  | begun => exact sound.begin
  | locked transaction absent account free =>
    refine sound.modify (fun _ => rfl) fun t k hk => ?_
    rcases Transaction.holds_withCopy hk with hk | rfl
    · exact .inl hk
    · exact .inr (by rwa [key_of_account? account])
  | updated moment transaction held =>
    exact sound.modify (fun _ => rfl) fun t k hk => .inl (by rwa [Transaction.holds_write] at hk)
  | inserted entries transaction => exact sound.modify (fun _ => rfl) fun t k hk => .inl hk
  | committed transaction => exact (sound.settledBy _).drop _
  | rolledBack | dropped => exact sound.drop _

theorem nextNumber_le (h : l.Serves r answer l') : l.nextNumber ≤ l'.nextNumber := by
  cases h with
  | begun => exact Nat.le_succ _
  | _ => exact Nat.le_refl _

/-- Only commits and new accounts show. -/
theorem looksLike (h : l.Serves r answer l') (opens : ∀ key now, r ≠ .createAccount key now)
    (commits : ∀ n, r ≠ .commit n) : l.LooksLike l' := by
  cases h with
  | opened => exact absurd rfl (opens _ _)
  | committed => exact absurd rfl (commits _)
  | _ => exact looksLike_of_eq rfl rfl

/-- A request that is refused does nothing. -/
theorem eq_of_error {e : LedgerError} (h : l.Serves r (.error e) l') : l' = l := by
  cases h
  rfl

/-- A transaction is there afterwards when it has just been opened, or when it has been there and
is not over; only its own work changes it. -/
theorem transaction?_cases (h : l.Serves r answer l') {n : Nat} {t : Transaction}
    (there : l'.transaction? n = some t) :
    (r = .begin ∧ n = l.nextNumber ∧ t = { number := n }) ∨
      ∃ u, l.transaction? n = some u ∧ (r.worker? ≠ some n → t = u) := by
  have modified {m : Nat} {f : Transaction → Transaction}
      (there : (l.modifyTransaction m f).transaction? n = some t)
      (number : ∀ t, (f t).number = t.number) :
      ∃ u, l.transaction? n = some u ∧ (m ≠ n → t = u) := by
    rw [transaction?_modify l m n f number] at there
    by_cases same : n = m
    · rw [if_pos same, Option.map_eq_some_iff] at there
      obtain ⟨u, transaction, -⟩ := there
      exact ⟨u, transaction, fun other => absurd same.symm other⟩
    · rw [if_neg same] at there
      exact ⟨t, there, fun _ => rfl⟩
  have named {m : Nat} (h : some m ≠ some n) : m ≠ n := fun same => h (same ▸ rfl)
  cases h with
  | refused | relocked => exact .inr ⟨t, there, fun _ => rfl⟩
  | opened => exact .inr ⟨t, there, fun _ => rfl⟩
  | begun =>
    rw [transaction?_begin] at there
    cases before : l.transaction? n with
    | some u =>
      rw [before, Option.some_or] at there
      exact .inr ⟨u, rfl, fun _ => (Option.some.inj there).symm⟩
    | none =>
      rw [before, Option.none_or] at there
      split at there
      · rename_i same
        subst same
        exact .inl ⟨rfl, rfl, (Option.some.inj there).symm⟩
      · cases there
  | locked =>
    obtain ⟨u, transaction, same⟩ := modified there fun _ => rfl
    exact .inr ⟨u, transaction, fun other => same (named other)⟩
  | updated =>
    obtain ⟨u, transaction, same⟩ := modified there fun _ => rfl
    exact .inr ⟨u, transaction, fun other => same (named other)⟩
  | inserted =>
    obtain ⟨u, transaction, same⟩ := modified there fun _ => rfl
    exact .inr ⟨u, transaction, fun other => same (named other)⟩
  | committed | rolledBack | dropped =>
    exact .inr ⟨t, (transaction?_drop_eq_some_iff.1 there).2, fun _ => rfl⟩

/-- Only an open transaction goes on with its work. -/
theorem exists_worker {shown : Option Account} (h : l.Serves r (.ok shown) l') {n : Nat}
    (works : r.worker? = some n) : ∃ t, l.transaction? n = some t := by
  cases h with
  | @relocked m key t | @locked m key t | @updated m change t | @inserted m t =>
    cases works
    exact ⟨t, by assumption⟩
  | _ => cases works

/-- An account that an open transaction holds stays as it is. -/
theorem account?_of_holds (h : l.Serves r answer l') (sound : l.Sound) {n : Nat} {t u : Transaction}
    (before : l.transaction? n = some u) (after : l'.transaction? n = some t) {key : AccountKey}
    (holds : u.holds key = true) {a : Account} (account : l.account? key = some a) :
    l'.account? key = some a := by
  cases h with
  | opened =>
    rw [account?] at account ⊢
    rw [List.find?_append, account, Option.some_or]
  | @committed m w transaction =>
    have other : m ≠ n := fun same => (transaction?_drop_eq_some_iff.1 after).1 same.symm
    have free : w.copy? key = none := by
      cases copy : w.copy? key with
      | none => rfl
      | some b =>
        have held : w.holds key = true := by rw [Transaction.holds_iff, copy, Option.isSome_some]
        have := sound.exclusive w (mem_of_transaction? transaction) u (mem_of_transaction? before)
          key held holds
        rw [number_of_transaction? transaction, number_of_transaction? before] at this
        exact absurd this other
    have settled := account?_settledBy l w key
    rw [account, free] at settled
    exact settled
  | _ => exact account

end Serves

/-- The transaction is over: it has had its number, and is no longer there. -/
def IsOver (l : Ledger) (n : Nat) : Prop := l.transaction? n = none ∧ n < l.nextNumber

section IsOver

variable {l l' : Ledger} {r : Request} {answer : Except LedgerError (Option Account)} {n : Nat}

theorem IsOver.serves (ended : l.IsOver n) (h : l.Serves r answer l') : l'.IsOver n := by
  refine ⟨?_, Nat.lt_of_lt_of_le ended.2 h.nextNumber_le⟩
  cases there : l'.transaction? n with
  | none => rfl
  | some t =>
    rcases h.transaction?_cases there with ⟨-, new, -⟩ | ⟨u, transaction, -⟩
    · exact absurd ended.2 (by omega)
    · rw [ended.1] at transaction
      cases transaction

/-- Whatever is asked of a transaction that is over is refused; dropping it does nothing. -/
theorem IsOver.serve (ended : l.IsOver n) (asked : r.number? = some n) :
    (l.serve r).2 = l ∧ (r ≠ .drop n → (l.serve r).1 = .error .transactionClosed) := by
  cases r with
  | createAccount | begin => cases asked
  | drop m =>
    cases asked
    refine ⟨?_, fun h => absurd rfl h⟩
    have kept : l.transactions.filter (·.number ≠ n) = l.transactions := by
      rw [List.filter_eq_self]
      intro t ht
      have := List.find?_eq_none.1 ended.1 t ht
      simpa using this
    simp only [Ledger.serve, Ledger.drop, kept]
  | _ =>
    cases asked
    simp [Ledger.serve, Ledger.lock, Ledger.update, Ledger.insert, Ledger.commit,
      Ledger.rollback, ended.1]

/-- A transaction that has been committed or rolled back is over. -/
theorem isOver_of_serves (sound : l.Sound) (h : l.Serves r answer l')
    (closes : r = .commit n ∨ r = .rollback n) (accepted : answer.isOk = true) : l'.IsOver n := by
  have gone (l : Ledger) : (l.drop n).transaction? n = none := by
    rw [transaction?_drop, if_pos rfl]
  cases h with
  | refused => cases accepted
  | committed transaction =>
    rcases closes with ⟨⟨⟩⟩ | ⟨⟨⟩⟩
    exact ⟨gone _, number_of_transaction? transaction ▸
      sound.fresh _ (mem_of_transaction? transaction)⟩
  | rolledBack transaction =>
    rcases closes with ⟨⟨⟩⟩ | ⟨⟨⟩⟩
    exact ⟨gone _, number_of_transaction? transaction ▸
      sound.fresh _ (mem_of_transaction? transaction)⟩
  | _ => rcases closes with ⟨⟨⟩⟩ | ⟨⟨⟩⟩

end IsOver

end Ledger
end Bureau
