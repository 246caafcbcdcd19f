import Bureau.Proofs.Ledger.Requests

/-!
# Transactions side by side

A `Chronicle` is a ledger together with what it has granted so far, and from that alone it can be
told what each transaction has read, changed and inserted. `Inv` says that the open transactions of
the ledger are exactly that, and that a row which one of them has read has not changed since; for
the lock is held from then on. So what a commit overwrites is what its transaction has read
(`Chronicle.isolates_transactions`).
-/

namespace Bureau

open Ledger

/-- A request that has been granted, and the account that was shown. -/
structure Deed where
  request : Request
  shown : Option Account

namespace Deed

/-- The account that a transaction has read with this. -/
def read? (n : Nat) (key : AccountKey) : Deed → Option Account
  | ⟨.lock m k, shown⟩ => if m = n ∧ k = key then shown else none
  | _ => none

/-- The change that a transaction has made to an account with this. -/
def change? (n : Nat) (key : AccountKey) : Deed → Option (BalanceChange × Instant)
  | ⟨.update m change moment, _⟩ =>
    if m = n ∧ change.key = key then some (change, moment) else none
  | _ => none

/-- The rows that a transaction has inserted with this. -/
def rows (n : Nat) : Deed → List JournalEntry
  | ⟨.insert m entries, _⟩ => if m = n then entries else []
  | _ => []

/-- What is done in one transaction is nothing to any other. -/
theorem foreign {d : Deed} {n : Nat} (other : d.request.worker? ≠ some n) :
    d.rows n = [] ∧ ∀ key, d.read? n key = none ∧ d.change? n key = none := by
  obtain ⟨request, shown⟩ := d
  cases request with
  | lock m k =>
    have other : m ≠ n := fun same => other (congrArg some same)
    simp [rows, read?, change?, other]
  | update m change moment =>
    have other : m ≠ n := fun same => other (congrArg some same)
    simp [rows, read?, change?, other]
  | insert m entries =>
    have other : m ≠ n := fun same => other (congrArg some same)
    simp [rows, read?, change?, other]
  | _ => exact ⟨rfl, fun _ => ⟨rfl, rfl⟩⟩

end Deed

/-- A ledger, and what it has granted. -/
structure Chronicle where
  ledger : Ledger
  deeds : List Deed := []

namespace Chronicle

/-- The chronicle after a request. -/
def next (c : Chronicle) (r : Request) : Chronicle :=
  match c.ledger.serve r with
  | (.ok shown, ledger) => { ledger, deeds := c.deeds ++ [⟨r, shown⟩] }
  | (.error _, ledger) => { c with ledger }

/-! ### What a transaction has done -/

/-- An account as a transaction has read it, under its lock. -/
def readBy (c : Chronicle) (n : Nat) (key : AccountKey) : Option Account :=
  c.deeds.findSome? (·.read? n key)

/-- The changes that a transaction has made to an account, in order. -/
def changesBy (c : Chronicle) (n : Nat) (key : AccountKey) : List (BalanceChange × Instant) :=
  c.deeds.filterMap (·.change? n key)

/-- An account as a transaction has read it, with the changes that it has made. -/
def copyBy (c : Chronicle) (n : Nat) (key : AccountKey) : Option Account :=
  (c.readBy n key).map fun a =>
    (c.changesBy n key).foldl (fun a (change, moment) => a.apply change moment) a

/-- The rows that a transaction has inserted, in order. -/
def rowsBy (c : Chronicle) (n : Nat) : List JournalEntry :=
  c.deeds.flatMap (·.rows n)

section History

variable {c : Chronicle} {l : Ledger} {d : Deed} {n : Nat} {key : AccountKey}

theorem readBy_append : readBy ⟨l, c.deeds ++ [d]⟩ n key =
    (c.readBy n key).or (d.read? n key) := by
  simp only [readBy, List.findSome?_append, List.findSome?_singleton]

theorem changesBy_append : changesBy ⟨l, c.deeds ++ [d]⟩ n key =
    c.changesBy n key ++ (d.change? n key).toList := by
  simp only [changesBy, List.filterMap_append]
  cases change : d.change? n key <;> simp [change]

theorem rowsBy_append : rowsBy ⟨l, c.deeds ++ [d]⟩ n = c.rowsBy n ++ d.rows n := by
  simp only [rowsBy, List.flatMap_append, List.flatMap_singleton]

/-- When a transaction has not worked, the same is told of it as before. -/
theorem told_append (other : d.request.worker? ≠ some n) :
    rowsBy ⟨l, c.deeds ++ [d]⟩ n = c.rowsBy n ∧ ∀ key,
      readBy ⟨l, c.deeds ++ [d]⟩ n key = c.readBy n key ∧
      changesBy ⟨l, c.deeds ++ [d]⟩ n key = c.changesBy n key := by
  obtain ⟨rows, deed⟩ := Deed.foreign other
  refine ⟨by rw [rowsBy_append, rows, List.append_nil], fun key => ⟨?_, ?_⟩⟩
  · rw [readBy_append, (deed key).1, Option.or_none]
  · rw [changesBy_append, (deed key).2, Option.toList_none, List.append_nil]

theorem copyBy_eq_none (h : c.copyBy n key = none) : c.readBy n key = none :=
  Option.map_eq_none_iff.1 h

end History

theorem next_cases (c : Chronicle) (r : Request) :
    c.next r = c ∨ ∃ shown l', c.ledger.Serves r (.ok shown) l' ∧
      c.next r = ⟨l', c.deeds ++ [⟨r, shown⟩]⟩ := by
  have serves := c.ledger.serves_serve r
  unfold next
  rcases result : c.ledger.serve r with ⟨e | shown, l'⟩
  · rw [result] at serves
    cases serves
    exact .inl rfl
  · rw [result] at serves
    exact .inr ⟨shown, l', serves, rfl⟩

/-! ### The open transactions are what is told of them -/

/-- A transaction is what is told of its number, and the accounts that it has read are still as it
has read them. -/
structure Tells (c : Chronicle) (n : Nat) (t : Transaction) : Prop where
  pending : t.pending = c.rowsBy n
  copies : ∀ key, t.copy? key = c.copyBy n key
  current : ∀ key a, c.readBy n key = some a → c.ledger.account? key = some a

/-- What every chronicle keeps. -/
structure Inv (c : Chronicle) : Prop where
  sound : c.ledger.Sound
  /-- Nothing is told of transactions to come. -/
  unused : ∀ n, c.ledger.nextNumber ≤ n → c.rowsBy n = [] ∧ ∀ key, c.readBy n key = none
  /-- Nothing is changed unread. -/
  unread : ∀ n key, c.readBy n key = none → c.changesBy n key = []
  tells : ∀ n t, c.ledger.transaction? n = some t → c.Tells n t

section Tells

variable {c : Chronicle} {l : Ledger} {n : Nat} {t : Transaction} {key : AccountKey} {a : Account}

theorem Tells.holds_iff (tells : c.Tells n t) (key : AccountKey) :
    t.holds key = true ↔ ∃ a, c.readBy n key = some a := by
  rw [Transaction.holds_iff, tells.copies, copyBy, Option.isSome_map, Option.isSome_iff_exists]

/-- When the same is told of a transaction as before. -/
theorem Tells.of_told {c' : Chronicle} (tells : c.Tells n t)
    (told : c'.rowsBy n = c.rowsBy n ∧ ∀ key,
      c'.readBy n key = c.readBy n key ∧ c'.changesBy n key = c.changesBy n key)
    (current : ∀ key a, c.readBy n key = some a → c'.ledger.account? key = some a) :
    c'.Tells n t := by
  refine ⟨by rw [told.1, tells.pending], fun key => ?_, fun key a read => ?_⟩
  · rw [copyBy, (told.2 key).1, (told.2 key).2, tells.copies, copyBy]
  · exact current key a ((told.2 key).1 ▸ read)

/-- A transaction that has just been opened has done nothing. -/
theorem Inv.tells_new (inv : c.Inv) (shown : Option Account) :
    Tells ⟨l, c.deeds ++ [⟨.begin, shown⟩]⟩ c.ledger.nextNumber
      { number := c.ledger.nextNumber } := by
  obtain ⟨rows, told⟩ := told_append (c := c) (l := l) (d := ⟨.begin, shown⟩)
    (n := c.ledger.nextNumber) (by simp [Request.worker?])
  obtain ⟨noRows, noReads⟩ := inv.unused _ (Nat.le_refl _)
  refine ⟨by rw [rows, noRows], fun key => ?_, fun key a read => ?_⟩
  · rw [copyBy, (told key).1, noReads key]
    rfl
  · rw [(told key).1, noReads key] at read
    cases read

variable (tells : c.Tells n t) (same : l.accounts = c.ledger.accounts)
include tells same

/-- An account that is read once more is nothing new. -/
theorem Tells.relocked (held : t.copy? key = some a) (shown : Option Account) :
    Tells ⟨l, c.deeds ++ [⟨.lock n key, shown⟩]⟩ n t := by
  refine tells.of_told ⟨?_, fun k => ⟨?_, ?_⟩⟩ fun k b read => ?_
  · simp only [rowsBy_append, Deed.rows, List.append_nil]
  · rw [readBy_append]
    by_cases own : key = k
    · subst own
      obtain ⟨b, read⟩ := (tells.holds_iff key).1 (by rw [Transaction.holds_iff, held]; rfl)
      rw [read, Option.some_or]
    · simp only [Deed.read?, own, and_false, if_false, Option.or_none]
  · simp only [changesBy_append, Deed.change?, Option.toList_none, List.append_nil]
  · exact (account?_congr same k).trans (tells.current k b read)

/-- An account that is read for the first time. -/
theorem Tells.locked (absent : t.copy? key = none) (account : c.ledger.account? key = some a)
    (unchanged : c.changesBy n key = []) :
    Tells ⟨l, c.deeds ++ [⟨.lock n key, some a⟩]⟩ n (t.withCopy a) := by
  have unread : c.readBy n key = none := copyBy_eq_none (tells.copies key ▸ absent)
  have read (k : AccountKey) : readBy ⟨l, c.deeds ++ [⟨.lock n key, some a⟩]⟩ n k =
      if key = k then some a else c.readBy n k := by
    rw [readBy_append]
    by_cases own : key = k
    · subst own
      simp only [Deed.read?, unread, and_self, if_true, Option.none_or]
    · simp only [Deed.read?, own, and_false, if_false, Option.or_none]
  refine ⟨?_, fun k => ?_, fun k b found => ?_⟩
  · simp only [rowsBy_append, Deed.rows, List.append_nil]
    exact tells.pending
  · rw [Transaction.copy?_withCopy, key_of_account? account, copyBy, read, tells.copies, copyBy]
    simp only [changesBy_append, Deed.change?, Option.toList_none, List.append_nil]
    by_cases own : key = k
    · subst own
      rw [unread, unchanged, if_pos rfl]
      rfl
    · rw [if_neg own, if_neg own, Option.or_none]
  · rw [account?_congr same]
    rw [read] at found
    by_cases own : key = k
    · subst own
      rw [if_pos rfl] at found
      exact account.trans found
    · rw [if_neg own] at found
      exact tells.current k b found

/-- An account that is changed. -/
theorem Tells.updated (change : BalanceChange) (moment : Instant) (shown : Option Account) :
    Tells ⟨l, c.deeds ++ [⟨.update n change moment, shown⟩]⟩ n (t.write change moment) := by
  have read (k : AccountKey) : readBy ⟨l, c.deeds ++ [⟨.update n change moment, shown⟩]⟩ n k =
      c.readBy n k := by
    simp only [readBy_append, Deed.read?, Option.or_none]
  refine ⟨?_, fun k => ?_, fun k b found => ?_⟩
  · simp only [rowsBy_append, Deed.rows, List.append_nil]
    exact tells.pending
  · rw [Transaction.copy?_write, tells.copies, copyBy, copyBy, read, changesBy_append,
      Option.map_map]
    congr 1
    funext b
    by_cases own : change.key = k
    · simp [Deed.change?, own]
    · simp [Deed.change?, own, Ne.symm own]
  · exact (account?_congr same k).trans (tells.current k b (read k ▸ found))

/-- Rows that are inserted. -/
theorem Tells.inserted (entries : List JournalEntry) (shown : Option Account) :
    Tells ⟨l, c.deeds ++ [⟨.insert n entries, shown⟩]⟩ n
      { t with pending := t.pending ++ entries } := by
  have read (k : AccountKey) : readBy ⟨l, c.deeds ++ [⟨.insert n entries, shown⟩]⟩ n k =
      c.readBy n k := by
    simp only [readBy_append, Deed.read?, Option.or_none]
  refine ⟨?_, fun k => ?_, fun k b found => ?_⟩
  · simp only [rowsBy_append, Deed.rows, if_true, tells.pending]
  · rw [copyBy, read]
    simp only [changesBy_append, Deed.change?, Option.toList_none, List.append_nil]
    exact tells.copies k
  · exact (account?_congr same k).trans (tells.current k b (read k ▸ found))

end Tells

/-! ### A step, and a run -/

section Step

variable {c : Chronicle} {l' : Ledger} {r : Request} {shown : Option Account} {n : Nat}

/-- A transaction that has worked is what is told of it, with its latest work. -/
theorem Inv.tells_worker (inv : c.Inv) (h : c.ledger.Serves r (.ok shown) l') {t : Transaction}
    (works : r.worker? = some n) (after : l'.transaction? n = some t) :
    Tells ⟨l', c.deeds ++ [⟨r, shown⟩]⟩ n t := by
  have worked {f : Transaction → Transaction} {u : Transaction}
      (after : (c.ledger.modifyTransaction n f).transaction? n = some t)
      (before : c.ledger.transaction? n = some u) (number : ∀ t, (f t).number = t.number) :
      t = f u := by
    rw [transaction?_modify_self number before] at after
    exact (Option.some.inj after).symm
  cases h with
  | @relocked m key u a before held =>
    obtain rfl : m = n := Option.some.inj works
    obtain rfl : u = t := Option.some.inj (before.symm.trans after)
    exact (inv.tells m u before).relocked rfl held _
  | @locked m key u a before absent account free =>
    obtain rfl : m = n := Option.some.inj works
    obtain rfl := worked after before fun _ => rfl
    have tells := inv.tells m u before
    exact tells.locked rfl absent account
      (inv.unread m key (copyBy_eq_none (tells.copies key ▸ absent)))
  | @updated m change u a moment before held =>
    obtain rfl : m = n := Option.some.inj works
    obtain rfl := worked after before fun _ => rfl
    exact (inv.tells m u before).updated (accounts_modify _ _ _) change moment _
  | @inserted m u entries before =>
    obtain rfl : m = n := Option.some.inj works
    obtain rfl := worked after before fun _ => rfl
    exact (inv.tells m u before).inserted (accounts_modify _ _ _) entries _
  | _ => cases works

/-- Nothing is changed unread. -/
theorem Inv.unread_append (inv : c.Inv) (h : c.ledger.Serves r (.ok shown) l') (key : AccountKey)
    (unread : readBy ⟨l', c.deeds ++ [⟨r, shown⟩]⟩ n key = none) :
    changesBy ⟨l', c.deeds ++ [⟨r, shown⟩]⟩ n key = [] := by
  rw [readBy_append, Option.or_eq_none_iff] at unread
  rw [changesBy_append, inv.unread n key unread.1, List.nil_append]
  cases h with
  | @updated m change u a moment before held =>
    by_cases own : m = n ∧ change.key = key
    · obtain ⟨rfl, rfl⟩ := own
      rw [(inv.tells m u before).copies, copyBy, unread.1] at held
      cases held
    · simp only [Deed.change?, if_neg own, Option.toList_none]
  | _ => rfl

theorem Inv.next (inv : c.Inv) (r : Request) : (c.next r).Inv := by
  rcases c.next_cases r with same | ⟨shown, l', h, same⟩
  · rw [same]
    exact inv
  · rw [same]
    refine ⟨h.sound inv.sound, fun n new => ?_, fun n key => inv.unread_append h key,
      fun n t after => ?_⟩
    · have new : c.ledger.nextNumber ≤ n := Nat.le_trans h.nextNumber_le new
      have other : r.worker? ≠ some n := by
        intro works
        obtain ⟨t, before⟩ := h.exists_worker works
        have := inv.sound.fresh t (mem_of_transaction? before)
        rw [number_of_transaction? before] at this
        omega
      obtain ⟨rows, told⟩ := told_append (c := c) (l := l') (d := ⟨r, shown⟩) other
      exact ⟨rows.trans (inv.unused n new).1, fun key =>
        (told key).1.trans ((inv.unused n new).2 key)⟩
    · rcases h.transaction?_cases after with ⟨rfl, rfl, rfl⟩ | ⟨u, before, kept⟩
      · exact inv.tells_new shown
      · by_cases works : r.worker? = some n
        · exact inv.tells_worker h works after
        · obtain rfl := kept works
          have tells := inv.tells n t before
          refine tells.of_told (told_append works) fun key a read => ?_
          exact h.account?_of_holds inv.sound before after ((tells.holds_iff key).2 ⟨a, read⟩)
            (tells.current key a read)

theorem Inv.foldl (inv : c.Inv) (requests : List Request) :
    (requests.foldl Chronicle.next c).Inv := by
  induction requests generalizing c with
  | nil => exact inv
  | cons r rest ih => exact ih (inv.next r)

theorem inv_start {l : Ledger} (rest : l.AtRest) : Inv { ledger := l } where
  sound := rest.sound
  unused _ _ := ⟨rfl, fun _ => rfl⟩
  unread _ _ _ := rfl
  tells n t there := by
    have := mem_of_transaction? there
    rw [rest.transactions] at this
    cases this

end Step

/-! ### Isolation -/

theorem ledger_next (c : Chronicle) (r : Request) : (c.next r).ledger = (c.ledger.serve r).2 := by
  unfold next
  split
  · rename_i result
    rw [result]
  · rename_i result
    rw [result]

/-- Whatever is asked of a transaction from now on is refused and does nothing. -/
def Refuses (c : Chronicle) (n : Nat) : Prop :=
  ∀ (later : List Request) (r : Request), r.number? = some n → r ≠ .drop n →
    let c' := later.foldl Chronicle.next c
    c'.ledger.serve r = (.error .transactionClosed, c'.ledger)

/-- A transaction that is over stays so. -/
theorem refuses_of_isOver {c : Chronicle} {n : Nat} (ended : c.ledger.IsOver n) : c.Refuses n := by
  intro later
  induction later generalizing c with
  | nil => exact fun r asked other => Prod.ext ((ended.serve asked).2 other) (ended.serve asked).1
  | cons first rest ih =>
    refine ih ?_
    rw [ledger_next]
    exact ended.serves (c.ledger.serves_serve first)

namespace Inv

variable {c : Chronicle} {n : Nat} (inv : c.Inv)
include inv

/-- A commit makes visible what its transaction has done, and the accounts that it replaces are as
the transaction has read them. -/
theorem commit {shown : Option Account} (accepted : (c.ledger.serve (.commit n)).1 = .ok shown) :
    (c.ledger.serve (.commit n)).2.accounts =
        c.ledger.accounts.map (fun a => (c.copyBy n a.key).getD a) ∧
      (c.ledger.serve (.commit n)).2.journal = c.ledger.journal ++ c.rowsBy n ∧
      ∀ key a, c.readBy n key = some a → c.ledger.account? key = some a := by
  have serves := c.ledger.serves_serve (.commit n)
  rw [accepted] at serves
  generalize (c.ledger.serve (.commit n)).2 = l' at serves
  cases serves with
  | @committed _ t transaction =>
    have tells := inv.tells n t transaction
    refine ⟨?_, ?_, tells.current⟩
    · rw [accounts_drop, settledBy]
      exact List.map_congr_left fun a _ => by rw [tells.copies]
    · rw [← tells.pending]
      rfl

/-- At most one open transaction holds a row. -/
theorem exclusive {t u : Transaction} (ht : t ∈ c.ledger.transactions)
    (hu : u ∈ c.ledger.transactions) {key : AccountKey} (tHolds : t.holds key = true)
    (uHolds : u.holds key = true) : t = u := by
  have number := inv.sound.exclusive t ht u hu key tHolds uHolds
  have found := inv.sound.transaction?_eq_some_iff.2 ⟨ht, rfl⟩
  rw [number, inv.sound.transaction?_eq_some_iff.2 ⟨hu, rfl⟩] at found
  exact (Option.some.inj found).symm

theorem update_of_unread {t : Transaction} (transaction : c.ledger.transaction? n = some t)
    {change : BalanceChange} (unread : c.readBy n change.key = none) (moment : Instant) :
    c.ledger.serve (.update n change moment) =
      (.error (.accountNotFound change.key), c.ledger) := by
  have absent : t.copy? change.key = none := by
    rw [(inv.tells n t transaction).copies, copyBy, unread, Option.map_none]
  simp only [Ledger.serve, Ledger.update, transaction, absent]

theorem lock_of_read {t : Transaction} (transaction : c.ledger.transaction? n = some t)
    {key : AccountKey} {a : Account} (read : c.readBy n key = some a) :
    c.ledger.serve (.lock n key) = (.ok (c.copyBy n key), c.ledger) := by
  have copy := (inv.tells n t transaction).copies key
  rw [copyBy, read, Option.map_some] at copy
  simp only [Ledger.serve, Ledger.lock, transaction, copy, copyBy, read, Option.map_some]

/-- Of two transactions that have read an account, one that commits finds the other over. -/
theorem isOver_of_read {m : Nat} (other : m ≠ n) {t : Transaction}
    (transaction : c.ledger.transaction? m = some t) {key : AccountKey} {a b : Account}
    (readM : c.readBy m key = some a) (readN : c.readBy n key = some b) : c.ledger.IsOver n := by
  refine ⟨?_, ?_⟩
  · cases there : c.ledger.transaction? n with
    | none => rfl
    | some u =>
      have tHolds := ((inv.tells m t transaction).holds_iff key).2 ⟨a, readM⟩
      have uHolds := ((inv.tells n u there).holds_iff key).2 ⟨b, readN⟩
      have same := inv.exclusive (mem_of_transaction? transaction) (mem_of_transaction? there)
        tHolds uHolds
      subst same
      exact absurd ((number_of_transaction? transaction).symm.trans (number_of_transaction? there))
        other
  · by_contra new
    rw [(inv.unused n (Nat.le_of_not_lt new)).2 key] at readN
    cases readN

end Inv

/-- Transactions that are open at once do not disturb each other, whatever is asked of them and in
whatever order. What is seen of the ledger changes with new accounts and with commits only; a commit
adds what its transaction has done to what that transaction has read, and this is still there. -/
theorem isolates_transactions {l : Ledger} (rest : l.AtRest) (requests : List Request) :
    let c := requests.foldl Chronicle.next { ledger := l }
    -- Only commits and new accounts show.
    (∀ r, (∀ key now, r ≠ .createAccount key now) → (∀ n, r ≠ .commit n) →
      c.ledger.LooksLike (c.ledger.serve r).2) ∧
    (∀ r e, (c.ledger.serve r).1 = .error e → (c.ledger.serve r).2 = c.ledger) ∧
    (∀ n shown, (c.ledger.serve (.commit n)).1 = .ok shown →
      (c.ledger.serve (.commit n)).2.accounts =
        c.ledger.accounts.map (fun a => (c.copyBy n a.key).getD a) ∧
      (c.ledger.serve (.commit n)).2.journal = c.ledger.journal ++ c.rowsBy n ∧
      ∀ key a, c.readBy n key = some a → c.ledger.account? key = some a) ∧
    -- Locks.
    (∀ t ∈ c.ledger.transactions, ∀ u ∈ c.ledger.transactions, ∀ key,
      t.holds key = true → u.holds key = true → t = u) ∧
    (∀ n t, c.ledger.transaction? n = some t → ∀ change moment,
      c.readBy n change.key = none →
      c.ledger.serve (.update n change moment) =
        (.error (.accountNotFound change.key), c.ledger)) ∧
    (∀ n t, c.ledger.transaction? n = some t → ∀ key a, c.readBy n key = some a →
      c.ledger.serve (.lock n key) = (.ok (c.copyBy n key), c.ledger)) ∧
    -- Transactions that are over.
    (∀ n r, r = .commit n ∨ r = .rollback n → (c.ledger.serve r).1.isOk = true →
      (c.next r).Refuses n) ∧
    (∀ m n, m ≠ n → (c.ledger.serve (.commit m)).1.isOk = true → ∀ key a b,
      c.readBy m key = some a → c.readBy n key = some b → (c.next (.commit m)).Refuses n) := by
  intro c
  have inv : c.Inv := (inv_start rest).foldl requests
  have serves := c.ledger.serves_serve
  refine ⟨fun r opens commits => (serves r).looksLike opens commits, fun r e refused => ?_,
    fun n shown accepted => inv.commit accepted,
    fun t ht u hu key tHolds uHolds => inv.exclusive ht hu tHolds uHolds,
    fun n t transaction change moment unread => inv.update_of_unread transaction unread moment,
    fun n t transaction key a read => inv.lock_of_read transaction read,
    fun n r closes accepted => ?_, fun m n other accepted key a b readM readN => ?_⟩
  · have := serves r
    rw [refused] at this
    exact this.eq_of_error
  · refine refuses_of_isOver ?_
    rw [ledger_next]
    exact isOver_of_serves inv.sound (serves r) closes accepted
  · refine refuses_of_isOver ?_
    rw [ledger_next]
    have committed := serves (.commit m)
    cases h : (c.ledger.serve (.commit m)).1 with
    | error e =>
      rw [h] at accepted
      cases accepted
    | ok shown =>
      rw [h] at committed
      refine Ledger.IsOver.serves ?_ committed
      generalize (c.ledger.serve (.commit m)).2 = l' at committed
      cases committed with
      | committed transaction => exact inv.isOver_of_read other transaction readM readN

/-- Two transactions contend for an account; the one that gets it pays in and commits. -/
theorem isolates_transactions_contended :
    let key : AccountKey := ⟨default, Currency.usd⟩
    let change : BalanceChange := ⟨key, .hundredths 100, .zero, .hundredths 100⟩
    let c := [Request.createAccount key default, .begin, .begin, .lock 0 key, .lock 1 key,
      .update 0 change default].foldl Chronicle.next { ledger := {} }
    (c.ledger.serve (.commit 0)).2.accounts = [(Account.opened key default).apply change default] ∧
    c.ledger.serve (.update 1 change default) = (.error (.accountNotFound key), c.ledger) ∧
    c.ledger.serve (.lock 0 key) =
      (.ok (some ((Account.opened key default).apply change default)), c.ledger) ∧
    ((c.next (.commit 0)).ledger.serve (.rollback 0)).1 = .error .transactionClosed := by
  intro key change c
  obtain ⟨-, -, commits, -, updates, locks, ended, -⟩ := isolates_transactions atRest_empty
    [.createAccount key default, .begin, .begin, .lock 0 key, .lock 1 key, .update 0 change default]
  have isOpen (n : Nat) (there : (c.ledger.transaction? n).isSome = true) :
      ∃ t, c.ledger.transaction? n = some t := Option.isSome_iff_exists.1 there
  obtain ⟨first, hfirst⟩ := isOpen 0 (by decide +kernel)
  obtain ⟨second, hsecond⟩ := isOpen 1 (by decide +kernel)
  refine ⟨?_, updates 1 second hsecond change default (by decide +kernel), ?_, ?_⟩
  · rw [(commits 0 none (by decide +kernel)).1]
    decide +kernel
  · have read : c.readBy 0 key = some (.opened key default) := by decide +kernel
    have copy : c.copyBy 0 key = some ((Account.opened key default).apply change default) := by
      decide +kernel
    rw [← copy]
    exact locks 0 first hfirst key _ read
  · exact congrArg Prod.fst
      (ended 0 (.commit 0) (.inl rfl) (by decide +kernel) [] (.rollback 0) rfl (by simp))

end Chronicle

end Bureau
