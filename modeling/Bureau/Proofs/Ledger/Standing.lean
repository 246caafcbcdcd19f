import Bureau.Proofs.Ledger.Posting

/-!
# Where a posting stands

`Standing` ties the phase of a posting to what the ledger holds for it: while the locks are held,
every copy is the committed account with the changes written so far, and every change has been
computed from the committed account. Each move of the posting keeps this (`Effect.standing`), and no
move of another posting touches its transaction (`Effect.others`).
-/

namespace Bureau

namespace Posting

/-- The posting's transaction has copies of exactly some accounts: the committed ones with the
changes written so far. -/
def Holding (p : Posting) (l : Ledger) (keys : List AccountKey) (written : List BalanceChange)
    (pending : List JournalEntry) : Prop :=
  ∃ t, l.transaction? p.number = some t ∧ t.pending = pending ∧
    ∀ key, t.copy? key =
      if key ∈ keys then (l.account? key).map (·.settled written p.moment) else none

/-- What the ledger holds for the posting in its phase. -/
def Standing (p : Posting) (l : Ledger) : Prop :=
  match p.phase with
  | .beginning | .finished _ => True
  | .locking key todo changes =>
    ∃ done, p.keys = done ++ key :: todo ∧ p.Computed l done changes ∧ p.Holding l done [] []
  | .updating change todo changes =>
    ∃ written, changes = written ++ change :: todo ∧ p.Computed l p.keys changes ∧
      p.Holding l p.keys written []
  | .inserting changes => p.Computed l p.keys changes ∧ p.Holding l p.keys changes []
  | .committing changes =>
    p.Computed l p.keys changes ∧ p.Holding l p.keys changes p.batch.entries
  | .aborting _ => ∃ t, l.transaction? p.number = some t

section Standing

variable {p p' : Posting} {l l' : Ledger} {keys : List AccountKey}
  {written rest changes : List BalanceChange}

theorem nodup_keys (p : Posting) : p.keys.Nodup := nodup_lockOrder _

/-- An open posting has its transaction. -/
theorem Standing.transaction? (h : p.Standing l) (isOpen : p.isOpen = true) :
    ∃ t, l.transaction? p.number = some t := by
  unfold Standing at h
  cases phase : p.phase with
  | beginning | finished => simp [Posting.isOpen, phase] at isOpen
  | locking key todo changes =>
    simp only [phase] at h
    obtain ⟨done, -, -, t, ht, -⟩ := h
    exact ⟨t, ht⟩
  | updating change todo changes =>
    simp only [phase] at h
    obtain ⟨written, -, -, t, ht, -⟩ := h
    exact ⟨t, ht⟩
  | inserting changes | committing changes =>
    simp only [phase] at h
    obtain ⟨-, t, ht, -⟩ := h
    exact ⟨t, ht⟩
  | aborting =>
    simp only [phase] at h
    exact h

theorem isOpen_toUpdate (p : Posting) (n : Nat) (todo changes : List BalanceChange) :
    isOpen { p with number := n, phase := toUpdate todo changes } = true := by
  cases todo <;> rfl

theorem isOpen_toLock (p : Posting) (n : Nat) (todo : List AccountKey)
    (changes : List BalanceChange) :
    isOpen { p with number := n, phase := toLock todo changes } = true := by
  cases todo with
  | nil => exact isOpen_toUpdate p n changes changes
  | cons => rfl

/-- The changes up to some point have been written. -/
theorem standing_toUpdate (split : changes = written ++ rest)
    (computed : p.Computed l p.keys changes) (holding : p.Holding l p.keys written []) :
    Standing { p with phase := toUpdate rest changes } l := by
  cases rest with
  | nil =>
    rw [List.append_nil] at split
    subst split
    exact ⟨computed, holding⟩
  | cons change rest => exact ⟨written, split, computed, holding⟩

/-- The accounts up to some point have been locked. -/
theorem standing_toLock {todo : List AccountKey} (done : List AccountKey)
    (split : p.keys = done ++ todo) (computed : p.Computed l done changes)
    (holding : p.Holding l done [] []) : Standing { p with phase := toLock todo changes } l := by
  cases todo with
  | nil =>
    rw [List.append_nil] at split
    subst split
    exact standing_toUpdate (List.nil_append _).symm computed holding
  | cons key todo => exact ⟨done, split, computed, holding⟩

/-! ### Moves of the posting itself -/

/-- Locking one more account. -/
theorem Holding.lock {key : AccountKey} {a : Account} (h : p.Holding l keys [] [])
    (present : ∀ k ∈ keys, (l.account? k).isSome) (new : key ∉ keys)
    (granted : l.lock p.number key = .granted a l') :
    l.account? key = some a ∧ l'.accounts = l.accounts ∧ p.Holding l' (keys ++ [key]) [] [] := by
  obtain ⟨t, ht, pending, copies⟩ := h
  obtain ⟨u, hu, ⟨held, -⟩ | ⟨-, found, -, rfl⟩⟩ := Ledger.granted_cases granted
  · obtain rfl := Option.some.inj (ht.symm.trans hu)
    rw [copies, if_neg new] at held
    cases held
  · refine ⟨found, rfl, t.withCopy a, ?_, pending, fun k => ?_⟩
    · exact Ledger.transaction?_modify_self (fun _ => rfl) ht
    · rw [Ledger.account?_congr (Ledger.accounts_modify _ _ _), Transaction.copy?_withCopy, copies,
        Ledger.key_of_account? found]
      by_cases hk : k ∈ keys
      · obtain ⟨b, hb⟩ := Option.isSome_iff_exists.1 (present k hk)
        simp [hk, hb]
      · by_cases hkey : key = k
        · subst hkey
          simp [hk, found]
        · simp [hk, hkey, Ne.symm hkey]

/-- Writing one more change. -/
theorem Holding.write {change : BalanceChange} (h : p.Holding l keys written [])
    (new : change.key ∉ written.map BalanceChange.key) :
    p.Holding (l.modifyTransaction p.number (·.write change p.moment)) keys
      (written ++ [change]) [] := by
  obtain ⟨t, ht, pending, copies⟩ := h
  refine ⟨t.write change p.moment, ?_, pending, fun k => ?_⟩
  · exact Ledger.transaction?_modify_self (fun _ => rfl) ht
  · rw [Ledger.account?_congr (Ledger.accounts_modify _ _ _), Transaction.copy?_write, copies]
    by_cases hk : k ∈ keys
    · rw [if_pos hk, if_pos hk, Option.map_map]
      cases ha : l.account? k with
      | none => rfl
      | some a =>
        simp only [Option.map_some, Function.comp, a.settled_append new,
          Ledger.key_of_account? ha]
    · rw [if_neg hk, if_neg hk, Option.map_none]

/-- Adding the rows. -/
theorem Holding.insert (h : p.Holding l keys written []) (entries : List JournalEntry) :
    p.Holding (l.modifyTransaction p.number fun t => { t with pending := t.pending ++ entries })
      keys written entries := by
  obtain ⟨t, ht, pending, copies⟩ := h
  refine ⟨{ t with pending := t.pending ++ entries }, ?_, by simp [pending], copies⟩
  exact Ledger.transaction?_modify_self (fun _ => rfl) ht

/-- Every move of a posting keeps where it stands. -/
theorem Effect.standing (effect : p.Effect l p' l') (sound : l.Sound) (h : p.Standing l) :
    p'.Standing l' := by
  unfold Standing at h
  cases effect with
  | begun phase =>
    refine standing_toLock (p := { p with number := l.nextNumber }) [] rfl
      List.Forall₂.nil ⟨{ number := l.nextNumber }, ?_, rfl, fun _ => by simp [Transaction.copy?]⟩
    simp [Ledger.transaction?_begin, sound.transaction?_nextNumber]
  | @locked key todo changes a _ change phase granted computed =>
    simp only [phase] at h
    obtain ⟨done, split, soFar, holding⟩ := h
    have distinct : key ∉ done := by
      have := split ▸ p.nodup_keys
      exact fun hk => (List.nodup_append.1 this).2.2 key hk key List.mem_cons_self rfl
    have present : ∀ k ∈ done, (l.account? k).isSome := fun k hk => by
      obtain ⟨b, -, hb, -⟩ := soFar.account? hk
      simp [hb]
    obtain ⟨found, same, holding'⟩ := holding.lock present distinct granted
    refine standing_toLock (done ++ [key]) (by simpa using split) ?_ holding'
    refine Computed.congr (soFar.append ?_) fun k _ => Ledger.account?_congr same k
    rw [changeIn_eq found, computed]
  | @updated change todo changes phase =>
    simp only [phase] at h
    obtain ⟨written, split, computed, holding⟩ := h
    refine standing_toUpdate (by simpa using split) ?_ (holding.write ?_)
    · exact computed.congr fun k _ => rfl
    · have nodup := computed.keys_eq ▸ p.nodup_keys
      rw [split, List.map_append, List.map_cons] at nodup
      exact fun hk => (List.nodup_append.1 nodup).2.2 _ hk _ List.mem_cons_self rfl
  | inserted phase =>
    simp only [phase] at h
    exact ⟨h.1.congr fun k _ => rfl, h.2.insert _⟩
  | committed | refused | dropped => trivial
  | aborted e isOpen _ ledger =>
    obtain ⟨t, ht⟩ := Standing.transaction? h isOpen
    rcases ledger with rfl | ⟨key, a, granted⟩
    · exact ⟨t, ht⟩
    · obtain ⟨u, hu, ⟨-, rfl⟩ | ⟨-, -, -, rfl⟩⟩ := Ledger.granted_cases granted
      · exact ⟨t, ht⟩
      · exact ⟨t.withCopy a, Ledger.transaction?_modify_self (fun _ => rfl) ht⟩

/-! ### Moves of others -/

/-- Where a posting stands depends only on its own transaction and on the accounts it has locked. -/
theorem Holding.congr {pending : List JournalEntry} (h : p.Holding l keys written pending)
    (transaction : l'.transaction? p.number = l.transaction? p.number)
    (same : ∀ key ∈ keys, l'.account? key = l.account? key) :
    p.Holding l' keys written pending := by
  obtain ⟨t, ht, hpending, copies⟩ := h
  refine ⟨t, transaction.trans ht, hpending, fun key => (copies key).trans ?_⟩
  by_cases hkey : key ∈ keys
  · rw [if_pos hkey, if_pos hkey, same key hkey]
  · rw [if_neg hkey, if_neg hkey]

/-- The transaction holds the locks of all accounts whose changes have been computed. -/
theorem Holding.holds {pending : List JournalEntry} {t : Transaction}
    (h : p.Holding l keys written pending) (computed : p.Computed l keys changes)
    (ht : l.transaction? p.number = some t) {key : AccountKey} (hkey : key ∈ keys) :
    t.holds key = true := by
  obtain ⟨u, hu, -, copies⟩ := h
  obtain rfl := Option.some.inj (ht.symm.trans hu)
  obtain ⟨a, -, ha, -⟩ := computed.account? hkey
  rw [Transaction.holds_iff, copies, if_pos hkey, ha]
  rfl

theorem Standing.congr (h : p.Standing l)
    (same : ∀ t, p.isOpen = true → l.transaction? p.number = some t →
      l'.transaction? p.number = some t ∧ ∀ key, t.holds key → l'.account? key = l.account? key) :
    p.Standing l' := by
  have both {keys written pending changes} (isOpen : p.isOpen = true)
      (computed : p.Computed l keys changes) (holding : p.Holding l keys written pending) :
      p.Computed l' keys changes ∧ p.Holding l' keys written pending := by
    obtain ⟨t, ht, -⟩ := id holding
    obtain ⟨ht', accounts⟩ := same t isOpen ht
    have unchanged key (hkey : key ∈ keys) := accounts key (holding.holds computed ht hkey)
    exact ⟨computed.congr unchanged, holding.congr (ht'.trans ht.symm) unchanged⟩
  unfold Standing at h ⊢
  cases phase : p.phase with
  | beginning | finished => trivial
  | locking key todo changes =>
    simp only [phase] at h ⊢
    obtain ⟨done, split, computed, holding⟩ := h
    exact ⟨done, split, both (by simp [Posting.isOpen, phase]) computed holding⟩
  | updating change todo changes =>
    simp only [phase] at h ⊢
    obtain ⟨written, split, computed, holding⟩ := h
    exact ⟨written, split, both (by simp [Posting.isOpen, phase]) computed holding⟩
  | inserting changes | committing changes =>
    simp only [phase] at h ⊢
    exact both (by simp [Posting.isOpen, phase]) h.1 h.2
  | aborting =>
    simp only [phase] at h ⊢
    obtain ⟨t, ht⟩ := h
    exact ⟨t, (same t (by simp [Posting.isOpen, phase]) ht).1⟩

end Standing

section Frame

variable {p p' : Posting} {l l' : Ledger}

theorem Effect.sound (effect : p.Effect l p' l') (sound : l.Sound) : l'.Sound := by
  cases effect with
  | begun => exact sound.begin
  | locked _ granted => exact sound.lock granted
  | updated =>
    refine sound.modify (fun t => rfl) fun t key h => .inl ?_
    rwa [Transaction.holds_write] at h
  | inserted => exact sound.modify (fun t => rfl) fun t key h => .inl h
  | committed => exact (sound.settledBy _).drop _
  | refused => exact sound
  | aborted _ _ _ ledger =>
    rcases ledger with rfl | ⟨key, a, granted⟩
    · exact sound
    · exact sound.lock granted
  | dropped => exact sound.drop _

/-- The transactions that another posting has stay as they are, and so do the accounts that they
have locked. -/
theorem Effect.others (effect : p.Effect l p' l') (sound : l.Sound) {n : Nat} {t : Transaction}
    (ht : l.transaction? n = some t) (other : p.isOpen = true → n ≠ p.number) :
    l'.transaction? n = some t ∧ ∀ key, t.holds key → l'.account? key = l.account? key := by
  have ofLock {key a l''} (isOpen : p.isOpen = true)
      (granted : l.lock p.number key = .granted a l'') :
      l''.transaction? n = some t ∧ ∀ key, t.holds key → l''.account? key = l.account? key := by
    obtain ⟨u, -, ⟨-, rfl⟩ | ⟨-, -, -, rfl⟩⟩ := Ledger.granted_cases granted
    · exact ⟨ht, fun _ _ => rfl⟩
    · exact ⟨Ledger.transaction?_modify_of_ne (fun _ => rfl) ht (other isOpen), fun _ _ => rfl⟩
  cases effect with
  | begun => exact ⟨by rw [Ledger.transaction?_begin, ht, Option.some_or], fun _ _ => rfl⟩
  | locked phase granted => exact ofLock (by simp [Posting.isOpen, phase]) granted
  | updated phase | inserted phase =>
    have different := other (by simp [Posting.isOpen, phase])
    exact ⟨Ledger.transaction?_modify_of_ne (fun _ => rfl) ht different, fun _ _ => rfl⟩
  | @committed changes u phase hu =>
    have different := other (by simp [Posting.isOpen, phase])
    refine ⟨?_, fun key held => ?_⟩
    · exact Ledger.transaction?_drop_eq_some_iff.2 ⟨different, ht⟩
    · -- A row that the other transaction has locked is not among those that are written.
      have free : u.copy? key = none := by
        rw [← Option.not_isSome_iff_eq_none, ← Transaction.holds_iff]
        intro hold
        have := sound.exclusive t (Ledger.mem_of_transaction? ht) u
          (Ledger.mem_of_transaction? hu) key held hold
        rw [Ledger.number_of_transaction? ht, Ledger.number_of_transaction? hu] at this
        exact different this
      rw [Ledger.account?_congr (Ledger.accounts_drop _ _), Ledger.account?_settledBy, free]
      simp
  | refused => exact ⟨ht, fun _ _ => rfl⟩
  | aborted _ isOpen _ ledger =>
    rcases ledger with rfl | ⟨key, a, granted⟩
    · exact ⟨ht, fun _ _ => rfl⟩
    · exact ofLock isOpen granted
  | dropped _ isOpen =>
    exact ⟨Ledger.transaction?_drop_eq_some_iff.2 ⟨other isOpen, ht⟩, fun _ _ => rfl⟩

/-- A posting keeps the number of its transaction, and a new one has not been in use. -/
theorem Effect.number_eq (effect : p.Effect l p' l') (isOpen : p'.isOpen = true) :
    p.isOpen = true ∧ p'.number = p.number ∨ p'.number = l.nextNumber := by
  cases effect with
  | begun => exact .inr rfl
  | locked phase | updated phase | inserted phase =>
    exact .inl ⟨by simp [Posting.isOpen, phase], rfl⟩
  | aborted _ before => exact .inl ⟨before, rfl⟩
  | committed | refused | dropped => simp [Posting.isOpen] at isOpen

/-- A transaction that is open after a move is the posting's own, or it was open before as
another's. -/
theorem Effect.owner (effect : p.Effect l p' l') {n : Nat} {t : Transaction}
    (ht : l'.transaction? n = some t) :
    p'.isOpen = true ∧ p'.number = n ∨
      (∃ u, l.transaction? n = some u) ∧ (p.isOpen = true → p.number ≠ n) := by
  -- Other transactions have been there before: a move only writes to its own.
  have ofModify {f : Transaction → Transaction}
      (hu : (l.modifyTransaction p.number f).transaction? n = some t)
      (hf : ∀ t, (f t).number = t.number) (hne : p.number ≠ n) :
      ∃ u, l.transaction? n = some u := by
    rw [Ledger.transaction?_modify _ _ _ _ hf, if_neg (Ne.symm hne)] at hu
    exact ⟨t, hu⟩
  have ofLock {key a l''} (granted : l.lock p.number key = .granted a l'')
      (hu : l''.transaction? n = some t) (hne : p.number ≠ n) :
      ∃ u, l.transaction? n = some u := by
    obtain ⟨_, -, ⟨-, rfl⟩ | ⟨-, -, -, rfl⟩⟩ := Ledger.granted_cases granted
    · exact ⟨t, hu⟩
    · exact ofModify hu (fun _ => rfl) hne
  cases effect with
  | begun phase =>
    rw [Ledger.transaction?_begin, Option.or_eq_some_iff] at ht
    rcases ht with ht | ⟨-, ht⟩
    · exact .inr ⟨⟨t, ht⟩, by simp [Posting.isOpen, phase]⟩
    · split at ht
      · rename_i hn
        exact .inl ⟨isOpen_toLock p _ _ _, hn⟩
      · cases ht
  | locked _ granted =>
    by_cases hn : p.number = n
    · exact .inl ⟨isOpen_toLock p _ _ _, hn⟩
    · exact .inr ⟨ofLock granted ht hn, fun _ => hn⟩
  | updated =>
    by_cases hn : p.number = n
    · exact .inl ⟨isOpen_toUpdate p _ _ _, hn⟩
    · exact .inr ⟨ofModify ht (fun _ => rfl) hn, fun _ => hn⟩
  | inserted =>
    by_cases hn : p.number = n
    · exact .inl ⟨rfl, hn⟩
    · exact .inr ⟨ofModify ht (fun _ => rfl) hn, fun _ => hn⟩
  | committed =>
    obtain ⟨hne, before⟩ := Ledger.transaction?_drop_eq_some_iff.1 ht
    exact .inr ⟨⟨t, before⟩, fun _ => hne.symm⟩
  | refused _ phase => exact .inr ⟨⟨t, ht⟩, by simp [Posting.isOpen, phase]⟩
  | aborted _ _ _ ledger =>
    by_cases hn : p.number = n
    · exact .inl ⟨rfl, hn⟩
    · rcases ledger with rfl | ⟨key, a, granted⟩
      · exact .inr ⟨⟨t, ht⟩, fun _ => hn⟩
      · exact .inr ⟨ofLock granted ht hn, fun _ => hn⟩
  | dropped =>
    obtain ⟨hne, before⟩ := Ledger.transaction?_drop_eq_some_iff.1 ht
    exact .inr ⟨⟨t, before⟩, fun _ => hne.symm⟩

/-- The transactions of others. -/
def rest (p : Posting) (l : Ledger) : List Transaction :=
  if p.isOpen then (l.drop p.number).transactions else l.transactions

theorem rest_of_isOpen (h : p.isOpen = true) : p.rest l = (l.drop p.number).transactions :=
  if_pos h

theorem rest_of_not_isOpen (h : p.isOpen = false) : p.rest l = l.transactions :=
  if_neg (by simp [h])

/-- No move of a posting opens, changes or closes a transaction of others. -/
theorem Effect.rest (effect : p.Effect l p' l') (sound : l.Sound) : p'.rest l' = p.rest l := by
  have ofLock {key a l''} (granted : l.lock p.number key = .granted a l'') :
      (l''.drop p.number).transactions = (l.drop p.number).transactions := by
    obtain ⟨_, -, ⟨-, rfl⟩ | ⟨-, -, -, rfl⟩⟩ := Ledger.granted_cases granted
    · rfl
    · exact l.drop_modify fun _ => rfl
  cases effect with
  | begun phase =>
    rw [rest_of_isOpen (isOpen_toLock p _ _ _),
      rest_of_not_isOpen (by simp [Posting.isOpen, phase])]
    exact sound.drop_begin
  | locked phase granted =>
    rw [rest_of_isOpen (isOpen_toLock p _ _ _), rest_of_isOpen (by simp [Posting.isOpen, phase])]
    exact ofLock granted
  | updated phase =>
    rw [rest_of_isOpen (isOpen_toUpdate p _ _ _), rest_of_isOpen (by simp [Posting.isOpen, phase])]
    exact l.drop_modify fun _ => rfl
  | inserted phase =>
    rw [rest_of_isOpen rfl, rest_of_isOpen (by simp [Posting.isOpen, phase])]
    exact l.drop_modify fun _ => rfl
  | committed phase =>
    rw [rest_of_not_isOpen rfl, rest_of_isOpen (by simp [Posting.isOpen, phase])]
    rfl
  | refused _ phase =>
    rw [rest_of_not_isOpen rfl, rest_of_not_isOpen (by simp [Posting.isOpen, phase])]
  | aborted _ isOpen _ ledger =>
    rw [rest_of_isOpen rfl, rest_of_isOpen isOpen]
    rcases ledger with rfl | ⟨key, a, granted⟩
    · rfl
    · exact ofLock granted
  | dropped _ isOpen => rw [rest_of_not_isOpen rfl, rest_of_isOpen isOpen]

/-- A commit writes every change to its account and adds the rows to the journal. -/
theorem Holding.settledBy {t : Transaction} {changes : List BalanceChange}
    {pending : List JournalEntry} (h : p.Holding l p.keys changes pending) (sound : l.Sound)
    (computed : p.Computed l p.keys changes) (ht : l.transaction? p.number = some t) :
    (l.settledBy t).accounts = l.accounts.map (·.settled changes p.moment) ∧
      (l.settledBy t).journal = l.journal ++ pending := by
  obtain ⟨u, hu, hpending, copies⟩ := h
  obtain rfl := Option.some.inj (ht.symm.trans hu)
  refine ⟨List.map_congr_left fun a ha => ?_, by rw [Ledger.settledBy, hpending]⟩
  rw [copies]
  by_cases hkey : a.key ∈ p.keys
  · rw [if_pos hkey, sound.account?_eq_some_iff.2 ⟨ha, rfl⟩]
    rfl
  · rw [if_neg hkey, a.settled_of_notMem (by rwa [computed.keys_eq])]
    rfl

theorem toUpdate_ne_finished (todo changes : List BalanceChange)
    (result : Except LedgerError (List BalanceChange)) :
    toUpdate todo changes ≠ .finished result := by
  cases todo <;> simp [toUpdate]

theorem toLock_ne_finished (todo : List AccountKey) (changes : List BalanceChange)
    (result : Except LedgerError (List BalanceChange)) :
    toLock todo changes ≠ .finished result := by
  cases todo with
  | nil => exact toUpdate_ne_finished changes changes result
  | cons => simp [toLock]

/-- What others see changes only when a posting finishes with success. -/
theorem Effect.books (effect : p.Effect l p' l') (sound : l.Sound) (h : p.Standing l) :
    (∃ changes, p'.phase = .finished (.ok changes) ∧ p.Posts changes l l') ∨
      ((∀ changes, p'.phase ≠ .finished (.ok changes)) ∧ l'.accounts = l.accounts ∧
        l'.journal = l.journal) := by
  have ofLock {key a l''} (granted : l.lock p.number key = .granted a l'') :
      l''.accounts = l.accounts ∧ l''.journal = l.journal := by
    obtain ⟨_, -, ⟨-, rfl⟩ | ⟨-, -, -, rfl⟩⟩ := Ledger.granted_cases granted <;> exact ⟨rfl, rfl⟩
  cases effect with
  | begun => exact .inr ⟨fun _ => toLock_ne_finished _ _ _, rfl, rfl⟩
  | locked _ granted => exact .inr ⟨fun _ => toLock_ne_finished _ _ _, ofLock granted⟩
  | updated => exact .inr ⟨fun _ => toUpdate_ne_finished _ _ _, rfl, rfl⟩
  | inserted | dropped | refused => exact .inr ⟨fun _ => by simp, rfl, rfl⟩
  | @committed changes t phase ht =>
    simp only [Standing, phase] at h
    obtain ⟨computed, holding⟩ := h
    obtain ⟨accounts, journal⟩ := holding.settledBy sound computed ht
    exact .inl ⟨changes, rfl, computed, accounts, journal⟩
  | aborted _ _ _ ledger =>
    refine .inr ⟨fun _ => by simp, ?_⟩
    rcases ledger with rfl | ⟨key, a, granted⟩
    · exact ⟨rfl, rfl⟩
    · exact ofLock granted

/-! ### What never changes, and what always does -/

theorem Effect.batch_eq (effect : p.Effect l p' l') : p'.batch = p.batch := by
  cases effect <;> rfl

theorem Effect.deltas_eq (effect : p.Effect l p' l') : p'.deltas = p.deltas := by
  cases effect <;> rfl

theorem remaining_toUpdate (p : Posting) (todo changes : List BalanceChange) :
    remaining { p with phase := toUpdate todo changes } = todo.length + 3 := by
  cases todo <;> rfl

theorem remaining_toLock_le (p : Posting) (n : Nat) (todo : List AccountKey)
    (changes : List BalanceChange) :
    remaining { p with number := n, phase := toLock todo changes } ≤
      2 * todo.length + changes.length + 3 := by
  cases todo with
  | nil => simp [toLock, remaining_toUpdate { p with number := n }]
  | cons => simp only [toLock, remaining, List.length_cons]; omega

/-- Every move brings a posting nearer to its end. -/
theorem Effect.remaining_lt (effect : p.Effect l p' l') : p'.remaining < p.remaining := by
  have pos (isOpen : p.isOpen = true) : 0 < p.remaining := by
    unfold Posting.isOpen at isOpen
    unfold remaining
    split at isOpen <;> split <;> simp_all
  cases effect with
  | begun phase =>
    have := remaining_toLock_le p l.nextNumber p.keys []
    simp only [remaining, phase, List.length_nil] at this ⊢
    omega
  | @locked key todo changes _ _ change phase =>
    have := remaining_toLock_le p p.number todo (changes ++ [change])
    simp only [List.length_append, List.length_singleton] at this
    simp only [remaining, phase] at this ⊢
    omega
  | @updated _ todo changes phase =>
    rw [remaining_toUpdate]
    simp only [remaining, phase]
    omega
  | inserted phase | committed phase | refused _ phase => simp [remaining, phase]
  | aborted _ _ left => exact left
  | dropped _ isOpen => exact pos isOpen

end Frame

end Posting

end Bureau
