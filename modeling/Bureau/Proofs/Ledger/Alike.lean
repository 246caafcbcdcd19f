import Bureau.Proofs.Ledger.Batch
import Bureau.Proofs.Ledger.Listing

/-!
# What a client sees of a ledger

Two ledgers look alike to a client when they hold the same accounts and the same rows of this
client, in the same order. Whatever a client can ask of a ledger is then answered alike. What is
done to other clients' accounts changes nothing for this one, and what is done to this client's
accounts in two such ledgers keeps them alike.
-/

namespace Bureau

/-- The accounts and the rows of a client are the same. -/
structure Ledger.Alike (client : ClientId) (l l' : Ledger) : Prop where
  accounts : l'.accounts.filter (·.client = client) = l.accounts.filter (·.client = client)
  journal : l'.journal.filter (·.client = client) = l.journal.filter (·.client = client)

namespace Ledger.Alike

variable {client : ClientId} {l l' l'' l₁ l₁' : Ledger}

theorem of_eq (accounts : l'.accounts = l.accounts) (journal : l'.journal = l.journal) :
    l.Alike client l' :=
  ⟨by rw [accounts], by rw [journal]⟩

theorem symm (h : l.Alike client l') : l'.Alike client l :=
  ⟨h.accounts.symm, h.journal.symm⟩

theorem trans (h : l.Alike client l') (h' : l'.Alike client l'') : l.Alike client l'' :=
  ⟨h'.accounts.trans h.accounts, h'.journal.trans h.journal⟩

/-! ### Looking -/

/-- A look at the members of a client sees nothing of the others. -/
theorem filter_and {α : Type} {owner : α → ClientId} {xs xs' : List α}
    (same : xs'.filter (owner · = client) = xs.filter (owner · = client)) (p : α → Bool) :
    xs'.filter (fun x => owner x = client && p x) =
      xs.filter (fun x => owner x = client && p x) := by
  have both (ys : List α) : ys.filter (fun x => owner x = client && p x) =
      (ys.filter (owner · = client)).filter p := by
    rw [List.filter_filter]
    exact List.filter_congr fun x _ => Bool.and_comm _ _
  rw [both, same, ← both]

theorem account? (h : l.Alike client l') {key : AccountKey} (own : key.client = client) :
    l'.account? key = l.account? key := by
  have only (xs : List Account) : xs.find? (·.key = key) =
      (xs.filter (·.client = client)).find? (·.key = key) := by
    rw [List.find?_filter]
    congr 1
    funext a
    by_cases same : a.key = key
    · subst same
      simp [← own, Account.key]
    · simp [same]
  rw [Ledger.account?, only, h.accounts, ← only, Ledger.account?]

theorem accountsPage (h : l.Alike client l') (start : Option Currency) (limit : Nat) :
    l'.accountsPage client start limit = l.accountsPage client start limit := by
  have rows := filter_and h.accounts fun a => start.all fun c => (compare a.currency c).isGE
  rw [Ledger.accountsPage, Ledger.accountsPage, rows]

theorem journalPage (h : l.Alike client l') {key : AccountKey} (own : key.client = client)
    (window : Window) (start : Option JournalKey) (limit : Nat) :
    l'.journalPage key window start limit = l.journalPage key window start limit := by
  have owned (xs : List JournalEntry) :
      xs.filter (fun e => e.key = key && window.contains e.transactedAt &&
        start.all fun k => (compare (JournalKey.ofEntry e) k).isGE) =
      xs.filter fun e => e.client = client && (e.key = key && window.contains e.transactedAt &&
        start.all fun k => (compare (JournalKey.ofEntry e) k).isGE) := by
    refine List.filter_congr fun e _ => ?_
    by_cases same : e.key = key
    · subst same
      simp [← own, JournalEntry.key]
    · simp [same]
  rw [Ledger.journalPage, owned, filter_and h.journal, ← owned, Ledger.journalPage]

theorem journalFor (h : l.Alike client l') (txId : TxId) :
    (l'.journalFor txId).filter (·.client = client) =
      (l.journalFor txId).filter (·.client = client) := by
  rw [Ledger.journalFor, Ledger.journalFor, List.filter_filter, List.filter_filter]
  exact filter_and h.journal _

/-! ### Opening accounts -/

theorem createAccount_of_ne {key : AccountKey} (other : key.client ≠ client) (l : Ledger)
    (now : Instant) : l.Alike client (l.createAccount key now).2 := by
  refine ⟨?_, by rw [journal_createAccount]⟩
  have foreign : (Account.opened key now).client ≠ client := other
  unfold createAccount
  split
  · rfl
  · simp [List.filter_append, foreign]

theorem createAccount (h : l.Alike client l') {key : AccountKey} (own : key.client = client)
    (now : Instant) : (l.createAccount key now).2.Alike client (l'.createAccount key now).2 := by
  refine ⟨?_, by rw [journal_createAccount, journal_createAccount, h.journal]⟩
  unfold Ledger.createAccount
  rw [h.account? own]
  split
  · exact h.accounts
  · simp [List.filter_append, h.accounts]

/-! ### Posting -/

section Posts

variable {p : Posting} {changes changes' : List BalanceChange}

theorem client_settled (a : Account) (changes : List BalanceChange) (moment : Instant) :
    (a.settled changes moment).client = a.client :=
  congrArg AccountKey.client (a.key_settled changes moment)

theorem filter_settled (xs : List Account) (changes : List BalanceChange) (moment : Instant) :
    (xs.map (·.settled changes moment)).filter (·.client = client) =
      (xs.filter (·.client = client)).map (·.settled changes moment) := by
  rw [List.filter_map]
  congr 1
  exact List.filter_congr fun a _ => by simp [client_settled]

/-- Nothing is posted to this client. -/
theorem posts_of_ne (posts : p.Posts changes l l₁) (keys : ∀ key ∈ p.keys, key.client ≠ client)
    (rows : ∀ e ∈ p.batch.entries, e.client ≠ client) : l.Alike client l₁ where
  accounts := by
    rw [posts.accounts, filter_settled]
    refine (List.map_congr_left fun a ha => ?_).trans (List.map_id _)
    have own : a.client = client := of_decide_eq_true (List.mem_filter.1 ha).2
    refine a.settled_of_notMem (fun there => ?_) _
    rw [posts.computed.keys_eq] at there
    exact keys a.key there own
  journal := by
    have none_ : p.batch.entries.filter (·.client = client) = [] :=
      List.filter_eq_nil_iff.2 (by simpa using rows)
    rw [posts.journal, List.filter_append, none_, List.append_nil]

/-- The same is posted to this client's accounts in both ledgers. -/
theorem posts (h : l.Alike client l') (posts : p.Posts changes l l₁)
    (posts' : p.Posts changes' l' l₁') (keys : ∀ key ∈ p.keys, key.client = client) :
    l₁.Alike client l₁' where
  accounts := by
    have same : changes' = changes :=
      (posts'.computed.congr fun key hkey => (h.account? (keys key hkey)).symm).unique
        posts.computed
    rw [posts'.accounts, posts.accounts, filter_settled, filter_settled, h.accounts, same]
  journal := by
    rw [posts'.journal, posts.journal, List.filter_append, List.filter_append, h.journal]

end Posts

end Ledger.Alike

end Bureau
