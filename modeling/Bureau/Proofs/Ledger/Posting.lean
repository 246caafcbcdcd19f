import Bureau.Ledger.Posting
import Bureau.Proofs.Ledger.Change
import Bureau.Proofs.Ledger.LockOrder
import Bureau.Proofs.Ledger.Store
import Mathlib.Data.List.Forall2

/-!
# What a posting can do

`Posting.Moves` is one move of a posting in a ledger that it may share with others: it takes its
step, its step fails, or its deadline cuts it off. `Moves.effect` says once what a move can do to
the posting and to the ledger, phase by phase (`Posting.Effect`).
-/

namespace Bureau

/-- The account after the change, if there is one, that a list has for it. -/
def Account.settled (a : Account) (changes : List BalanceChange) (moment : Instant) : Account :=
  match changes.find? (·.key = a.key) with
  | some change => a.apply change moment
  | none => a

namespace Account

@[simp] theorem settled_nil (a : Account) (moment : Instant) : a.settled [] moment = a := rfl

@[simp] theorem key_settled (a : Account) (changes : List BalanceChange) (moment : Instant) :
    (a.settled changes moment).key = a.key := by
  unfold settled
  split <;> rfl

theorem find?_key_eq_none {changes : List BalanceChange} {key : AccountKey}
    (h : key ∉ changes.map BalanceChange.key) : changes.find? (·.key = key) = none := by
  rw [List.find?_eq_none]
  intro c hc hkey
  exact h (List.mem_map.2 ⟨c, hc, of_decide_eq_true hkey⟩)

theorem settled_of_notMem (a : Account) {changes : List BalanceChange}
    (h : a.key ∉ changes.map BalanceChange.key) (moment : Instant) :
    a.settled changes moment = a := by
  simp only [settled, find?_key_eq_none h]

/-- A change for a key that has none yet is applied on top of the others. -/
theorem settled_append (a : Account) {changes : List BalanceChange} {change : BalanceChange}
    (new : change.key ∉ changes.map BalanceChange.key) (moment : Instant) :
    a.settled (changes ++ [change]) moment =
      if a.key = change.key then (a.settled changes moment).apply change moment
      else a.settled changes moment := by
  by_cases h : a.key = change.key
  · rw [← h] at new
    simp only [settled, List.find?_append, find?_key_eq_none new]
    simp [h]
  · cases hfind : changes.find? (·.key = a.key) <;>
      simp [settled, List.find?_append, hfind, h, Ne.symm h]

end Account

namespace Posting

/-! ### Changes, computed from what is committed -/

/-- The change of an account, computed from its committed state. -/
def changeIn (p : Posting) (l : Ledger) (key : AccountKey) : Except LedgerError BalanceChange :=
  match l.account? key with
  | none => .error (.accountNotFound key)
  | some a => BalanceChange.compute key a.balance (p.delta key)

/-- The changes of several accounts, one for each, in the same order. -/
def Computed (p : Posting) (l : Ledger) (keys : List AccountKey) (changes : List BalanceChange) :
    Prop :=
  List.Forall₂ (fun key c => p.changeIn l key = .ok c) keys changes

section Changes

variable {p : Posting} {l l' : Ledger} {key : AccountKey} {keys : List AccountKey}
  {changes changes' : List BalanceChange} {c : BalanceChange}

theorem account?_of_changeIn (h : p.changeIn l key = .ok c) : ∃ a, l.account? key = some a ∧
    BalanceChange.compute key a.balance (p.delta key) = .ok c := by
  unfold changeIn at h
  split at h
  · cases h
  · rename_i a ha
    exact ⟨a, ha, h⟩

theorem changeIn_eq {a : Account} (h : l.account? key = some a) :
    p.changeIn l key = BalanceChange.compute key a.balance (p.delta key) := by
  simp only [changeIn, h]

theorem key_of_changeIn (h : p.changeIn l key = .ok c) : c.key = key := by
  obtain ⟨a, -, ha⟩ := account?_of_changeIn h
  exact BalanceChange.key_of_compute ha

theorem changeIn_congr (h : l'.account? key = l.account? key) :
    p.changeIn l' key = p.changeIn l key := by
  rw [changeIn, h, changeIn]

namespace Computed

theorem keys_eq (h : p.Computed l keys changes) : changes.map BalanceChange.key = keys := by
  induction h with
  | nil => rfl
  | cons hkey _ ih => rw [List.map_cons, ih, key_of_changeIn hkey]

theorem account? (h : p.Computed l keys changes) (hkey : key ∈ keys) :
    ∃ a c, l.account? key = some a ∧ p.changeIn l key = .ok c := by
  induction h with
  | nil => cases hkey
  | @cons k c keys changes hk _ ih =>
    rcases List.mem_cons.1 hkey with rfl | hkey
    · obtain ⟨a, ha, -⟩ := account?_of_changeIn hk
      exact ⟨a, c, ha, hk⟩
    · exact ih hkey

/-- The changes are those of the keys, each computed from the account. -/
theorem mem_iff (h : p.Computed l keys changes) :
    c ∈ changes ↔ c.key ∈ keys ∧ p.changeIn l c.key = .ok c := by
  induction h with
  | nil => simp
  | @cons k d keys changes hk _ ih =>
    have dkey : d.key = k := key_of_changeIn hk
    rw [List.mem_cons, List.mem_cons, ih]
    constructor
    · rintro (rfl | ⟨there, computed⟩)
      · exact ⟨.inl dkey, dkey.symm ▸ hk⟩
      · exact ⟨.inr there, computed⟩
    · rintro ⟨same | there, computed⟩
      · rw [same, hk] at computed
        cases computed
        exact .inl rfl
      · exact .inr ⟨there, computed⟩

theorem append (h : p.Computed l keys changes) (hkey : p.changeIn l key = .ok c) :
    p.Computed l (keys ++ [key]) (changes ++ [c]) :=
  List.rel_append h (List.Forall₂.cons hkey List.Forall₂.nil)

theorem congr (h : p.Computed l keys changes)
    (same : ∀ key ∈ keys, l'.account? key = l.account? key) : p.Computed l' keys changes := by
  induction h with
  | nil => exact List.Forall₂.nil
  | cons hkey _ ih =>
    refine List.Forall₂.cons ((changeIn_congr (same _ List.mem_cons_self)).trans hkey) ?_
    exact ih fun key hk => same key (List.mem_cons_of_mem _ hk)

/-- The accounts determine the changes. -/
theorem unique (h : p.Computed l keys changes) (h' : p.Computed l keys changes') :
    changes = changes' := by
  induction h generalizing changes' with
  | nil => cases h'; rfl
  | cons hkey _ ih =>
    cases h' with
    | cons hkey' h' =>
      rw [ih h']
      rw [hkey] at hkey'
      cases hkey'
      rfl

end Computed

/-- The changes can be computed when each of them can. -/
theorem exists_computed (h : ∀ key ∈ keys, ∃ c, p.changeIn l key = .ok c) :
    ∃ changes, p.Computed l keys changes := by
  induction keys with
  | nil => exact ⟨[], List.Forall₂.nil⟩
  | cons key keys ih =>
    obtain ⟨c, hc⟩ := h key List.mem_cons_self
    obtain ⟨changes, rest⟩ := ih fun k hk => h k (List.mem_cons_of_mem _ hk)
    exact ⟨c :: changes, List.Forall₂.cons hc rest⟩

/-- The changes depend on the net changes of the posting only. -/
theorem Computed.of_deltas {q : Posting} (h : p.Computed l keys changes)
    (same : p.deltas = q.deltas) : q.Computed l keys changes := by
  unfold Computed changeIn delta at h ⊢
  rwa [same] at h

/-- The changes have been computed and applied, and the rows of the posting added. -/
structure Posts (p : Posting) (changes : List BalanceChange) (l l' : Ledger) : Prop where
  computed : p.Computed l p.keys changes
  accounts : l'.accounts = l.accounts.map (·.settled changes p.moment)
  journal : l'.journal = l.journal ++ p.batch.entries

/-- A posting changes an account by the changes that it has for it. -/
theorem Posts.account? (h : p.Posts changes l l') (key : AccountKey) :
    l'.account? key = (l.account? key).map (·.settled changes p.moment) := by
  have same : (fun a : Account => decide (a.key = key)) ∘
      (fun a : Account => a.settled changes p.moment) = fun a => decide (a.key = key) := by
    funext a
    simp only [Function.comp, Account.key_settled]
  rw [Ledger.account?, h.accounts, List.find?_map, same, Ledger.account?]

/-- What is posted depends on the batch and its net changes only, and on what the ledger shows. -/
theorem Posts.congr {q : Posting} {l₀ : Ledger} (h : p.Posts changes l l')
    (batch : p.batch = q.batch) (deltas : p.deltas = q.deltas)
    (accounts : l.accounts = l₀.accounts) (journal : l.journal = l₀.journal) :
    q.Posts changes l₀ l' where
  computed := by
    have same : p.keys = q.keys := by rw [keys, deltas, keys]
    rw [← same]
    exact (h.computed.congr fun key _ => (Ledger.account?_congr accounts key).symm).of_deltas deltas
  accounts := by rw [h.accounts, accounts, moment, batch, moment]
  journal := by rw [h.journal, journal, batch]

end Changes

/-! ### Moves -/

/-- Whether the posting has a transaction. -/
def isOpen (p : Posting) : Bool :=
  match p.phase with
  | .beginning | .finished _ => false
  | _ => true

/-- The posting when its deadline has passed. -/
def expired (p : Posting) : Posting :=
  { p with phase := .finished (.error .timeout) }

/-- One move of a posting that has not finished. -/
inductive Moves (p : Posting) (l : Ledger) : Posting → Ledger → Prop
  /-- It takes its step. -/
  | went {p' : Posting} {l' : Ledger} (unfinished : p.result? = none)
      (step : p.step l = .went p' l') : Moves p l p' l'
  /-- Its step fails. -/
  | failed (unfinished : p.result? = none) (e : LedgerError) :
      Moves p l (p.fail l e).1 (p.fail l e).2
  /-- Its deadline cuts it off. -/
  | cut (unfinished : p.result? = none) : Moves p l p.expired (p.cutOff l)

/-- What a move can do. -/
inductive Effect (p : Posting) (l : Ledger) : Posting → Ledger → Prop
  | begun (phase : p.phase = .beginning) :
      Effect p l { p with number := l.nextNumber, phase := toLock p.keys [] } l.begin.2
  | locked {key : AccountKey} {todo : List AccountKey} {changes : List BalanceChange}
      {account : Account} {l' : Ledger} {change : BalanceChange}
      (phase : p.phase = .locking key todo changes)
      (granted : l.lock p.number key = .granted account l')
      (computed : BalanceChange.compute key account.balance (p.delta key) = .ok change) :
      Effect p l { p with phase := toLock todo (changes ++ [change]) } l'
  | updated {change : BalanceChange} {todo changes : List BalanceChange}
      (phase : p.phase = .updating change todo changes) :
      Effect p l { p with phase := toUpdate todo changes }
        (l.modifyTransaction p.number (·.write change p.moment))
  | inserted {changes : List BalanceChange} (phase : p.phase = .inserting changes) :
      Effect p l { p with phase := .committing changes }
        (l.modifyTransaction p.number fun t => { t with pending := t.pending ++ p.batch.entries })
  | committed {changes : List BalanceChange} {t : Transaction}
      (phase : p.phase = .committing changes) (transaction : l.transaction? p.number = some t) :
      Effect p l { p with phase := .finished (.ok changes) } ((l.settledBy t).drop p.number)
  | refused (e : LedgerError) (phase : p.phase = .beginning) :
      Effect p l { p with phase := .finished (.error e) } l
  /-- The locks are still held, also the one that was granted last. -/
  | aborted (e : LedgerError) {l' : Ledger} (isOpen : p.isOpen = true) (left : 1 < p.remaining)
      (ledger : l' = l ∨ ∃ key account, l.lock p.number key = .granted account l') :
      Effect p l { p with phase := .aborting e } l'
  | dropped (e : LedgerError) (isOpen : p.isOpen = true) :
      Effect p l { p with phase := .finished (.error e) } (l.drop p.number)

section Effects

variable {p p' : Posting} {l l' : Ledger}

theorem effect_fail (unfinished : p.result? = none) (e : LedgerError) :
    p.Effect l (p.fail l e).1 (p.fail l e).2 := by
  unfold fail
  cases h : p.phase with
  | beginning => exact .refused e h
  | locking | updating | inserting =>
    exact .aborted e (by simp [isOpen, h]) (by simp only [remaining, h]; omega) (.inl rfl)
  | committing => exact .dropped e (by simp [isOpen, h])
  | aborting reason => exact .dropped reason (by simp [isOpen, h])
  | finished => simp [result?, h] at unfinished

theorem effect_cut (unfinished : p.result? = none) : p.Effect l p.expired (p.cutOff l) := by
  unfold cutOff expired
  cases h : p.phase with
  | beginning => exact .refused _ h
  | finished => simp [result?, h] at unfinished
  | _ => exact .dropped _ (by simp [isOpen, h])

theorem effect_step (unfinished : p.result? = none) (h : p.step l = .went p' l') :
    p.Effect l p' l' := by
  have failing (e : LedgerError) (he : p.failed l e = .went p' l') : p.Effect l p' l' := by
    cases he
    exact effect_fail unfinished e
  unfold step at h
  cases hphase : p.phase with
  | beginning =>
    simp only [hphase] at h
    cases h
    exact .begun hphase
  | locking key todo changes =>
    simp only [hphase] at h
    split at h
    · cases h
    · exact failing _ h
    · rename_i granted
      split at h
      · -- The balance refuses the change after its row has been locked.
        simp only [failed, fail, hphase] at h
        cases h
        exact .aborted _ (by simp [isOpen, hphase]) (by simp only [remaining, hphase]; omega)
          (.inr ⟨_, _, granted⟩)
      · rename_i computed
        cases h
        exact .locked hphase granted computed
  | updating change todo changes =>
    simp only [hphase] at h
    split at h
    · exact failing _ h
    · rename_i account l'' updated
      cases h
      obtain rfl := Ledger.update_eq_ok updated
      exact .updated hphase
  | inserting changes =>
    simp only [hphase] at h
    split at h
    · exact failing _ h
    · rename_i l'' inserted
      cases h
      obtain rfl := Ledger.insert_eq_ok inserted
      exact .inserted hphase
  | committing changes =>
    simp only [hphase] at h
    split at h
    · exact failing _ h
    · rename_i l'' committed
      cases h
      obtain ⟨t, ht, rfl⟩ := Ledger.commit_eq_ok committed
      exact .committed hphase ht
  | aborting error =>
    simp only [hphase] at h
    split at h
    · exact failing _ h
    · rename_i l'' rolledBack
      cases h
      obtain rfl := Ledger.rollback_eq_ok rolledBack
      exact .dropped _ (by simp [isOpen, hphase])
  | finished => simp [result?, hphase] at unfinished

/-- A step that has to wait is a request for a lock. -/
theorem locking_of_waits {key : AccountKey}
    (h : p.step l = .waits key) :
    ∃ todo changes, p.phase = .locking key todo changes ∧ l.lock p.number key = .busy := by
  have went (e : LedgerError) : p.failed l e ≠ .waits key := by simp [failed]
  unfold step at h
  cases phase : p.phase with
  | locking k todo changes =>
    simp only [phase] at h
    split at h
    · rename_i busy
      cases h
      exact ⟨todo, changes, rfl, busy⟩
    · exact absurd h (went _)
    · split at h
      · simp [failed] at h
      · cases h
  | beginning | finished =>
    simp only [phase] at h
    cases h
  | _ =>
    simp only [phase] at h
    split at h
    · exact absurd h (went _)
    · cases h

theorem Moves.unfinished (h : p.Moves l p' l') : p.result? = none := by
  cases h <;> assumption

theorem Moves.effect (h : p.Moves l p' l') : p.Effect l p' l' := by
  cases h with
  | went unfinished step => exact effect_step unfinished step
  | failed unfinished e => exact effect_fail unfinished e
  | cut unfinished => exact effect_cut unfinished

end Effects

end Posting

end Bureau
