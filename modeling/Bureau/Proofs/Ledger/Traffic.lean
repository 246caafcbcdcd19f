import Bureau.Proofs.Ledger.Standing
import Mathlib.Logic.Relation

/-!
# Postings side by side

`Traffic` is a ledger with any number of postings that take their moves in any order. `Inv` is
what every reachable state keeps: each posting stands where its phase says, each open transaction
belongs to exactly one open posting, and so each lock has at most one holder.
-/

namespace Bureau

namespace Posting

/-- The posting of a batch, before its first move. A batch that is no settlement has finished. -/
def start (batch : JournalBatch) : Posting :=
  match ofBatch batch with
  | .ok p => p
  | .error e => { batch, deltas := [], phase := .finished (.error e) }

/-- Whether the posting has committed. -/
def hasPosted (p : Posting) : Bool :=
  match p.phase with
  | .finished (.ok _) => true
  | _ => false

theorem ofBatch_eq_ok {batch : JournalBatch} {p : Posting} (h : ofBatch batch = .ok p) :
    ∃ deltas, batch.check = .ok () ∧ batch.deltas = .ok deltas ∧ p = { batch, deltas } := by
  unfold ofBatch at h
  split at h
  · cases h
  · rename_i check
    split at h
    · cases h
    · rename_i deltas hdeltas
      cases h
      exact ⟨deltas, check, hdeltas, rfl⟩

theorem isOpen_start (batch : JournalBatch) : (start batch).isOpen = false := by
  unfold start
  split
  · rename_i p h
    obtain ⟨deltas, -, -, rfl⟩ := ofBatch_eq_ok h
    rfl
  · rfl

theorem batch_start (batch : JournalBatch) : (start batch).batch = batch := by
  unfold start
  split
  · rename_i p h
    obtain ⟨deltas, -, -, rfl⟩ := ofBatch_eq_ok h
    rfl
  · rfl

theorem standing_of_not_isOpen {p : Posting} (h : p.isOpen = false) (l : Ledger) :
    p.Standing l := by
  unfold Standing
  unfold isOpen at h
  cases phase : p.phase <;> simp_all

theorem result?_of_isOpen {p : Posting} (h : p.isOpen = true) : p.result? = none := by
  unfold result?
  unfold isOpen at h
  cases phase : p.phase <;> simp_all

end Posting

/-- Postings that take their steps in one ledger, in any order. -/
structure Traffic where
  ledger : Ledger
  postings : List Posting
  /-- The places of the postings that have committed, in the order of their commits. -/
  commits : List Nat := []

namespace Traffic

/-- A ledger and the batches that are to be posted in it. -/
def start (l : Ledger) (batches : List JournalBatch) : Traffic :=
  { ledger := l, postings := batches.map Posting.start }

/-- The traffic after a move of the posting at a place. -/
def after (s : Traffic) (i : Nat) (p : Posting) (l : Ledger) : Traffic :=
  { ledger := l
    postings := s.postings.set i p
    commits := if p.hasPosted then s.commits ++ [i] else s.commits }

/-- Any posting may take the next move. -/
inductive Step (s : Traffic) : Traffic → Prop
  | move {i : Nat} {p p' : Posting} {l' : Ledger} (place : s.postings[i]? = some p)
      (moves : p.Moves s.ledger p' l') : Step s (s.after i p' l')

/-- The states that any order of moves can reach. -/
abbrev Reaches : Traffic → Traffic → Prop := Relation.ReflTransGen Step

/-- The traffic after the step of the posting at a place, where that can go on. -/
def go (s : Traffic) (i : Nat) : Traffic :=
  match s.postings[i]? with
  | none => s
  | some p =>
    if p.result?.isSome then s
    else
      match p.step s.ledger with
      | .went p' l' => s.after i p' l'
      | .waits _ => s

theorem reaches_go (s : Traffic) (i : Nat) : s.Reaches (s.go i) := by
  unfold go
  split
  · exact .refl
  · rename_i p place
    split
    · exact .refl
    · rename_i unfinished
      split
      · rename_i step
        exact .single (.move place (.went (by simpa using unfinished) step))
      · exact .refl

/-- Postings may take their steps in the order of any list of places. -/
theorem reaches_foldl_go (s : Traffic) (places : List Nat) :
    s.Reaches (places.foldl go s) := by
  induction places generalizing s with
  | nil => exact .refl
  | cons i rest ih => exact (reaches_go s i).trans (ih _)

/-- The posting at a place holds the lock of a row. -/
def Holds (s : Traffic) (i : Nat) (key : AccountKey) : Prop :=
  ∃ (p : Posting) (t : Transaction), s.postings[i]? = some p ∧ p.isOpen = true ∧
    s.ledger.transaction? p.number = some t ∧ t.holds key = true

/-- What every state keeps. -/
structure Inv (s : Traffic) : Prop where
  sound : s.ledger.Sound
  standing : ∀ (i : Nat) (p : Posting), s.postings[i]? = some p → p.Standing s.ledger
  /-- No two open postings have one transaction. -/
  numbers : ∀ (i j : Nat) (p q : Posting), s.postings[i]? = some p → s.postings[j]? = some q →
    p.isOpen = true → q.isOpen = true → p.number = q.number → i = j
  /-- Every open transaction belongs to an open posting. -/
  owner : ∀ (n : Nat) (t : Transaction), s.ledger.transaction? n = some t →
    ∃ (i : Nat) (p : Posting), s.postings[i]? = some p ∧ p.isOpen = true ∧ p.number = n

section Inv

variable {s s' : Traffic} {i j : Nat} {p p' q : Posting} {l' : Ledger}

theorem getElem?_after (place : s.postings[i]? = some p) (j : Nat) (l' : Ledger) :
    (s.after i p' l').postings[j]? = if i = j then some p' else s.postings[j]? := by
  have bound : i < s.postings.length := (List.getElem?_eq_some_iff.1 place).1
  rw [after, List.getElem?_set]
  split <;> simp_all

theorem inv_start {l : Ledger} (atRest : l.AtRest) (batches : List JournalBatch) :
    (start l batches).Inv := by
  have closed {i : Nat} {p : Posting} (place : (start l batches).postings[i]? = some p) :
      p.isOpen = false := by
    obtain ⟨batch, -, rfl⟩ := List.mem_map.1 (List.mem_of_getElem? place)
    exact Posting.isOpen_start batch
  refine ⟨atRest.sound, fun i p place => ?_, fun i j p q hp _ isOpen => ?_, fun n t ht => ?_⟩
  · exact Posting.standing_of_not_isOpen (closed place) l
  · rw [closed hp] at isOpen
    cases isOpen
  · have := Ledger.mem_of_transaction? ht
    rw [start, atRest.transactions] at this
    cases this

/-- Other postings stand where they stood. -/
theorem Inv.standing_other (inv : s.Inv) (hp : s.postings[i]? = some p)
    (effect : p.Effect s.ledger p' l') (hq : s.postings[j]? = some q) (hne : i ≠ j) :
    q.Standing l' := by
  refine (inv.standing j q hq).congr fun t isOpen ht => ?_
  refine effect.others inv.sound ht fun hopen hnumber => hne ?_
  exact inv.numbers i j p q hp hq hopen isOpen hnumber.symm

/-- A posting that moves does not get the transaction of another. -/
theorem Inv.number_other (inv : s.Inv) (hp : s.postings[i]? = some p)
    (effect : p.Effect s.ledger p' l') (hq : s.postings[j]? = some q) (hne : i ≠ j)
    (hp' : p'.isOpen = true) (isOpen : q.isOpen = true) : p'.number ≠ q.number := by
  intro hnumber
  rcases effect.number_eq hp' with ⟨hopen, same⟩ | new
  · exact hne (inv.numbers i j p q hp hq hopen isOpen (same.symm.trans hnumber))
  · obtain ⟨t, ht⟩ := (inv.standing j q hq).transaction? isOpen
    rw [← hnumber, new, inv.sound.transaction?_nextNumber] at ht
    cases ht

/-- Every move keeps the invariant. -/
theorem Inv.preserve (inv : s.Inv) (step : Step s s') : s'.Inv := by
  obtain ⟨place, moves⟩ := step
  rename_i i p p' l'
  have effect := moves.effect
  have look (j : Nat) :
      (s.after i p' l').postings[j]? = if i = j then some p' else s.postings[j]? :=
    getElem?_after place j l'
  refine ⟨effect.sound inv.sound, fun j q hq => ?_, fun j k q r hq hr hqo hro hnumber => ?_,
    fun n t ht => ?_⟩
  · rw [look] at hq
    split at hq
    · cases hq
      exact effect.standing inv.sound (inv.standing i p place)
    · rename_i hne
      exact inv.standing_other place effect hq hne
  · rw [look] at hq hr
    by_cases hj : i = j <;> by_cases hk : i = k
    · exact hj.symm.trans hk
    · rw [if_pos hj] at hq
      rw [if_neg hk] at hr
      cases hq
      exact absurd hnumber (inv.number_other place effect hr hk hqo hro)
    · rw [if_neg hj] at hq
      rw [if_pos hk] at hr
      cases hr
      exact absurd hnumber.symm (inv.number_other place effect hq hj hro hqo)
    · rw [if_neg hj] at hq
      rw [if_neg hk] at hr
      exact inv.numbers j k q r hq hr hqo hro hnumber
  · rcases effect.owner ht with ⟨hopen, hnumber⟩ | ⟨⟨u, hu⟩, other⟩
    · exact ⟨i, p', by rw [look, if_pos rfl], hopen, hnumber⟩
    · obtain ⟨j, q, hq, hopen, hnumber⟩ := inv.owner n u hu
      refine ⟨j, q, ?_, hopen, hnumber⟩
      rw [look, if_neg, hq]
      rintro rfl
      obtain rfl := Option.some.inj (place.symm.trans hq)
      exact other hopen hnumber

theorem Reaches.inv (reaches : Reaches s s') (inv : s.Inv) : s'.Inv := by
  induction reaches with
  | refl => exact inv
  | tail _ step ih => exact ih.preserve step

/-! ### Locks -/

/-- The lock of a row has at most one holder. -/
theorem Inv.holder_unique (inv : s.Inv) {key : AccountKey} (hi : s.Holds i key)
    (hj : s.Holds j key) : i = j := by
  obtain ⟨p, t, hp, hpo, ht, htk⟩ := hi
  obtain ⟨q, u, hq, hqo, hu, huk⟩ := hj
  refine inv.numbers i j p q hp hq hpo hqo ?_
  have := inv.sound.exclusive t (Ledger.mem_of_transaction? ht) u (Ledger.mem_of_transaction? hu)
    key htk huk
  rwa [Ledger.number_of_transaction? ht, Ledger.number_of_transaction? hu] at this

/-- A lock that is held has a holder, which has not finished. -/
theorem Inv.exists_holder (inv : s.Inv) {key : AccountKey} {t : Transaction}
    (ht : t ∈ s.ledger.transactions) (held : t.holds key = true) :
    ∃ (i : Nat) (p : Posting), s.postings[i]? = some p ∧ p.isOpen = true ∧
      p.number = t.number ∧ s.Holds i key := by
  have found := inv.sound.transaction?_eq_some_iff.2 ⟨ht, rfl⟩
  obtain ⟨i, p, hp, hopen, hnumber⟩ := inv.owner _ _ found
  exact ⟨i, p, hp, hopen, hnumber, p, t, hp, hopen, hnumber ▸ found, held⟩

end Inv

/-! ### Two opposing conversions -/

/-- A hundred units in each of two accounts of one client. -/
def opposingLedger : Ledger :=
  { accounts := [⟨default, Currency.usd, .hundredths 10000, Decimal.zero, none, default⟩,
      ⟨default, Currency.cad, .hundredths 10000, Decimal.zero, none, default⟩] }

/-- One conversion each way between the two accounts. -/
def opposingBatches : List JournalBatch :=
  [.conversion ⟨⟨1, by decide⟩⟩ default .fiatExchange default ⟨.hundredths 1000, Currency.usd⟩
      ⟨.hundredths 1300, Currency.cad⟩,
    .conversion ⟨⟨2, by decide⟩⟩ default .fiatExchange default ⟨.hundredths 1300, Currency.cad⟩
      ⟨.hundredths 1000, Currency.usd⟩]

end Traffic

end Bureau
