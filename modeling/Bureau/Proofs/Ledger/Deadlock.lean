import Bureau.Proofs.Ledger.Traffic
import Mathlib.Data.Fintype.EquivFin
import Mathlib.Order.WellFounded

/-!
# No deadlock

Every posting asks for its locks in ascending order, so whatever it holds precedes what it waits
for. Along a chain of postings that wait for one another the wanted keys ascend strictly; the
chain cannot close (`Inv.not_waitsFor_cycle`), and the posting at its end can go on
(`Inv.exists_went`).
-/

namespace Bureau

open AccountKey

namespace Traffic

/-- The posting at a place waits for the lock of a row. -/
def Waits (s : Traffic) (i : Nat) (key : AccountKey) : Prop :=
  ∃ p : Posting, s.postings[i]? = some p ∧ p.step s.ledger = .waits key

/-- One posting waits for a lock that another holds. -/
def WaitsFor (s : Traffic) (i j : Nat) : Prop :=
  ∃ key, s.Waits i key ∧ s.Holds j key

section Waiting

variable {s : Traffic} {i j : Nat} {key held : AccountKey}

theorem Waits.unique {key' : AccountKey} (h : s.Waits i key) (h' : s.Waits i key') :
    key = key' := by
  obtain ⟨p, hp, hstep⟩ := h
  obtain ⟨q, hq, hstep'⟩ := h'
  obtain rfl := Option.some.inj (hp.symm.trans hq)
  rw [hstep] at hstep'
  cases hstep'
  rfl

theorem Inv.exists_waitsFor (inv : s.Inv) (h : s.Waits i key) :
    ∃ j p, s.WaitsFor i j ∧ s.postings[j]? = some p ∧ p.result? = none := by
  obtain ⟨p, -, hstep⟩ := id h
  obtain ⟨todo, changes, -, busy⟩ := Posting.locking_of_waits hstep
  obtain ⟨t, ht, -, held⟩ := Ledger.exists_holder_of_busy busy
  obtain ⟨j, q, hq, isOpen, -, holds⟩ := inv.exists_holder ht held
  exact ⟨j, q, ⟨key, h, holds⟩, hq, Posting.result?_of_isOpen isOpen⟩

/-- Whatever a posting holds precedes what it waits for. -/
theorem Inv.held_precedes (inv : s.Inv) (waits : s.Waits i key) (holds : s.Holds i held) :
    held.Precedes key := by
  obtain ⟨p, hp, hstep⟩ := waits
  obtain ⟨q, t, hq, -, ht, htk⟩ := holds
  obtain rfl := Option.some.inj (hp.symm.trans hq)
  obtain ⟨todo, changes, phase, -⟩ := Posting.locking_of_waits hstep
  have standing := inv.standing i p hp
  simp only [Posting.Standing, phase] at standing
  obtain ⟨done, split, -, u, hu, -, copies⟩ := standing
  obtain rfl := Option.some.inj (ht.symm.trans hu)
  have locked : held ∈ done := by
    by_contra absent
    rw [Transaction.holds_iff, copies, if_neg absent] at htk
    cases htk
  have ascending : p.keys.Pairwise Precedes := pairwise_lockOrder _
  rw [split] at ascending
  exact (List.pairwise_append.1 ascending).2.2 held locked key List.mem_cons_self

/-- Along a chain of waiting postings the wanted keys ascend. -/
theorem Inv.wanted_precedes (inv : s.Inv) (chain : Relation.TransGen s.WaitsFor i j)
    {wanted : AccountKey} (hi : s.Waits i key) (hj : s.Waits j wanted) : key.Precedes wanted := by
  have edge {i j key wanted} (h : s.WaitsFor i j) (hi : s.Waits i key) (hj : s.Waits j wanted) :
      key.Precedes wanted := by
    obtain ⟨k, waits, holds⟩ := h
    obtain rfl := waits.unique hi
    exact inv.held_precedes hj holds
  induction chain generalizing wanted with
  | single h => exact edge h hi hj
  | tail _ h ih =>
    obtain ⟨k, waits, -⟩ := id h
    exact (ih waits).trans (edge h waits hj)

/-- Postings never wait for one another in a circle. -/
theorem Inv.not_waitsFor_cycle (inv : s.Inv) (i : Nat) : ¬ Relation.TransGen s.WaitsFor i i := by
  intro cycle
  obtain ⟨j, ⟨key, waits, -⟩, -⟩ := Relation.TransGen.head'_iff.1 cycle
  exact not_precedes_self key (inv.wanted_precedes cycle waits waits)

/-- As long as a posting has not finished, some posting can take its step. -/
theorem Inv.exists_went (inv : s.Inv) (h : ∃ p ∈ s.postings, p.result? = none) :
    ∃ (i : Nat) (p p' : Posting) (l' : Ledger), s.postings[i]? = some p ∧ p.result? = none ∧
      p.step s.ledger = .went p' l' := by
  let behind (i j : Fin s.postings.length) : Prop := Relation.TransGen s.WaitsFor j i
  have : IsTrans _ behind := ⟨fun _ _ _ hij hjk => hjk.trans hij⟩
  have : Std.Irrefl behind := ⟨fun i => inv.not_waitsFor_cycle i⟩
  -- No posting waits behind the last one of a chain.
  obtain ⟨i, unfinished, last⟩ := (Finite.wellFounded_of_trans_of_irrefl behind).has_min
    {i | s.postings[i].result? = none} (by
      obtain ⟨p, hp, unfinished⟩ := h
      obtain ⟨i, hi, rfl⟩ := List.mem_iff_getElem.1 hp
      exact ⟨⟨i, hi⟩, unfinished⟩)
  have place : s.postings[i.val]? = some s.postings[i] := List.getElem?_eq_getElem i.isLt
  cases step : s.postings[i].step s.ledger with
  | went p' l' => exact ⟨i, _, p', l', place, unfinished, step⟩
  | waits key =>
    obtain ⟨j, q, waitsFor, hq, hresult⟩ := inv.exists_waitsFor ⟨_, place, step⟩
    obtain ⟨hj, rfl⟩ := List.getElem?_eq_some_iff.1 hq
    exact absurd (Relation.TransGen.single waitsFor) (last ⟨j, hj⟩ hresult)

end Waiting

/-- However the postings of any batches are interleaved, some unfinished posting can take its
step, and the postings never wait for one another in a circle. The reason is the order of the
locks: ascending, each key once, and exactly those that are not clearing keys. -/
theorem deadlock_free {l : Ledger} (atRest : l.AtRest) (batches : List JournalBatch) {s : Traffic}
    (reaches : (start l batches).Reaches s) :
    ((∃ p ∈ s.postings, p.result? = none) →
      ∃ (i : Nat) (p p' : Posting) (l' : Ledger), s.postings[i]? = some p ∧ p.result? = none ∧
        p.step s.ledger = .went p' l') ∧
    (∀ i, ¬ Relation.TransGen s.WaitsFor i i) ∧
    ∀ keys, (lockOrder keys).Pairwise Precedes ∧
      ∀ key, key ∈ lockOrder keys ↔ key ∈ keys ∧ key.currency.isClearing = false := by
  have inv : s.Inv := reaches.inv (inv_start atRest batches)
  exact ⟨inv.exists_went, inv.not_waitsFor_cycle,
    fun keys => ⟨pairwise_lockOrder keys, fun _ => mem_lockOrder_iff⟩⟩

/-- The second conversion waits for the lock that the first one has got, and the first goes on. -/
theorem deadlock_free_opposing :
    let s := [0, 1, 0].foldl go (start opposingLedger opposingBatches)
    s.Waits 1 ⟨default, Currency.cad⟩ ∧
      ∃ (i : Nat) (p p' : Posting) (l' : Ledger), s.postings[i]? = some p ∧ p.result? = none ∧
        p.step s.ledger = .went p' l' := by
  intro s
  have place : ∃ p : Posting, s.postings[1]? = some p ∧ p.result? = none ∧
      p.step s.ledger = .waits ⟨default, Currency.cad⟩ := ⟨_, rfl, rfl, rfl⟩
  obtain ⟨p, second, unfinished, waits⟩ := place
  have atRest : opposingLedger.AtRest := ⟨by decide, rfl⟩
  refine ⟨⟨p, second, waits⟩, ?_⟩
  exact (deadlock_free atRest opposingBatches (reaches_foldl_go _ [0, 1, 0])).1
    ⟨p, List.mem_of_getElem? second, unfinished⟩

end Traffic

end Bureau
