import Bureau.Ledger.Posting

/-!
# The lock order is strict and complete

Account keys are compared by client and then by currency, which is a linear order. `lockOrder`
turns any collection of keys into the strictly ascending list of those that are not clearing
keys (`pairwise_lockOrder`, `mem_lockOrder_iff`).
-/

namespace Bureau

open Std

/-! ### The order of account keys -/

instance : TransOrd Uuid :=
  inferInstanceAs (TransCmp (compareOn Uuid.number))

instance : LawfulEqOrd Uuid where
  compare_self := ReflOrd.compare_self (α := Nat)
  eq_of_compare {a b} h := by
    cases a; cases b
    congr
    exact LawfulEqOrd.eq_of_compare (α := Nat) h

instance : TransOrd ClientId :=
  inferInstanceAs (TransCmp (compareOn ClientId.uuid))

instance : LawfulEqOrd ClientId where
  compare_self := ReflOrd.compare_self (α := Uuid)
  eq_of_compare {a b} h := by
    cases a; cases b
    congr
    exact LawfulEqOrd.eq_of_compare (α := Uuid) h

instance : TransOrd Currency :=
  inferInstanceAs (TransCmp (compareOn Currency.code))

instance : LawfulEqOrd Currency where
  compare_self := ReflOrd.compare_self (α := String)
  eq_of_compare {a b} h := by
    cases a; cases b
    congr
    exact LawfulEqOrd.eq_of_compare (α := String) h

namespace AccountKey

instance : TransOrd AccountKey :=
  inferInstanceAs
    (TransCmp (compareLex (compareOn AccountKey.client) (compareOn AccountKey.currency)))

instance : LawfulEqOrd AccountKey where
  compare_self := ReflOrd.compare_self
  eq_of_compare {a b} h := by
    obtain ⟨hclient, hcurrency⟩ := Ordering.then_eq_eq.1 h
    cases a; cases b
    congr
    · exact LawfulEqOrd.eq_of_compare hclient
    · exact LawfulEqOrd.eq_of_compare hcurrency

/-- Strictly before in the order of locks. -/
def Precedes (a b : AccountKey) : Prop := compare a b = .lt

theorem Precedes.trans {a b c : AccountKey} (hab : a.Precedes b) (hbc : b.Precedes c) :
    a.Precedes c :=
  TransCmp.lt_trans hab hbc

theorem not_precedes_self (a : AccountKey) : ¬ a.Precedes a := by
  intro h
  rw [Precedes, ReflOrd.compare_self] at h
  cases h

theorem Precedes.ne {a b : AccountKey} (h : a.Precedes b) : a ≠ b := by
  rintro rfl
  exact not_precedes_self a h

end AccountKey

open AccountKey

/-! ### Inserting a key -/

theorem mem_insertKey_iff {key k : AccountKey} {keys : List AccountKey} :
    k ∈ insertKey key keys ↔ k = key ∨ k ∈ keys := by
  induction keys with
  | nil => simp [insertKey]
  | cons first rest ih =>
    unfold insertKey
    split
    · simp
    · rename_i h
      obtain rfl := LawfulEqOrd.eq_of_compare h
      simp
    · simp only [List.mem_cons, ih]
      exact or_left_comm

theorem pairwise_insertKey (key : AccountKey) {keys : List AccountKey}
    (h : keys.Pairwise Precedes) : (insertKey key keys).Pairwise Precedes := by
  induction keys with
  | nil => exact List.pairwise_singleton _ _
  | cons first rest ih =>
    obtain ⟨hfirst, hrest⟩ := List.pairwise_cons.1 h
    unfold insertKey
    split
    · rename_i hlt
      refine List.pairwise_cons.2 ⟨fun k hk => ?_, h⟩
      rcases List.mem_cons.1 hk with rfl | hk
      · exact hlt
      · exact Precedes.trans hlt (hfirst k hk)
    · exact h
    · rename_i hgt
      refine List.pairwise_cons.2 ⟨fun k hk => ?_, ih hrest⟩
      rcases mem_insertKey_iff.1 hk with rfl | hk
      · exact OrientedCmp.gt_iff_lt.1 hgt
      · exact hfirst k hk

/-! ### The keys to lock -/

/-- Insertion of a row of keys, as `lockOrder` does it. -/
theorem foldl_insertKey (keys sorted : List AccountKey) (h : sorted.Pairwise Precedes) :
    (keys.foldl (fun sorted key => insertKey key sorted) sorted).Pairwise Precedes ∧
      ∀ k, k ∈ keys.foldl (fun sorted key => insertKey key sorted) sorted ↔
        k ∈ keys ∨ k ∈ sorted := by
  induction keys generalizing sorted with
  | nil => simpa using h
  | cons key rest ih =>
    obtain ⟨ascending, complete⟩ := ih _ (pairwise_insertKey key h)
    refine ⟨ascending, fun k => (complete k).trans ?_⟩
    rw [mem_insertKey_iff, List.mem_cons, or_left_comm, or_assoc]

/-- The locks are asked for in strictly ascending order, so no key is asked for twice. -/
theorem pairwise_lockOrder (keys : List AccountKey) : (lockOrder keys).Pairwise Precedes :=
  (foldl_insertKey _ [] List.Pairwise.nil).1

/-- Exactly the keys that are not clearing keys are locked. -/
theorem mem_lockOrder_iff {keys : List AccountKey} {k : AccountKey} :
    k ∈ lockOrder keys ↔ k ∈ keys ∧ k.currency.isClearing = false := by
  rw [lockOrder, (foldl_insertKey _ [] List.Pairwise.nil).2]
  simp

theorem nodup_lockOrder (keys : List AccountKey) : (lockOrder keys).Nodup :=
  (pairwise_lockOrder keys).imp Precedes.ne

end Bureau
