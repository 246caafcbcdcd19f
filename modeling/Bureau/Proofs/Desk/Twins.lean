import Bureau.Proofs.Desk.Abreast
import Bureau.Proofs.Desk.Posting

/-!
# One batch, posted in two worlds

A batch is posted in two worlds of one scene whose ledgers show the same accounts under the keys of
the batch, and nobody is in its way. Then the two postings go through the same phases, whatever
befalls their calls, and the answer is the same (`Posting.agree_post`).
-/

namespace Bureau

open Timed World

namespace Posting

variable {first p p' : Posting} {l₀ l₀' l l' : Ledger} {w w' : World}

/-- Two postings that have started alike, in the same phase. -/
structure Twins (first : Posting) (l₀ l₀' : Ledger) (p p' : Posting) (l l' : Ledger) : Prop where
  left : Underway first l₀ p l
  right : Underway first l₀' p' l'
  phase : p'.phase = p.phase

/-- Nobody is in the way of the posting, and the ledgers show it the same accounts. -/
structure Matched (first : Posting) (l₀ l₀' : Ledger) : Prop where
  left : first.Unhindered l₀
  right : first.Unhindered l₀'
  same : ∀ key ∈ first.keys, l₀'.account? key = l₀.account? key

theorem call?_congr (h : p'.phase = p.phase) : p'.call? = p.call? := by
  rw [call?, h, call?]

theorem result?_congr (h : p'.phase = p.phase) : p'.result? = p.result? := by
  rw [result?, h, result?]

theorem phase_fail (h : p'.phase = p.phase) (e : LedgerError) :
    (p'.fail l' e).1.phase = (p.fail l e).1.phase := by
  unfold fail
  rw [h]
  cases phase : p.phase <;> simp [phase, h]

/-- A posting that has not finished sees an account as the ledger showed it at the start. -/
theorem Underway.changeIn_eq (h : Underway first l₀ p l) (unfinished : p.result? = none)
    (key : AccountKey) : p.changeIn l key = first.changeIn l₀ key := by
  have same := Ledger.account?_congr (h.untouched unfinished).1 key
  unfold changeIn delta
  rw [same, h.deltas]

/-- The key that a posting is about to lock is one of its own. -/
theorem Underway.locking_mem (h : Underway first l₀ p l) {key : AccountKey}
    {todo : List AccountKey} {changes : List BalanceChange}
    (phase : p.phase = .locking key todo changes) : key ∈ first.keys := by
  have standing := h.standing
  simp only [Standing, phase] at standing
  obtain ⟨done, split, -⟩ := standing
  rw [← h.keys_eq, split]
  simp

namespace Twins

variable (h : Twins first l₀ l₀' p p' l l')

include h

theorem unfinished (open_ : p.result? = none) : p'.result? = none :=
  (result?_congr h.phase).trans open_

theorem ahead_eq (matched : Matched first l₀ l₀') (open_ : p.result? = none) :
    p'.ahead l' = p.ahead l := by
  unfold ahead
  rw [h.phase, h.left.keys_eq, h.right.keys_eq]
  cases phase : p.phase with
  | locking key todo changes =>
    have same : first.changeIn l₀' key = first.changeIn l₀ key :=
      changeIn_congr (matched.same key (h.left.locking_mem phase))
    simp only [h.left.changeIn_eq open_, h.right.changeIn_eq (h.unfinished open_), same]
  | _ => rfl

/-- Both steps fail. -/
theorem fail (open_ : p.result? = none) (e : LedgerError) :
    Twins first l₀ l₀' (p.fail l e).1 (p'.fail l' e).1 (p.fail l e).2 (p'.fail l' e).2 where
  left := h.left.moves (.failed open_ e)
  right := h.right.moves (.failed (h.unfinished open_) e)
  phase := phase_fail h.phase e

/-- Both take their steps. -/
theorem step (matched : Matched first l₀ l₀') (open_ : p.result? = none) :
    ∃ q q' m m', p.step l = .went q m ∧ p'.step l' = .went q' m' ∧
      Twins first l₀ l₀' q q' m m' := by
  obtain ⟨q, m, went, next⟩ := h.left.step_ahead matched.left open_
  obtain ⟨q', m', went', next'⟩ := h.right.step_ahead matched.right (h.unfinished open_)
  refine ⟨q, q', m, m', went, went', ?_, ?_, ?_⟩
  · exact h.left.moves (.went open_ went)
  · exact h.right.moves (.went (h.unfinished open_) went')
  · rw [next, next', h.ahead_eq matched open_]

end Twins

/-- Whatever befalls the two calls, the postings stay together. -/
theorem abreast_advance (h : Twins first l₀ l₀' p p' w.ledger w'.ledger)
    (matched : Matched first l₀ l₀') (scene : w.scene = w'.scene) (open_ : p.result? = none)
    (name : LedgerCall) :
    (p.advance name).Abreast (p'.advance name) w w'
      (fun q q' v v' => Twins first l₀ l₀' q q' v.ledger v'.ledger) fun _ _ => True := by
  refine (Ledger.abreast_suffer scene name).bind fun error _ v v' scene ⟨equal, still, still'⟩ => ?_
  subst equal
  rw [← still.ledger, ← still'.ledger] at h
  cases error with
  | some e => exact abreast_act scene (h.fail open_ e)
  | none =>
    obtain ⟨q, q', m, m', went, went', twins⟩ := h.step matched open_
    refine (abreast_read (Q := fun a b _ _ => a = .went q m ∧ b = .went q' m') scene
      ⟨went, went'⟩).bind fun a b v v' scene ⟨left, right⟩ => ?_
    subst left right
    exact abreast_act scene twins

theorem abreast_drive (steps : Nat) (h : Twins first l₀ l₀' p p' w.ledger w'.ledger)
    (matched : Matched first l₀ l₀') (scene : w.scene = w'.scene) :
    (drive steps p).Abreast (drive steps p') w w'
      (fun q q' _ _ => q'.result? = q.result?) fun _ _ => True := by
  induction steps generalizing p p' w w' with
  | zero => exact abreast_pure scene (result?_congr h.phase)
  | succ steps ih =>
    unfold drive
    rw [call?_congr h.phase]
    cases call : p.call? with
    | none => exact abreast_pure scene (result?_congr h.phase)
    | some name =>
      have open_ := result?_eq_none_of_call? call
      exact Abreast.bind ((abreast_advance h matched scene open_ name).onCut
        fun v v' scene _ => ⟨scene, trivial⟩) fun q q' v v' scene twins => ih twins scene

/-- A batch that nobody is in the way of is answered alike when the ledgers show it the same
accounts. -/
theorem agree_post {batch : JournalBatch} (sound : w.ledger.Sound) (sound' : w'.ledger.Sound)
    (scene : w.scene = w'.scene)
    (matched : ∀ p, ofBatch batch = .ok p → Matched p w.ledger w'.ledger) (span : Nat) :
    (post span batch).Agree (post span batch) w w' := by
  unfold post
  cases genuine : ofBatch batch with
  | error e => exact abreast_pure scene rfl
  | ok p =>
    obtain ⟨deltas, -, -, rfl⟩ := ofBatch_eq_ok genuine
    have twins : Twins { batch, deltas } w.ledger w'.ledger { batch, deltas } { batch, deltas }
        w.ledger w'.ledger :=
      ⟨underway_first sound rfl, underway_first sound' rfl, rfl⟩
    have driven := abreast_drive (remaining { batch, deltas }) twins (matched _ genuine) scene
    refine (driven.limited (R := fun q q' => q'.result? = q.result?) scene span).bind
      fun q q' v v' scene same => ?_
    cases same with
    | none => exact abreast_pure scene rfl
    | @some q q' same =>
      dsimp only
      rw [same]
      rcases q.result? with _ | _ | _ <;> exact abreast_pure scene rfl

end Posting

end Bureau
