import Bureau.Proofs.Desk.Posting

/-!
# Postings that nothing disturbs

When nothing befalls the calls of the ledger and nobody holds a lock that a posting wants, it takes
no time, so no deadline cuts it off. It comes to what it comes to alone in the ledger
(`Posting.post_eq`).
-/

namespace Bureau

open Timed World

namespace Timed

variable {α : Type} {x : Timed α} {w w' : World} {a : α}

/-- An operation that has its result whatever the deadline is not cut off. -/
theorem within_eq (h : ∀ deadline, x deadline w = (some a, w')) (span : Nat)
    (deadline : Option Nat) : within span x deadline w = (some (some a), w') := by
  unfold within
  cases deadline with
  | none => simp only [h]
  | some t => simp only [h, ite_self]

end Timed

namespace Posting

variable {w : World} {first p p' : Posting} {l₀ l' : Ledger} {deadline : Option Nat}

theorem pop_eq (undisturbed : w.mishaps.ledger = []) (name : LedgerCall) :
    Ledger.pop name w = (none, w) := by
  cases w with
  | mk _ _ _ _ _ _ _ _ _ mishaps =>
    cases mishaps
    cases undisturbed
    rfl

/-- A call that nothing befalls takes its step at once. -/
theorem advance_eq (undisturbed : w.mishaps.ledger = []) (step : p.step w.ledger = .went p' l')
    (name : LedgerCall) (deadline : Option Nat) :
    p.advance name deadline w = (some p', { w with ledger := l' }) := by
  have suffered : suffer (Ledger.pop name) deadline w = (some none, w) := by
    rw [suffer, bind_apply, act, pop_eq undisturbed]
    rfl
  rw [advance, bind_apply, suffered]
  simp only [bind_apply, Timed.read, step]
  rfl

/-- The calls of a posting run it. -/
theorem drive_eq (steps : Nat) (undisturbed : w.mishaps.ledger = [])
    (h : Underway first l₀ p w.ledger) (free : first.Unhindered l₀) (deadline : Option Nat) :
    drive steps p deadline w =
      (some (p.run steps w.ledger).1, { w with ledger := (p.run steps w.ledger).2 }) := by
  induction steps generalizing p w with
  | zero => rfl
  | succ steps ih =>
    cases call : p.call? with
    | none =>
      obtain ⟨result, finished⟩ := call?_eq_none.1 call
      simp only [drive, call, run, finished]
      rfl
    | some name =>
      have unfinished := result?_eq_none_of_call? call
      cases step : p.step w.ledger with
      | waits key => exact absurd step (h.step_ne_waits free key)
      | went p' l' =>
        have advanced : onCut p.release (p.advance name) deadline w =
            (some p', { w with ledger := l' }) := by
          rw [onCut, advance_eq undisturbed step]
        simp only [drive, call, bind_apply, advanced, run, unfinished, step]
        exact ih (w := { w with ledger := l' }) undisturbed (h.moves (.went unfinished step))

/-- What the client of a posting is told. -/
def answer (batch : JournalBatch) :
    Option (Except LedgerError (List BalanceChange)) → Except LedgerError Posted
  | some (.ok changes) =>
    .ok { txId := batch.txId, kind := batch.kind, entries := batch.entries, changes }
  | some (.error e) => .error e
  | none => .error .timeout

/-- An undisturbed posting comes to what it comes to alone in the ledger. -/
theorem post_eq {batch : JournalBatch} (undisturbed : w.mishaps.ledger = [])
    (sound : w.ledger.Sound) (free : (Posting.start batch).Unhindered w.ledger) (span : Nat)
    (deadline : Option Nat) :
    post span batch deadline w =
      (some (answer batch (w.ledger.post batch).1),
        { w with ledger := (w.ledger.post batch).2 }) := by
  cases genuine : ofBatch batch with
  | error e =>
    have start : Posting.start batch = { batch, deltas := [], phase := .finished (.error e) } := by
      simp only [Posting.start, genuine]
    simp only [post, genuine, Ledger.post, start]
    rfl
  | ok p =>
    obtain ⟨deltas, -, -, rfl⟩ := ofBatch_eq_ok genuine
    have start : Posting.start batch = { batch, deltas } := by simp only [Posting.start, genuine]
    rw [start] at free
    have driven := drive_eq (remaining { batch, deltas }) undisturbed
      (underway_first sound rfl) free
    simp only [post, genuine, bind_apply, within_eq driven, Ledger.post, start]
    generalize (run (remaining { batch, deltas }) { batch, deltas } w.ledger).1 = last
    rcases last.result? with _ | e | changes <;> rfl

end Posting

end Bureau
