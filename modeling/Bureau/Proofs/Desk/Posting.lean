import Bureau.Desk.Settlement
import Bureau.Proofs.Desk.Calls
import Bureau.Proofs.Ledger.Alone

/-!
# Postings in the world

Whatever befalls the calls of a posting, each is one of its moves in the ledger
(`Posting.ensures_advance`). So a posting closes every transaction that it opens, and it succeeds
exactly when its changes and its rows are there (`Posting.ensures_post`,
`Posting.ensures_post_changes`).
-/

namespace Bureau

open Timed World

namespace Ledger

/-- The same transactions are open, and the ledger shows what it has shown before. -/
structure Unchanged (l l' : Ledger) : Prop where
  sound : l'.Sound
  transactions : l'.transactions = l.transactions
  accounts : l'.accounts = l.accounts
  journal : l'.journal = l.journal

theorem Sound.unchanged {l l' : Ledger} (h : l.Sound) (same : l' = l) : l.Unchanged l' := by
  subst same
  exact ⟨h, rfl, rfl, rfl⟩

theorem Unchanged.atRest {l l' : Ledger} (h : l.Unchanged l') (atRest : l.AtRest) : l'.AtRest :=
  ⟨h.sound.keys, h.transactions.trans atRest.transactions⟩

/-- The same transactions are open, and a batch has been posted. -/
def HasPosted (l : Ledger) (batch : JournalBatch) (l' : Ledger) : Prop :=
  ∃ p changes, Posting.ofBatch batch = .ok p ∧ p.Posts changes l l' ∧ l'.Sound ∧
    l'.transactions = l.transactions

section HasPosted

variable {l l' : Ledger} {batch : JournalBatch}

theorem HasPosted.sound (h : l.HasPosted batch l') : l'.Sound := by
  obtain ⟨p, changes, -, -, sound, -⟩ := h
  exact sound

theorem HasPosted.transactions (h : l.HasPosted batch l') :
    l'.transactions = l.transactions := by
  obtain ⟨p, changes, -, -, -, transactions⟩ := h
  exact transactions

theorem HasPosted.atRest (h : l.HasPosted batch l') (atRest : l.AtRest) : l'.AtRest :=
  ⟨h.sound.keys, h.transactions.trans atRest.transactions⟩

theorem HasPosted.journal (h : l.HasPosted batch l') :
    l'.journal = l.journal ++ batch.entries := by
  obtain ⟨p, changes, genuine, posts, -⟩ := h
  obtain ⟨deltas, -, -, rfl⟩ := Posting.ofBatch_eq_ok genuine
  exact posts.journal

end HasPosted

end Ledger

namespace Posting

variable {w : World} {first p : Posting} {l₀ : Ledger}

theorem call?_eq_none {p : Posting} : p.call? = none ↔ ∃ result, p.result? = some result := by
  unfold call? result?
  cases p.phase <;> simp

theorem result?_eq_none_of_call? {name : LedgerCall} (h : p.call? = some name) :
    p.result? = none := by
  cases finished : p.result? with
  | none => rfl
  | some result =>
    rw [call?_eq_none.2 ⟨result, finished⟩] at h
    cases h

/-- A posting that fails leaves no trace. -/
theorem Underway.unchanged {l : Ledger} {e : LedgerError} (h : Underway first l₀ p l)
    (finished : p.result? = some (.error e)) : l₀.Unchanged l := by
  rcases h.books with ⟨changes, phase, -⟩ | ⟨-, accounts, journal⟩
  · simp [result?, phase] at finished
  · exact ⟨h.sound, h.transactions finished, accounts, journal⟩

/-- A call is one move of the posting, unless it is cut off before it does anything. -/
theorem ensures_advance (unfinished : p.result? = none) (name : LedgerCall) :
    (p.advance name).Ensures w (fun p' w' => w.Beside w' ∧ p.Moves w.ledger p' w'.ledger)
      w.Still := by
  have fails {w' : World} (h : w.Still w') (e : LedgerError) :
      (p.failIn e).Ensures w' (fun p' w' => w.Beside w' ∧ p.Moves w.ledger p' w'.ledger)
        w.Still := by
    refine ensures_act ⟨h.toBeside.trans (w'.beside_ledger _), ?_⟩
    rw [← h.ledger]
    exact .failed unfinished e
  refine Ensures.bind (still_suffer (Still.refl w) (w.still_pop name)) fun error w₁ h₁ => ?_
  cases error with
  | some e => exact fails h₁ e
  | none =>
    refine Ensures.bind (ensures_read (Q := fun outcome w' =>
      outcome = p.step w.ledger ∧ w.Still w') ⟨by rw [h₁.ledger], h₁⟩) fun outcome w₂ h₂ => ?_
    obtain ⟨step, h₂⟩ := h₂
    cases outcome with
    | went p' l' =>
      exact ensures_act ⟨h₂.toBeside.trans (w₂.beside_ledger l'), .went unfinished step.symm⟩
    | waits key =>
      refine Ensures.bind (ensures_read (Q := fun _ => w.Still) h₂) fun span w₃ h₃ => ?_
      exact Ensures.bind (still_wait h₃ span) fun _ w₄ h₄ => fails h₄ _

/-- The calls of a posting bring it to its end, or its deadline does. -/
theorem ensures_drive {steps : Nat} (h : Underway first l₀ p w.ledger)
    (enough : p.remaining ≤ steps) :
    (drive steps p).Ensures w
      (fun p' w' => w.Beside w' ∧ Underway first l₀ p' w'.ledger ∧
        ∃ result, p'.result? = some result)
      (fun w' => w.Beside w' ∧ l₀.Unchanged w'.ledger) := by
  induction steps generalizing p w with
  | zero =>
    refine ensures_pure ⟨(Still.refl w).toBeside, h, ?_⟩
    unfold remaining at enough
    unfold result?
    split at enough <;> simp_all
  | succ steps ih =>
    unfold drive
    cases call : p.call? with
    | none => exact ensures_pure ⟨(Still.refl w).toBeside, h, call?_eq_none.1 call⟩
    | some name =>
      have unfinished := result?_eq_none_of_call? call
      have advanced : (onCut p.release (p.advance name)).Ensures w
          (fun p' w' => w.Beside w' ∧ p.Moves w.ledger p' w'.ledger)
          (fun w' => w.Beside w' ∧ l₀.Unchanged w'.ledger) := by
        refine Ensures.onCut ((ensures_advance unfinished name).mono (fun _ _ h => h)
          fun w' hw' => ⟨hw'.toBeside.trans (w'.beside_ledger _), ?_⟩)
        have cut : Underway first l₀ p.expired (p.cutOff w.ledger) := h.moves (.cut unfinished)
        rw [release, hw'.ledger]
        exact cut.unchanged (e := .timeout) rfl
      refine Ensures.bind advanced fun p' w' hw' => ?_
      obtain ⟨beside, moves⟩ := hw'
      have := moves.effect.remaining_lt
      refine (ih (h.moves moves) (by omega)).mono (fun q w'' hq => ?_) fun w'' hq => ?_
      · exact ⟨beside.trans hq.1, hq.2⟩
      · exact ⟨beside.trans hq.1, hq.2⟩

/-- A batch is posted with success exactly when the ledger shows it, and the answer names the
changes that have been made. -/
theorem ensures_post_changes (sound : w.ledger.Sound) (deadline : Nat) (batch : JournalBatch) :
    (post deadline batch).Ensures w
      (fun answer w' => w.Beside w' ∧
        ((∃ p changes, answer = .ok ⟨batch.txId, batch.kind, batch.entries, changes⟩ ∧
            ofBatch batch = .ok p ∧ p.Posts changes w.ledger w'.ledger ∧ w'.ledger.Sound ∧
            w'.ledger.transactions = w.ledger.transactions) ∨
          (∃ e, answer = .error e) ∧ w.ledger.Unchanged w'.ledger))
      (fun w' => w.Beside w' ∧ w.ledger.Unchanged w'.ledger) := by
  unfold post
  cases genuine : ofBatch batch with
  | error e =>
    exact ensures_pure ⟨(Still.refl w).toBeside, .inr ⟨⟨e, rfl⟩, sound.unchanged rfl⟩⟩
  | ok p =>
    obtain ⟨deltas, -, -, rfl⟩ := ofBatch_eq_ok genuine
    have underway : Underway { batch, deltas } w.ledger { batch, deltas } w.ledger :=
      underway_first sound rfl
    have driven := ensures_drive underway (Nat.le_refl _)
    refine Ensures.bind (Ensures.within (Q := fun found w' => w.Beside w' ∧
      (found = none → w.ledger.Unchanged w'.ledger) ∧
      ∀ p', found = some p' → Underway { batch, deltas } w.ledger p' w'.ledger ∧
        ∃ result, p'.result? = some result)
      (driven.mono (fun p' w' h => ⟨h.1, by simp, fun _ same => Option.some.inj same ▸ h.2⟩)
        fun w' h => ⟨⟨h.1, fun _ => h.2, by simp⟩, h⟩)) fun found w' hw' => ?_
    obtain ⟨beside, cut, driven⟩ := hw'
    cases found with
    | none => exact ensures_pure ⟨beside, .inr ⟨⟨_, rfl⟩, cut rfl⟩⟩
    | some p' =>
      obtain ⟨underway, result, finished⟩ := driven p' rfl
      cases result with
      | ok changes =>
        simp only [finished]
        exact ensures_pure ⟨beside, .inl ⟨_, changes, rfl, rfl, underway.posts finished,
          underway.sound, underway.transactions finished⟩⟩
      | error e =>
        simp only [finished]
        exact ensures_pure ⟨beside, .inr ⟨⟨e, rfl⟩, underway.unchanged finished⟩⟩

theorem ensures_post (sound : w.ledger.Sound) (deadline : Nat) (batch : JournalBatch) :
    (post deadline batch).Ensures w
      (fun answer w' => w.Beside w' ∧
        ((∃ posted, answer = .ok posted ∧
            posted.receipt = ⟨batch.txId, batch.kind, batch.entries⟩ ∧
            w.ledger.HasPosted batch w'.ledger) ∨
          (∃ e, answer = .error e) ∧ w.ledger.Unchanged w'.ledger))
      (fun w' => w.Beside w' ∧ w.ledger.Unchanged w'.ledger) := by
  refine (ensures_post_changes sound deadline batch).mono (fun answer w' h => ⟨h.1, ?_⟩)
    fun _ h => h
  exact h.2.imp_left fun ⟨p, changes, answered, posted⟩ => ⟨_, answered, rfl, p, changes, posted⟩

end Posting

end Bureau
