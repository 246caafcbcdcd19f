import Bureau.Proofs.Desk.Archive
import Bureau.Proofs.Ledger.Drift

/-!
# Batches that are posted directly

The ledger posts any batch that it is given, also one that the desk would never make. A `Docket` is
a world together with everything that has been posted in it with success. Its journal consists of
the rows of these postings, each of which forms a settlement (`Docket.Inv`); what a posting does to
the balances is said by its changes (`Docket.post_carries`).
-/

namespace Bureau

open Timed World

/-- What is asked of the ledger, and what happens around it. -/
inductive Filing where
  | openAccount (deadline : Option Nat) (key : AccountKey)
  /-- A batch is posted within some nanoseconds. -/
  | post (deadline : Option Nat) (span : Nat) (batch : JournalBatch)
  | incident (incident : Incident)

/-- The world, and everything that has been posted with success. -/
structure Docket where
  world : World
  posted : List Posted := []

namespace Docket

/-- What has been posted, by the answer to a posting. -/
def success : Option (Except LedgerError Posted) → List Posted
  | some (.ok posted) => [posted]
  | _ => []

@[simp] theorem success_none : success none = [] := rfl

@[simp] theorem success_error (e : LedgerError) : success (some (.error e)) = [] := rfl

@[simp] theorem success_ok (posted : Posted) : success (some (.ok posted)) = [posted] := rfl

/-- The docket after a filing. -/
def next (s : Docket) : Filing → Docket
  | .openAccount deadline key =>
    { s with world := (Ledger.callCreateAccount key deadline s.world).2 }
  | .post deadline span batch =>
    let (answer, world) := Posting.post span batch deadline s.world
    { world, posted := s.posted ++ success answer }
  | .incident incident => { s with world := incident.change s.world }

/-- What every docket keeps. -/
structure Inv (s : Docket) : Prop where
  kept : s.world.ledger.Kept
  journal : s.world.ledger.journal = s.posted.flatMap Posted.entries
  consistent : ∀ p ∈ s.posted, checkConsistency p.entries = .ok p.kind

variable {s : Docket} {w : World}

theorem inv_new (new : w.ledger = {}) : Inv { world := w } where
  kept := new ▸ Ledger.kept_empty
  journal := by rw [new]; rfl
  consistent _ h := absurd h List.not_mem_nil

/-- The accounts and the journal stay as they are. -/
theorem Inv.unchanged (inv : s.Inv) (same : s.world.ledger.Unchanged w.ledger) :
    Inv { s with world := w } where
  kept := inv.kept.congr (same.atRest inv.kept.atRest) same.accounts same.journal
  journal := same.journal.trans inv.journal
  consistent := inv.consistent

theorem Inv.openAccount (inv : s.Inv) (deadline : Option Nat) (key : AccountKey) :
    (s.next (.openAccount deadline key)).Inv := by
  have opened : (Ledger.callCreateAccount key deadline s.world).2.ledger = s.world.ledger ∨
      (Ledger.callCreateAccount key deadline s.world).2.ledger =
        (s.world.ledger.createAccount key s.world.now).2 :=
    (Ledger.yields_callCreateAccount (w := s.world) key).world
      (P := fun w' => w'.ledger = s.world.ledger ∨
        w'.ledger = (s.world.ledger.createAccount key s.world.now).2)
      (fun _ _ h => .inr h.2) (fun _ h => .inl h.2) deadline
  rcases opened with same | created
  · exact inv.unchanged (inv.kept.atRest.sound.unchanged same)
  · exact {
      kept := created ▸ inv.kept.createAccount key _
      journal := by
        have same := congrArg Ledger.journal created
        rw [Ledger.journal_createAccount] at same
        exact same.trans inv.journal
      consistent := inv.consistent }

section Post

variable {span : Nat} {batch : JournalBatch} {deadline : Option Nat}

/-- A posting that does not succeed leaves the ledger as it was. -/
theorem Inv.unchanged_of_post (inv : s.Inv) {answer : Option (Except LedgerError Posted)}
    (answered : Posting.post span batch deadline s.world = (answer, w))
    (failed : ∀ posted, answer ≠ some (.ok posted)) : s.world.ledger.Unchanged w.ledger := by
  have ensured := Posting.ensures_post_changes inv.kept.atRest.sound span batch deadline
  rw [answered] at ensured
  rcases answer with _ | e | posted
  · exact ensured.2
  · obtain ⟨-, ⟨_, _, ⟨⟩, -⟩ | ⟨-, same⟩⟩ := ensured
    exact same
  · exact absurd rfl (failed posted)

/-- A posting that succeeds answers with the rows of its batch and the changes that it has made. -/
theorem Inv.posts_of_post (inv : s.Inv) {posted : Posted}
    (answered : Posting.post span batch deadline s.world = (some (.ok posted), w)) :
    ∃ p : Posting, posted = ⟨batch.txId, batch.kind, batch.entries, posted.changes⟩ ∧
      p.batch = batch ∧ p.Rows ∧ p.Posts posted.changes s.world.ledger w.ledger ∧
      w.ledger.AtRest ∧ checkConsistency batch.entries = .ok batch.kind := by
  have ensured := Posting.ensures_post_changes inv.kept.atRest.sound span batch deadline
  rw [answered] at ensured
  obtain ⟨-, ⟨p, changes, ⟨⟩, genuine, posts, sound, transactions⟩ | ⟨⟨_, ⟨⟩⟩, -⟩⟩ := ensured
  have shown : s.world.ledger.HasPosted batch w.ledger :=
    ⟨p, changes, genuine, posts, sound, transactions⟩
  refine ⟨p, rfl, ?_, Posting.rows_of_ofBatch genuine, posts, shown.atRest inv.kept.atRest,
    shown.consistent⟩
  obtain ⟨deltas, -, -, rfl⟩ := Posting.ofBatch_eq_ok genuine
  rfl

end Post

theorem Inv.post (inv : s.Inv) (deadline : Option Nat) (span : Nat) (batch : JournalBatch) :
    (s.next (.post deadline span batch)).Inv := by
  rcases answered : Posting.post span batch deadline s.world with ⟨_ | e | posted, w⟩
  · simp only [Docket.next, answered, success_none, List.append_nil]
    exact inv.unchanged (inv.unchanged_of_post answered fun _ same => by cases same)
  · simp only [Docket.next, answered, success_error, List.append_nil]
    exact inv.unchanged (inv.unchanged_of_post answered fun _ same => by cases same)
  · simp only [Docket.next, answered, success_ok]
    obtain ⟨p, made, rfl, rows, posts, atRest, consistent⟩ := inv.posts_of_post answered
    refine ⟨inv.kept.post rows posts atRest, ?_, fun q hq => ?_⟩
    · rw [List.flatMap_append, List.flatMap_singleton, ← inv.journal, made]
      exact posts.journal
    · rcases List.mem_append.1 hq with hq | hq
      · exact inv.consistent q hq
      · rw [List.mem_singleton.1 hq, made]
        exact consistent

theorem Inv.next (inv : s.Inv) (filing : Filing) : (s.next filing).Inv := by
  cases filing with
  | openAccount deadline key => exact inv.openAccount deadline key
  | post deadline span batch => exact inv.post deadline span batch
  | incident incident =>
    exact inv.unchanged (inv.kept.atRest.sound.unchanged (incident.ledger_change s.world))

theorem Inv.foldl (inv : s.Inv) (filings : List Filing) : (filings.foldl Docket.next s).Inv := by
  induction filings generalizing s with
  | nil => exact inv
  | cons filing rest ih => exact ih (inv.next filing)

/-! ### What a posting moves -/

/-- After any filings, a batch that is posted with success is posted as it is, whatever the places
of its amounts are. Its changes carry the rows of the clients and nothing else: each names the
balances before and after it, and they differ by the amount of the row. The difference is exact as
long as no row of the account has more places than amounts have; otherwise the balance after it is
the decimal nearest to the exact one. -/
theorem post_carries (new : w.ledger = {}) (filings : List Filing) {deadline : Option Nat}
    {span : Nat} {batch : JournalBatch} {posted : Posted} {w' : World}
    (answered : Posting.post span batch deadline
      (filings.foldl Docket.next { world := w }).world = (some (.ok posted), w')) :
    let l := (filings.foldl Docket.next { world := w }).world.ledger
    posted.entries = batch.entries ∧ w'.ledger.journal = l.journal ++ batch.entries ∧
      (∀ e ∈ batch.entries, e.isClearing = false →
        ∃ c ∈ posted.changes, c.Carries e l w'.ledger) ∧
      ∀ c ∈ posted.changes, ∃ e ∈ batch.entries, e.isClearing = false ∧
        c.Carries e l w'.ledger := by
  intro l
  have inv : Inv (filings.foldl Docket.next { world := w }) := (inv_new new).foldl filings
  obtain ⟨p, made, rfl, rows, posts, -⟩ := inv.posts_of_post answered
  exact ⟨congrArg Posted.entries made, posts.journal, inv.kept.carried rows posts⟩

/-- Money is paid into the dollar account of a client. -/
def dollars (txId : TxId) (amount : Decimal) : JournalBatch :=
  .externalDeposit txId default default default ⟨amount, Currency.usd⟩

theorem post_carries_dollars :
    let filings : List Filing := [.openAccount none ⟨default, Currency.usd⟩]
    ∃ posted w', Posting.post 0 (dollars default (.hundredths 2500)) none
        (filings.foldl Docket.next { world := World.simple }).world = (some (.ok posted), w') ∧
      ∃ c ∈ posted.changes, c.delta = .hundredths 2500 ∧
        |c.after.value - (c.before.value + c.delta.value)| ≤ 1 / 2 / 10 ^ Decimal.amountPlaces := by
  intro filings
  have success : ((Posting.post 0 (dollars default (.hundredths 2500)) none
      (filings.foldl Docket.next { world := World.simple }).world).1.any Except.isOk) = true := by
    decide +kernel
  rcases answered : Posting.post 0 (dollars default (.hundredths 2500)) none
    (filings.foldl Docket.next { world := World.simple }).world with ⟨_ | e | posted, w'⟩
  · rw [answered] at success
    cases success
  · rw [answered] at success
    cases success
  · obtain ⟨-, -, carried, -⟩ := post_carries (w := World.simple) rfl filings answered
    obtain ⟨c, hc, carries⟩ := carried
      ⟨default, default, Currency.usd, .hundredths 2500, (default : Instant).toMicros⟩
      (List.mem_cons_of_mem _ List.mem_cons_self) (by decide +kernel)
    exact ⟨posted, w', rfl, c, hc, carries.delta, carries.delta ▸ carries.close⟩

/-- A hundred-millionth of a cent is taken into the books, and no balance shows it. -/
theorem drift_of_post :
    let filings : List Filing := [.openAccount none ⟨default, Currency.usd⟩,
      .post none 0 (dollars default ⟨false, 9999999999999999999800, 2, by decide, by decide⟩),
      .post none 0 (dollars ⟨Uuid.ofRandom 1⟩ ⟨false, 1, 10, by decide, by decide⟩)]
    ∃ posted ∈ (filings.foldl Docket.next { world := World.simple }).posted,
      (∃ e ∈ posted.entries, (Money.mk e.amount e.currency).isAtScale = false) ∧
      ∃ c ∈ posted.changes, c.after.value - c.before.value ≠ c.delta.value := by
  intro filings
  have found : ((filings.foldl Docket.next { world := World.simple }).posted.any fun posted =>
      (posted.entries.any fun e => !(Money.mk e.amount e.currency).isAtScale) &&
      posted.changes.any fun c => c.before.grains + c.delta.grains != c.after.grains) = true := by
    decide +kernel
  simp only [List.any_eq_true, Bool.and_eq_true, Bool.not_eq_true', bne_iff_ne] at found
  obtain ⟨posted, there, fine, c, hc, drift⟩ := found
  refine ⟨posted, there, fine, c, hc, fun exact => drift ?_⟩
  have ten : (10 : ℚ) ^ Decimal.maxScale ≠ 0 := by positivity
  rw [Decimal.value_eq_grains, Decimal.value_eq_grains, Decimal.value_eq_grains, ← sub_div,
    div_left_inj' ten] at exact
  have exact : c.after.grains - c.before.grains = c.delta.grains := by exact_mod_cast exact
  omega

end Docket

end Bureau
