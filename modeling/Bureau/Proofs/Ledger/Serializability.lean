import Bureau.Proofs.Ledger.Alone

/-!
# Postings side by side are serializable

Every reachable state has a `History`: the accounts and the journal are those of a
ledger in which exactly the committed batches have been posted, one after another and each alone,
in the order of the commits. A commit extends this order at its end, because the changes it
writes were computed from accounts that have not changed since (`Posting.Effect.books`).
-/

namespace Bureau

namespace Posting

/-- The posting is that of its batch, unless it has failed. -/
def IsGenuine (p : Posting) : Prop :=
  (∃ e, p.phase = .finished (.error e)) ∨
    ofBatch p.batch = .ok { p with number := 0, phase := .beginning }

theorem isGenuine_start (batch : JournalBatch) : (start batch).IsGenuine := by
  unfold start
  cases h : ofBatch batch with
  | error e => exact .inl ⟨e, rfl⟩
  | ok p =>
    obtain ⟨deltas, -, -, rfl⟩ := ofBatch_eq_ok h
    exact .inr h

theorem IsGenuine.effect {p p' : Posting} {l l' : Ledger} (h : p.IsGenuine)
    (effect : p.Effect l p' l') (unfinished : p.result? = none) : p'.IsGenuine := by
  rcases h with ⟨e, phase⟩ | h
  · simp [result?, phase] at unfinished
  · right
    rw [effect.batch_eq, effect.deltas_eq]
    exact h

theorem hasPosted_iff {p : Posting} :
    p.hasPosted = true ↔ ∃ changes, p.result? = some (.ok changes) := by
  unfold hasPosted result?
  cases p.phase with
  | finished result => cases result <;> simp
  | _ => simp

end Posting

namespace Traffic

/-- The postings that have committed, in the order of their commits. -/
def committed (s : Traffic) : List Posting :=
  s.commits.filterMap (s.postings[·]?)

/-- How a state came about from a ledger and some batches. -/
structure History (l : Ledger) (batches : List JournalBatch) (s : Traffic) : Prop where
  batches : s.postings.map (·.batch) = batches
  genuine : ∀ p ∈ s.postings, p.IsGenuine
  /-- Nothing commits twice. -/
  once : s.commits.Nodup
  /-- The commits are the postings that have finished with success. -/
  commits : ∀ i : Nat, i ∈ s.commits ↔
    ∃ p changes, s.postings[i]? = some p ∧ p.result? = some (.ok changes)
  /-- Posted one after another, the same batches come to the same. -/
  results : (l.postAll (s.committed.map (·.batch))).1 = s.committed.map (·.result?)
  atRest : (l.postAll (s.committed.map (·.batch))).2.AtRest
  accounts : (l.postAll (s.committed.map (·.batch))).2.accounts = s.ledger.accounts
  journal : (l.postAll (s.committed.map (·.batch))).2.journal = s.ledger.journal

section History

variable {l l' : Ledger} {batches : List JournalBatch} {s s' : Traffic} {i : Nat} {p p' : Posting}

theorem history_start (atRest : l.AtRest) (batches : List JournalBatch) :
    History l batches (start l batches) where
  batches := by simp [start, Function.comp_def, Posting.batch_start]
  genuine p hp := by
    obtain ⟨batch, -, rfl⟩ := List.mem_map.1 hp
    exact Posting.isGenuine_start batch
  once := List.nodup_nil
  commits i := by
    refine ⟨fun h => absurd h List.not_mem_nil, ?_⟩
    rintro ⟨p, changes, hp, result⟩
    obtain ⟨batch, -, rfl⟩ := List.mem_map.1 (List.mem_of_getElem? hp)
    unfold Posting.start at result
    cases h : Posting.ofBatch batch with
    | error e => simp [h, Posting.result?] at result
    | ok p =>
      obtain ⟨deltas, -, -, rfl⟩ := Posting.ofBatch_eq_ok h
      simp [h, Posting.result?] at result
  results := rfl
  atRest := atRest
  accounts := rfl
  journal := rfl

/-- The place that moves has not committed. -/
theorem History.notMem_commits (history : History l batches s) (place : s.postings[i]? = some p)
    (unfinished : p.result? = none) : i ∉ s.commits := by
  rw [history.commits]
  rintro ⟨q, changes, hq, result⟩
  obtain rfl := Option.some.inj (place.symm.trans hq)
  rw [unfinished] at result
  cases result

/-- A move adds to the committed postings the one that commits with it. -/
theorem History.committed_after (history : History l batches s) (place : s.postings[i]? = some p)
    (unfinished : p.result? = none) :
    (s.after i p' l').committed =
      if p'.hasPosted then s.committed ++ [p'] else s.committed := by
  have before : s.commits.filterMap ((s.after i p' l').postings[·]?) = s.committed := by
    refine List.filterMap_congr fun j hj => ?_
    rw [getElem?_after place, if_neg]
    rintro rfl
    exact history.notMem_commits place unfinished hj
  have here : (s.after i p' l').postings[i]? = some p' := by rw [getElem?_after place, if_pos rfl]
  unfold committed
  by_cases h : p'.hasPosted
  · have : (s.after i p' l').commits = s.commits ++ [i] := by simp [after, h]
    rw [this, if_pos h, List.filterMap_append, before]
    simp [here, committed]
  · have : (s.after i p' l').commits = s.commits := by simp [after, h]
    rw [this, if_neg h, before, committed]

theorem History.batches_after (history : History l batches s) (place : s.postings[i]? = some p)
    (same : p'.batch = p.batch) : (s.after i p' l').postings.map (·.batch) = batches := by
  rw [← history.batches]
  refine List.ext_getElem? fun j => ?_
  rw [List.getElem?_map, List.getElem?_map, getElem?_after place]
  split
  · rename_i hj
    rw [← hj, place, Option.map_some, Option.map_some, same]
  · rfl

theorem History.once_after (history : History l batches s) (place : s.postings[i]? = some p)
    (unfinished : p.result? = none) : (s.after i p' l').commits.Nodup := by
  have new := history.notMem_commits place unfinished
  unfold after
  split
  · exact List.nodup_append.2 ⟨history.once, List.nodup_singleton i, fun j hj k hk hjk =>
      new (List.mem_singleton.1 hk ▸ hjk ▸ hj)⟩
  · exact history.once

theorem History.commits_after (history : History l batches s) (place : s.postings[i]? = some p)
    (unfinished : p.result? = none) (j : Nat) :
    j ∈ (s.after i p' l').commits ↔
      ∃ q changes, (s.after i p' l').postings[j]? = some q ∧ q.result? = some (.ok changes) := by
  have new := history.notMem_commits place unfinished
  have members : j ∈ (s.after i p' l').commits ↔ j ∈ s.commits ∨ j = i ∧ p'.hasPosted := by
    unfold after
    by_cases h : p'.hasPosted <;> simp [h]
  rw [members, getElem?_after place]
  by_cases hj : i = j
  · subst hj
    simp [new, Posting.hasPosted_iff]
  · rw [if_neg hj, history.commits]
    simp [Ne.symm hj]

/-- A posting that commits is posted once more, where the accounts are those that its changes came
from; any other move shows nothing. -/
theorem History.serial_after (history : History l batches s) (inv : s.Inv)
    (place : s.postings[i]? = some p) (unfinished : p.result? = none)
    (effect : p.Effect s.ledger p' l') (genuine : p'.IsGenuine) :
    let serial := l.postAll ((s.after i p' l').committed.map (·.batch))
    serial.1 = (s.after i p' l').committed.map (·.result?) ∧ serial.2.AtRest ∧
      serial.2.accounts = l'.accounts ∧ serial.2.journal = l'.journal := by
  have committed : (s.after i p' l').committed =
      if p'.hasPosted then s.committed ++ [p'] else s.committed :=
    history.committed_after place unfinished
  rw [committed]
  rcases effect.books inv.sound (inv.standing i p place) with
    ⟨changes, phase, posts⟩ | ⟨notYet, accounts, journal⟩
  · -- This was the commit: alone, the batch finds the accounts that it has computed with.
    have result : p'.result? = some (.ok changes) := by simp [Posting.result?, phase]
    have posted : p'.hasPosted = true := Posting.hasPosted_iff.2 ⟨changes, result⟩
    rcases genuine with ⟨e, failed⟩ | genuine
    · rw [phase] at failed
      cases failed
    rw [effect.batch_eq, effect.deltas_eq] at genuine
    rw [if_pos posted, List.map_append, List.map_append, List.map_singleton, List.map_singleton,
      Ledger.postAll_append, effect.batch_eq, result]
    have computed := posts.computed.congr fun key _ => Ledger.account?_congr history.accounts key
    obtain ⟨again, rest, posts'⟩ := Ledger.post_of_computed history.atRest genuine computed
    refine ⟨by rw [history.results, again], rest, ?_, ?_⟩
    · rw [posts'.accounts, posts.accounts, history.accounts]
      rfl
    · rw [posts'.journal, posts.journal, history.journal]
  · -- Nothing has become visible.
    have posted : p'.hasPosted = false := by
      rw [← Bool.not_eq_true, Posting.hasPosted_iff]
      rintro ⟨changes, result⟩
      unfold Posting.result? at result
      split at result
      · cases result
        exact notYet changes ‹_›
      · cases result
    rw [posted, if_neg Bool.false_ne_true, accounts, journal]
    exact ⟨history.results, history.atRest, history.accounts, history.journal⟩

/-- Every move keeps the history. -/
theorem History.preserve (history : History l batches s) (inv : s.Inv) (step : Step s s') :
    History l batches s' := by
  obtain ⟨place, moves⟩ := step
  rename_i i p p' l'
  have effect := moves.effect
  have unfinished := moves.unfinished
  have genuine : p'.IsGenuine :=
    (history.genuine p (List.mem_of_getElem? place)).effect effect unfinished
  obtain ⟨results, atRest, accounts, journal⟩ :=
    history.serial_after inv place unfinished effect genuine
  exact {
    batches := history.batches_after place effect.batch_eq
    genuine := fun q hq => by
      rcases List.mem_or_eq_of_mem_set hq with hq | rfl
      · exact history.genuine q hq
      · exact genuine
    once := history.once_after place unfinished
    commits := history.commits_after place unfinished
    results, atRest, accounts, journal }

theorem Reaches.history (reaches : Reaches s s') (inv : s.Inv) (history : History l batches s) :
    History l batches s' := by
  induction reaches with
  | refl => exact history
  | tail reaches step ih => exact ih.preserve (Reaches.inv reaches inv) step

end History

/-- However the postings of any batches are interleaved, fail or are cut off, those that have
committed come to the same when they are posted one after another in the order of their commits,
and the ledger shows what these have done and nothing else. A lock has one holder, and whoever
has finished holds none. -/
theorem serializable {l : Ledger} (atRest : l.AtRest) (batches : List JournalBatch) {s : Traffic}
    (reaches : (start l batches).Reaches s) :
    let serial := l.postAll (s.committed.map (·.batch))
    s.postings.map (·.batch) = batches ∧
    s.commits.Nodup ∧
    (∀ i : Nat, i ∈ s.commits ↔
      ∃ p changes, s.postings[i]? = some p ∧ p.result? = some (.ok changes)) ∧
    serial.1 = s.committed.map (·.result?) ∧
    serial.2.accounts = s.ledger.accounts ∧
    serial.2.journal = s.ledger.journal ∧
    (∀ key i j, s.Holds i key → s.Holds j key → i = j) ∧
    ∀ t ∈ s.ledger.transactions, ∃! i : Nat, ∃ p : Posting, s.postings[i]? = some p ∧
      p.result? = none ∧ p.isOpen = true ∧ p.number = t.number := by
  have first : (start l batches).Inv := inv_start atRest batches
  have inv : s.Inv := reaches.inv first
  have history : History l batches s := reaches.history first (history_start atRest batches)
  refine ⟨history.batches, history.once, history.commits, history.results, history.accounts,
    history.journal, fun _ _ _ => inv.holder_unique, fun t ht => ?_⟩
  obtain ⟨i, p, hp, isOpen, hnumber⟩ :=
    inv.owner _ t (inv.sound.transaction?_eq_some_iff.2 ⟨ht, rfl⟩)
  refine ⟨i, ⟨p, hp, Posting.result?_of_isOpen isOpen, isOpen, hnumber⟩, ?_⟩
  rintro j ⟨q, hq, -, qOpen, qNumber⟩
  exact inv.numbers j i q p hq hp qOpen isOpen (qNumber.trans hnumber.symm)

/-- The second conversion has to wait until the first one commits, and then it commits as well. -/
theorem serializable_opposing :
    let s := [0, 1, 0, 1, 0, 0, 0, 0, 0, 1, 1, 1, 1, 1, 1].foldl go
      (start opposingLedger opposingBatches)
    s.commits = [0, 1] ∧
      (opposingLedger.postAll (s.committed.map (·.batch))).2.accounts = s.ledger.accounts := by
  intro s
  have atRest : opposingLedger.AtRest := ⟨by decide, rfl⟩
  exact ⟨rfl, (serializable atRest opposingBatches (reaches_foldl_go _ _)).2.2.2.2.1⟩

end Traffic

end Bureau
