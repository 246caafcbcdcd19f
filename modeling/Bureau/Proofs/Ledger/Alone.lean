import Bureau.Proofs.Ledger.Traffic

/-!
# A posting alone in the ledger

`Ledger.post` runs a posting from its first step to its last, with nothing else going on. Nobody
holds a lock that it wants, so it gets through whenever its changes can be computed
(`Ledger.post_of_computed`). This is what postings side by side are measured against.
-/

namespace Bureau

namespace Posting

/-- Takes steps until the posting has finished or has to wait, at most so many. -/
def run : Nat → Posting → Ledger → Posting × Ledger
  | 0, p, l => (p, l)
  | n + 1, p, l =>
    if p.result?.isSome then (p, l)
    else
      match p.step l with
      | .went p l => run n p l
      | .waits _ => (p, l)

/-- Whether the posting has failed, or is about to. -/
def isFailing (p : Posting) : Bool :=
  match p.phase with
  | .aborting _ | .finished (.error _) => true
  | _ => false

/-- The phase that follows when the posting does not have to wait for a lock. -/
def ahead (p : Posting) (l : Ledger) : Phase :=
  match p.phase with
  | .beginning => toLock p.keys []
  | .locking key todo changes =>
    match p.changeIn l key with
    | .error e => .aborting e
    | .ok change => toLock todo (changes ++ [change])
  | .updating _ todo changes => toUpdate todo changes
  | .inserting changes => .committing changes
  | .committing changes => .finished (.ok changes)
  | .aborting e => .finished (.error e)
  | .finished result => .finished result

/-- Nobody holds a lock that the posting will ask for. -/
def Unhindered (p : Posting) (l : Ledger) : Prop :=
  ∀ key ∈ p.keys, ∀ t ∈ l.transactions, t.holds key = false

theorem unhindered_of_atRest {l : Ledger} (atRest : l.AtRest) (p : Posting) : p.Unhindered l := by
  intro key _ t ht
  rw [atRest.transactions] at ht
  cases ht

/-- A posting that has started in a ledger, with whatever else is open in it: the ledger shows all
of the posting once it has committed, and nothing of it otherwise. -/
structure Underway (first : Posting) (l₀ : Ledger) (p : Posting) (l : Ledger) : Prop where
  sound : l.Sound
  standing : p.Standing l
  /-- The transactions of others are those that were open before. -/
  rest : p.rest l = l₀.transactions
  batch : p.batch = first.batch
  deltas : p.deltas = first.deltas
  books : (∃ changes, p.phase = .finished (.ok changes) ∧ first.Posts changes l₀ l) ∨
    ((∀ changes, p.phase ≠ .finished (.ok changes)) ∧ l.accounts = l₀.accounts ∧
      l.journal = l₀.journal)

section Underway

variable {first p p' : Posting} {l₀ l l' : Ledger} {changes : List BalanceChange}

theorem underway_first (sound : l.Sound) (h : first.phase = .beginning) :
    Underway first l first l where
  sound
  standing := standing_of_not_isOpen (by simp [isOpen, h]) l
  rest := rest_of_not_isOpen (by simp [isOpen, h])
  batch := rfl
  deltas := rfl
  books := .inr ⟨by simp [h], rfl, rfl⟩

theorem Underway.keys_eq (h : Underway first l₀ p l) : p.keys = first.keys := by
  rw [keys, h.deltas, keys]

/-- Before its end, nothing of a posting is seen. -/
theorem Underway.untouched (h : Underway first l₀ p l) (unfinished : p.result? = none) :
    l.accounts = l₀.accounts ∧ l.journal = l₀.journal := by
  rcases h.books with ⟨changes, phase, -⟩ | ⟨-, same⟩
  · simp [result?, phase] at unfinished
  · exact same

theorem Underway.moves (h : Underway first l₀ p l) (moves : p.Moves l p' l') :
    Underway first l₀ p' l' where
  sound := moves.effect.sound h.sound
  standing := moves.effect.standing h.sound h.standing
  rest := (moves.effect.rest h.sound).trans h.rest
  batch := moves.effect.batch_eq.trans h.batch
  deltas := moves.effect.deltas_eq.trans h.deltas
  books := by
    obtain ⟨accounts, journal⟩ := h.untouched moves.unfinished
    rcases moves.effect.books h.sound h.standing with
      ⟨changes, phase, posts⟩ | ⟨notYet, accounts', journal'⟩
    · exact .inl ⟨changes, phase, posts.congr h.batch h.deltas accounts journal⟩
    · exact .inr ⟨notYet, accounts'.trans accounts, journal'.trans journal⟩

/-- A posting that has finished has closed its transaction. -/
theorem Underway.transactions {result : Except LedgerError (List BalanceChange)}
    (h : Underway first l₀ p l) (finished : p.result? = some result) :
    l.transactions = l₀.transactions := by
  have closed : p.isOpen = false := by
    unfold result? at finished
    unfold isOpen
    split at finished <;> simp_all
  rw [← rest_of_not_isOpen closed, h.rest]

theorem Underway.posts (h : Underway first l₀ p l) (finished : p.result? = some (.ok changes)) :
    first.Posts changes l₀ l := by
  have phase : p.phase = .finished (.ok changes) := by
    unfold result? at finished
    split at finished <;> simp_all
  rcases h.books with ⟨found, phase', posts⟩ | ⟨notYet, -⟩
  · rw [phase] at phase'
    cases phase'
    exact posts
  · exact absurd phase (notYet changes)

/-! ### Unhindered -/

/-- While its transaction is open, nobody else holds a lock that an unhindered posting wants. -/
theorem Underway.not_isHeldByOther (h : Underway first l₀ p l) (free : first.Unhindered l₀)
    (isOpen : p.isOpen = true) {key : AccountKey} (own : key ∈ p.keys) :
    l.isHeldByOther p.number key = false := by
  rw [Ledger.isHeldByOther_eq, ← rest_of_isOpen isOpen, h.rest, List.any_eq_false]
  intro t ht
  simp [free key (h.keys_eq ▸ own) t ht]

/-- An unhindered posting never waits. -/
theorem Underway.step_ne_waits (h : Underway first l₀ p l) (free : first.Unhindered l₀)
    (key : AccountKey) : p.step l ≠ .waits key := by
  intro waits
  obtain ⟨todo, changes, phase, busy⟩ := locking_of_waits waits
  have standing := h.standing
  simp only [Standing, phase] at standing
  obtain ⟨done, split, -⟩ := standing
  have own : key ∈ p.keys := by simp [split]
  have held := h.not_isHeldByOther free (by simp [isOpen, phase]) own
  obtain ⟨t, ht, other, holds⟩ := Ledger.exists_holder_of_busy busy
  rw [Ledger.isHeldByOther, List.any_eq_false] at held
  exact held t ht (by simp [other, holds])

/-- An unhindered posting comes to its end. -/
theorem Underway.run_isSome {fuel : Nat} (h : Underway first l₀ p l) (free : first.Unhindered l₀)
    (enough : p.remaining ≤ fuel) : (p.run fuel l).1.result?.isSome = true := by
  induction fuel generalizing p l with
  | zero =>
    unfold remaining at enough
    unfold Posting.run result?
    split at enough <;> simp_all
  | succ fuel ih =>
    unfold Posting.run
    split
    · rename_i finished
      exact finished
    · rename_i unfinished
      cases step : p.step l with
      | waits key => exact absurd step (h.step_ne_waits free key)
      | went p' l' =>
        have moves : p.Moves l p' l' := .went (by simpa using unfinished) step
        have := moves.effect.remaining_lt
        exact ih (h.moves moves) (by omega)

/-- An unhindered posting goes on to the next phase. -/
theorem Underway.step_ahead (h : Underway first l₀ p l) (free : first.Unhindered l₀)
    (unfinished : p.result? = none) :
    ∃ p' l', p.step l = .went p' l' ∧ p'.phase = p.ahead l := by
  have standing := h.standing
  unfold Standing at standing
  unfold Posting.step ahead
  cases phase : p.phase with
  | beginning => exact ⟨_, _, rfl, rfl⟩
  | locking key todo soFar =>
    simp only [phase] at standing ⊢
    obtain ⟨done, split, -, t, ht, -, copies⟩ := standing
    -- No account is locked twice, so the transaction has no copy of this one yet.
    have new : key ∉ done := by
      have := split ▸ p.nodup_keys
      exact fun hk => (List.nodup_append.1 this).2.2 key hk key List.mem_cons_self rfl
    have own : key ∈ p.keys := by simp [split]
    have unlocked := h.not_isHeldByOther free (by simp [isOpen, phase]) own
    cases ha : l.account? key with
    | none =>
      have refused : l.lock p.number key = .refused (.accountNotFound key) := by
        simp only [Ledger.lock, ht, copies, if_neg new, ha]
      have failed : p.changeIn l key = .error (.accountNotFound key) := by
        simp only [changeIn, ha]
      simp only [refused, failed, Posting.failed, fail, phase]
      exact ⟨_, _, rfl, rfl⟩
    | some a =>
      have granted : l.lock p.number key =
          .granted a (l.modifyTransaction p.number (·.withCopy a)) := by
        simp only [Ledger.lock, ht, copies, if_neg new, ha, unlocked]
        rfl
      simp only [granted, changeIn_eq ha]
      cases BalanceChange.compute key a.balance (p.delta key) with
      | error e =>
        simp only [Posting.failed, fail, phase]
        exact ⟨_, _, rfl, rfl⟩
      | ok change => exact ⟨_, _, rfl, rfl⟩
  | updating change todo soFar =>
    simp only [phase] at standing ⊢
    obtain ⟨written, split, computed, t, ht, -, copies⟩ := standing
    have known : change.key ∈ p.keys := by
      rw [← computed.keys_eq, split]
      simp
    obtain ⟨a, c, ha, -⟩ := computed.account? known
    simp only [Ledger.update, ht, copies, if_pos known, ha, Option.map_some]
    exact ⟨_, _, rfl, rfl⟩
  | inserting soFar =>
    simp only [phase] at standing ⊢
    obtain ⟨-, t, ht, -⟩ := standing
    simp only [Ledger.insert, ht]
    exact ⟨_, _, rfl, rfl⟩
  | committing soFar =>
    simp only [phase] at standing ⊢
    obtain ⟨-, t, ht, -⟩ := standing
    simp only [Ledger.commit_eq ht]
    exact ⟨_, _, rfl, rfl⟩
  | aborting e =>
    simp only [phase] at standing ⊢
    obtain ⟨t, ht⟩ := standing
    simp only [Ledger.rollback, ht]
    exact ⟨_, _, rfl, rfl⟩
  | finished => simp [result?, phase] at unfinished

/-- An unhindered posting whose changes can be computed does not start to fail. -/
theorem Underway.step (h : Underway first l₀ p l) (free : first.Unhindered l₀)
    (computed : p.Computed l p.keys changes) (unfinished : p.result? = none)
    (well : p.isFailing = false) :
    ∃ p' l', p.step l = .went p' l' ∧ p'.isFailing = false := by
  obtain ⟨p', l', went, ahead⟩ := h.step_ahead free unfinished
  refine ⟨p', l', went, ?_⟩
  have update (todo changes : List BalanceChange) (next : p'.phase = toUpdate todo changes) :
      p'.isFailing = false := by
    unfold isFailing
    rw [next]
    cases todo <;> rfl
  have lock (todo : List AccountKey) (changes : List BalanceChange)
      (next : p'.phase = toLock todo changes) : p'.isFailing = false := by
    cases todo with
    | nil => exact update _ _ next
    | cons key todo =>
      unfold isFailing
      rw [next]
      rfl
  have standing := h.standing
  unfold Standing at standing
  unfold Posting.ahead at ahead
  cases phase : p.phase with
  | beginning =>
    rw [phase] at ahead
    exact lock _ _ ahead
  | locking key todo soFar =>
    simp only [phase] at standing ahead
    obtain ⟨done, split, -⟩ := standing
    have locked : key ∈ p.keys := by simp [split]
    obtain ⟨a, c, -, hc⟩ := computed.account? locked
    rw [hc] at ahead
    exact lock _ _ ahead
  | updating change todo soFar =>
    rw [phase] at ahead
    exact update _ _ ahead
  | inserting | committing =>
    rw [phase] at ahead
    unfold isFailing
    rw [ahead]
  | aborting e => simp [isFailing, phase] at well
  | finished => simp [result?, phase] at unfinished

/-- An unhindered posting whose changes can be computed goes on to success. -/
theorem Underway.run {fuel : Nat} (h : Underway first l₀ p l) (free : first.Unhindered l₀)
    (computed : first.Computed l₀ first.keys changes) (unfinished : p.result? = none)
    (well : p.isFailing = false) (enough : p.remaining ≤ fuel) :
    ∃ p' l', p.run fuel l = (p', l') ∧ p'.result? = some (.ok changes) ∧
      Underway first l₀ p' l' := by
  -- The fuel lasts because every move leaves fewer steps to take.
  induction fuel generalizing p l with
  | zero =>
    unfold remaining at enough
    unfold result? at unfinished
    split at enough <;> simp_all
  | succ fuel ih =>
    have soFar : p.Computed l p.keys changes := by
      have accounts := (h.untouched unfinished).1
      rw [h.keys_eq]
      exact (computed.congr fun key _ => Ledger.account?_congr accounts key).of_deltas
        h.deltas.symm
    obtain ⟨p', l', step, well'⟩ := h.step free soFar unfinished well
    have moves : p.Moves l p' l' := .went unfinished step
    have h' := h.moves moves
    simp only [Posting.run, unfinished, step]
    rcases h'.books with ⟨found, phase, posts⟩ | ⟨notYet, -⟩
    · -- That was the commit.
      obtain rfl := posts.computed.unique computed
      have finished : p'.result? = some (.ok found) := by simp [result?, phase]
      refine ⟨p', l', ?_, finished, h'⟩
      cases fuel <;> simp [Posting.run, finished]
    · have going : p'.result? = none := by
        unfold result?
        unfold isFailing at well'
        cases phase : p'.phase with
        | finished result =>
          cases result with
          | ok changes => exact absurd phase (notYet changes)
          | error => simp [phase] at well'
        | _ => rfl
      have := moves.effect.remaining_lt
      exact ih h' going well' (by omega)

end Underway

end Posting

namespace Ledger

/-- What a batch comes to when nothing else is going on, and the ledger afterwards. -/
def post (l : Ledger) (batch : JournalBatch) :
    Option (Except LedgerError (List BalanceChange)) × Ledger :=
  let p := Posting.start batch
  let (p, l) := p.run p.remaining l
  (p.result?, l)

/-- Posts batches one after another. -/
def postAll (l : Ledger) (batches : List JournalBatch) :
    List (Option (Except LedgerError (List BalanceChange))) × Ledger :=
  batches.foldl (fun (results, l) batch => (results ++ [(l.post batch).1], (l.post batch).2))
    ([], l)

theorem postAll_append (l : Ledger) (batches : List JournalBatch) (batch : JournalBatch) :
    l.postAll (batches ++ [batch]) =
      ((l.postAll batches).1 ++ [((l.postAll batches).2.post batch).1],
        ((l.postAll batches).2.post batch).2) := by
  simp [postAll, List.foldl_append]

/-- A batch whose changes can be computed is posted with exactly these changes. -/
theorem post_of_computed {l : Ledger} {batch : JournalBatch} {p : Posting}
    {changes : List BalanceChange} (atRest : l.AtRest) (genuine : Posting.ofBatch batch = .ok p)
    (computed : p.Computed l p.keys changes) :
    (l.post batch).1 = some (.ok changes) ∧ (l.post batch).2.AtRest ∧
      p.Posts changes l (l.post batch).2 := by
  obtain ⟨deltas, -, -, rfl⟩ := Posting.ofBatch_eq_ok genuine
  have underway : Posting.Underway { batch, deltas } l { batch, deltas } l :=
    Posting.underway_first atRest.sound rfl
  obtain ⟨p', l', ran, result, underway'⟩ :=
    underway.run (Posting.unhindered_of_atRest atRest _) computed rfl rfl (Nat.le_refl _)
  simp only [post, Posting.start, genuine, ran]
  exact ⟨result, ⟨underway'.sound.keys, (underway'.transactions result).trans atRest.transactions⟩,
    underway'.posts result⟩

/-- Unless others hold a lock that it wants, a posting is never kept waiting. -/
theorem isSome_post {l : Ledger} {batch : JournalBatch} (sound : l.Sound)
    (free : (Posting.start batch).Unhindered l) : (l.post batch).1.isSome = true := by
  cases genuine : Posting.ofBatch batch with
  | error e =>
    have finished : Posting.start batch =
        { batch, deltas := [], phase := .finished (.error e) } := by
      simp only [Posting.start, genuine]
    simp only [post, finished]
    rfl
  | ok p =>
    obtain ⟨deltas, -, -, rfl⟩ := Posting.ofBatch_eq_ok genuine
    have start : Posting.start batch = { batch, deltas } := by simp only [Posting.start, genuine]
    rw [start] at free
    simp only [post, start]
    exact (Posting.underway_first sound rfl).run_isSome free (Nat.le_refl _)

end Ledger

end Bureau
