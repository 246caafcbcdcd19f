import Bureau.Proofs.Desk.Offers
import Bureau.Proofs.Desk.Posting

/-!
# Settling in two steps

A redemption first gets hold of the offer (`Desk.reach`) and then settles it (`Desk.conclude`);
these are the two places where it touches what is shared (`Desk.redeem_eq`). Deposits and
conclusions post one batch or leave the ledger as it was.
-/

namespace Bureau

open Timed World

namespace Desk

/-- Gets hold of the offer that a token names. -/
def reach (d : Desk) (token : String) : Timed (Except DeskError Offer) :=
  match d.offerOf? token with
  | none => failing .offerMissed .notFoundOrExpired
  | some id => d.taken id

/-- Settles an offer that a client has got hold of. -/
def conclude (d : Desk) (client : ClientId) (offer : Offer) :
    Timed (Except DeskError Receipt) := do
  match offer.claim client (← read (·.now)) with
  | .error (event, e) => failing event e
  | .ok kind => d.settle client offer kind

theorem redeem_eq (d : Desk) (client : ClientId) (token : String) :
    d.redeem client token = (do
      match ← d.reach token with
      | .error e => return .error e
      | .ok offer => d.conclude client offer) := by
  unfold redeem reach
  cases d.offerOf? token with
  | none => rfl
  | some id => rfl

variable {d : Desk} {w w₀ : World}

/-- Posting a batch and then counting: the answer is a receipt when the batch has been posted. -/
theorem ensures_conclusion {deadline : Nat} {batch : JournalBatch} {event : Countable}
    {failed : LedgerError → Timed (Except DeskError Receipt)} (beside : w₀.Beside w)
    (sound : w₀.ledger.Sound) (same : w.ledger = w₀.ledger)
    (hfailed : ∀ e w', (failed e).Ensures w' (fun r w'' => (∃ e, r = .error e) ∧ w'.Still w'')
      w'.Still) :
    Ensures (do
      match ← Posting.post deadline batch with
      | .ok posted =>
        count event
        return .ok posted.receipt
      | .error e => failed e) w
      (fun answer w' => w₀.Beside w' ∧
        (answer = .ok ⟨batch.txId, batch.kind, batch.entries⟩ ∧
            w₀.ledger.HasPosted batch w'.ledger ∨
          (∃ e, answer = .error e) ∧ w₀.ledger.Unchanged w'.ledger))
      (fun w' => w₀.Beside w' ∧ w₀.ledger.Unchanged w'.ledger) := by
  have posted := Posting.ensures_post (w := w) (same ▸ sound) deadline batch
  rw [same] at posted
  refine Ensures.bind (posted.mono (fun _ _ h => h) fun _ h => ⟨beside.trans h.1, h.2⟩)
    fun answer w₁ h₁ => ?_
  obtain ⟨beside₁, ⟨posted, rfl, receipt, shown⟩ | ⟨⟨e, rfl⟩, unchanged⟩⟩ := h₁
  · refine Ensures.bind (still_count (Still.refl w₁) event) fun _ w₂ h₂ => ?_
    refine ensures_pure ⟨(beside.trans beside₁).trans h₂.toBeside, .inl ⟨?_, ?_⟩⟩
    · rw [receipt]
    · rw [h₂.ledger]
      exact shown
  · refine (hfailed e w₁).mono (fun answer w₂ h₂ => ?_) fun w₂ h₂ => ?_
    · refine ⟨(beside.trans beside₁).trans h₂.2.toBeside, .inr ⟨h₂.1, ?_⟩⟩
      rw [h₂.2.ledger]
      exact unchanged
    · refine ⟨(beside.trans beside₁).trans h₂.toBeside, ?_⟩
      rw [h₂.ledger]
      exact unchanged

/-- The answer of a failed posting leaves the world as it is. -/
theorem ensures_refusal (event : Countable) (e : LedgerError) (w : World) :
    Ensures (if e.isTransient then failing event (.ofLedger e)
      else return .error (.ofLedger e) : Timed (Except DeskError Receipt)) w
      (fun r w' => r = .error (.ofLedger e) ∧ w.Still w') w.Still := by
  split
  · exact (ensures_failing (Still.refl w) _ _).mono (fun _ _ h => ⟨h.1, h.2.1⟩) fun _ h => h
  · exact ensures_pure ⟨rfl, Still.refl w⟩

/-- A receipt is given exactly for a conversion that has been posted now. -/
def Settles (now : Instant) (client : ClientId) (offer : Offer) (l : Ledger)
    (answer : Except DeskError Receipt) (l' : Ledger) : Prop :=
  (∃ txId kind,
    let batch := JournalBatch.conversion txId now kind client offer.debit offer.credit
    answer = .ok ⟨batch.txId, batch.kind, batch.entries⟩ ∧ l.HasPosted batch l') ∨
  (∃ e, answer = .error e) ∧ l.Unchanged l'

theorem ensures_settle (sound : w.ledger.Sound) (client : ClientId) (offer : Offer)
    (kind : SettlementKind) :
    (d.settle client offer kind).Ensures w
      (fun answer w' => w.Beside w' ∧ Settles w.now client offer w.ledger answer w'.ledger)
      (fun w' => w.Beside w' ∧ w.ledger.Unchanged w'.ledger) := by
  refine Ensures.bind (ensures_freshUuid (Q := fun _ => w.Like) (w.like_drawn _))
    fun uuid w₁ h₁ => ?_
  refine Ensures.bind (ensures_read (Q := fun now w' => now = w.now ∧ w.Like w') ⟨h₁.now, h₁⟩)
    fun now w₂ h₂ => ?_
  obtain ⟨rfl, h₂⟩ := h₂
  refine (ensures_conclusion h₂.toBeside sound h₂.ledger fun e w' => ?_).mono
    (fun answer w' h => ⟨h.1, ?_⟩) fun _ h => h
  · refine Ensures.bind (still_count (Still.refl w') _) fun _ w'' h => ?_
    exact (ensures_refusal _ e w'').mono (fun _ _ h' => ⟨⟨_, h'.1⟩, h.trans h'.2⟩)
      fun _ h' => h.trans h'
  · exact h.2.imp_left fun ⟨receipt, posted⟩ => ⟨⟨uuid⟩, kind, receipt, posted⟩

theorem ensures_conclude (sound : w.ledger.Sound) (client : ClientId) (offer : Offer) :
    (d.conclude client offer).Ensures w
      (fun answer w' => w.Beside w' ∧ Settles w.now client offer w.ledger answer w'.ledger)
      (fun w' => w.Beside w' ∧ w.ledger.Unchanged w'.ledger) := by
  refine Ensures.bind (ensures_read (Q := fun _ w' => w' = w) rfl) fun now w' same => ?_
  subst same
  split
  · rename_i event e _
    refine (ensures_failing (Still.refl w') event e).mono (fun answer w'' h => ⟨?_, ?_⟩)
      fun _ h => h
    · exact h.2.1.toBeside
    · exact .inr ⟨⟨e, h.1⟩, sound.unchanged h.2.1.ledger⟩
  · exact ensures_settle sound client offer _

/-- A receipt is given exactly for money that has been paid in now. -/
def PaysIn (d : Desk) (now : Instant) (client : ClientId) (amount : Money) (l : Ledger)
    (answer : Except DeskError Receipt) (l' : Ledger) : Prop :=
  (∃ txId, let batch := JournalBatch.externalDeposit txId now d.settings.treasury client amount
    answer = .ok ⟨batch.txId, batch.kind, batch.entries⟩ ∧ amount.currency.isFiat = true ∧
      amount.IsExact ∧ l.HasPosted batch l') ∨
  (∃ e, answer = .error e) ∧ l.Unchanged l'

theorem ensures_deposit (sound : w.ledger.Sound) (client : ClientId) (currency : Currency)
    (amount : Decimal) :
    (d.deposit client currency amount).Ensures w
      (fun answer w' =>
        w.Beside w' ∧ d.PaysIn w.now client ⟨amount, currency⟩ w.ledger answer w'.ledger)
      (fun w' => w.Beside w' ∧ w.ledger.Unchanged w'.ledger) := by
  have refused {e : DeskError} : (pure (.error e) : Timed (Except DeskError Receipt)).Ensures w
      (fun answer w' =>
        w.Beside w' ∧ d.PaysIn w.now client ⟨amount, currency⟩ w.ledger answer w'.ledger)
      (fun w' => w.Beside w' ∧ w.ledger.Unchanged w'.ledger) :=
    ensures_pure ⟨(Still.refl w).toBeside, .inr ⟨⟨e, rfl⟩, sound.unchanged rfl⟩⟩
  unfold deposit
  split
  · exact refused
  · rename_i fiat
    rw [Bool.not_eq_true, Bool.not_eq_false'] at fiat
    dsimp only
    split
    · exact refused
    · rename_i valid
      refine Ensures.bind (ensures_freshUuid (Q := fun _ => w.Like) (w.like_drawn _))
        fun uuid w₁ h₁ => ?_
      refine Ensures.bind (ensures_read (Q := fun now w' => now = w.now ∧ w.Like w') ⟨h₁.now, h₁⟩)
        fun now w₂ h₂ => ?_
      obtain ⟨rfl, h₂⟩ := h₂
      refine (ensures_conclusion h₂.toBeside sound h₂.ledger fun e w' => ?_).mono
        (fun answer w' h => ⟨h.1, ?_⟩) fun _ h => h
      · exact (ensures_refusal _ e w').mono (fun _ _ h => ⟨⟨_, h.1⟩, h.2⟩) fun _ h => h
      · exact h.2.imp_left fun ⟨receipt, posted⟩ =>
          ⟨⟨uuid⟩, receipt, fiat, Money.isExact_of_validateDebit valid, posted⟩

theorem ensures_reach (token : String) :
    (d.reach token).Ensures w
      (fun answer w' => w.Aside w' ∧
        ((∃ id, d.offerOf? token = some id ∧ Takes id w'.clock w.cache answer w'.cache) ∨
          d.offerOf? token = none ∧ answer = .error .notFoundOrExpired ∧ w'.cache = w.cache))
      w.Still := by
  unfold reach
  cases d.offerOf? token with
  | none =>
    exact (ensures_failing (Still.refl w) _ _).mono
      (fun _ _ h => ⟨h.2.1.toAside, .inr ⟨rfl, h.1, h.2.1.cache⟩⟩) fun _ h => h
  | some id =>
    exact (ensures_taken d id).mono (fun _ _ h => ⟨h.1, .inl ⟨id, rfl, h.2⟩⟩) fun _ h => h

/-- The cache may have lost the offer that a token names, and nothing else. -/
def Loses (d : Desk) (token : String) (c c' : OfferCache) : Prop :=
  c' = c ∨ ∃ id, d.offerOf? token = some id ∧ c' = c.erase id.cacheKey

theorem Loses.sublist {token : String} {c c' : OfferCache} (h : d.Loses token c c') :
    c'.entries.Sublist c.entries := by
  rcases h with rfl | ⟨id, -, rfl⟩
  · exact List.Sublist.refl _
  · exact c.sublist_erase _

/-- At most one entry is lost, the one of this offer. -/
theorem Loses.entries_cases {token : String} {c c' : OfferCache} (h : d.Loses token c c')
    (keyed : OfferCache.Keyed c.entries) :
    c'.entries = c.entries ∨
      ∃ id before e after, d.offerOf? token = some id ∧ e.offer.id = id ∧
        c.entries = before ++ (id.cacheKey, e) :: after ∧ c'.entries = before ++ after := by
  rcases h with rfl | ⟨id, names, rfl⟩
  · exact .inl rfl
  · rcases keyed.erase_cases id.cacheKey with same | ⟨before, e, after, split, left⟩
    · exact .inl same
    · have there : (id.cacheKey, e) ∈ c.entries := by
        rw [split]
        exact List.mem_append_right _ List.mem_cons_self
      exact .inr ⟨id, before, e, after, names, keyed.id_eq there, split, left⟩

theorem Loses.of_unopened {token : String} {c c' : OfferCache} (h : d.Loses token c c')
    (unopened : d.offerOf? token = none) : c' = c := by
  rcases h with same | ⟨id, names, -⟩
  · exact same
  · rw [unopened] at names
    cases names

theorem Takes.loses {token : String} {id : OfferId} {now : Nat} {c c' : OfferCache}
    {answer : Except DeskError Offer} (names : d.offerOf? token = some id)
    (h : Takes id now c answer c') : d.Loses token c c' := by
  cases h with
  | got | missed => exact .inr ⟨id, names, rfl⟩
  | failed => exact .inl rfl

/-- A redemption posts the conversion of an offer that was in the cache, or nothing. -/
theorem ensures_redeem (sound : w.ledger.Sound) (client : ClientId) (token : String) :
    (d.redeem client token).Ensures w
      (fun answer w' => w.Apart w' ∧ d.Loses token w.cache w'.cache ∧
        ((∃ key offer expiresAt, w.cache.lookup key = some ⟨offer, expiresAt⟩ ∧
            Settles w.now client offer w.ledger answer w'.ledger) ∨
          (∃ e, answer = .error e) ∧ w.ledger.Unchanged w'.ledger))
      (fun w' => w.Apart w' ∧ d.Loses token w.cache w'.cache ∧
        w.ledger.Unchanged w'.ledger) := by
  rw [redeem_eq]
  refine Ensures.bind ((ensures_reach token).mono (fun _ _ h => h) fun w' h => ?_)
    fun answer w₁ h₁ => ?_
  · exact ⟨h.toApart, .inl h.cache, sound.unchanged h.ledger⟩
  · obtain ⟨aside, h₁⟩ := h₁
    have loses : d.Loses token w.cache w₁.cache := by
      rcases h₁ with ⟨id, names, takes⟩ | ⟨-, -, same⟩
      · exact takes.loses names
      · exact .inl same
    cases answer with
    | error e =>
      exact ensures_pure ⟨aside.toApart, loses, .inr ⟨⟨e, rfl⟩, sound.unchanged aside.ledger⟩⟩
    | ok offer =>
      obtain ⟨id, -, takes⟩ | ⟨-, ⟨⟩, -⟩ := h₁
      obtain ⟨expiresAt, there, -⟩ := takes.exists_of_ok
      refine (ensures_conclude (aside.ledger ▸ sound) client offer).mono
        (fun answer w₂ h₂ => ?_) fun w₂ h₂ => ?_
      · rw [aside.ledger, aside.now] at h₂
        exact ⟨aside.toApart.trans h₂.1.toApart, h₂.1.cache ▸ loses,
          .inl ⟨_, offer, expiresAt, there, h₂.2⟩⟩
      · rw [aside.ledger] at h₂
        exact ⟨aside.toApart.trans h₂.1.toApart, h₂.1.cache ▸ loses, h₂.2⟩

end Desk

end Bureau
