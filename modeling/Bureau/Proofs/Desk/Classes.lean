import Bureau.Proofs.Desk.Conservation

/-!
# One table of currency classes

Which classes of currencies a settlement moves between is written down three times: for requests,
for the table of rates, and for the rows in the ledger. The three agree (`Desk.classes_agree`). The
ledger judges the rows of a posting once, before it begins, and no step of the posting does it
again; so rows are inconsistent when the check says so, or when a mishap of the ledger pretends it
(`Posting.ensures_post_consistent`). No offer of the desk fails the check.
-/

namespace Bureau

open Timed World

/-- A mishap waits for the ledger that pretends that rows are inconsistent. -/
def World.Feigns (w : World) (reason : String) : Prop :=
  ∃ c ∈ w.mishaps.ledger, c.2.error = some (.inconsistent reason)

theorem World.Apart.feigns {w w' : World} {reason : String} (apart : w.Apart w')
    (feigns : w'.Feigns reason) : w.Feigns reason := by
  obtain ⟨c, waits, feigned⟩ := feigns
  exact ⟨c, apart.calls c waits, feigned⟩

/-! ### Steps of a posting -/

section Steps

variable {l l' : Ledger} {reason : String}

namespace Ledger

theorem lock_ne_inconsistent (l : Ledger) (n : Nat) (key : AccountKey) :
    l.lock n key ≠ .refused (.inconsistent reason) := by
  unfold lock
  split
  · simp
  · split
    · simp
    · split
      · simp
      · split <;> simp

theorem update_ne_inconsistent (l : Ledger) (n : Nat) (change : BalanceChange)
    (moment : Instant) : l.update n change moment ≠ .error (.inconsistent reason) := by
  unfold update
  split
  · simp
  · split <;> simp

theorem insert_ne_inconsistent (l : Ledger) (n : Nat) (entries : List JournalEntry) :
    l.insert n entries ≠ .error (.inconsistent reason) := by
  unfold insert
  split <;> simp

theorem commit_ne_inconsistent (l : Ledger) (n : Nat) :
    l.commit n ≠ .error (.inconsistent reason) := by
  unfold commit
  split <;> simp

theorem rollback_ne_inconsistent (l : Ledger) (n : Nat) :
    l.rollback n ≠ .error (.inconsistent reason) := by
  unfold rollback
  split <;> simp

end Ledger

namespace Posting

/-- The error that a posting in this phase has failed with, or will when it is rolled back. -/
def Phase.error? : Phase → Option LedgerError
  | .aborting e | .finished (.error e) => some e
  | _ => none

variable {p p' : Posting}

theorem error?_toUpdate (todo changes : List BalanceChange) :
    (toUpdate todo changes).error? = none := by
  cases todo <;> rfl

theorem error?_toLock (todo : List AccountKey) (changes : List BalanceChange) :
    (toLock todo changes).error? = none := by
  cases todo with
  | nil => exact error?_toUpdate changes changes
  | cons => rfl

/-- The posting fails because its rows are said to be inconsistent. -/
def Blames (p : Posting) (reason : String) : Prop :=
  p.phase.error? = some (.inconsistent reason)

theorem blames_of_result? (failed : p.result? = some (.error (.inconsistent reason))) :
    p.Blames reason := by
  unfold result? at failed
  split at failed
  · rename_i phase
    cases failed
    rw [Blames, phase]
    rfl
  · cases failed

/-- The first error of a posting stays its error. -/
theorem blames_of_fail {e : LedgerError} (unfinished : p.result? = none)
    (blames : (p.fail l e).1.Blames reason) : p.Blames reason ∨ e = .inconsistent reason := by
  unfold fail Blames at *
  cases phase : p.phase with
  | finished => simp [result?, phase] at unfinished
  | aborting first =>
    simp only [phase] at blames
    exact .inl blames
  | _ =>
    simp only [phase] at blames
    exact .inr (Option.some.inj blames)

/-- No step judges the rows again. -/
theorem blames_of_step (unfinished : p.result? = none) (step : p.step l = .went p' l')
    (blames : p'.Blames reason) : p.Blames reason := by
  by_contra unblamed
  have going : p'.phase.error? ≠ none := by
    rw [Blames] at blames
    simp [blames]
  have failing {l₁ : Ledger} {e : LedgerError} (failed : p.failed l₁ e = .went p' l') :
      e = .inconsistent reason := by
    obtain rfl : (p.fail l₁ e).1 = p' := (Outcome.went.inj failed).1
    exact (blames_of_fail unfinished blames).resolve_left unblamed
  -- Only a step that fails changes the error, and none fails for this reason.
  unfold Posting.step at step
  cases phase : p.phase with
  | beginning =>
    simp only [phase] at step
    cases step
    exact going (error?_toLock _ _)
  | locking key todo changes =>
    simp only [phase] at step
    split at step
    · cases step
    · rename_i refused
      exact l.lock_ne_inconsistent _ _ (failing step ▸ refused)
    · split at step
      · rename_i refused
        exact BalanceChange.compute_ne_inconsistent _ _ _ (failing step ▸ refused)
      · cases step
        exact going (error?_toLock _ _)
  | updating change todo changes =>
    simp only [phase] at step
    split at step
    · rename_i refused
      exact l.update_ne_inconsistent _ _ _ (failing step ▸ refused)
    · cases step
      exact going (error?_toUpdate _ _)
  | inserting changes =>
    simp only [phase] at step
    split at step
    · rename_i refused
      exact l.insert_ne_inconsistent _ _ (failing step ▸ refused)
    · cases step
      exact going rfl
  | committing changes =>
    simp only [phase] at step
    split at step
    · rename_i refused
      exact l.commit_ne_inconsistent _ (failing step ▸ refused)
    · cases step
      exact going rfl
  | aborting error =>
    simp only [phase] at step
    split at step
    · rename_i refused
      exact l.rollback_ne_inconsistent _ (failing step ▸ refused)
    · cases step
      exact unblamed ((congrArg Phase.error? phase).trans blames)
  | finished => simp [result?, phase] at unfinished

end Posting

end Steps

/-! ### Calls of a posting -/

section Calls

variable {w : World} {reason : String}

theorem Ledger.ensures_suffer (name : LedgerCall) (reason : String) :
    (suffer (pop name)).Ensures w
      (fun error w' => w.Still w' ∧ (error = some (.inconsistent reason) → w.Feigns reason))
      fun _ => True := by
  refine Ensures.bind (ensures_act (Q := fun found w' => w.Still w' ∧
    ∀ mishap, found = some mishap → (name, mishap) ∈ w.mishaps.ledger)
    ⟨w.still_pop name, fun _ => World.mem_of_popFor⟩) fun found w' h => ?_
  cases found with
  | none => exact ensures_pure ⟨h.1, fun same => by cases same⟩
  | some mishap =>
    refine Ensures.bind ((still_wait h.1 mishap.delay).mono (fun _ _ h => h) fun _ _ => trivial)
      fun _ w'' still => ?_
    exact ensures_pure ⟨still, fun feigned => ⟨_, h.2 mishap rfl, feigned⟩⟩

namespace Posting

variable {p : Posting}

theorem ensures_failIn_blames {w₀ : World} (apart : w₀.Apart w) (unfinished : p.result? = none)
    {e : LedgerError} (feigns : e = .inconsistent reason → w₀.Feigns reason) :
    (p.failIn e).Ensures w
      (fun p' w' => w₀.Apart w' ∧ (p'.Blames reason → p.Blames reason ∨ w₀.Feigns reason))
      fun _ => True :=
  ensures_act ⟨apart.trans (w.beside_ledger _).toApart, fun blames =>
    (blames_of_fail unfinished blames).imp_right feigns⟩

/-- A call blames the rows only when a mishap does. -/
theorem ensures_advance_blames (unfinished : p.result? = none) (name : LedgerCall)
    (reason : String) :
    (p.advance name).Ensures w
      (fun p' w' => w.Apart w' ∧ (p'.Blames reason → p.Blames reason ∨ w.Feigns reason))
      fun _ => True := by
  refine Ensures.bind (Ledger.ensures_suffer name reason) fun error w₁ h₁ => ?_
  obtain ⟨still, feigns⟩ := h₁
  cases error with
  | some e => exact ensures_failIn_blames still.toApart unfinished fun same => feigns (same ▸ rfl)
  | none =>
    refine Ensures.bind (ensures_read (Q := fun outcome w' =>
      outcome = p.step w₁.ledger ∧ w.Still w') ⟨rfl, still⟩) fun outcome w₂ h₂ => ?_
    obtain ⟨step, still⟩ := h₂
    cases outcome with
    | went p' l' =>
      exact ensures_act ⟨still.toApart.trans (w₂.beside_ledger l').toApart, fun blames =>
        .inl (blames_of_step unfinished step.symm blames)⟩
    | waits key =>
      refine Ensures.bind (ensures_read (Q := fun _ => w.Still) still) fun span w₃ still => ?_
      refine Ensures.bind ((still_wait still span).mono (fun _ _ h => h) fun _ _ => trivial)
        fun _ w₄ still => ensures_failIn_blames still.toApart unfinished fun same => by cases same

/-- By induction on the steps: mishaps are only used up, so one that a later call meets has waited
from the start. -/
theorem ensures_drive_blames (steps : Nat) (p : Posting) (reason : String) :
    (drive steps p).Ensures w (fun p' _ => p'.Blames reason → p.Blames reason ∨ w.Feigns reason)
      fun _ => True := by
  induction steps generalizing p w with
  | zero => exact ensures_pure .inl
  | succ steps ih =>
    unfold drive
    cases call : p.call? with
    | none => exact ensures_pure .inl
    | some name =>
      refine Ensures.bind (Ensures.onCut (ensures_advance_blames
        (result?_eq_none_of_call? call) name reason)) fun p' w' h => ?_
      refine (ih p').mono (fun q _ later blames => ?_) fun _ h => h
      exact (later blames).elim h.2 fun feigns => .inr (h.1.feigns feigns)

/-- Rows that pass the check are not called inconsistent later, unless a mishap does. -/
theorem ensures_post_consistent (deadline : Nat) {batch : JournalBatch}
    (check : batch.check = .ok ()) (reason : String) :
    (post deadline batch).Ensures w
      (fun answer _ => answer = .error (.inconsistent reason) → w.Feigns reason)
      fun _ => True := by
  obtain ⟨deltas, totals⟩ := JournalBatch.exists_deltas check
  have genuine : ofBatch batch = .ok { batch, deltas } := by simp only [ofBatch, check, totals]
  unfold post
  rw [genuine]
  refine Ensures.bind (Ensures.within (Q := fun found _ => ∀ p', found = some p' →
      p'.Blames reason → w.Feigns reason)
    ((ensures_drive_blames _ _ reason).mono (fun p' _ h q same blames => ?_)
      fun _ _ => ⟨by simp, trivial⟩)) fun found w' h => ?_
  · obtain rfl := Option.some.inj same
    exact (h blames).resolve_left fun first => by cases first
  · cases found with
    | none => exact ensures_pure fun same => by cases same
    | some p' =>
      dsimp only
      split
      · exact ensures_pure fun same => by cases same
      · rename_i e failed
        exact ensures_pure fun same =>
          h p' rfl (blames_of_result? (Except.error.inj same ▸ failed))
      · exact ensures_pure fun same => by cases same

end Posting

end Calls

/-! ### Redemptions -/

section Redemptions

variable {d : Desk} {w : World} {client : ClientId} {reason : String} {offer : Offer}

theorem DeskError.ofLedger_eq_integrityFault_iff {e : LedgerError} :
    ofLedger e = .integrityFault reason ↔ e = .inconsistent reason := by
  cases e <;> simp [ofLedger, invalid]

theorem Desk.IsMiss.ne_integrityFault {e : DeskError} (miss : Desk.IsMiss e) :
    e ≠ .integrityFault reason := by
  obtain rfl | rfl | ⟨m, rfl⟩ := miss
  · simp
  · simp [DeskError.timedOut]
  · cases m <;> simp [DeskError.ofMarket, DeskError.invalid]

theorem Offer.kind?_of_claim {kind : SettlementKind} {now : Instant}
    (claimed : offer.claim client now = .ok kind) : offer.kind? = some kind := by
  unfold claim at claimed
  split at claimed
  · cases claimed
  · split at claimed
    · cases claimed
    · split at claimed
      · cases claimed
      · rename_i found
        cases claimed
        exact found

/-- A sound offer is at fault only when somebody else presents it. -/
theorem Offer.Sound.foreign_of_claim (sound : offer.Sound) {now : Instant} {event : Countable}
    (refused : offer.claim client now = .error (event, .integrityFault reason)) :
    offer.client ≠ client ∧
      reason = s!"offer {offer.id} owned by {offer.client} presented by {client}" := by
  unfold claim at refused
  split at refused
  · rename_i foreign
    cases refused
    exact ⟨foreign, rfl⟩
  · split at refused
    · cases refused
    · obtain ⟨kind, found, -⟩ := sound.kind
      rw [found] at refused
      cases refused

namespace Desk

/-- The token names an offer of another client, and this is what is said of it. -/
def Foreign (d : Desk) (client : ClientId) (token : String) (c : OfferCache) (reason : String) :
    Prop :=
  ∃ id e, d.offerOf? token = some id ∧ c.lookup id.cacheKey = some e ∧ e.offer.client ≠ client ∧
    reason = s!"offer {e.offer.id} owned by {e.offer.client} presented by {client}"

/-- The rows of a sound offer are not called inconsistent, unless a mishap does. -/
theorem ensures_settle_consistent (sound : offer.Sound) {kind : SettlementKind}
    (hkind : offer.kind? = some kind) (client : ClientId) (reason : String) :
    (d.settle client offer kind).Ensures w
      (fun answer _ => answer = .error (.integrityFault reason) → w.Feigns reason)
      fun _ => True := by
  refine Ensures.bind (ensures_freshUuid (Q := fun _ => w.Like) (w.like_drawn _))
    fun uuid w₁ h₁ => ?_
  refine Ensures.bind (ensures_read (Q := fun _ => w.Like) h₁) fun now w₂ h₂ => ?_
  refine Ensures.bind (Posting.ensures_post_consistent _
    (sound.check hkind _ _ _) reason) fun answer w₃ h₃ => ?_
  cases answer with
  | ok posted =>
    exact Ensures.bind (ensures_count (Q := fun _ _ => True) fun _ => trivial)
      fun _ _ _ => ensures_pure fun fault => by cases fault
  | error e =>
    refine Ensures.bind (ensures_count (Q := fun _ _ => True) fun _ => trivial) fun _ w₄ _ => ?_
    refine (ensures_refusal _ e w₄).mono (fun answer _ h same => ?_) fun _ _ => trivial
    have blamed : e = .inconsistent reason :=
      DeskError.ofLedger_eq_integrityFault_iff.1 (Except.error.inj (h.1.symm.trans same))
    exact h₂.toApart.feigns (h₃ (congrArg Except.error blamed))

theorem ensures_conclude_consistent (sound : offer.Sound) (client : ClientId)
    (reason : String) :
    (d.conclude client offer).Ensures w
      (fun answer _ => answer = .error (.integrityFault reason) →
        offer.client ≠ client ∧
            reason = s!"offer {offer.id} owned by {offer.client} presented by {client}" ∨
          w.Feigns reason)
      fun _ => True := by
  refine Ensures.bind (ensures_read (Q := fun _ w' => w' = w) rfl) fun now w' same => ?_
  subst same
  split
  · rename_i event e refused
    refine (ensures_failing (Still.refl w') event e).mono (fun answer _ h fault => ?_) fun _ h => h
    obtain rfl := Except.error.inj (h.1.symm.trans fault)
    exact .inl (sound.foreign_of_claim refused)
  · rename_i kind claimed
    exact (ensures_settle_consistent sound (Offer.kind?_of_claim claimed) client reason).mono
      (fun _ _ h fault => .inr (h fault)) fun _ h => h

/-- A redemption is at fault when a client presents the offer of another, or because of a mishap;
never because the ledger finds the rows of an offer inconsistent. -/
theorem ensures_redeem_consistent (sound : ∀ x ∈ w.cache.entries, x.2.offer.Sound)
    (client : ClientId) (token reason : String) :
    (d.redeem client token).Ensures w
      (fun answer _ => answer = .error (.integrityFault reason) →
        d.Foreign client token w.cache reason ∨ w.Feigns reason)
      fun _ => True := by
  rw [redeem_eq]
  refine Ensures.bind ((ensures_reach token).mono (fun _ _ h => h) fun _ _ => trivial)
    fun answer w₁ h₁ => ?_
  obtain ⟨aside, h₁⟩ := h₁
  cases answer with
  | error e =>
    refine ensures_pure fun fault => absurd (Except.error.inj fault) ?_
    obtain ⟨id, -, takes⟩ | ⟨-, missed, -⟩ := h₁
    · exact takes.isMiss.ne_integrityFault
    · rw [Except.error.inj missed]
      simp
  | ok offer =>
    obtain ⟨id, names, takes⟩ | ⟨-, ⟨⟩, -⟩ := h₁
    obtain ⟨expiresAt, there, -⟩ := takes.exists_of_ok
    have made : offer.Sound := sound _ (OfferCache.mem_of_lookup there)
    refine (ensures_conclude_consistent made client reason).mono
      (fun answer _ h fault => ?_) fun _ h => h
    exact (h fault).imp (fun foreign => ⟨id, _, names, there, foreign⟩) aside.feigns

end Desk

end Redemptions

/-! ### The market -/

theorem RateTable.quote_ne_unsupported (t : RateTable) (now : Instant) (pair : CurrencyPair)
    (amount : Decimal) (source destination : Currency) :
    t.quote now pair amount ≠ .error (.unsupportedConversion source destination) := by
  unfold quote Quote.price
  split
  · simp
  · split
    · simp
    · split <;> simp

/-- The table of rates never calls a conversion unsupported that it supports. -/
theorem Market.ensures_tableQuote_supported {w : World} {conversion : RateTable.Conversion}
    {pair : CurrencyPair} (supports : conversion.supports pair = true) (amount : Decimal)
    (source destination : Currency) :
    (tableQuote conversion pair amount).Ensures w
      (fun answer _ => answer ≠ .error (.unsupportedConversion source destination))
      fun _ => True := by
  unfold tableQuote
  rw [supports]
  refine Ensures.bind (ensures_read (Q := fun _ _ => True) trivial) fun latency w₁ _ => ?_
  refine Ensures.bind (ensures_wait (Q := fun _ _ => True) (fun _ _ => trivial) fun _ _ => trivial)
    fun _ w₂ _ => ?_
  exact ensures_read (RateTable.quote_ne_unsupported _ _ _ _ _ _)

/-! ### The three rules agree -/

/-- The ledger has nothing against the rows of the offers that wait. -/
structure Day.Consistent (d : Desk) (day : Day) : Prop where
  /-- Whenever an offer is redeemed, its rows pass the check. -/
  checked : ∀ x ∈ day.world.cache.entries, ∃ kind, x.2.offer.kind? = some kind ∧
    ∀ txId now client,
      (JournalBatch.conversion txId now kind client x.2.offer.debit x.2.offer.credit).check = .ok ()
  /-- A redemption is at fault only for an offer of somebody else's, or because of a mishap. -/
  redeemed : ∀ client token deadline reason,
    (d.redeem client token deadline day.world).1 = some (.error (.integrityFault reason)) →
      d.Foreign client token day.world.cache reason ∨ day.world.Feigns reason

/-- Requests, the table of rates and the ledger agree on what a settlement can move between. An
amount that may be debited and a credit in range given, a request is valid exactly when the rows of
its conversion pass the check; the table supports whatever is valid; and no offer that the desk has
made is ever found inconsistent. -/
theorem Desk.classes_agree (d : Desk) {w : World} (new : w.IsNew) (events : List Event) :
    (∀ (r : OfferRequest) (kind : SettlementKind) (credit : Decimal) (txId : TxId) (now : Instant),
      (Money.mk r.amount r.source).isAtScale = true →
      0 < r.amount.value → r.amount.value ≤ maxAmount.value →
      0 < credit.value → credit.value ≤ maxAmount.value →
        (r.validate = .ok kind ↔ SettlementKind.ofFlags? r.isPurchase r.isSale = some kind ∧
          (JournalBatch.conversion txId now kind r.client ⟨r.amount, r.source⟩
            ⟨credit, r.destination⟩).check = .ok ())) ∧
    (∀ (r : OfferRequest) (kind : SettlementKind), r.validate = .ok kind →
      ∀ (deadline : Option Nat) (w : World) (source destination : Currency),
        (Market.tableQuote (r.conversion kind) ⟨r.source, r.destination⟩ r.amount deadline w).1 ≠
          some (.error (.unsupportedConversion source destination))) ∧
    Day.Consistent d (events.foldl (Day.next d) { world := w }) := by
  refine ⟨fun r kind credit txId now scale positive small gains bounded => ?_,
    fun r kind valid deadline w source destination answered => ?_, ?_, ?_⟩
  · exact OfferRequest.validate_iff_check
      (Money.validateDebit_eq_ok_iff.2 ⟨scale, positive, small⟩) ⟨gains, bounded⟩ txId now
  · have valid := OfferRequest.valid_of_validate valid
    have supports := (OfferRequest.supports_conversion valid.flags ⟨r.source, r.destination⟩).trans
      valid.shape
    exact (Market.ensures_tableQuote_supported supports r.amount source destination).result
      answered rfl
  · intro x hx
    have sound : x.2.offer.Sound := ((Day.inv_new new).foldl d events).offers x hx
    obtain ⟨kind, found, -⟩ := sound.kind
    exact ⟨kind, found, fun txId now client => sound.check found txId now client⟩
  · intro client token deadline reason fault
    have inv := (Day.inv_new new).foldl d events
    exact (Desk.ensures_redeem_consistent inv.offers client token reason).result fault rfl

/-- At the simple desk somebody else presents the token of an offer. -/
theorem Desk.classes_agree_simple :
    let day := (Day.simple.take 4).foldl (Day.next Desk.simple) { world := World.simple }
    let stranger : ClientId := ⟨⟨1, by decide⟩⟩
    OfferRequest.simple.validate = .ok .fiatExchange ∧
      (Market.tableQuote .fiat ⟨Currency.usd, Currency.eur⟩ (.hundredths 2500) none
        World.simple).1 ≠ some (.error (.unsupportedConversion Currency.usd Currency.eur)) ∧
      ∃ reason, (Desk.simple.redeem stranger Desk.simpleToken none day.world).1 =
          some (.error (.integrityFault reason)) ∧
        Desk.simple.Foreign stranger Desk.simpleToken day.world.cache reason := by
  intro day stranger
  have new : World.simple.IsNew := ⟨rfl, rfl, fun q hq => absurd hq List.not_mem_nil⟩
  obtain ⟨requests, market, consistent⟩ := classes_agree Desk.simple new (Day.simple.take 4)
  have positive (n : Nat) (h : (Decimal.hundredths n).isPositive = true) :
      0 < (Decimal.hundredths n).value := (Decimal.isPositive_iff_value _).1 h
  have small (n : Nat) (h : (Decimal.hundredths n).grains ≤ maxAmount.grains) :
      (Decimal.hundredths n).value ≤ maxAmount.value := Decimal.value_le_value.2 h
  have valid : OfferRequest.simple.validate = .ok .fiatExchange :=
    (requests OfferRequest.simple .fiatExchange (.hundredths 2250) default default
      (by decide +kernel) (positive 2500 (by decide)) (small 2500 (by decide +kernel))
      (positive 2250 (by decide)) (small 2250 (by decide +kernel))).2
      ⟨rfl, by decide +kernel⟩
  have calm : day.world.mishaps.ledger = [] := List.isEmpty_iff.1 (by decide +kernel)
  have unfeigned (reason : String) : ¬ day.world.Feigns reason := by
    rintro ⟨c, waits, -⟩
    rw [calm] at waits
    cases waits
  have fault : ∃ reason, (Desk.simple.redeem stranger Desk.simpleToken none day.world).1 =
      some (.error (.integrityFault reason)) := by
    have name : ((Desk.simple.redeem stranger Desk.simpleToken none day.world).1.map fun answer =>
        (answer.map fun _ => ()).mapError DeskError.name) = some (.error "IntegrityFault") := by
      decide +kernel
    generalize (Desk.simple.redeem stranger Desk.simpleToken none day.world).1 = answer at name
    rcases answer with _ | e | receipt
    · cases name
    · cases e with
      | integrityFault reason => exact ⟨reason, rfl⟩
      | _ => simp [Except.map, Except.mapError, DeskError.name] at name
    · cases name
  obtain ⟨reason, fault⟩ := fault
  exact ⟨valid, market _ _ valid none World.simple _ _, reason, fault,
    (consistent.redeemed _ _ _ _ fault).resolve_right (unfeigned reason)⟩

end Bureau
