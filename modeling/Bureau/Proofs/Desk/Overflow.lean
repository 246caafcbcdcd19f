import Bureau.Proofs.Desk.Day
import Bureau.Proofs.Desk.Returns
import Bureau.Proofs.Ledger.Overflow

/-!
# Sums that nobody checks, at the desk

The desk's operations are written out once more in `Fragile`, where a sum that does not fit breaks
off everything that is under way. They are never broken off: each of them does what the desk's own
operation does (`Fragile.Steady`), whatever the world holds and whatever offer comes out of the
cache, and what it posts is in range. So an amount that does not fit is answered with an error.
-/

namespace Bureau

open Timed

/-- An operation that a sum may break off. -/
abbrev Fragile (α : Type) : Type := ExceptT SumOverflow Timed α

namespace Fragile

variable {α β ε : Type}

/-- Work that needs sums, done at once. -/
def summed (result : Except SumOverflow α) : Fragile α := ExceptT.mk (pure result)

/-- No sum breaks off the first operation, and it does what the second does. -/
def Steady (x : Fragile α) (y : Timed α) : Prop := x = ExceptT.lift y

theorem steady_lift (y : Timed α) : Steady (monadLift y) y := rfl

theorem steady_pure (a : α) : Steady (pure a) (pure a) := rfl

/-- Sums that are there do not hold up what follows. -/
theorem summed_bind (a : α) (f : α → Fragile β) : summed (.ok a) >>= f = f a := rfl

theorem Steady.bind {x : Fragile α} {y : Timed α} {f : α → Fragile β} {g : α → Timed β}
    (hx : x.Steady y) (hf : ∀ a, (f a).Steady (g a)) : (x >>= f).Steady (y >>= g) := by
  obtain rfl : x = ExceptT.lift y := hx
  obtain rfl : f = fun a => ExceptT.lift (g a) := funext hf
  funext deadline w
  rcases result : y deadline w with ⟨_ | a, w'⟩
  · simp only [Bind.bind, ExceptT.bind, ExceptT.mk, ExceptT.lift, Functor.map, result]
  · simp only [Bind.bind, ExceptT.bind, ExceptT.mk, ExceptT.lift, Functor.map, result]
    rfl

/-- Without a deadline the operation comes to its answer, and no sum breaks it off. -/
theorem Steady.exists_answer {x : Fragile α} {y : Timed α} (steady : x.Steady y)
    (returns : y.Returns) (w : World) : ∃ a w', x none w = (some (.ok a), w') := by
  obtain ⟨a, w', result⟩ := returns w
  rw [Timed.run] at result
  refine ⟨a, w', ?_⟩
  obtain rfl : x = ExceptT.lift y := steady
  simp only [ExceptT.lift, ExceptT.mk, Functor.map, result]
  rfl

end Fragile

open Fragile

/-! ### The operations, with any way of adding -/

section Operations

variable (plus : Adding)

/-- Posts a batch within some nanoseconds. -/
def Posting.postBy (deadline : Nat) (batch : JournalBatch) :
    Fragile (Except LedgerError Posted) := do
  match ← summed (Posting.ofBatchBy plus batch) with
  | .error e => return .error e
  | .ok p =>
    match ← within deadline (drive p.remaining p) with
    | none => return .error .timeout
    | some p =>
      match p.result? with
      | some (.ok changes) =>
        return .ok { txId := batch.txId, kind := batch.kind, entries := batch.entries, changes }
      | some (.error e) => return .error e
      | none => return .error .timeout

namespace Desk

/-- Settles an offer that has been taken for a client. -/
def settleBy (d : Desk) (client : ClientId) (offer : Offer) (kind : SettlementKind) :
    Fragile (Except DeskError Receipt) := do
  let txId := TxId.mk (← freshUuid)
  let now ← (read (·.now) : Timed Instant)
  let batch := JournalBatch.conversion txId now kind client offer.debit offer.credit
  match ← Posting.postBy plus (ms d.settings.ledgerDeadline) batch with
  | .ok posted =>
    count .offerRedeemed
    return .ok posted.receipt
  | .error e =>
    count .settlementFailed
    if e.isTransient then failing (α := Receipt) .transientFailure (.ofLedger e)
    else return .error (.ofLedger e)

/-- Redeems a token for a client. -/
def redeemBy (d : Desk) (client : ClientId) (token : String) :
    Fragile (Except DeskError Receipt) := do
  match d.offerOf? token with
  | none => failing (α := Receipt) .offerMissed .notFoundOrExpired
  | some id =>
    match ← d.taken id with
    | .error e => return .error e
    | .ok offer =>
      match offer.claim client (← (read (·.now) : Timed Instant)) with
      | .error (event, e) => failing (α := Receipt) event e
      | .ok kind => d.settleBy plus client offer kind

/-- Pays money in for a client. -/
def depositBy (d : Desk) (client : ClientId) (currency : Currency) (amount : Decimal) :
    Fragile (Except DeskError Receipt) := do
  if !currency.isFiat then
    return .error (.invalid "currency" s!"deposits must be in a fiat currency, not {currency}")
  else
    let money : Money := ⟨amount, currency⟩
    match money.validateDebit with
    | .error e => return .error (.ofAmount e)
    | .ok () =>
      let txId := TxId.mk (← freshUuid)
      let now ← (read (·.now) : Timed Instant)
      let batch := JournalBatch.externalDeposit txId now d.settings.treasury client money
      match ← Posting.postBy plus (ms d.settings.ledgerDeadline) batch with
      | .ok posted =>
        count .deposit
        return .ok posted.receipt
      | .error e =>
        if e.isTransient then failing (α := Receipt) .transientFailure (.ofLedger e)
        else return .error (.ofLedger e)

/-- The kind of settlement that the rows of a transaction form. -/
def auditBy (txId : TxId) : Fragile (Except LedgerError SettlementKind) := do
  match ← Ledger.query .journalFor (·.journalFor txId) with
  | .error e => return .error e
  | .ok rows =>
    match ← summed (consistencyBy plus rows) with
    | .error e => return .error (.inconsistent e.message)
    | .ok kind => return .ok kind

end Desk

end Operations

/-! ### No sum breaks them off -/

theorem Posting.steady_postBy (deadline : Nat) (batch : JournalBatch) :
    (postBy Decimal.plus deadline batch).Steady (post deadline batch) := by
  unfold postBy post
  rw [ofBatchBy_plus, summed_bind]
  cases ofBatch batch with
  | error e => exact steady_pure _
  | ok p =>
    refine (steady_lift _).bind fun found => ?_
    cases found with
    | none => exact steady_pure _
    | some p' =>
      dsimp only
      rcases p'.result? with _ | _ | changes <;> exact steady_pure _

namespace Desk

variable (d : Desk)

theorem steady_refusal (passing : Bool) (event : Countable) (e : DeskError) :
    Steady (if passing then monadLift (failing (α := Receipt) event e) else return .error e)
      (if passing then failing event e else return .error e) := by
  split
  · exact steady_lift _
  · exact steady_pure _

theorem steady_settleBy (client : ClientId) (offer : Offer) (kind : SettlementKind) :
    (d.settleBy Decimal.plus client offer kind).Steady (d.settle client offer kind) := by
  refine (steady_lift _).bind fun uuid => (steady_lift _).bind fun now => ?_
  refine (Posting.steady_postBy _ _).bind fun answer => ?_
  cases answer with
  | ok posted => exact (steady_lift _).bind fun _ => steady_pure _
  | error e => exact (steady_lift _).bind fun _ => steady_refusal _ _ _

theorem steady_redeemBy (client : ClientId) (token : String) :
    (d.redeemBy Decimal.plus client token).Steady (d.redeem client token) := by
  unfold redeemBy redeem
  cases d.offerOf? token with
  | none => exact steady_lift _
  | some id =>
    refine (steady_lift _).bind fun answer => ?_
    cases answer with
    | error e => exact steady_pure _
    | ok offer =>
      refine (steady_lift _).bind fun now => ?_
      cases offer.claim client now with
      | error refusal => exact steady_lift _
      | ok kind => exact d.steady_settleBy client offer kind

theorem steady_depositBy (client : ClientId) (currency : Currency) (amount : Decimal) :
    (d.depositBy Decimal.plus client currency amount).Steady
      (d.deposit client currency amount) := by
  unfold depositBy deposit
  split
  · exact steady_pure _
  · dsimp only
    cases (Money.mk amount currency).validateDebit with
    | error e => exact steady_pure _
    | ok valid =>
      refine (steady_lift _).bind fun uuid => (steady_lift _).bind fun now => ?_
      refine (Posting.steady_postBy _ _).bind fun answer => ?_
      cases answer with
      | ok posted => exact (steady_lift _).bind fun _ => steady_pure _
      | error e => exact steady_refusal _ _ _

theorem steady_auditBy (txId : TxId) : (auditBy Decimal.plus txId).Steady (audit txId) := by
  refine (steady_lift _).bind fun answer => ?_
  cases answer with
  | error e => exact steady_pure _
  | ok rows =>
    dsimp only
    rw [consistencyBy_plus, summed_bind]
    cases checkConsistency rows with
    | error e => exact steady_pure _
    | ok kind => exact steady_pure _

end Desk

/-! ### What is posted is in range -/

namespace Posting

/-- The changes that a posting has computed so far. -/
def computed (p : Posting) : List BalanceChange :=
  match p.phase with
  | .locking _ _ changes | .updating _ _ changes | .inserting changes | .committing changes
  | .finished (.ok changes) => changes
  | .beginning | .aborting _ | .finished (.error _) => []

/-- Every balance that the posting has computed is in range. -/
def Fits (p : Posting) : Prop := ∀ c ∈ p.computed, c.after.inRange = true

theorem computed_toUpdate (p : Posting) (todo changes : List BalanceChange) :
    computed { p with phase := toUpdate todo changes } = changes := by
  cases todo <;> rfl

theorem computed_toLock (p : Posting) (todo : List AccountKey) (changes : List BalanceChange) :
    computed { p with phase := toLock todo changes } = changes := by
  cases todo with
  | nil => exact p.computed_toUpdate changes changes
  | cons key todo => rfl

variable {p p' : Posting} {l l' : Ledger} {w : World}

theorem Effect.fits (h : p.Effect l p' l') (fits : p.Fits) : p'.Fits := by
  have computed {phase : Phase} (hphase : p.phase = phase) :
      p.computed = ({ p with phase } : Posting).computed := by rw [← hphase]
  have none_ {p : Posting} (none_ : p.computed = []) : p.Fits := by
    intro c hc
    rw [none_] at hc
    cases hc
  cases h with
  | begun => exact none_ (computed_toLock { p with number := l.nextNumber } p.keys [])
  | @locked key todo changes account l' change phase granted change_eq =>
    intro c hc
    rw [computed_toLock] at hc
    rcases List.mem_append.1 hc with hc | hc
    · exact fits c (computed phase ▸ hc)
    · rw [List.mem_singleton.1 hc]
      exact BalanceChange.inRange_of_compute change_eq
  | updated phase =>
    intro c hc
    rw [computed_toUpdate] at hc
    exact fits c (computed phase ▸ hc)
  | inserted phase => exact fun c hc => fits c (computed phase ▸ hc)
  | committed phase => exact fun c hc => fits c (computed phase ▸ hc)
  | refused | aborted | dropped => exact none_ rfl

theorem fits_drive (steps : Nat) (fits : p.Fits) :
    (drive steps p).Ensures w (fun p' _ => p'.Fits) fun _ => True := by
  induction steps generalizing p w with
  | zero => exact ensures_pure fits
  | succ steps ih =>
    unfold drive
    cases call : p.call? with
    | none => exact ensures_pure fits
    | some name =>
      refine Ensures.bind (Q := fun p' _ => p'.Fits) (Ensures.onCut ?_) fun p' w' => ih
      exact (ensures_advance (result?_eq_none_of_call? call) name).mono
        (fun p' w' h => h.2.effect.fits fits) fun _ _ => trivial

/-- The rows of a posting and the balances after it are in range. -/
theorem fits_post (deadline : Nat) (batch : JournalBatch) :
    (post deadline batch).Yields w (fun posted _ =>
      (∀ e ∈ posted.entries, e.amount.inRange = true) ∧
      ∀ c ∈ posted.changes, c.after.inRange = true) fun _ => True := by
  unfold post
  cases genuine : ofBatch batch with
  | error e => exact ensures_pure trivial
  | ok p =>
    have rows := (rows_of_ofBatch genuine).inRange
    obtain ⟨deltas, -, -, rfl⟩ := ofBatch_eq_ok genuine
    have first : Fits { batch, deltas } := fun c hc => absurd hc List.not_mem_nil
    refine Ensures.bind (Q := fun found _ => ∀ p', found = some p' → p'.Fits)
      (Ensures.within ((fits_drive _ first).mono (fun p' w' h => ?_) fun _ _ => ⟨?_, trivial⟩))
      fun found w' fits => ?_
    · rintro _ ⟨⟩
      exact h
    · rintro p' ⟨⟩
    · rcases found with _ | p'
      · exact ensures_pure trivial
      · rcases result : p'.result? with _ | _ | changes
        · simp only [result]
          exact ensures_pure trivial
        · simp only [result]
          exact ensures_pure trivial
        · simp only [result]
          refine ensures_pure ⟨rows, fun c hc => fits p' rfl c ?_⟩
          have phase : p'.phase = .finished (.ok changes) := by
            unfold result? at result
            split at result
            · rename_i result' phase
              cases result
              exact phase
            · cases result
          simpa only [computed, phase] using hc

end Posting

/-- All amounts of a receipt are in range. -/
def Receipt.InRange (r : Receipt) : Prop := ∀ e ∈ r.entries, e.amount.inRange = true

/-- All amounts of a posting and all balances after it are in range. -/
def Posted.InRange (p : Posted) : Prop :=
  (∀ e ∈ p.entries, e.amount.inRange = true) ∧ ∀ c ∈ p.changes, c.after.inRange = true

namespace Desk

variable {d : Desk} {w : World}

theorem fits_failing (event : Countable) (e : DeskError) :
    (failing event e : Timed (Except DeskError Receipt)).Yields w (fun r _ => r.InRange)
      fun _ => True := by
  refine (ensures_failing (World.Still.refl w) event e).mono (fun answer w' h => ?_) fun _ h => h
  rw [h.1]
  trivial

theorem fits_refusal (passing : Bool) (event : Countable) (e : DeskError) :
    (if passing then failing event e else return .error e :
      Timed (Except DeskError Receipt)).Yields w (fun r _ => r.InRange) fun _ => True := by
  split
  · exact fits_failing event e
  · exact ensures_pure trivial

theorem fits_settle (client : ClientId) (offer : Offer) (kind : SettlementKind) :
    (d.settle client offer kind).Yields w (fun r _ => r.InRange) fun _ => True := by
  refine Ensures.bind (Q := fun _ _ => True) (ensures_freshUuid trivial) fun uuid w₁ _ => ?_
  refine Ensures.bind (Q := fun _ _ => True) (ensures_read trivial) fun now w₂ _ => ?_
  refine Ensures.bind (Posting.fits_post _ _) fun answer w₃ fits => ?_
  cases answer with
  | ok posted =>
    refine Ensures.bind (Q := fun _ _ => True) (ensures_count fun _ => trivial) fun _ w₄ _ => ?_
    exact ensures_pure fits.1
  | error e =>
    refine Ensures.bind (Q := fun _ _ => True) (ensures_count fun _ => trivial) fun _ w₄ _ => ?_
    exact fits_refusal _ _ _

theorem fits_redeem (client : ClientId) (token : String) :
    (d.redeem client token).Yields w (fun r _ => r.InRange) fun _ => True := by
  rw [redeem_eq]
  refine Ensures.bind (Q := fun _ _ => True) ((ensures_reach token).mono
    (fun _ _ _ => trivial) fun _ _ => trivial) fun answer w₁ _ => ?_
  cases answer with
  | error e => exact ensures_pure trivial
  | ok offer =>
    refine Ensures.bind (Q := fun _ _ => True) (ensures_read trivial) fun now w₂ _ => ?_
    split
    · exact fits_failing _ _
    · exact fits_settle client offer _

theorem fits_deposit (client : ClientId) (currency : Currency) (amount : Decimal) :
    (d.deposit client currency amount).Yields w (fun r _ => r.InRange) fun _ => True := by
  unfold deposit
  split
  · exact ensures_pure trivial
  · dsimp only
    split
    · exact ensures_pure trivial
    · refine Ensures.bind (Q := fun _ _ => True) (ensures_freshUuid trivial) fun uuid w₁ _ => ?_
      refine Ensures.bind (Q := fun _ _ => True) (ensures_read trivial) fun now w₂ _ => ?_
      refine Ensures.bind (Posting.fits_post _ _) fun answer w₃ fits => ?_
      cases answer with
      | ok posted =>
        refine Ensures.bind (Q := fun _ _ => True) (ensures_count fun _ => trivial)
          fun _ w₄ _ => ?_
        exact ensures_pure fits.1
      | error e => exact fits_refusal _ _ _

/-- Rows that form a settlement are in range. -/
theorem fits_audit (txId : TxId) :
    (audit txId).Yields w
      (fun _ w' => ∀ e ∈ w'.ledger.journalFor txId, e.amount.inRange = true) fun _ => True := by
  have asked : (Ledger.query .journalFor (·.journalFor txId)).Yields w
      (fun rows w' => rows = w'.ledger.journalFor txId) fun _ => True := by
    refine Ensures.bind (Q := fun _ _ => True) ((still_suffer (World.Still.refl w)
      (w.still_pop _)).mono (fun _ _ _ => trivial) fun _ _ => trivial) fun error w₁ _ => ?_
    cases error with
    | some e => exact ensures_pure trivial
    | none => exact ensures_act rfl
  refine Ensures.bind asked fun answer w₁ h₁ => ?_
  cases answer with
  | error e => exact ensures_pure trivial
  | ok rows =>
    dsimp only at h₁ ⊢
    split
    · exact ensures_pure trivial
    · rename_i kind found
      obtain ⟨a, b, rows_eq, -, rangeA, rangeB⟩ := exists_rows_of_checkConsistency found
      refine ensures_pure fun e he => ?_
      rw [← h₁, rows_eq] at he
      simp only [List.mem_cons, List.not_mem_nil, or_false] at he
      rcases he with rfl | rfl
      · exact rangeA
      · exact rangeB

end Desk

/-! ### What does not fit is answered with an error -/

/-- No sum breaks off `x`, which does what `y` does; it comes to an answer, and a success fits. -/
structure Fragile.Safe {ε α : Type} (x : Fragile (Except ε α)) (y : Timed (Except ε α))
    (Fits : α → World → Prop) : Prop where
  steady : x.Steady y
  /-- Without a deadline. -/
  answered : ∀ w, ∃ answer w', x none w = (some (.ok answer), w')
  fits : ∀ {deadline w a w'}, y deadline w = (some (.ok a), w') → Fits a w'

theorem Fragile.Steady.safe {ε α : Type} {x : Fragile (Except ε α)} {y : Timed (Except ε α)}
    {Fits : α → World → Prop} (steady : x.Steady y) (returns : y.Returns)
    (fits : ∀ w, y.Yields w Fits fun _ => True) : x.Safe y Fits where
  steady
  answered := steady.exists_answer returns
  fits {deadline w a w'} result := by
    have := fits w deadline
    rwa [result] at this

namespace Desk

/-- No sum breaks off a deposit, a redemption, a posting, an audit or a check, whatever the world
holds; the offers that are made are in range, and nothing breaks off a request for one but the end
of the calendar. The rules of settlements add nothing but amounts in range, and a batch that passes
them has net changes. -/
theorem never_overflows (d : Desk) :
    (∀ client currency amount, (d.depositBy Decimal.plus client currency amount).Safe
      (d.deposit client currency amount) fun receipt _ => receipt.InRange) ∧
    (∀ client token, (d.redeemBy Decimal.plus client token).Safe
      (d.redeem client token) fun receipt _ => receipt.InRange) ∧
    (∀ r w, (∃ answer w', (d.createOffer r).run w = (some answer, w') ∧
      (Market.NoAnswers w → ∀ ticket, answer = .ok ticket →
        ticket.debit.value.inRange = true ∧ ticket.credit.value.inRange = true)) ∨
      ∃ kind w', r.validate = .ok kind ∧ w.now.addMillis? (d.lifetime kind) = none ∧
        (d.createOffer r).run w = (none, w') ∧ w'.lastCrash = some .moment) ∧
    (∀ deadline batch, (Posting.postBy Decimal.plus deadline batch).Safe
      (Posting.post deadline batch) fun posted _ => posted.InRange) ∧
    (∀ txId, (auditBy Decimal.plus txId).Safe (audit txId)
      fun _ w => ∀ e ∈ w.ledger.journalFor txId, e.amount.inRange = true) ∧
    (∀ plus : Adding, plus.AgreesInRange Decimal.plus →
      (∀ entries, consistencyBy plus entries = .ok (checkConsistency entries)) ∧
      ∀ batch : JournalBatch, batch.checkBy plus = .ok batch.check) ∧
    (∀ batch : JournalBatch, batch.check = .ok () → ∃ totals, batch.deltas = .ok totals) := by
  refine ⟨fun client currency amount => ?_, fun client token => ?_, fun r w => ?_,
    fun deadline batch => ?_, fun txId => ?_, fun plus same => ⟨fun entries => ?_, fun batch => ?_⟩,
    fun batch passes => JournalBatch.exists_deltas passes⟩
  · exact (d.steady_depositBy client currency amount).safe
      (d.returns_deposit client currency amount) fun w => fits_deposit client currency amount
  · exact (d.steady_redeemBy client token).safe (d.returns_redeem client token)
      fun w => fits_redeem client token
  · refine (d.createOffer_ends r w).imp_left fun ⟨answer, w', result⟩ => ?_
    refine ⟨answer, w', result, fun none_ ticket same => ?_⟩
    have made := ensures_createOffer (w := w) d r none
    rw [Timed.run] at result
    rw [result] at made
    obtain ⟨-, ⟨t, rfl, makes⟩ | ⟨⟨e, rfl⟩, -⟩⟩ := made
    · cases same
      exact ⟨(makes.sound none_).debited.2, (makes.sound none_).credited.2⟩
    · cases same
  · exact (Posting.steady_postBy deadline batch).safe (Posting.returns_post deadline batch)
      fun w => Posting.fits_post deadline batch
  · exact (steady_auditBy txId).safe (returns_audit txId) fun w => fits_audit txId
  · rw [consistencyBy_congr same, consistencyBy_plus]
  · rw [JournalBatch.checkBy_congr same, JournalBatch.checkBy_plus]

/-- The largest decimal cannot be added to itself, and a deposit of it is refused; a deposit of the
largest amount has net changes, and the offer for a simple request is in range. -/
theorem never_overflows_largest :
    let largest := Decimal.whole (BitVec.allOnes 96)
    let deposit (value : Decimal) : JournalBatch :=
      .externalDeposit default default default default ⟨value, Currency.usd⟩
    largest.plus largest = .error .addition ∧
    (deposit largest).checkBy Decimal.plus = .ok (.error (.outOfRange largest.neg)) ∧
    (∃ totals, (deposit maxAmount).deltas = .ok totals) ∧
    ∃ ticket w', (Desk.simple.createOffer OfferRequest.simple).run World.simple =
      (some (.ok ticket), w') ∧ ticket.credit.value.inRange = true := by
  intro largest deposit
  obtain ⟨-, -, offers, -, -, rules, deltas⟩ := never_overflows Desk.simple
  refine ⟨by decide +kernel, ?_, deltas (deposit maxAmount) (by decide +kernel), ?_⟩
  · have agrees : Adding.AgreesInRange Decimal.plus Decimal.plus := fun _ _ _ _ => rfl
    rw [(rules Decimal.plus agrees).2 (deposit largest)]
    decide +kernel
  · have made : ((Desk.simple.createOffer OfferRequest.simple).run World.simple).1.any
        (·.isOk) = true := by decide +kernel
    have none_ : Market.NoAnswers World.simple := fun q hq => absurd hq List.not_mem_nil
    rcases offers OfferRequest.simple World.simple with
      ⟨answer, w', result, fits⟩ | ⟨_, _, _, _, crashed, _⟩
    · rw [result] at made
      cases answer with
      | error e => cases made
      | ok ticket => exact ⟨ticket, w', result, (fits none_ ticket rfl).2⟩
    · rw [crashed] at made
      cases made

end Desk

end Bureau
