import Bureau.Proofs.Desk.Returns

/-!
# What is counted

The calls of the desk count nothing (`Timed.Uncounted`); what there is to count is counted by the
operation that makes them. An offer that is made and money that is paid in are counted, and so is a
settlement whether it succeeds or not. Otherwise at most a failure that may pass is counted
(`Counters.Falters`).
-/

namespace Bureau

open Timed

/-- Nothing has been counted but failures that may pass. -/
def Counters.Falters (c c' : Counters) : Prop := ∃ n, c' = { c with transientFailures := n }

namespace Counters

variable {c c' : Counters}

theorem falters_of_eq (same : c' = c) : c.Falters c' := ⟨c.transientFailures, same⟩

theorem falters_refl (c : Counters) : c.Falters c := falters_of_eq rfl

end Counters

namespace Timed

variable {α β ε : Type}

/-- The operation counts nothing. -/
def Uncounted (x : Timed α) : Prop :=
  ∀ w, x.Ensures w (fun _ w' => w'.counters = w.counters) fun w' => w'.counters = w.counters

theorem uncounted_pure (a : α) : (pure a : Timed α).Uncounted := fun _ => ensures_pure rfl

theorem uncounted_read (f : World → α) : (read f).Uncounted := fun _ => ensures_read rfl

theorem uncounted_act {f : World → α × World} (same : ∀ w, (f w).2.counters = w.counters) :
    (act f).Uncounted :=
  fun w => ensures_act (same w)

theorem uncounted_wait (span : Nat) : (wait span).Uncounted :=
  fun _ => ensures_wait (fun _ _ => rfl) fun _ _ => rfl

theorem Uncounted.bind {x : Timed α} {f : α → Timed β} (hx : x.Uncounted)
    (hf : ∀ a, (f a).Uncounted) : (x >>= f).Uncounted :=
  fun w => Ensures.bind (hx w) fun a w' same =>
    (hf a w').mono (fun _ _ h => h.trans same) fun _ h => h.trans same

/-- What is counted after it is counted from the same counters. -/
theorem Uncounted.first {x : Timed α} {f : α → Timed β} {w : World} {Q : β → World → Prop}
    {cut : World → Prop} (hx : x.Uncounted)
    (hf : ∀ a w', w'.counters = w.counters → (f a).Ensures w' Q cut)
    (hcut : ∀ w', w'.counters = w.counters → cut w') : (x >>= f).Ensures w Q cut :=
  Ensures.bind ((hx w).mono (fun _ _ same => same) hcut) hf

theorem Uncounted.yields {x : Timed β} {f : β → Timed (Except ε α)} {w : World}
    {done : α → World → Prop} (hx : x.Uncounted)
    (hf : ∀ a w', w'.counters = w.counters →
      (f a).Yields w' done fun w'' => w.counters.Falters w''.counters) :
    (x >>= f).Yields w done fun w'' => w.counters.Falters w''.counters :=
  hx.first hf fun _ same => Counters.falters_of_eq same

theorem Uncounted.within {x : Timed α} (h : x.Uncounted) (span : Nat) :
    (within span x).Uncounted :=
  fun w => Ensures.within ((h w).mono (fun _ _ same => same) fun _ same => ⟨same, same⟩)

theorem closed_uncounted : Closed @Uncounted where
  pure := uncounted_pure
  bind := Uncounted.bind
  within span _ h := h.within span

theorem uncounted_crash (overflow : SumOverflow) : (crash overflow : Timed α).Uncounted :=
  fun _ => ensures_crash rfl

theorem Uncounted.onCut {x : Timed α} (h : x.Uncounted) {cleanUp : World → World}
    (same : ∀ w, (cleanUp w).counters = w.counters) : (onCut cleanUp x).Uncounted :=
  fun w => Ensures.onCut ((h w).mono (fun _ _ h => h) fun w' h => (same w').trans h)

theorem uncounted_freshUuid : freshUuid.Uncounted :=
  (uncounted_act fun _ => rfl).bind fun _ => uncounted_pure _

theorem uncounted_freshNonce : freshNonce.Uncounted :=
  (uncounted_act fun _ => rfl).bind fun _ => uncounted_pure _

theorem uncounted_suffer {pop : World → Option (Mishap ε) × World}
    (same : ∀ w, (pop w).2.counters = w.counters) : (suffer pop).Uncounted := by
  refine (uncounted_act same).bind fun mishap => ?_
  cases mishap with
  | none => exact uncounted_pure none
  | some mishap => exact (uncounted_wait _).bind fun _ => uncounted_pure _

end Timed

/-! ### Calls -/

theorem Market.uncounted_tableQuote (conversion : RateTable.Conversion) (pair : CurrencyPair)
    (amount : Decimal) : (tableQuote conversion pair amount).Uncounted := by
  unfold tableQuote
  split
  · exact uncounted_pure _
  · exact (uncounted_read _).bind fun _ => (uncounted_wait _).bind fun _ => uncounted_read _

theorem Market.uncounted_quote (conversion : RateTable.Conversion) (pair : CurrencyPair)
    (amount : Decimal) : (quote conversion pair amount).Uncounted := by
  refine (uncounted_act fun w => ?_).bind fun found => ?_
  · unfold popQuote
    split <;> rfl
  · rcases found with _ | ⟨mishap, answer⟩
    · exact uncounted_tableQuote conversion pair amount
    · refine (uncounted_wait _).bind fun _ => ?_
      split
      · exact uncounted_pure _
      · exact uncounted_read _
      · exact uncounted_tableQuote conversion pair amount

namespace OfferCache

theorem uncounted_callPut (key : String) (offer : Offer) (lifetime : Nat) :
    (callPut key offer lifetime).Uncounted := by
  refine (uncounted_suffer fun w => ?_).bind fun error => ?_
  · unfold popPut
    split <;> rfl
  · cases error with
    | some e => exact uncounted_pure _
    | none =>
      refine (uncounted_read _).bind fun latency => (uncounted_wait latency).bind fun _ => ?_
      exact uncounted_act fun _ => rfl

theorem uncounted_callTake (key : String) : (callTake key).Uncounted := by
  refine (uncounted_suffer fun w => ?_).bind fun error => ?_
  · unfold popTake
    split <;> rfl
  · cases error with
    | some e => exact uncounted_pure _
    | none =>
      refine (uncounted_read _).bind fun latency => (uncounted_wait latency).bind fun _ => ?_
      exact uncounted_act fun _ => rfl

end OfferCache

theorem Ledger.uncounted_call {α : Type} (name : LedgerCall)
    (work : World → Except LedgerError α × Ledger) : (call name work).Uncounted := by
  refine (uncounted_suffer fun _ => rfl).bind fun error => ?_
  cases error with
  | some e => exact uncounted_pure _
  | none => exact uncounted_act fun _ => rfl

namespace Posting

theorem uncounted_failIn (p : Posting) (error : LedgerError) : (p.failIn error).Uncounted :=
  uncounted_act fun _ => rfl

theorem uncounted_advance (p : Posting) (name : LedgerCall) : (p.advance name).Uncounted := by
  refine (uncounted_suffer fun _ => rfl).bind fun error => ?_
  cases error with
  | some e => exact p.uncounted_failIn e
  | none =>
    refine (uncounted_read _).bind fun outcome => ?_
    cases outcome with
    | went p' ledger => exact uncounted_act fun _ => rfl
    | waits key =>
      refine (uncounted_read _).bind fun span => (uncounted_wait span).bind fun _ => ?_
      exact p.uncounted_failIn _

theorem uncounted_drive (steps : Nat) (p : Posting) : (drive steps p).Uncounted := by
  induction steps generalizing p with
  | zero => exact uncounted_pure p
  | succ steps ih =>
    unfold drive
    cases p.call? with
    | none => exact uncounted_pure p
    | some name =>
      have advanced : (onCut p.release (p.advance name)).Uncounted :=
        (p.uncounted_advance name).onCut fun _ => rfl
      exact advanced.bind fun p' => ih p'

theorem uncounted_post (deadline : Nat) (batch : JournalBatch) :
    (post deadline batch).Uncounted := by
  unfold post
  cases ofBatch batch with
  | error e => exact uncounted_pure _
  | ok p =>
    refine ((uncounted_drive _ p).within deadline).bind fun found => ?_
    cases found with
    | none => exact uncounted_pure _
    | some p' =>
      dsimp only
      split
      · exact uncounted_pure _
      · exact uncounted_pure _
      · exact uncounted_pure _

end Posting

namespace Desk

variable {α : Type} {d : Desk} {w w' : World} {deadline : Option Nat}

/-! ### Failures -/

/-- A failure that is counted when it may pass. -/
theorem ensures_refusal_counters (passing : Bool) (e : DeskError) {cut : World → Prop} :
    (if passing then failing .transientFailure e else return .error e :
      Timed (Except DeskError α)).Ensures w
      (fun answer w' => answer = .error e ∧ w.counters.Falters w'.counters) cut := by
  split
  · refine Ensures.bind (ensures_act (Q := fun _ w' => w.counters.Falters w'.counters) ?_)
      fun _ _ falters => ensures_pure ⟨rfl, falters⟩
    exact ⟨w.counters.transientFailures + 1, rfl⟩
  · exact ensures_pure ⟨rfl, Counters.falters_refl w.counters⟩

/-- The operation counts this when it succeeds; otherwise it counts at most a failure that may
pass. -/
def Counts (x : Timed (Except DeskError α)) (success : Counters → Counters) : Prop :=
  ∀ w, x.Yields w (fun _ w' => w'.counters = success w.counters)
    fun w' => w.counters.Falters w'.counters

/-- An operation may be refused after calls that count nothing. -/
theorem yields_refusal {done : α → World → Prop} (same : w'.counters = w.counters)
    (passing : Bool) (e : DeskError) :
    (if passing then failing .transientFailure e else return .error e :
      Timed (Except DeskError α)).Yields w' done fun w'' => w.counters.Falters w''.counters := by
  refine (ensures_refusal_counters passing e).mono (fun answer w'' h => ?_) fun _ h => h
  obtain ⟨rfl, falters⟩ := h
  exact same ▸ falters

theorem yields_failing {done : α → World → Prop} (same : w'.counters = w.counters)
    (e : DeskError) : (failing .transientFailure e : Timed (Except DeskError α)).Yields w' done
      fun w'' => w.counters.Falters w''.counters :=
  yields_refusal same true e

/-! ### Making offers and paying in -/

theorem counts_priced (d : Desk) (r : OfferRequest) (kind : SettlementKind) :
    Counts (d.priced r kind) id := by
  intro w
  refine ((Market.uncounted_quote _ _ _).within _).yields fun answer w' same => ?_
  rcases answer with _ | e | quote
  · exact yields_failing same _
  · exact yields_refusal same _ _
  · dsimp only
    split
    · exact ensures_pure same
    · exact yields_failing same _

theorem uncounted_drawn (d : Desk) (r : OfferRequest) (quote : Quote) (lifetime : Nat) :
    (d.drawn r quote lifetime).Uncounted :=
  uncounted_freshUuid.bind fun _ => uncounted_freshNonce.bind fun _ => uncounted_read _

theorem counts_stored (d : Desk) (offer : Offer) (lifetime : Nat) :
    Counts (d.stored offer lifetime) id := by
  intro w
  refine ((OfferCache.uncounted_callPut _ _ _).within _).yields fun answer w' same => ?_
  rcases answer with _ | e | ⟨⟩
  · exact yields_failing same _
  · exact yields_failing same _
  · exact ensures_pure same

theorem counts_createOffer (d : Desk) (r : OfferRequest) :
    Counts (d.createOffer r) (·.add .offerCreated) := by
  intro w
  unfold createOffer
  split
  · exact ensures_pure (Counters.falters_refl _)
  · refine Ensures.bind (d.counts_priced r _ w) fun answer w₁ priced => ?_
    cases answer with
    | error e => exact ensures_pure priced
    | ok quote =>
      have same₁ : w₁.counters = w.counters := priced
      rw [← same₁]
      refine (d.uncounted_drawn r quote _).yields fun found w₂ same₂ => ?_
      rcases found with _ | ⟨offer, token⟩
      · exact ensures_crash (Counters.falters_of_eq same₂)
      · rw [← same₂]
        refine Ensures.bind (d.counts_stored offer _ w₂) fun answer w₃ stored => ?_
        cases answer with
        | error e => exact ensures_pure stored
        | ok _ =>
          have same₃ : w₃.counters = w₂.counters := stored
          refine Ensures.bind (ensures_act (Q := fun _ w' =>
            w'.counters = w₂.counters.add .offerCreated) ?_) fun _ _ counted =>
            ensures_pure counted
          exact congrArg (·.add .offerCreated) same₃

theorem counts_deposit (d : Desk) (client : ClientId) (currency : Currency) (amount : Decimal) :
    Counts (d.deposit client currency amount) (·.add .deposit) := by
  intro w
  unfold deposit
  split
  · exact ensures_pure (Counters.falters_refl _)
  · dsimp only
    split
    · exact ensures_pure (Counters.falters_refl _)
    · refine uncounted_freshUuid.yields fun uuid w₁ same₁ => ?_
      rw [← same₁]
      refine (uncounted_read _).yields fun now w₂ same₂ => ?_
      rw [← same₂]
      refine (Posting.uncounted_post _ _).yields fun answer w₃ same₃ => ?_
      cases answer with
      | ok posted =>
        refine Ensures.bind (ensures_act (Q := fun _ w' =>
          w'.counters = w₂.counters.add .deposit) ?_) fun _ _ counted => ensures_pure counted
        exact congrArg (·.add .deposit) same₃
      | error e => exact yields_refusal same₃ _ _

/-- A settlement is counted, whether it succeeds or not. -/
theorem ensures_settle_counters (d : Desk) (client : ClientId) (offer : Offer)
    (kind : SettlementKind) :
    (d.settle client offer kind).Ensures w
      (fun answer w' =>
        (∃ receipt, answer = .ok receipt) ∧ w'.counters = w.counters.add .offerRedeemed ∨
          (∃ e, answer = .error e) ∧ (w.counters.add .settlementFailed).Falters w'.counters)
      fun w' => w'.counters = w.counters := by
  refine uncounted_freshUuid.first (fun uuid w₁ same₁ => ?_) fun _ same => same
  rw [← same₁]
  refine (uncounted_read _).first (fun now w₂ same₂ => ?_) fun _ same => same
  rw [← same₂]
  refine (Posting.uncounted_post _ _).first (fun answer w₃ same₃ => ?_) fun _ same => same
  rw [← same₃]
  cases answer with
  | ok posted =>
    refine Ensures.bind (ensures_act (Q := fun _ w' =>
      w'.counters = w₃.counters.add .offerRedeemed) rfl) fun _ _ counted => ?_
    exact ensures_pure (.inl ⟨⟨_, rfl⟩, counted⟩)
  | error e =>
    refine Ensures.bind (ensures_act (Q := fun _ w' =>
      w'.counters = w₃.counters.add .settlementFailed) rfl) fun _ w₄ counted => ?_
    rw [← counted]
    exact (ensures_refusal_counters _ _).mono (fun _ _ h => .inr ⟨⟨_, h.1⟩, h.2⟩) fun _ h => h

end Desk

end Bureau
