import Bureau.Desk.Offers
import Bureau.Desk.Settlement
import Bureau.Proofs.Cipher.Gcm
import Bureau.Proofs.Desk.Calls
import Bureau.Proofs.Offer.Cache
import Bureau.Proofs.Offer.Sound

/-!
# Offers come and go

Making an offer puts one entry into the cache, under the key of a fresh identifier
(`Desk.ensures_createOffer`); taking an offer removes the entry before anything else is done with
it (`Desk.ensures_taken`). Neither touches the ledger, and when they fail no entry is new.
-/

namespace Bureau

open Timed World

namespace OfferCache

variable {w : World}

theorem ensures_callPut (offer : Offer) (lifetime : Nat) :
    (callPut offer.id.cacheKey offer lifetime).Ensures w
      (fun r w' => w.Aside w' ∧
        (r = .ok () ∧ Gains w'.clock w.cache.entries w'.cache.entries offer lifetime ∨
          (∃ e, r = .error e) ∧ Sweeps w'.clock w.cache.entries w'.cache.entries))
      w.Still := by
  refine Ensures.bind (still_suffer (Still.refl w) w.still_popPut) fun error w' hw' => ?_
  cases error with
  | some e =>
    exact ensures_pure ⟨hw'.toAside, .inr ⟨⟨e, rfl⟩, hw'.cache ▸ sweeps_refl _ _⟩⟩
  | none =>
    refine Ensures.bind (ensures_read (Q := fun _ => w.Still) hw') fun latency w' hw' => ?_
    refine Ensures.bind (still_wait hw' latency) fun _ w' hw' => ?_
    refine ensures_act ⟨hw'.toAside.trans (w'.aside_cache _), ?_⟩
    rw [← hw'.cache]
    exact w'.cache.put_cases w'.clock offer lifetime

theorem ensures_callTake (key : String) :
    (callTake key).Ensures w
      (fun r w' => w.Aside w' ∧
        ((∃ e, r = .error e) ∧ w'.cache = w.cache ∨
          r = .ok (((w.cache.lookup key).filter (·.isLive w'.clock)).map (·.offer)) ∧
            w'.cache = w.cache.erase key))
      w.Still := by
  refine Ensures.bind (still_suffer (Still.refl w) w.still_popTake) fun error w' hw' => ?_
  cases error with
  | some e => exact ensures_pure ⟨hw'.toAside, .inl ⟨⟨e, rfl⟩, hw'.cache⟩⟩
  | none =>
    refine Ensures.bind (ensures_read (Q := fun _ => w.Still) hw') fun latency w' hw' => ?_
    refine Ensures.bind (still_wait hw' latency) fun _ w' hw' => ?_
    refine ensures_act ⟨hw'.toAside.trans (w'.aside_cache _), ?_⟩
    rw [← hw'.cache]
    exact w'.cache.take_cases w'.clock key

end OfferCache

/-! ### Making an offer -/

/-- The identifier that the next offer gets. -/
def World.nextOfferId (w : World) : OfferId := ⟨Uuid.ofRandom (w.random w.drawn)⟩

/-- The offer that a ticket was given for. -/
def OfferTicket.offer (t : OfferTicket) (r : OfferRequest) (id : OfferId) (createdAt : Instant) :
    Offer where
  id
  client := r.client
  source := t.debit.currency
  destination := t.credit.currency
  rate := t.rate
  debitAmount := t.debit.value
  creditAmount := t.credit.value
  isPurchase := r.isPurchase
  isSale := r.isSale
  createdAt
  expiresAt := t.expiresAt

/-- A positive quote that prices a valid request makes a sound offer. -/
theorem OfferRequest.Valid.sound {r : OfferRequest} {kind : SettlementKind} {q : Quote}
    {t : OfferTicket} (valid : r.Valid kind)
    (prices : Market.Prices ⟨r.source, r.destination⟩ r.amount q)
    (positive : q.amount.isPositive = true) (debit : t.debit = q.debit)
    (credit : t.credit = q.credit) (id : OfferId) (createdAt : Instant) :
    (t.offer r id createdAt).Sound := by
  have paid : t.debit = ⟨r.amount, r.source⟩ := by
    rw [debit, Quote.debit, prices.pair, prices.source]
  have source : t.debit.currency = r.source := congrArg Money.currency paid
  have amount : t.debit.value = r.amount := congrArg Money.value paid
  have destination : t.credit.currency = r.destination := by
    rw [credit, Quote.credit, prices.pair]
  have bought : t.credit.value = q.amount := congrArg Money.value credit
  obtain ⟨-, given, -⟩ := Money.validateDebit_eq_ok_iff.1 valid.debit
  exact {
    source := by
      rw [OfferTicket.offer, source]
      exact valid.source
    destination := by
      rw [OfferTicket.offer, destination]
      exact valid.destination
    differ := by
      rw [OfferTicket.offer, source, destination]
      exact valid.differ
    kind := by
      refine ⟨kind, valid.flags, ?_⟩
      rw [OfferTicket.offer, source, destination]
      exact valid.shape
    debit := (paid ▸ Money.isExact_of_validateDebit valid.debit : t.debit.IsExact)
    credit := (credit ▸ prices.exact : t.credit.IsExact)
    debited := by
      rw [OfferTicket.offer, amount]
      exact ⟨(Decimal.isPositive_iff_value _).2 given, Money.inRange_of_validateDebit valid.debit⟩
    credited := by
      rw [OfferTicket.offer, bought]
      exact ⟨positive, prices.inRange⟩ }

namespace Desk

variable {w w₀ : World} {α : Type}

/-- How long an offer for a request lives, in milliseconds. -/
def lifetimeOf (d : Desk) (r : OfferRequest) : Nat :=
  match r.validate with
  | .ok kind => d.lifetime kind
  | .error _ => 0

/-- The client gets a ticket, and the offer that it is for has come into the cache. -/
structure Makes (d : Desk) (r : OfferRequest) (w : World) (t : OfferTicket) (w' : World) :
    Prop where
  valid : ∃ kind, r.validate = .ok kind
  token : ∃ nonce : Bytes, nonce.length = Gcm.nonceLength ∧
    t.token = d.codec.sealAs .offer nonce w.nextOfferId.toBytes
  gains : OfferCache.Gains w'.clock w.cache.entries w'.cache.entries
    (t.offer r w.nextOfferId w.now) (ms (d.lifetimeOf r))
  debit : Market.NoAnswers w → t.debit = ⟨r.amount, r.source⟩
  credit : Market.NoAnswers w → t.credit.currency = r.destination
  sound : Market.NoAnswers w → (t.offer r w.nextOfferId w.now).Sound

theorem ensures_failing (h : w₀.Still w) (event : Countable) (e : DeskError)
    {cut : World → Prop} :
    (failing event e : Timed (Except DeskError α)).Ensures w
      (fun r w' => r = .error e ∧ w₀.Still w' ∧ w'.clock = w.clock) cut :=
  Ensures.bind (ensures_count (Q := fun _ w' => w₀.Still w' ∧ w'.clock = w.clock)
    fun counters => ⟨h.trans (w.still_counters counters), rfl⟩) fun _ _ h => ensures_pure ⟨rfl, h⟩

theorem ensures_priced (d : Desk) (r : OfferRequest) (kind : SettlementKind) :
    (d.priced r kind).Ensures w
      (fun answer w' => w.Still w' ∧ ∀ q, answer = .ok q → q.amount.isPositive = true ∧
        (Market.NoAnswers w → Market.Prices ⟨r.source, r.destination⟩ r.amount q))
      w.Still := by
  have failed {w' : World} (h : w.Still w') (event : Countable) (e : DeskError) :
      (failing event e).Ensures w' (fun answer w' => w.Still w' ∧ ∀ q, answer = .ok q →
        q.amount.isPositive = true ∧ (Market.NoAnswers w →
          Market.Prices ⟨r.source, r.destination⟩ r.amount q)) w.Still := by
    refine (ensures_failing h event e).mono (fun answer w' hw' => ⟨hw'.2.1, ?_⟩) fun _ h => h
    rintro q hq
    rw [hw'.1] at hq
    cases hq
  refine Ensures.bind (Ensures.within (Q := fun answer w' => w.Still w' ∧
    (Market.NoAnswers w → ∀ q, answer = some (.ok q) →
      Market.Prices ⟨r.source, r.destination⟩ r.amount q))
    ((Market.ensures_quote _).mono (fun answer w' h => ⟨h.1, fun none_ q hq => ?_⟩)
      fun w' h => ⟨⟨h, fun _ q hq => by cases hq⟩, h⟩)) fun answer w' hw' => ?_
  · exact h.2 none_ q (Option.some.inj hq)
  · obtain ⟨hw', prices⟩ := hw'
    rcases answer with _ | e | q
    · exact failed hw' _ _
    · dsimp only
      split
      · exact failed hw' _ _
      · exact ensures_pure ⟨hw', fun q hq => by cases hq⟩
    · dsimp only
      split
      · rename_i positive
        refine ensures_pure ⟨hw', fun q' hq' => ?_⟩
        cases hq'
        exact ⟨positive, fun none_ => prices none_ q rfl⟩
      · exact failed hw' _ _

theorem ensures_drawn (d : Desk) (r : OfferRequest) (q : Quote) (lifetime : Nat)
    {cut : World → Prop} :
    (d.drawn r q lifetime).Ensures w
      (fun found w' => w.Like w' ∧ ∀ offer token, found = some (offer, token) →
        Offer.ofQuote? w.nextOfferId w.now r.client q r.isPurchase r.isSale lifetime =
            some offer ∧
          ∃ nonce : Bytes, nonce.length = Gcm.nonceLength ∧
            token = d.codec.sealAs .offer nonce w.nextOfferId.toBytes)
      cut := by
  refine Ensures.bind (ensures_freshUuid (Q := fun id w' =>
    id = w.nextOfferId.uuid ∧ w.Like w') ⟨rfl, w.like_drawn _⟩) fun id w' hw' => ?_
  obtain ⟨rfl, hw'⟩ := hw'
  refine Ensures.bind (ensures_freshNonce (Q := fun nonce w'' =>
    nonce.length = Gcm.nonceLength ∧ w.Like w'') fun n =>
    ⟨Bytes.length_ofNat _ n, hw'.trans (w'.like_drawn _)⟩) fun nonce w'' hw'' => ?_
  obtain ⟨length, hw''⟩ := hw''
  refine ensures_read ⟨hw'', fun offer token h => ?_⟩
  rw [Option.map_eq_some_iff] at h
  obtain ⟨made, hmade, same⟩ := h
  cases same
  rw [hw''.now] at hmade
  exact ⟨hmade, nonce, length, rfl⟩

theorem ensures_stored (d : Desk) (offer : Offer) (lifetime : Nat) :
    (d.stored offer lifetime).Ensures w
      (fun answer w' => w.Aside w' ∧
        (answer = .ok () ∧
            OfferCache.Gains w'.clock w.cache.entries w'.cache.entries offer (ms lifetime) ∨
          (∃ e, answer = .error e) ∧
            OfferCache.Sweeps w'.clock w.cache.entries w'.cache.entries))
      w.Still := by
  have failed {w' : World} {entries : List (String × CacheEntry)} (aside : w.Aside w')
      (h : OfferCache.Sweeps w'.clock entries w'.cache.entries) (event : Countable)
      (e : DeskError) : (failing event e : Timed (Except DeskError Unit)).Ensures w'
      (fun answer w' => w.Aside w' ∧
        (answer = .ok () ∧
            OfferCache.Gains w'.clock entries w'.cache.entries offer (ms lifetime) ∨
          (∃ e, answer = .error e) ∧ OfferCache.Sweeps w'.clock entries w'.cache.entries))
      w.Still := by
    refine (ensures_failing (Still.refl w') event e).mono (fun answer w'' hw'' => ?_) fun _ h => h
    obtain ⟨rfl, still, clock⟩ := hw''
    exact ⟨aside.trans still.toAside, .inr ⟨⟨e, rfl⟩, by rw [still.cache, clock]; exact h⟩⟩
  refine Ensures.bind (Ensures.within (Q := fun answer w' => w.Aside w' ∧
    (answer = some (.ok ()) ∧
        OfferCache.Gains w'.clock w.cache.entries w'.cache.entries offer (ms lifetime) ∨
      answer ≠ some (.ok ()) ∧ OfferCache.Sweeps w'.clock w.cache.entries w'.cache.entries))
    ((OfferCache.ensures_callPut offer _).mono (fun answer w' h => ⟨h.1, ?_⟩)
      fun w' h => ⟨⟨h.toAside, .inr ⟨by simp, h.cache ▸ OfferCache.sweeps_refl _ _⟩⟩, h⟩))
    fun answer w' hw' => ?_
  · rcases h.2 with ⟨rfl, gains⟩ | ⟨⟨e, rfl⟩, sweeps⟩
    · exact .inl ⟨rfl, gains⟩
    · exact .inr ⟨by simp, sweeps⟩
  · obtain ⟨aside, ⟨rfl, gains⟩ | ⟨notOk, sweeps⟩⟩ := hw'
    · exact ensures_pure ⟨aside, .inl ⟨rfl, gains⟩⟩
    · rcases answer with _ | e | _
      · exact failed aside sweeps _ _
      · exact failed aside sweeps _ _
      · exact absurd rfl notOk

/-- The offer that has been drawn up for a request is the one that the ticket is given for. -/
theorem makes_of_drawn {d : Desk} {r : OfferRequest} {kind : SettlementKind} {q : Quote}
    {offer : Offer} {token : String} {w' : World} (valid : r.validate = .ok kind)
    (prices : q.amount.isPositive = true ∧ (Market.NoAnswers w →
      Market.Prices ⟨r.source, r.destination⟩ r.amount q))
    (made : Offer.ofQuote? w.nextOfferId w.now r.client q r.isPurchase r.isSale
      (d.lifetime kind) = some offer)
    (sealed : ∃ nonce : Bytes, nonce.length = Gcm.nonceLength ∧
      token = d.codec.sealAs .offer nonce w.nextOfferId.toBytes)
    (gains : OfferCache.Gains w'.clock w.cache.entries w'.cache.entries offer
      (ms (d.lifetime kind))) :
    d.Makes r w ⟨token, offer.expiresAt, offer.rate, offer.debit, offer.credit⟩ w' := by
  unfold Offer.ofQuote? at made
  rw [Option.map_eq_some_iff] at made
  obtain ⟨expiresAt, -, rfl⟩ := made
  have lifetime : d.lifetimeOf r = d.lifetime kind := by rw [lifetimeOf, valid]
  exact {
    valid := ⟨kind, valid⟩
    token := sealed
    gains := lifetime ▸ gains
    debit := fun none_ => by
      rw [Offer.debit, (prices.2 none_).pair, (prices.2 none_).source]
    credit := fun none_ => by rw [Offer.credit, (prices.2 none_).pair]
    sound := fun none_ => (OfferRequest.valid_of_validate valid).sound (prices.2 none_) prices.1
      rfl rfl _ _ }

/-- A new offer is in the cache exactly when the client gets a ticket for it. -/
theorem ensures_createOffer (d : Desk) (r : OfferRequest) :
    (d.createOffer r).Ensures w
      (fun answer w' => w.Aside w' ∧
        ((∃ t, answer = .ok t ∧ d.Makes r w t w') ∨
          (∃ e, answer = .error e) ∧
            OfferCache.Sweeps w'.clock w.cache.entries w'.cache.entries))
      (fun w' => w.Aside w' ∧ OfferCache.Sweeps w'.clock w.cache.entries w'.cache.entries) := by
  have like {w' : World} (h : w.Like w') :
      w.Aside w' ∧ OfferCache.Sweeps w'.clock w.cache.entries w'.cache.entries :=
    ⟨h.toAside, h.cache ▸ OfferCache.sweeps_refl _ _⟩
  unfold createOffer
  split
  · rename_i e _
    have here := like (Still.refl w).toLike
    exact ensures_pure ⟨here.1, .inr ⟨⟨e, rfl⟩, here.2⟩⟩
  · rename_i kind valid
    refine Ensures.bind ((ensures_priced d r kind).mono (fun _ _ h => h) fun w' h =>
      like h.toLike) fun quoted w₁ h₁ => ?_
    obtain ⟨h₁, prices⟩ := h₁
    rcases quoted with e | q
    · exact ensures_pure ⟨(like h₁.toLike).1, .inr ⟨⟨e, rfl⟩, (like h₁.toLike).2⟩⟩
    · refine Ensures.bind (ensures_drawn d r q _) fun found w₂ h₂ => ?_
      obtain ⟨h₂, drawn⟩ := h₂
      have h₂ : w.Like w₂ := h₁.toLike.trans h₂
      rcases found with _ | ⟨offer, token⟩
      · exact ensures_crash (like (h₂.trans (w₂.still_crash _).toLike))
      · obtain ⟨made, sealed⟩ := drawn offer token rfl
        have sameId : w₁.nextOfferId = w.nextOfferId := by
          rw [nextOfferId, h₁.random, h₁.drawn, nextOfferId]
        rw [sameId, h₁.now] at made
        rw [sameId] at sealed
        refine Ensures.bind ((ensures_stored d offer _).mono (fun _ _ h => h) fun w' h =>
          like (h₂.trans h.toLike)) fun stored w₃ h₃ => ?_
        obtain ⟨aside, h₃⟩ := h₃
        rw [h₂.cache] at h₃
        have aside : w.Aside w₃ := h₂.toAside.trans aside
        rcases h₃ with ⟨rfl, gains⟩ | ⟨⟨e, rfl⟩, sweeps⟩
        · have makes : d.Makes r w
              ⟨token, offer.expiresAt, offer.rate, offer.debit, offer.credit⟩ w₃ :=
            makes_of_drawn valid (prices q rfl) made sealed gains
          refine Ensures.bind (ensures_count (Q := fun _ w' => w.Aside w' ∧ d.Makes r w
            ⟨token, offer.expiresAt, offer.rate, offer.debit, offer.credit⟩ w') fun counters =>
            ⟨aside.trans (w₃.still_counters counters).toAside, { makes with }⟩) fun _ w₄ h₄ => ?_
          exact ensures_pure ⟨h₄.1, .inl ⟨_, rfl, h₄.2⟩⟩
        · exact ensures_pure ⟨aside, .inr ⟨⟨e, rfl⟩, sweeps⟩⟩

/-! ### Taking an offer -/

/-- Why a redemption does not get hold of an offer: it is not there, or the cache has not
answered. -/
def IsMiss (e : DeskError) : Prop :=
  e = .notFoundOrExpired ∨ e = .timedOut "offer cache" ∨ ∃ m, e = .ofMarket m

/-- What becomes of a cache that is asked for an offer. -/
inductive Takes (id : OfferId) (now : Nat) (c : OfferCache) :
    Except DeskError Offer → OfferCache → Prop
  | got {e : CacheEntry} (there : c.lookup id.cacheKey = some e) (live : e.isLive now = true) :
      Takes id now c (.ok e.offer) (c.erase id.cacheKey)
  | missed (dead : ∀ e, c.lookup id.cacheKey = some e → e.isLive now = false) :
      Takes id now c (.error .notFoundOrExpired) (c.erase id.cacheKey)
  /-- The cache has not answered. -/
  | failed {e : DeskError} (reason : e = .timedOut "offer cache" ∨ ∃ m, e = .ofMarket m) :
      Takes id now c (.error e) c

namespace Takes

variable {id : OfferId} {now : Nat} {c c' : OfferCache} {answer : Except DeskError Offer}

theorem sublist (h : Takes id now c answer c') : c'.entries.Sublist c.entries := by
  cases h with
  | got | missed => exact c.sublist_erase _
  | failed => exact List.Sublist.refl _

theorem exists_of_ok {offer : Offer} (h : Takes id now c (.ok offer) c') :
    ∃ expiresAt, c.lookup id.cacheKey = some ⟨offer, expiresAt⟩ ∧ now < expiresAt ∧
      c' = c.erase id.cacheKey := by
  cases h with
  | @got e there live => exact ⟨e.expiresAt, there, of_decide_eq_true live, rfl⟩

/-- No live offer is lost without being handed out. -/
theorem sweeps_of_error {e : DeskError} (h : Takes id now c (.error e) c')
    (keyed : OfferCache.Keyed c.entries) : OfferCache.Sweeps now c.entries c'.entries := by
  cases h with
  | missed dead => exact keyed.sweeps_erase dead
  | failed => exact OfferCache.sweeps_refl _ _

theorem isMiss {e : DeskError} (h : Takes id now c (.error e) c') : IsMiss e := by
  cases h with
  | missed => exact .inl rfl
  | failed reason => exact .inr reason

/-- A cache that does not answer says something else than that the offer is not there. -/
theorem ne_notFoundOrExpired {e : DeskError}
    (reason : e = .timedOut "offer cache" ∨ ∃ m, e = .ofMarket m) : e ≠ .notFoundOrExpired := by
  rcases reason with rfl | ⟨m, rfl⟩
  · simp [DeskError.timedOut]
  · cases m <;> simp [DeskError.ofMarket, DeskError.invalid]

/-- A cache that answers has erased the offer, whether it was there or not. -/
theorem erased (h : Takes id now c answer c')
    (answered : ∀ e, answer = .error e → e = .notFoundOrExpired) :
    c' = c.erase id.cacheKey := by
  cases h with
  | got | missed => rfl
  | failed reason => exact absurd (answered _ rfl) (ne_notFoundOrExpired reason)

theorem kept {e : DeskError} (h : Takes id now c (.error e) c') (other : e ≠ .notFoundOrExpired) :
    c' = c := by
  cases h with
  | missed => exact absurd rfl other
  | failed => rfl

end Takes

theorem ensures_taken (d : Desk) (id : OfferId) :
    (d.taken id).Ensures w
      (fun answer w' => w.Aside w' ∧ Takes id w'.clock w.cache answer w'.cache) w.Still := by
  have failed {w' : World} {e : DeskError} (aside : w.Aside w')
      (takes : Takes id w'.clock w.cache (.error e) w'.cache) (event : Countable) :
      (failing event e : Timed (Except DeskError Offer)).Ensures w'
        (fun answer w' => w.Aside w' ∧ Takes id w'.clock w.cache answer w'.cache) w.Still := by
    refine (ensures_failing (Still.refl w') event e).mono (fun answer w'' hw'' => ?_) fun _ h => h
    obtain ⟨rfl, still, clock⟩ := hw''
    exact ⟨aside.trans still.toAside, by rw [still.cache, clock]; exact takes⟩
  refine Ensures.bind (Ensures.within (Q := fun answer w' => w.Aside w' ∧
    ((∀ found, answer ≠ some (.ok found)) ∧ w'.cache = w.cache ∨
      answer = some (.ok (((w.cache.lookup id.cacheKey).filter (·.isLive w'.clock)).map
        (·.offer))) ∧ w'.cache = w.cache.erase id.cacheKey))
    ((OfferCache.ensures_callTake _).mono (fun answer w' h => ⟨h.1, ?_⟩)
      fun w' h => ⟨⟨h.toAside, .inl ⟨by simp, h.cache⟩⟩, h⟩)) fun answer w' hw' => ?_
  · rcases h.2 with ⟨⟨e, rfl⟩, same⟩ | ⟨rfl, erased⟩
    · exact .inl ⟨by simp, same⟩
    · exact .inr ⟨rfl, erased⟩
  · obtain ⟨aside, ⟨notThere, same⟩ | ⟨rfl, erased⟩⟩ := hw'
    · rcases answer with _ | e | found
      · exact failed aside (same ▸ .failed (.inl rfl)) _
      · exact failed aside (same ▸ .failed (.inr ⟨e, rfl⟩)) _
      · exact absurd rfl (notThere found)
    · cases entry : (w.cache.lookup id.cacheKey).filter (·.isLive w'.clock) with
      | none =>
        refine failed aside (erased ▸ .missed fun e there => ?_) _
        simpa [there] using entry
      | some e =>
        obtain ⟨there, live⟩ := Option.filter_eq_some_iff.1 entry
        exact ensures_pure ⟨aside, erased ▸ .got there live⟩

end Desk

end Bureau
