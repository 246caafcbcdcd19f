import Bureau.Proofs.Desk.Archive
import Bureau.Proofs.Desk.Counted

/-!
# The counters tell the books

`Tally` is a desk that has been set up with no offer and no row, together with what its counters do
not show: how many redemptions were asked for, how many of them the cache did not answer, and how
many offers were lost because their time had passed. Any number of redemptions may be between their
two steps while other errands are served and incidents come in between. What is counted then tells
how many rows the journal has, how every redemption has ended and what has become of every offer
(`Tally.reconciles`).
-/

namespace Bureau

open Timed World

/-! ### Errands -/

/-- What an errand other than a redemption counts, which rows it adds to the journal, and what it
does to the cache, with the offers that it makes. -/
inductive World.Reckoned (w w' : World) : List OfferId → Prop
  | quiet (counted : w.counters.Falters w'.counters)
      (journal : w'.ledger.journal = w.ledger.journal)
      (sweeps : OfferCache.Sweeps w'.clock w.cache.entries w'.cache.entries) : Reckoned w w' []
  | paidIn (counted : w'.counters = w.counters.add .deposit)
      (journal : w'.ledger.journal.length = w.ledger.journal.length + 2)
      (cache : w'.cache = w.cache) : Reckoned w w' []
  | made {offer : Offer} {lifetime : Nat} (counted : w'.counters = w.counters.add .offerCreated)
      (journal : w'.ledger.journal = w.ledger.journal)
      (gains : OfferCache.Gains w'.clock w.cache.entries w'.cache.entries offer lifetime) :
      Reckoned w w' [offer.id]

/-- The identifiers of the offers that an event makes. -/
def Event.madeIds (d : Desk) (w : World) (event : Event) : List OfferId :=
  (event.made d w).map (·.id)

namespace Desk

variable {d : Desk} {w w' : World} {deadline : Option Nat}

theorem reckoned_deposit (sound : w.Sound) (client : ClientId) (currency : Currency)
    (amount : Decimal) : w.Reckoned (d.deposit client currency amount deadline w).2 [] := by
  have ensured := ensures_deposit (d := d) sound.ledger client currency amount deadline
  have counted := d.counts_deposit client currency amount w deadline
  rcases result : d.deposit client currency amount deadline w with ⟨_ | e | receipt, w'⟩ <;>
    rw [result] at ensured counted
  · obtain ⟨beside, same⟩ := ensured
    exact .quiet counted same.journal (beside.cache ▸ OfferCache.sweeps_refl _ _)
  · obtain ⟨beside, ⟨_, ⟨⟩, -⟩ | ⟨-, same⟩⟩ := ensured
    exact .quiet counted same.journal (beside.cache ▸ OfferCache.sweeps_refl _ _)
  · obtain ⟨beside, ⟨txId, -, -, -, posted⟩ | ⟨⟨_, ⟨⟩⟩, -⟩⟩ := ensured
    refine .paidIn counted ?_ beside.cache
    rw [posted.journal, List.length_append]
    rfl

theorem reckoned_createOffer (request : OfferRequest) :
    w.Reckoned (d.createOffer request deadline w).2
      ((Event.errand deadline (.createOffer request)).madeIds d w) := by
  have ensured := d.ensures_createOffer request (w := w) deadline
  have counted := d.counts_createOffer request w deadline
  simp only [Event.madeIds, Event.made]
  rcases result : d.createOffer request deadline w with ⟨_ | e | ticket, w'⟩ <;>
    rw [result] at ensured counted
  · obtain ⟨aside, sweeps⟩ := ensured
    exact .quiet counted (congrArg Ledger.journal aside.ledger) sweeps
  · obtain ⟨aside, ⟨_, ⟨⟩, -⟩ | ⟨-, sweeps⟩⟩ := ensured
    exact .quiet counted (congrArg Ledger.journal aside.ledger) sweeps
  · obtain ⟨aside, ⟨_, -, makes⟩ | ⟨⟨_, ⟨⟩⟩, -⟩⟩ := ensured
    exact .made counted (congrArg Ledger.journal aside.ledger) makes.gains

/-- Only offers and money paid in are counted. -/
theorem counters_attempt (errand : Errand) (notMaking : ∀ request, errand ≠ .createOffer request)
    (notPayingIn : ∀ client currency amount, errand ≠ .deposit client currency amount)
    (notRedeeming : ∀ client token, errand ≠ .redeem client token) :
    (d.attempt errand deadline w).2.counters = w.counters := by
  have looked {α : Type} {x : Timed (Except DeskError α)} (h : x.Uncounted) :
      (x.outcome deadline w).2.counters = w.counters := by
    rw [snd_outcome]
    exact (h w).world deadline
  have query {α : Type} (name : LedgerCall) (f : Ledger → α) :
      (Ledger.query name f).Uncounted := Ledger.uncounted_call name _
  cases errand with
  | createOffer request => exact absurd rfl (notMaking request)
  | deposit client currency amount => exact absurd rfl (notPayingIn client currency amount)
  | redeem client token => exact absurd rfl (notRedeeming client token)
  | openAccount client currency =>
    refine looked ?_
    unfold openAccount
    split
    · exact uncounted_pure _
    · exact closed_ledgerRead closed_uncounted d (Ledger.uncounted_call _ _)
  | balance client currency =>
    exact looked (closed_balance closed_uncounted query d client currency)
  | transaction client txId =>
    exact looked (closed_transaction closed_uncounted query d client txId)
  | listAccounts client cursor asked =>
    exact looked (closed_listAccounts closed_uncounted query uncounted_freshNonce uncounted_crash d
      client cursor asked)
  | listJournal client currency journal asked =>
    exact looked (closed_listJournal closed_uncounted query uncounted_freshNonce uncounted_crash d
      client currency journal asked)
  | verify txId => exact looked (closed_verify closed_uncounted query txId)

theorem reckoned_attempt (sound : w.Sound) (errand : Errand)
    (notRedeeming : ∀ client token, errand ≠ .redeem client token) :
    w.Reckoned (d.attempt errand deadline w).2 ((Event.errand deadline errand).madeIds d w) := by
  have others (notMaking : ∀ request, errand ≠ .createOffer request)
      (notPayingIn : ∀ client currency amount, errand ≠ .deposit client currency amount)
      (noReceipts : (Event.errand deadline errand).receipts d w = []) :
      w.Reckoned (d.attempt errand deadline w).2 [] := by
    have beside := beside_attempt sound.ledger errand notMaking notRedeeming deadline (d := d)
    let day : Day := { world := w }
    have started : day.world.Sound := sound
    have grows := Day.grows_next (d := d) started (.errand deadline errand)
    rw [Day.next, Day.world_serve] at grows
    refine .quiet (Counters.falters_of_eq ?_) ?_ (beside.cache ▸ OfferCache.sweeps_refl _ _)
    · exact counters_attempt errand notMaking notPayingIn notRedeeming
    · rw [grows.journal, noReceipts, List.flatMap_nil, List.append_nil]
  cases errand with
  | redeem client token => exact absurd rfl (notRedeeming client token)
  | createOffer request =>
    rw [attempt, snd_outcome]
    exact reckoned_createOffer request
  | deposit client currency amount =>
    rw [attempt, snd_outcome]
    exact reckoned_deposit sound client currency amount
  | _ => exact others (by simp) (by simp) rfl

end Desk

theorem Incident.reckoned_change (w : World) (incident : Incident) :
    w.Reckoned (incident.change w) [] := by
  have journal : (incident.change w).ledger.journal = w.ledger.journal :=
    congrArg Ledger.journal (incident.ledger_change w)
  cases incident with
  | sweep =>
    exact .quiet (Counters.falters_refl _) journal (OfferCache.sweeps_evictExpired _ _)
  | _ => exact .quiet (Counters.falters_refl _) journal (OfferCache.sweeps_refl _ _)

/-! ### The two steps of a redemption -/

namespace Desk

variable {d : Desk} {w : World} {token : String} {deadline : Option Nat}

/-- The cache has answered in time, and without an error. -/
def hasAnswered : Option (Except MarketError (Option Offer)) → Bool
  | some (.ok _) => true
  | _ => false

/-- The cache is asked for the offer that a token names, and fails or does not answer in time. -/
def unanswered (d : Desk) (token : String) (w : World) : Bool :=
  match d.offerOf? token with
  | none => false
  | some id => !(d.cacheAnswer id none w).1.elim false hasAnswered

theorem taken_apply (d : Desk) (id : OfferId) : d.taken id deadline w =
    match d.cacheAnswer id deadline w with
    | (some none, w') => failing .transientFailure (.timedOut "offer cache") deadline w'
    | (some (some (.error e)), w') => failing .transientFailure (.ofMarket e) deadline w'
    | (some (some (.ok none)), w') => failing .offerMissed .notFoundOrExpired deadline w'
    | (some (some (.ok (some offer))), w') => (some (.ok offer), w')
    | (none, w') => (none, w') := by
  rw [taken, bind_apply, cacheAnswer]
  rcases within (ms d.settings.cacheDeadline) (OfferCache.callTake id.cacheKey) deadline w with
    ⟨_ | _ | _ | _ | offer, w'⟩ <;> rfl

/-- What a redemption that nobody gives up finds in the cache, and what it counts then. -/
inductive Fetches (d : Desk) (token : String) (w : World) : Except DeskError Offer → World → Prop
  | got {w' : World} {id : OfferId} {e : CacheEntry}
      (there : w.cache.lookup id.cacheKey = some e) (live : e.isLive w'.clock = true)
      (gone : w'.cache = w.cache.erase id.cacheKey) (counted : w'.counters = w.counters)
      (answered : d.unanswered token w = false) : Fetches d token w (.ok e.offer) w'
  | missed {w' : World} {e : DeskError}
      (sweeps : OfferCache.Sweeps w'.clock w.cache.entries w'.cache.entries)
      (counted : w'.counters = w.counters.add .offerMissed)
      (answered : d.unanswered token w = false) : Fetches d token w (.error e) w'
  | unanswered {w' : World} {e : DeskError} (same : w'.cache = w.cache)
      (counted : w'.counters = w.counters.add .transientFailure)
      (unanswered : d.unanswered token w = true) : Fetches d token w (.error e) w'

theorem fetches_taken (sound : w.Sound) {id : OfferId} (names : d.offerOf? token = some id) :
    ∃ answer w', d.taken id none w = (some answer, w') ∧ d.Fetches token w answer w' := by
  have ensured := ensures_taken (w := w) d id none
  have counted := (OfferCache.uncounted_callTake id.cacheKey).within (ms d.settings.cacheDeadline)
    w none
  obtain ⟨answer, w₁, called⟩ :=
    returns_within (ms d.settings.cacheDeadline) (OfferCache.callTake id.cacheKey) w
  have called : d.cacheAnswer id none w = (some answer, w₁) := called
  have told : d.unanswered token w = !hasAnswered answer := by
    rw [unanswered, names]
    simp only [called, Option.elim_some]
  rw [taken_apply, called] at ensured ⊢
  have same : w₁.counters = w.counters := by
    rw [← cacheAnswer, called] at counted
    exact counted
  rcases answer with _ | e | _ | offer
  · obtain ⟨-, takes⟩ := ensured
    refine ⟨_, _, rfl, .unanswered ?_ (congrArg (·.add .transientFailure) same) told⟩
    exact takes.kept (Takes.ne_notFoundOrExpired (.inl rfl))
  · obtain ⟨-, takes⟩ := ensured
    refine ⟨_, _, rfl, .unanswered ?_ (congrArg (·.add .transientFailure) same) told⟩
    exact takes.kept (Takes.ne_notFoundOrExpired (.inr ⟨e, rfl⟩))
  · obtain ⟨-, takes⟩ := ensured
    exact ⟨_, _, rfl, .missed (takes.sweeps_of_error sound.cache)
      (congrArg (·.add .offerMissed) same) told⟩
  · obtain ⟨-, takes⟩ := ensured
    obtain ⟨expiresAt, there, early, gone⟩ := takes.exists_of_ok
    exact ⟨_, _, rfl, .got there (decide_eq_true early) gone same told⟩

theorem fetches_reach (sound : w.Sound) (token : String) :
    ∃ answer w', d.reach token none w = (some answer, w') ∧ d.Fetches token w answer w' := by
  unfold reach
  cases names : d.offerOf? token with
  | none =>
    refine ⟨_, _, rfl, .missed (OfferCache.sweeps_refl _ _) rfl ?_⟩
    rw [unanswered, names]
  | some id => exact fetches_taken sound names

end Desk

/-- The offer is the client's own, and its time has passed by the time of day. -/
def Offer.hasLapsed (o : Offer) (client : ClientId) (now : Instant) : Bool :=
  o.client = client && o.isExpired now

theorem Offer.claim_cases (o : Offer) (client : ClientId) (now : Instant) :
    o.hasLapsed client now = true ∧ (∃ e, o.claim client now = .error (.offerMissed, e)) ∨
      o.hasLapsed client now = false ∧
        ((∃ e, o.claim client now = .error (.integrityFault, e)) ∨
          ∃ kind, o.claim client now = .ok kind) := by
  unfold claim hasLapsed
  by_cases own : o.client = client
  · rw [if_neg (not_not_intro own)]
    cases expired : o.isExpired now with
    | true => exact .inl ⟨by simp [own], _, rfl⟩
    | false =>
      refine .inr ⟨by simp, ?_⟩
      cases o.kind? with
      | none => exact .inl ⟨_, rfl⟩
      | some kind => exact .inr ⟨kind, rfl⟩
  · rw [if_pos own]
    exact .inr ⟨by simp [own], .inl ⟨_, rfl⟩⟩

/-- How a redemption that nobody gives up ends, once it has got hold of an offer. -/
inductive World.Concludes (client : ClientId) (offer : Offer) (w w' : World) : Prop
  | lapsed (lapsed : offer.hasLapsed client w.now = true)
      (counted : w'.counters = w.counters.add .offerMissed)
      (journal : w'.ledger.journal = w.ledger.journal)
  | refused (good : offer.hasLapsed client w.now = false)
      (counted : w'.counters = w.counters.add .integrityFault)
      (journal : w'.ledger.journal = w.ledger.journal)
  | settled (good : offer.hasLapsed client w.now = false)
      (counted : w'.counters = w.counters.add .offerRedeemed)
      (journal : w'.ledger.journal.length = w.ledger.journal.length + 2)
  | failed (good : offer.hasLapsed client w.now = false)
      (counted : (w.counters.add .settlementFailed).Falters w'.counters)
      (journal : w'.ledger.journal = w.ledger.journal)

namespace Desk

variable {d : Desk} {w : World} {client : ClientId} {offer : Offer} {deadline : Option Nat}

theorem concludes_settle (sound : w.Sound) (kind : SettlementKind)
    (good : offer.hasLapsed client w.now = false) :
    w.Concludes client offer (d.settle client offer kind none w).2 := by
  have ensured := ensures_settle (d := d) sound.ledger client offer kind none
  have counted := ensures_settle_counters (w := w) d client offer kind none
  obtain ⟨answer, w', result⟩ := d.returns_settle client offer kind w
  have result : d.settle client offer kind none w = (some answer, w') := result
  rw [result] at ensured counted ⊢
  obtain ⟨-, ⟨txId, kind', rfl, posted⟩ | ⟨⟨e, rfl⟩, same⟩⟩ := ensured
  · obtain ⟨-, counted⟩ | ⟨⟨_, ⟨⟩⟩, -⟩ := counted
    refine .settled good counted ?_
    rw [posted.journal, List.length_append]
    rfl
  · obtain ⟨⟨_, ⟨⟩⟩, -⟩ | ⟨-, counted⟩ := counted
    exact .failed good counted same.journal

theorem conclude_of_error {event : Countable} {e : DeskError}
    (claim : offer.claim client w.now = .error (event, e)) :
    d.conclude client offer deadline w =
      (some (.error e), { w with counters := w.counters.add event }) := by
  rw [conclude, bind_apply, Timed.read]
  dsimp only
  rw [claim]
  rfl

theorem conclude_of_ok {kind : SettlementKind} (claim : offer.claim client w.now = .ok kind) :
    d.conclude client offer deadline w = d.settle client offer kind deadline w := by
  rw [conclude, bind_apply, Timed.read]
  dsimp only
  rw [claim]

theorem concludes_conclude (sound : w.Sound) (client : ClientId) (offer : Offer) :
    w.Concludes client offer (d.conclude client offer none w).2 := by
  rcases offer.claim_cases client w.now with ⟨lapsed, e, claim⟩ | ⟨good, ⟨e, claim⟩ | ⟨kind, claim⟩⟩
  · rw [conclude_of_error claim]
    exact .lapsed lapsed rfl rfl
  · rw [conclude_of_error claim]
    exact .refused good rfl rfl
  · rw [conclude_of_ok claim]
    exact concludes_settle sound kind good

theorem sound_reach (sound : w.Sound) (token : String) (deadline : Option Nat) :
    (d.reach token deadline w).2.Sound ∧ (d.reach token deadline w).2.ledger = w.ledger := by
  have kept : (d.reach token).Ensures w
      (fun _ w' => w'.Sound ∧ w'.ledger = w.ledger) fun w' => w'.Sound ∧ w'.ledger = w.ledger := by
    refine (ensures_reach (w := w) token).mono (fun answer w' h => ?_) fun w' still =>
      ⟨⟨still.ledger ▸ sound.ledger, still.cache ▸ sound.cache⟩, still.ledger⟩
    obtain ⟨aside, ⟨id, -, takes⟩ | ⟨-, -, same⟩⟩ := h
    · exact ⟨⟨aside.ledger ▸ sound.ledger, sound.cache.sublist takes.sublist⟩, aside.ledger⟩
    · exact ⟨⟨aside.ledger ▸ sound.ledger, same ▸ sound.cache⟩, aside.ledger⟩
  exact kept.world deadline

theorem sound_conclude (sound : w.Sound) (client : ClientId) (offer : Offer)
    (deadline : Option Nat) :
    (d.conclude client offer deadline w).2.Sound ∧
      (d.conclude client offer deadline w).2.cache = w.cache := by
  have kept : (d.conclude client offer).Ensures w
      (fun _ w' => w'.Sound ∧ w'.cache = w.cache) fun w' => w'.Sound ∧ w'.cache = w.cache := by
    refine (ensures_conclude sound.ledger client offer).mono (fun answer w' h => ?_)
      fun w' h => ⟨⟨h.2.sound, h.1.cache ▸ sound.cache⟩, h.1.cache⟩
    obtain ⟨beside, ⟨txId, kind, -, posted⟩ | ⟨-, same⟩⟩ := h
    · exact ⟨⟨posted.sound, beside.cache ▸ sound.cache⟩, beside.cache⟩
    · exact ⟨⟨same.sound, beside.cache ▸ sound.cache⟩, beside.cache⟩
  exact kept.world deadline

end Desk

/-! ### The tally -/

/-- A desk, and what its counters do not show. -/
structure Tally where
  world : World
  /-- The redemptions that have got hold of an offer and are not over. -/
  holding : List (ClientId × Offer) := []
  /-- The identifiers of the offers that have been made. -/
  made : List OfferId := []
  /-- Redemptions that have been asked for. -/
  redemptions : Nat := 0
  /-- Redemptions whose call of the cache failed or was not answered in time. -/
  unanswered : Nat := 0
  /-- Offers that were dropped from the cache after their time had passed, or whose time had passed
  when the cache handed them out. -/
  lapsed : Nat := 0

namespace Tally

/-- The tally when the world has changed. -/
def pass (s : Tally) (w : World) : Tally :=
  { s with
    world := w
    lapsed := s.lapsed + OfferCache.lapsed w.clock s.world.cache.entries w.cache.entries }

/-- The tally after an errand other than a redemption. -/
def serve (d : Desk) (s : Tally) (deadline : Option Nat) (errand : Errand) : Tally :=
  { s.pass (d.attempt errand deadline s.world).2 with
    made := s.made ++ (Event.errand deadline errand).madeIds d s.world }

/-- The tally after the first step of a redemption. -/
def reach (d : Desk) (s : Tally) (client : ClientId) (token : String) : Tally :=
  let (answer, w) := d.reach token none s.world
  { s.pass w with
    redemptions := s.redemptions + 1
    unanswered := s.unanswered + (d.unanswered token s.world).toNat
    holding := match answer with
      | some (.ok offer) => s.holding ++ [(client, offer)]
      | _ => s.holding }

/-- The tally after the second step of a redemption. -/
def conclude (d : Desk) (s : Tally) (client : ClientId) (offer : Offer)
    (others : List (ClientId × Offer)) : Tally :=
  let passed := s.pass (d.conclude client offer none s.world).2
  { passed with
    lapsed := passed.lapsed + (offer.hasLapsed client s.world.now).toNat
    holding := others }

/-- Anything may come next. Clients may give up waiting, but not for a redemption. -/
inductive Step (d : Desk) (s : Tally) : Tally → Prop
  | errand (deadline : Option Nat) {errand : Errand}
      (notRedeeming : ∀ client token, errand ≠ .redeem client token) :
      Step d s (s.serve d deadline errand)
  | incident (incident : Incident) : Step d s (s.pass (incident.change s.world))
  | reach (client : ClientId) (token : String) : Step d s (s.reach d client token)
  | conclude {client : ClientId} {offer : Offer} {before after : List (ClientId × Offer)}
      (place : s.holding = before ++ (client, offer) :: after) :
      Step d s (s.conclude d client offer (before ++ after))

/-- The states that any order of steps can reach. -/
abbrev Reaches (d : Desk) : Tally → Tally → Prop := Relation.ReflTransGen (Step d)

/-- The counters agree with the journal, with the redemptions and with the cache. -/
structure Reconciled (s : Tally) : Prop where
  journal : s.world.ledger.journal.length =
    2 * (s.world.counters.deposits + s.world.counters.offersRedeemed)
  /-- Every redemption has ended in one of five ways, or it is not over. -/
  redemptions : s.redemptions =
    s.world.counters.offersRedeemed + s.world.counters.offersMissed +
      s.world.counters.integrityFaults + s.world.counters.settlementsFailed + s.unanswered +
      s.holding.length
  /-- Every offer is in the cache, has been handed out or has been lost. -/
  offers : s.world.counters.offersCreated =
    s.world.cache.entries.length + s.world.counters.offersRedeemed +
      s.world.counters.integrityFaults + s.world.counters.settlementsFailed + s.lapsed +
      s.holding.length

/-- What every state keeps. -/
structure Inv (s : Tally) : Prop extends Reconciled s where
  sound : s.world.Sound
  /-- An offer in the cache has been made. -/
  cached : ∀ x ∈ s.world.cache.entries, x.2.offer.id ∈ s.made

variable {d : Desk} {s t : Tally} {w : World}

theorem inv_start (atRest : w.ledger.AtRest) (noRows : w.ledger.journal = [])
    (empty : w.cache.entries = []) (new : w.counters = {}) : Inv { world := w } where
  journal := by simp [noRows, new]
  redemptions := by simp [new]
  offers := by simp [empty, new]
  sound := sound_of_empty atRest empty
  cached := by simp [empty]

/-- An errand other than a redemption, or an incident. -/
theorem Inv.reckoned {ids : List OfferId} (inv : s.Inv) (sound : w.Sound)
    (reckoned : s.world.Reckoned w ids) (distinct : (s.made ++ ids).Nodup) :
    Inv { s.pass w with made := s.made ++ ids } := by
  obtain ⟨⟨rows, redemptions, offers⟩, keyed, cached⟩ := inv
  cases reckoned with
  | quiet counted journal sweeps =>
    obtain ⟨n, counted⟩ := counted
    have count := sweeps.length_add_lapsed keyed.cache
    refine ⟨⟨?_, ?_, ?_⟩, sound, fun x hx => ?_⟩
    · simpa only [pass, counted, journal] using rows
    · simpa only [pass, counted] using redemptions
    · simp only [pass, counted]
      omega
    · exact List.mem_append_left _ (cached x (sweeps.fewer.subset hx))
  | paidIn counted journal cache =>
    have count := OfferCache.lapsed_self keyed.cache w.clock
    refine ⟨⟨?_, ?_, ?_⟩, sound, fun x hx => ?_⟩
    · simp only [pass, counted, Counters.add, journal]
      omega
    · simpa only [pass, counted, Counters.add] using redemptions
    · simp only [pass, counted, Counters.add, cache, count]
      omega
    · exact List.mem_append_left _ (cached x (cache ▸ hx))
  | @made offer lifetime counted journal gains =>
    have new : offer.id ∉ s.made := fun old =>
      List.disjoint_of_nodup_append distinct old (List.mem_singleton_self _)
    have count := gains.length_add_lapsed keyed.cache fun x hx same => new (same ▸ cached x hx)
    refine ⟨⟨?_, ?_, ?_⟩, sound, fun x hx => ?_⟩
    · simpa only [pass, counted, Counters.add, journal] using rows
    · simpa only [pass, counted, Counters.add] using redemptions
    · simp only [pass, counted, Counters.add]
      omega
    · rcases gains.mem_cases hx with ⟨hx, -⟩ | rfl
      · exact List.mem_append_left _ (cached x hx)
      · exact List.mem_append_right _ (List.mem_singleton_self _)

theorem Inv.reach (inv : s.Inv) (client : ClientId) (token : String) :
    Inv (s.reach d client token) := by
  obtain ⟨sound, ledger⟩ := Desk.sound_reach (d := d) inv.sound token none
  obtain ⟨answer, w, result, fetches⟩ := Desk.fetches_reach (d := d) inv.sound token
  obtain ⟨⟨rows, redemptions, offers⟩, keyed, cached⟩ := inv
  unfold Tally.reach
  rw [result] at sound ledger ⊢
  dsimp only at sound ledger ⊢
  cases fetches with
  | got there live gone counted answered =>
    have count := keyed.cache.length_erase_of_live there live
    have fewer : w.cache.entries.Sublist s.world.cache.entries :=
      gone ▸ OfferCache.sublist_erase _ _
    refine ⟨⟨?_, ?_, ?_⟩, sound, fun x hx => cached x (fewer.subset hx)⟩
    · simpa only [pass, counted, ledger] using rows
    · simp only [pass, counted, answered, Bool.toNat_false, List.length_append,
        List.length_singleton]
      omega
    · simp only [pass, counted, gone, List.length_append, List.length_singleton]
      omega
  | missed sweeps counted answered =>
    have count := sweeps.length_add_lapsed keyed.cache
    refine ⟨⟨?_, ?_, ?_⟩, sound, fun x hx => cached x (sweeps.fewer.subset hx)⟩
    · simpa only [pass, counted, Counters.add, ledger] using rows
    · simp only [pass, counted, Counters.add, answered, Bool.toNat_false]
      omega
    · simp only [pass, counted, Counters.add]
      omega
  | unanswered same counted unanswered =>
    have count := OfferCache.lapsed_self keyed.cache w.clock
    refine ⟨⟨?_, ?_, ?_⟩, sound, fun x hx => cached x (same ▸ hx)⟩
    · simpa only [pass, counted, Counters.add, ledger] using rows
    · simp only [pass, counted, Counters.add, unanswered, Bool.toNat_true]
      omega
    · simp only [pass, counted, Counters.add, same, count]
      omega

theorem Inv.conclude {client : ClientId} {offer : Offer} {before after : List (ClientId × Offer)}
    (inv : s.Inv) (place : s.holding = before ++ (client, offer) :: after) :
    Inv (s.conclude d client offer (before ++ after)) := by
  obtain ⟨sound, cache⟩ := Desk.sound_conclude (d := d) inv.sound client offer none
  have concludes := Desk.concludes_conclude (d := d) inv.sound client offer
  obtain ⟨⟨rows, redemptions, offers⟩, keyed, cached⟩ := inv
  unfold Tally.conclude
  generalize (d.conclude client offer none s.world).2 = w at *
  have count := OfferCache.lapsed_self keyed.cache w.clock
  have cached : ∀ x ∈ w.cache.entries, x.2.offer.id ∈ s.made := cache ▸ cached
  have one : s.holding.length = (before ++ after).length + 1 := by
    rw [place, List.length_append, List.length_cons, List.length_append, Nat.add_assoc]
  -- One redemption fewer is between its steps, and one more has ended in one of four ways.
  cases concludes with
  | lapsed lapsed counted journal =>
    refine ⟨⟨?_, ?_, ?_⟩, sound, cached⟩
    · simpa only [pass, counted, Counters.add, journal] using rows
    · simp only [pass, counted, Counters.add]
      omega
    · simp only [pass, counted, Counters.add, cache, count, lapsed, Bool.toNat_true]
      omega
  | refused good counted journal =>
    refine ⟨⟨?_, ?_, ?_⟩, sound, cached⟩
    · simpa only [pass, counted, Counters.add, journal] using rows
    · simp only [pass, counted, Counters.add]
      omega
    · simp only [pass, counted, Counters.add, cache, count, good, Bool.toNat_false]
      omega
  | settled good counted journal =>
    refine ⟨⟨?_, ?_, ?_⟩, sound, cached⟩
    · simp only [pass, counted, Counters.add, journal]
      omega
    · simp only [pass, counted, Counters.add]
      omega
    · simp only [pass, counted, Counters.add, cache, count, good, Bool.toNat_false]
      omega
  | failed good counted journal =>
    obtain ⟨n, counted⟩ := counted
    refine ⟨⟨?_, ?_, ?_⟩, sound, cached⟩
    · simpa only [pass, counted, Counters.add, journal] using rows
    · simp only [pass, counted, Counters.add]
      omega
    · simp only [pass, counted, Counters.add, cache, count, good, Bool.toNat_false]
      omega

/-- Offers that have been made stay made. -/
theorem Step.sublist_made (step : Step d s t) : s.made.Sublist t.made := by
  cases step with
  | errand => exact List.sublist_append_left _ _
  | incident | reach | conclude => exact List.Sublist.refl _

/-- Every step keeps the invariant, as long as no two offers have one identifier. -/
theorem Inv.step (inv : s.Inv) (step : Step d s t) (distinct : t.made.Nodup) : t.Inv := by
  cases step with
  | @errand deadline errand notRedeeming =>
    refine inv.reckoned (d.sound_attempt inv.sound errand deadline) ?_ distinct
    exact Desk.reckoned_attempt inv.sound errand notRedeeming
  | incident incident =>
    have nothing : s.made ++ [] = s.made := List.append_nil _
    have passed := inv.reckoned (inv.sound.change incident) (incident.reckoned_change s.world)
      (nothing.symm ▸ distinct)
    rw [nothing] at passed
    exact passed
  | reach client token => exact inv.reach client token
  | conclude place => exact inv.conclude place

/-- So does a run. -/
theorem Inv.reaches (inv : s.Inv) (reaches : Reaches d s t) (distinct : t.made.Nodup) :
    t.Inv := by
  induction reaches with
  | refl => exact inv
  | tail _ step ih => exact (ih (distinct.sublist step.sublist_made)).step step distinct

/-! ### Redemptions that nothing comes in between -/

/-- The tally after a whole redemption. -/
def redeem (d : Desk) (s : Tally) (client : ClientId) (token : String) : Tally :=
  match (d.reach token none s.world).1 with
  | some (.ok offer) => (s.reach d client token).conclude d client offer s.holding
  | _ => s.reach d client token

theorem made_redeem (d : Desk) (s : Tally) (client : ClientId) (token : String) :
    (s.redeem d client token).made = s.made := by
  unfold redeem
  split <;> rfl

theorem holding_redeem (d : Desk) (s : Tally) (client : ClientId) (token : String) :
    (s.redeem d client token).holding = s.holding := by
  unfold redeem
  split
  · rfl
  · rename_i missed
    unfold reach
    dsimp only
    split
    · rename_i offer got
      exact absurd got (missed offer)
    · rfl

theorem reaches_redeem (d : Desk) (s : Tally) (client : ClientId) (token : String) :
    Reaches d s (s.redeem d client token) := by
  have reached : Reaches d s (s.reach d client token) := .single (.reach client token)
  unfold redeem
  split
  · rename_i offer got
    have place : (s.reach d client token).holding = s.holding ++ (client, offer) :: [] := by
      simp only [reach, got]
    have concluded := Step.conclude (d := d) place
    rw [List.append_nil] at concluded
    exact reached.tail concluded
  · exact reached

/-- The tally after errands that nobody gives up. -/
def serveAll (d : Desk) (s : Tally) (errands : List Errand) : Tally :=
  errands.foldl (fun s errand => match errand with
    | .redeem client token => s.redeem d client token
    | errand => s.serve d none errand) s

theorem reaches_serveAll (d : Desk) (s : Tally) (errands : List Errand) :
    Reaches d s (s.serveAll d errands) := by
  induction errands generalizing s with
  | nil => exact .refl
  | cons errand rest ih =>
    refine .trans ?_ (ih _)
    cases errand with
    | redeem client token => exact reaches_redeem d s client token
    | _ => exact .single (.errand none (by simp))

/-- Errands that are served one after the other leave no redemption between its steps. -/
theorem holding_serveAll (d : Desk) (s : Tally) (errands : List Errand) :
    (s.serveAll d errands).holding = s.holding := by
  induction errands generalizing s with
  | nil => rfl
  | cons errand rest ih =>
    refine (ih _).trans ?_
    cases errand with
    | redeem client token => exact holding_redeem d s client token
    | _ => rfl

/-- A token is presented twice, and once more when the cache is off. -/
def presentThrice (d : Desk) (s : Tally) (client : ClientId) (token : String) : Tally :=
  let presented := s.serveAll d [.redeem client token, .redeem client token]
  (presented.pass (Incident.change presented.world (.cache false))).redeem d client token

theorem made_presentThrice (d : Desk) (s : Tally) (client : ClientId) (token : String) :
    (s.presentThrice d client token).made = s.made := by
  simp only [presentThrice, serveAll, List.foldl_cons, List.foldl_nil, made_redeem, pass]

theorem holding_presentThrice (d : Desk) (s : Tally) (client : ClientId) (token : String) :
    (s.presentThrice d client token).holding = s.holding := by
  simp only [presentThrice, holding_redeem, pass, holding_serveAll]

theorem reaches_presentThrice (d : Desk) (s : Tally) (client : ClientId) (token : String) :
    Reaches d s (s.presentThrice d client token) :=
  ((reaches_serveAll d s _).tail (.incident _)).trans (reaches_redeem d _ client token)

/-- Money is paid in and an offer is made. -/
def prepared : Tally :=
  ({ world := World.simple } : Tally).serveAll Desk.simple [
    .openAccount default Currency.usd,
    .openAccount default Currency.eur,
    .deposit default Currency.usd (.hundredths 10000),
    .createOffer OfferRequest.simple]

/-! ### The theorem -/

/-- A redemption that the cache does not answer counts as one failure that may pass. -/
theorem counters_redeem (sound : s.world.Sound) (client : ClientId) {token : String}
    (unanswered : d.unanswered token s.world = true) :
    (d.redeem client token none s.world).2.counters =
      s.world.counters.add .transientFailure := by
  obtain ⟨answer, w, result, fetches⟩ := Desk.fetches_reach sound token
  rw [Desk.redeem_apply, result]
  cases fetches with
  | got _ _ _ _ answered | missed _ _ answered =>
    rw [unanswered] at answered
    cases answered
  | unanswered _ counted => exact counted

/-- In every state that any order of steps can reach from a desk that is new, when no two offers
have one identifier. Where no redemption is between its steps, `holding` is empty. -/
theorem reconciles (d : Desk) {w : World} (atRest : w.ledger.AtRest)
    (noRows : w.ledger.journal = []) (empty : w.cache.entries = []) (new : w.counters = {})
    {s : Tally} (reaches : Reaches d { world := w } s) (distinct : s.made.Nodup) :
    s.Reconciled ∧ ∀ client token, d.unanswered token s.world = true →
      (d.redeem client token none s.world).2.counters =
        s.world.counters.add .transientFailure := by
  have inv : s.Inv := (inv_start atRest noRows empty new).reaches reaches distinct
  exact ⟨inv.toReconciled, fun client token => counters_redeem inv.sound client⟩

theorem reconciles_simple :
    prepared.made.length = 1 ∧
      (prepared.presentThrice Desk.simple default Desk.simpleToken).holding = [] ∧
      (prepared.presentThrice Desk.simple default Desk.simpleToken).Reconciled := by
  have length : prepared.made.length = 1 := by decide +kernel
  have distinct : (prepared.presentThrice Desk.simple default Desk.simpleToken).made.Nodup := by
    obtain ⟨id, one⟩ := List.length_eq_one_iff.1 length
    rw [made_presentThrice, one]
    exact List.nodup_singleton id
  have reaches := (reaches_serveAll Desk.simple { world := World.simple } _).trans
    (reaches_presentThrice Desk.simple prepared default Desk.simpleToken)
  refine ⟨length, ?_, (reconciles Desk.simple Ledger.atRest_empty rfl rfl rfl reaches distinct).1⟩
  rw [holding_presentThrice]
  exact holding_serveAll Desk.simple { world := World.simple } _

end Tally

end Bureau
