import Bureau.Proofs.Desk.Conservation
import Bureau.Proofs.Desk.Failure
import Bureau.Proofs.Token

/-!
# The annals of the desk

`Annals` is a day at the desk together with a record of it: which offers have been made, and which
have been handed out to a redemption. What an event does to the cache can be read off what it adds
to the record (`Turn`). So an offer waits in the cache until it is received or its time has passed
(`Annals.Waits`), and nothing else waits there (`Annals.Inv`). Throughout, the clock by which the
cache goes does not go back.
-/

namespace Bureau

open Timed World

/-- An offer that has been made. -/
structure Made where
  id : OfferId
  request : OfferRequest
  ticket : OfferTicket
  createdAt : Instant
  /-- What the clock of the cache showed when the offer was put there. -/
  storedAt : Nat

namespace Made

/-- The offer as it was cached. -/
def offer (m : Made) : Offer := m.ticket.offer m.request m.id m.createdAt

/-- From here on the cache does not hand out the offer. -/
def expiry (d : Desk) (m : Made) : Nat := m.storedAt + Desk.ms (d.lifetimeOf m.request)

/-- The offer in the cache. -/
def entry (d : Desk) (m : Made) : String × CacheEntry :=
  (m.id.cacheKey, ⟨m.offer, m.expiry d⟩)

/-- The request is valid, and the token of the ticket names the offer. -/
structure Genuine (d : Desk) (m : Made) : Prop where
  valid : ∃ kind, m.request.validate = .ok kind
  named : d.offerOf? m.ticket.token = some m.id

end Made

namespace Event

/-- The clock does not go back. -/
def Forward (w : World) : Event → Prop
  | .incident (.clock nanos) => w.clock ≤ nanos
  | _ => True

/-- The offer that is made, if one is. -/
def made (d : Desk) (w : World) : Event → List Made
  | .errand deadline (.createOffer request) =>
    match d.createOffer request deadline w with
    | (some (.ok ticket), w') => [⟨w.nextOfferId, request, ticket, w.now, w'.clock⟩]
    | _ => []
  | _ => []

/-- The offer that a redemption gets hold of, if it does. -/
def received (d : Desk) (w : World) : Event → List OfferId
  | .errand deadline (.redeem _ token) =>
    match d.reach token deadline w with
    | (some (.ok offer), _) => [offer.id]
    | _ => []
  | _ => []

end Event

/-! ### What an event does to the cache -/

/-- The entries after an event, from the offers that it makes and that it receives. -/
inductive Turn (d : Desk) (w w' : World) : List Made → List OfferId → Prop
  | swept (sweeps : OfferCache.Sweeps w'.clock w.cache.entries w'.cache.entries) :
      Turn d w w' [] []
  | made {m : Made} (genuine : m.Genuine d) (storedAt : m.storedAt = w'.clock)
      (gains : OfferCache.Gains m.storedAt w.cache.entries w'.cache.entries m.offer
        (Desk.ms (d.lifetimeOf m.request))) : Turn d w w' [m] []
  | received {id : OfferId} {e : CacheEntry} (there : (id.cacheKey, e) ∈ w.cache.entries)
      (named : e.offer.id = id) (gone : w'.cache = w.cache.erase id.cacheKey) : Turn d w w' [] [id]

namespace Desk

variable {d : Desk} {w w' : World}

theorem turn_beside (beside : w.Beside w') : w.clock ≤ w'.clock ∧ Turn d w w' [] [] := by
  refine ⟨beside.clock, .swept ?_⟩
  rw [beside.cache]
  exact OfferCache.sweeps_refl _ _

theorem redeem_apply (d : Desk) (client : ClientId) (token : String) (deadline : Option Nat)
    (w : World) : d.redeem client token deadline w = match d.reach token deadline w with
      | (some (.ok offer), w') => d.conclude client offer deadline w'
      | (some (.error e), w') => (some (.error e), w')
      | (none, w') => (none, w') := by
  rw [redeem_eq, bind_apply]
  rcases d.reach token deadline w with ⟨_ | _ | _, w'⟩ <;> rfl

theorem beside_looks {α : Type} {x : Timed (Except DeskError α)} (h : x.Looks)
    (deadline : Option Nat) : w.Beside (x.outcome deadline w).2 := by
  rw [snd_outcome]
  exact ((h w).world deadline).toBeside

/-- Only making and redeeming offers have to do with the cache. -/
theorem beside_attempt (sound : w.ledger.Sound) (errand : Errand)
    (notMaking : ∀ request, errand ≠ .createOffer request)
    (notRedeeming : ∀ client token, errand ≠ .redeem client token) (deadline : Option Nat) :
    w.Beside (d.attempt errand deadline w).2 := by
  cases errand with
  | openAccount client currency =>
    rw [attempt, snd_outcome]
    exact (d.openAccount_cases client currency w deadline).1
  | deposit client currency amount =>
    rw [attempt, snd_outcome]
    exact Ensures.world ((ensures_deposit sound client currency amount).mono (fun _ _ h => h.1)
      fun _ h => h.1) deadline
  | createOffer request => exact absurd rfl (notMaking request)
  | redeem client token => exact absurd rfl (notRedeeming client token)
  | balance client currency => exact beside_looks (d.looks_balance client currency) deadline
  | transaction client txId => exact beside_looks (d.looks_transaction client txId) deadline
  | listAccounts client cursor asked =>
    exact beside_looks (d.looks_listAccounts client cursor asked) deadline
  | listJournal client currency query asked =>
    exact beside_looks (d.looks_listJournal client currency query asked) deadline
  | verify txId => exact beside_looks (looks_verify txId) deadline

/-- Every errand leaves the time of day and the mishaps of the ledger as they are, but for those
that it uses up. -/
theorem apart_attempt (sound : w.ledger.Sound) (errand : Errand) (deadline : Option Nat) :
    w.Apart (d.attempt errand deadline w).2 := by
  cases errand with
  | createOffer request =>
    rw [attempt, snd_outcome]
    exact Ensures.world ((d.ensures_createOffer request).mono (fun _ _ h => h.1.toApart)
      fun _ h => h.1.toApart) deadline
  | redeem client token =>
    rw [attempt, snd_outcome]
    exact Ensures.world ((d.ensures_redeem sound client token).mono (fun _ _ h => h.1)
      fun _ h => h.1) deadline
  | _ => exact (beside_attempt sound _ (by simp) (by simp) deadline).toApart

/-- The token of a ticket names the offer that it was given for. -/
theorem Makes.named {request : OfferRequest} {ticket : OfferTicket}
    (makes : d.Makes request w ticket w') : d.offerOf? ticket.token = some w.nextOfferId := by
  obtain ⟨nonce, length, token⟩ := makes.token
  rw [token, offerOf?, TokenCodec.openAs_sealAs length]
  exact OfferId.ofBytes?_toBytes _

theorem turn_createOffer (request : OfferRequest) (deadline : Option Nat) :
    let event := Event.errand deadline (.createOffer request)
    let w' := (d.attempt (.createOffer request) deadline w).2
    w.clock ≤ w'.clock ∧ Turn d w w' (event.made d w) (event.received d w) := by
  intro event w'
  have ensured := d.ensures_createOffer request (w := w) deadline
  have same : w' = (d.createOffer request deadline w).2 := snd_outcome _ _ _
  rw [same]
  simp only [event, Event.made, Event.received]
  rcases result : d.createOffer request deadline w with ⟨_ | e | ticket, w₁⟩
  · rw [result] at ensured
    exact ⟨ensured.1.clock, .swept ensured.2⟩
  · rw [result] at ensured
    obtain ⟨aside, ⟨_, impossible, -⟩ | ⟨-, sweeps⟩⟩ := ensured
    · cases impossible
    · exact ⟨aside.clock, .swept sweeps⟩
  · rw [result] at ensured
    obtain ⟨aside, ⟨_, ⟨⟩, makes⟩ | ⟨⟨_, impossible⟩, -⟩⟩ := ensured
    · exact ⟨aside.clock, .made ⟨makes.valid, makes.named⟩ rfl makes.gains⟩
    · cases impossible

theorem turn_redeem (sound : w.Sound) (client : ClientId) (token : String)
    (deadline : Option Nat) :
    let event := Event.errand deadline (.redeem client token)
    let w' := (d.attempt (.redeem client token) deadline w).2
    w.clock ≤ w'.clock ∧ Turn d w w' (event.made d w) (event.received d w) := by
  intro event w'
  have ensured := d.ensures_reach token (w := w) deadline
  have same : w' = (d.redeem client token deadline w).2 := snd_outcome _ _ _
  rw [same, redeem_apply]
  simp only [event, Event.made, Event.received]
  rcases result : d.reach token deadline w with ⟨_ | e | offer, w₁⟩
  · rw [result] at ensured
    exact turn_beside ensured.toBeside
  · rw [result] at ensured
    obtain ⟨aside, takes⟩ := ensured
    refine ⟨aside.clock, .swept ?_⟩
    rcases takes with ⟨id, -, takes⟩ | ⟨-, -, kept⟩
    · exact takes.sweeps_of_error sound.cache
    · dsimp only
      rw [kept]
      exact OfferCache.sweeps_refl _ _
  · rw [result] at ensured
    obtain ⟨aside, ⟨id, -, takes⟩ | ⟨-, impossible, -⟩⟩ := ensured
    · obtain ⟨expiresAt, there, -, gone⟩ := takes.exists_of_ok
      have entry := OfferCache.mem_of_lookup there
      have beside : w₁.Beside (d.conclude client offer deadline w₁).2 :=
        Ensures.world ((ensures_conclude (aside.ledger ▸ sound.ledger) client offer).mono
          (fun _ _ h => h.1) fun _ h => h.1) deadline
      refine ⟨aside.clock.trans beside.clock, ?_⟩
      obtain rfl : offer.id = id := sound.cache.id_eq entry
      exact .received entry rfl (beside.cache.trans gone)
    · cases impossible

end Desk

namespace Day

/-- Serving an errand changes the world as attempting it does. -/
theorem world_serve (d : Desk) (day : Day) (deadline : Option Nat) (errand : Errand) :
    (day.serve d deadline errand).world = (d.attempt errand deadline day.world).2 := by
  cases errand with
  | deposit client currency amount =>
    rw [serve, Desk.attempt, snd_outcome]
    rcases d.deposit client currency amount deadline day.world with ⟨_ | _ | _, w'⟩ <;> rfl
  | _ =>
    rw [Desk.attempt, snd_outcome]
    rfl

variable {d : Desk} {day : Day} {event : Event}

theorem sound_next (sound : day.world.Sound) (event : Event) :
    (day.next d event).world.Sound := by
  cases event with
  | errand deadline errand =>
    rw [next, world_serve]
    exact d.sound_attempt sound errand deadline
  | incident incident => exact sound.change incident

theorem sound_foldl (sound : day.world.Sound) (events : List Event) :
    (events.foldl (Day.next d) day).world.Sound := by
  induction events generalizing day with
  | nil => exact sound
  | cons event rest ih => exact ih (sound_next sound event)

/-- Every event that does not turn back the clock is a turn of the cache. -/
theorem turn_next (sound : day.world.Sound) (forward : event.Forward day.world) :
    day.world.clock ≤ (day.next d event).world.clock ∧
      Turn d day.world (day.next d event).world (event.made d day.world)
        (event.received d day.world) := by
  cases event with
  | errand deadline errand =>
    rw [next, world_serve]
    cases errand with
    | createOffer request => exact Desk.turn_createOffer request deadline
    | redeem client token => exact Desk.turn_redeem sound client token deadline
    | _ =>
      exact Desk.turn_beside (Desk.beside_attempt sound.ledger _ (by simp) (by simp) deadline)
  | incident incident =>
    cases incident with
    | sweep => exact ⟨Nat.le_refl _, .swept (OfferCache.sweeps_evictExpired _ _)⟩
    | clock nanos => exact ⟨forward, .swept (OfferCache.sweeps_refl _ _)⟩
    | _ => exact ⟨Nat.le_refl _, .swept (OfferCache.sweeps_refl _ _)⟩

end Day

namespace Turn

variable {d : Desk} {w w' : World} {made : List Made} {received : List OfferId} {m : Made}
  {x : String × CacheEntry}

theorem genuine (turn : Turn d w w' made received) (new : m ∈ made) : m.Genuine d := by
  cases turn with
  | made genuine =>
    obtain rfl := List.mem_singleton.1 new
    exact genuine
  | _ => cases new

theorem exists_of_received {id : OfferId} (turn : Turn d w w' made received)
    (taken : id ∈ received) : ∃ x ∈ w.cache.entries, x.2.offer.id = id := by
  cases turn with
  | received there named =>
    obtain rfl := List.mem_singleton.1 taken
    exact ⟨_, there, named⟩
  | _ => cases taken

theorem mem_made (turn : Turn d w w' made received) (new : m ∈ made) :
    m.entry d ∈ w'.cache.entries := by
  cases turn with
  | made genuine storedAt gains =>
    obtain rfl := List.mem_singleton.1 new
    exact gains.mem_new
  | _ => cases new

/-- An offer stays in the cache until it is received, it is replaced or its time has passed. -/
theorem mem_of_mem (turn : Turn d w w' made received) (there : m.entry d ∈ w.cache.entries)
    (unreceived : m.id ∉ received) (early : w'.clock < m.expiry d)
    (only : ∀ m' ∈ made, m'.id = m.id → m' = m) : m.entry d ∈ w'.cache.entries := by
  have live : (m.entry d).2.isLive w'.clock = true := decide_eq_true early
  cases turn with
  | swept sweeps => exact sweeps.live _ there live
  | @made m' genuine storedAt gains =>
    by_cases same : m'.id = m.id
    · obtain rfl := only m' List.mem_cons_self same
      exact gains.mem_new
    · refine gains.mem_of_live there (storedAt ▸ live) fun key => same ?_
      exact (OfferId.cacheKey_injective key).symm
  | @received id e entry named gone =>
    have other : m.id.cacheKey ≠ id.cacheKey := fun key =>
      unreceived (List.mem_singleton.2 (OfferId.cacheKey_injective key))
    rw [gone]
    exact List.mem_filter.2 ⟨there, decide_eq_true other⟩

/-- What is in the cache has been there or is new, and it has not been received. -/
theorem mem_cases (turn : Turn d w w' made received) (sound : w.Sound)
    (hx : x ∈ w'.cache.entries) :
    x.2.offer.id ∉ received ∧ (x ∈ w.cache.entries ∨ ∃ m ∈ made, x = m.entry d) := by
  cases turn with
  | swept sweeps => exact ⟨List.not_mem_nil, .inl (sweeps.fewer.subset hx)⟩
  | @made m genuine storedAt gains =>
    refine ⟨List.not_mem_nil, ?_⟩
    rcases gains.mem_cases hx with ⟨there, -⟩ | rfl
    · exact .inl there
    · exact .inr ⟨m, List.mem_cons_self, rfl⟩
  | @received id e entry named gone =>
    rw [gone] at hx
    obtain ⟨there, other⟩ := List.mem_filter.1 hx
    refine ⟨fun taken => of_decide_eq_true other ?_, .inl there⟩
    rw [sound.cache.named x there, List.mem_singleton.1 taken]

end Turn

/-! ### A day and its record -/

/-- A day, the offers that have been made, and those that redemptions have got hold of. -/
structure Annals where
  day : Day
  made : List Made := []
  received : List OfferId := []

namespace Annals

/-- An event is served, and what it brought is added. -/
def next (d : Desk) (s : Annals) (event : Event) : Annals where
  day := s.day.next d event
  made := s.made ++ event.made d s.day.world
  received := s.received ++ event.received d s.day.world

/-- Any event may come next that does not turn back the clock. -/
inductive Step (d : Desk) (s : Annals) : Annals → Prop
  | event {event : Event} (forward : event.Forward s.day.world) : Step d s (s.next d event)

/-- What may be written after any events. -/
abbrev Reaches (d : Desk) : Annals → Annals → Prop := Relation.ReflTransGen (Step d)

/-- The offer waits in the cache, unless it has been received or its time has passed. -/
def Waits (d : Desk) (m : Made) (s : Annals) : Prop :=
  m.id ∉ s.received → s.day.world.clock < m.expiry d → m.entry d ∈ s.day.world.cache.entries

/-- What the annals of a whole day keep, as long as no two offers have one identifier. -/
structure Inv (d : Desk) (s : Annals) : Prop where
  sound : s.day.world.Sound
  genuine : ∀ m ∈ s.made, m.Genuine d
  waits : ∀ m ∈ s.made, s.Waits d m
  /-- Nothing else is in the cache. -/
  cached : ∀ x ∈ s.day.world.cache.entries,
    x.2.offer.id ∉ s.received ∧ ∃ m ∈ s.made, x = m.entry d
  received : ∀ id ∈ s.received, ∃ m ∈ s.made, m.id = id

variable {d : Desk} {s t : Annals} {m : Made}

theorem Step.sound (step : Step d s t) (sound : s.day.world.Sound) : t.day.world.Sound := by
  obtain ⟨-⟩ := step
  exact Day.sound_next sound _

theorem Step.sublist_made (step : Step d s t) : s.made.Sublist t.made := by
  obtain ⟨-⟩ := step
  exact List.sublist_append_left _ _

theorem Reaches.day_inv (reaches : Reaches d s t) (inv : s.day.Inv) : t.day.Inv := by
  induction reaches with
  | refl => exact inv
  | tail _ step ih =>
    obtain ⟨-⟩ := step
    exact ih.next d _

/-- A step keeps an offer waiting that no other offer replaces. -/
theorem Waits.step (waits : s.Waits d m) (sound : s.day.world.Sound) (step : Step d s t)
    (only : ∀ m' ∈ t.made, m'.id = m.id → m' = m) : t.Waits d m := by
  obtain ⟨forward⟩ := step
  intro unreceived early
  obtain ⟨clock, turn⟩ := Day.turn_next (d := d) sound forward
  have there := waits (fun h => unreceived (List.mem_append_left _ h)) (clock.trans_lt early)
  exact turn.mem_of_mem there (fun h => unreceived (List.mem_append_right _ h)) early
    fun m' new => only m' (List.mem_append_right _ new)

theorem Waits.reaches (waits : s.Waits d m) (sound : s.day.world.Sound) (reaches : Reaches d s t)
    (only : ∀ m' ∈ t.made, m'.id = m.id → m' = m) : t.day.world.Sound ∧ t.Waits d m := by
  induction reaches with
  | refl => exact ⟨sound, waits⟩
  | tail _ step ih =>
    obtain ⟨sound, waits⟩ := ih fun m' old => only m' (step.sublist_made.subset old)
    exact ⟨step.sound sound, waits.step sound step only⟩

theorem inv_start {w : World} (atRest : w.ledger.AtRest) (empty : w.cache.entries = []) :
    Inv d { day := { world := w } } where
  sound := sound_of_empty atRest empty
  genuine := by simp
  waits := by simp
  cached := by simp [empty]
  received := by simp

theorem Inv.step (inv : Inv d s) (step : Step d s t) (distinct : (t.made.map (·.id)).Nodup) :
    Inv d t := by
  have sound := step.sound inv.sound
  have only : ∀ m ∈ t.made, ∀ m' ∈ t.made, m'.id = m.id → m' = m := fun m hm m' hm' =>
    List.inj_on_of_nodup_map distinct hm' hm
  have old : ∀ m ∈ s.made, t.Waits d m := fun m hm =>
    (inv.waits m hm).step inv.sound step (only m (step.sublist_made.subset hm))
  cases step with
  | @event event forward =>
    obtain ⟨-, turn⟩ := Day.turn_next (d := d) inv.sound forward
    refine { sound, genuine := ?_, waits := ?_, cached := ?_, received := ?_ }
    · intro m hm
      rcases List.mem_append.1 hm with hm | new
      · exact inv.genuine m hm
      · exact turn.genuine new
    · intro m hm
      rcases List.mem_append.1 hm with hm | new
      · exact old m hm
      · exact fun _ _ => turn.mem_made new
    · intro x hx
      obtain ⟨untaken, there | ⟨m, new, rfl⟩⟩ := turn.mem_cases inv.sound hx
      · obtain ⟨unreceived, m, hm, entry⟩ := inv.cached x there
        refine ⟨fun h => ?_, m, List.mem_append_left _ hm, entry⟩
        exact (List.mem_append.1 h).elim unreceived untaken
      · refine ⟨fun h => ?_, m, List.mem_append_right _ new, rfl⟩
        -- An offer is not made under the identifier of one that has been received.
        rcases List.mem_append.1 h with h | h
        · obtain ⟨m', hm', same⟩ := inv.received m.id h
          rw [next, List.map_append] at distinct
          exact List.disjoint_of_nodup_append distinct (List.mem_map.2 ⟨m', hm', same⟩)
            (List.mem_map.2 ⟨m, new, rfl⟩)
        · exact untaken h
    · intro id taken
      rcases List.mem_append.1 taken with taken | taken
      · obtain ⟨m, hm, same⟩ := inv.received id taken
        exact ⟨m, List.mem_append_left _ hm, same⟩
      · obtain ⟨x, there, rfl⟩ := turn.exists_of_received taken
        obtain ⟨-, m, hm, rfl⟩ := inv.cached x there
        exact ⟨m, List.mem_append_left _ hm, rfl⟩

theorem Inv.reaches (inv : Inv d s) (reaches : Reaches d s t)
    (distinct : (t.made.map (·.id)).Nodup) : Inv d t := by
  induction reaches with
  | refl => exact inv
  | tail _ step ih => exact (ih (distinct.sublist (step.sublist_made.map _))).step step distinct

end Annals

end Bureau
