import Bureau.Proofs.Desk.Annals
import Bureau.Proofs.Desk.Answers

/-!
# The annals decide what can be redeemed

A redemption gets as far as posting exactly for an offer of the client's own that the annals show
as made, not received and in time by both clocks. In every other case the answer can be read off
the annals, too (`Annals.redeemable_iff`). The cache has to answer, and no two offers may have one
identifier.
-/

namespace Bureau

open Timed World

namespace Desk

/-- What a redemption does before it posts: it gets hold of the offer and of how it settles. -/
def claimed (d : Desk) (client : ClientId) (token : String) :
    Timed (Except DeskError (Offer × SettlementKind)) := do
  match ← d.reach token with
  | .error e => return .error e
  | .ok offer =>
    match offer.claim client (← read (·.now)) with
    | .error (event, e) => failing event e
    | .ok kind => return .ok (offer, kind)

variable {d : Desk} {w w' : World} {deadline : Option Nat} {client : ClientId} {token : String}

/-- What is left to do is to post the offer. -/
theorem redeem_eq_claimed (d : Desk) (client : ClientId) (token : String) :
    d.redeem client token = (do
      match ← d.claimed client token with
      | .error e => return .error e
      | .ok (offer, kind) => d.settle client offer kind) := by
  rw [redeem_eq]
  funext deadline w
  simp only [claimed, conclude, bind_apply]
  rcases d.reach token deadline w with ⟨_ | e | offer, w'⟩
  · rfl
  · rfl
  · simp only [bind_apply, Timed.read]
    rcases offer.claim client w'.now with ⟨event, e⟩ | kind <;> rfl

theorem claimed_of_error {e : DeskError}
    (h : d.reach token deadline w = (some (.error e), w')) :
    d.claimed client token deadline w = (some (.error e), w') := by
  rw [claimed, bind_apply, h]
  rfl

theorem claimed_of_ok {offer : Offer} (h : d.reach token deadline w = (some (.ok offer), w')) :
    d.claimed client token deadline w = match offer.claim client w'.now with
      | .error (event, e) => failing event e deadline w'
      | .ok kind => (some (.ok (offer, kind)), w') := by
  rw [claimed, bind_apply, h]
  simp only [bind_apply, Timed.read]
  rcases offer.claim client w'.now with ⟨event, e⟩ | kind <;> rfl

/-- When the redemption does not get as far as posting, its answer stands. -/
theorem redeem_of_claimed_error {e : DeskError}
    (h : d.claimed client token deadline w = (some (.error e), w')) :
    d.redeem client token deadline w = (some (.error e), w') := by
  rw [redeem_eq_claimed, bind_apply, h]
  rfl

theorem redeem_of_claimed_ok {offer : Offer} {kind : SettlementKind}
    (h : d.claimed client token deadline w = (some (.ok (offer, kind)), w')) :
    d.redeem client token deadline w = d.settle client offer kind deadline w' := by
  rw [redeem_eq_claimed, bind_apply, h]

/-- A cache that works hands out the offer under the key or says that there is none. -/
theorem takes_of_works (works : w.CacheWorks d deadline) {id : OfferId}
    (names : d.offerOf? token = some id) :
    ∃ answer w', d.reach token deadline w = (some answer, w') ∧ w.Aside w' ∧
      Takes id (w.clock + w.takeSpan) w.cache answer w'.cache ∧
      ∀ e, answer = .error e → e = .notFoundOrExpired := by
  obtain ⟨answer, w', found, clock, result⟩ := answers_taken works id
  have result := result deadline works.patient
  have ensured := d.ensures_taken id (w := w) deadline
  rw [result] at ensured
  obtain ⟨aside, takes⟩ := ensured
  refine ⟨answer, w', ?_, aside, clock ▸ takes, found⟩
  rw [reach, names]
  exact result

/-- It hands out an entry whose time has not passed when it answers. -/
theorem reach_entry {m : Made} (sound : w.Sound) (works : w.CacheWorks d deadline)
    (there : m.entry d ∈ w.cache.entries) (names : d.offerOf? token = some m.id)
    (early : w.clock + w.takeSpan < m.expiry d) :
    ∃ w', d.reach token deadline w = (some (.ok m.offer), w') ∧ w.Aside w' ∧
      w'.cache = w.cache.erase m.id.cacheKey := by
  obtain ⟨answer, w', result, aside, takes, miss⟩ := takes_of_works works names
  have found : w.cache.lookup m.id.cacheKey = some ⟨m.offer, m.expiry d⟩ :=
    sound.cache.lookup_eq there
  generalize cache : w'.cache = c at takes
  cases takes with
  | @got e lookup =>
    obtain rfl := Option.some.inj (lookup.symm.trans found)
    exact ⟨w', result, aside, cache⟩
  | missed dead =>
    have alive : (⟨m.offer, m.expiry d⟩ : CacheEntry).isLive (w.clock + w.takeSpan) = true :=
      decide_eq_true early
    rw [dead _ found] at alive
    cases alive
  | failed reason =>
    obtain rfl := miss _ rfl
    rcases reason with timedOut | ⟨error, market⟩
    · cases timedOut
    · cases error <;> cases market

end Desk

namespace Annals

/-- The annals show a live offer under the identifier that the token opens to: it has been made, no
redemption has received it, and when the cache answers its time has not passed. -/
structure Live (d : Desk) (s : Annals) (token : String) (m : Made) : Prop where
  made : m ∈ s.made
  named : d.offerOf? token = some m.id
  unreceived : m.id ∉ s.received
  early : s.day.world.clock + s.day.world.takeSpan < m.expiry d

variable {d : Desk} {s : Annals} {deadline : Option Nat} {client : ClientId} {token : String}
  {m : Made}

/-- A redemption gets hold of a live offer. -/
theorem Inv.reach_live (inv : Inv d s) (works : s.day.world.CacheWorks d deadline)
    (live : s.Live d token m) :
    ∃ w', d.reach token deadline s.day.world = (some (.ok m.offer), w') ∧
      s.day.world.Aside w' ∧ w'.cache = s.day.world.cache.erase m.id.cacheKey := by
  have there : m.entry d ∈ s.day.world.cache.entries :=
    inv.waits m live.made live.unreceived (Nat.lt_of_le_of_lt (Nat.le_add_right _ _) live.early)
  exact Desk.reach_entry inv.sound works there live.named live.early

/-- Otherwise it learns that there is none. -/
theorem Inv.reach_none (inv : Inv d s) (works : s.day.world.CacheWorks d deadline)
    (none_ : ∀ m, ¬ s.Live d token m) :
    ∃ w', d.reach token deadline s.day.world = (some (.error .notFoundOrExpired), w') := by
  cases names : d.offerOf? token with
  | none => exact ⟨_, by rw [Desk.reach, names]; rfl⟩
  | some id =>
    obtain ⟨answer, w', result, -, takes, miss⟩ := Desk.takes_of_works works names
    cases answer with
    | error e =>
      obtain rfl := miss e rfl
      exact ⟨w', result⟩
    | ok offer =>
      obtain ⟨expiresAt, there, early, -⟩ := takes.exists_of_ok
      obtain ⟨unreceived, m, made, entry⟩ := inv.cached _ (OfferCache.mem_of_lookup there)
      obtain ⟨key, rfl, rfl⟩ : id.cacheKey = m.id.cacheKey ∧ offer = m.offer ∧
          expiresAt = m.expiry d := by simpa [Made.entry] using entry
      obtain rfl := OfferId.cacheKey_injective key
      exact absurd ⟨made, names, unreceived, early⟩ (none_ m)

/-! ### What a redemption finds in the annals -/

section Claim

variable {now : Instant}

theorem claim_foreign (foreign : m.request.client ≠ client) :
    m.offer.claim client now = .error (.integrityFault,
      .integrityFault s!"offer {m.id} owned by {m.request.client} presented by {client}") :=
  if_pos foreign

theorem claim_expired (own : m.request.client = client) (late : m.ticket.expiresAt ≤ now) :
    m.offer.claim client now = .error (.offerMissed, .notFoundOrExpired) := by
  have expired : m.offer.isExpired now = true := decide_eq_true late
  have owned : ¬ m.offer.client ≠ client := fun h => h own
  rw [Offer.claim, if_neg owned, if_pos expired]

theorem claim_own {kind : SettlementKind} (valid : m.request.validate = .ok kind)
    (own : m.request.client = client) (inTime : now < m.ticket.expiresAt) :
    m.offer.claim client now = .ok kind := by
  have expired : ¬ m.offer.isExpired now = true := fun h => of_decide_eq_true h inTime
  have owned : ¬ m.offer.client ≠ client := fun h => h own
  have flags : m.offer.kind? = some kind := (OfferRequest.valid_of_validate valid).flags
  rw [Offer.claim, if_neg owned, if_neg expired, flags]

end Claim

theorem Inv.claimed_own (inv : Inv d s) (works : s.day.world.CacheWorks d deadline)
    (live : s.Live d token m) (own : m.request.client = client)
    (inTime : s.day.world.now < m.ticket.expiresAt) :
    ∃ kind w', m.request.validate = .ok kind ∧
      d.claimed client token deadline s.day.world = (some (.ok (m.offer, kind)), w') := by
  obtain ⟨kind, valid⟩ := (inv.genuine m live.made).valid
  obtain ⟨w', result, aside, -⟩ := inv.reach_live works live
  refine ⟨kind, w', valid, ?_⟩
  rw [Desk.claimed_of_ok result, aside.now, claim_own valid own inTime]

theorem Inv.claimed_foreign (inv : Inv d s) (works : s.day.world.CacheWorks d deadline)
    (live : s.Live d token m) (foreign : m.request.client ≠ client) :
    ∃ w', d.claimed client token deadline s.day.world = (some (.error (.integrityFault
        s!"offer {m.id} owned by {m.request.client} presented by {client}")), w') ∧
      w'.cache = s.day.world.cache.erase m.id.cacheKey := by
  obtain ⟨w', result, -, gone⟩ := inv.reach_live works live
  rw [Desk.claimed_of_ok result, claim_foreign foreign]
  exact ⟨_, rfl, gone⟩

theorem Inv.claimed_missed (inv : Inv d s) (works : s.day.world.CacheWorks d deadline)
    (missed : ∀ m, s.Live d token m →
      m.request.client = client ∧ m.ticket.expiresAt ≤ s.day.world.now) :
    ∃ w', d.claimed client token deadline s.day.world = (some (.error .notFoundOrExpired), w') := by
  by_cases found : ∃ m, s.Live d token m
  · obtain ⟨m, live⟩ := found
    obtain ⟨own, late⟩ := missed m live
    obtain ⟨w', result, aside, -⟩ := inv.reach_live works live
    rw [Desk.claimed_of_ok result, aside.now, claim_expired own late]
    exact ⟨_, rfl⟩
  · obtain ⟨w', result⟩ := inv.reach_none works fun m live => found ⟨m, live⟩
    exact ⟨w', Desk.claimed_of_error result⟩

/-! ### The theorem -/

/-- How far a redemption gets is for the annals to say. -/
structure Decides (d : Desk) (client : ClientId) (token : String) (deadline : Option Nat)
    (s : Annals) : Prop where
  /-- It gets as far as posting exactly when there is a live offer of the client's own, and it is
  not yet the time of day at which that expires. -/
  posts : (∃ offer kind w',
      d.claimed client token deadline s.day.world = (some (.ok (offer, kind)), w')) ↔
    ∃ m, s.Live d token m ∧ m.request.client = client ∧ s.day.world.now < m.ticket.expiresAt
  /-- Then it settles this offer, as what its request has asked for. -/
  settles : ∀ m, s.Live d token m → m.request.client = client →
    s.day.world.now < m.ticket.expiresAt → ∃ kind w', m.request.validate = .ok kind ∧
      d.claimed client token deadline s.day.world = (some (.ok (m.offer, kind)), w') ∧
      d.redeem client token deadline s.day.world = d.settle client m.offer kind deadline w'
  /-- There is one answer when there is no live offer and when the client's own has expired. -/
  missed : (∀ m, s.Live d token m →
      m.request.client = client ∧ m.ticket.expiresAt ≤ s.day.world.now) →
    (d.redeem client token deadline s.day.world).1 = some (.error .notFoundOrExpired)
  /-- A live offer of somebody else's is a fault, and it is gone. -/
  foreign : ∀ m, s.Live d token m → m.request.client ≠ client →
    (d.redeem client token deadline s.day.world).1 = some (.error (.integrityFault
      s!"offer {m.id} owned by {m.request.client} presented by {client}")) ∧
    ∀ x ∈ (d.redeem client token deadline s.day.world).2.cache.entries, x.2.offer.id ≠ m.id

/-- After any events, a working cache given and no two offers under one identifier. -/
theorem redeemable_iff (d : Desk) {w : World} (atRest : w.ledger.AtRest)
    (empty : w.cache.entries = []) {s : Annals} (reaches : Reaches d { day := { world := w } } s)
    (distinct : (s.made.map (·.id)).Nodup) (client : ClientId) (token : String)
    {deadline : Option Nat} (works : s.day.world.CacheWorks d deadline) :
    s.Decides d client token deadline := by
  have inv : Inv d s := (inv_start atRest empty).reaches reaches distinct
  refine { posts := ⟨?_, ?_⟩, settles := ?_, missed := ?_, foreign := ?_ }
  · rintro ⟨offer, kind, w', claimed⟩
    -- Otherwise the offer is too late or gone, or it belongs to another client.
    by_contra none_
    by_cases missed : ∀ m, s.Live d token m →
        m.request.client = client ∧ m.ticket.expiresAt ≤ s.day.world.now
    · obtain ⟨w'', result⟩ := inv.claimed_missed works missed
      rw [result] at claimed
      cases claimed
    · push Not at missed
      obtain ⟨m, live, other⟩ := missed
      have foreign : m.request.client ≠ client := fun own =>
        none_ ⟨m, live, own, Classical.not_not.1 (other own)⟩
      obtain ⟨w'', result, -⟩ := inv.claimed_foreign works live foreign
      rw [result] at claimed
      cases claimed
  · rintro ⟨m, live, own, inTime⟩
    obtain ⟨kind, w', -, claimed⟩ := inv.claimed_own works live own inTime
    exact ⟨m.offer, kind, w', claimed⟩
  · intro m live own inTime
    obtain ⟨kind, w', valid, claimed⟩ := inv.claimed_own works live own inTime
    exact ⟨kind, w', valid, claimed, Desk.redeem_of_claimed_ok claimed⟩
  · intro missed
    obtain ⟨w', claimed⟩ := inv.claimed_missed works missed
    rw [Desk.redeem_of_claimed_error claimed]
  · intro m live foreign
    obtain ⟨w', claimed, gone⟩ := inv.claimed_foreign works live foreign
    rw [Desk.redeem_of_claimed_error claimed]
    refine ⟨rfl, fun x hx same => ?_⟩
    have hx : x ∈ (s.day.world.cache.erase m.id.cacheKey).entries := gone ▸ hx
    obtain ⟨there, other⟩ := List.mem_filter.1 hx
    refine of_decide_eq_true other ?_
    rw [inv.sound.cache.named x there, same]

/-- An offer has been made at the simple desk. -/
def simple : Annals :=
  ({ day := { world := World.simple } } : Annals).next Desk.simple
    (.errand none (.createOffer OfferRequest.simple))

/-- Its ticket can be redeemed. -/
theorem redeemable_iff_simple :
    ∃ m, simple.made = [m] ∧ ∃ kind w', m.request.validate = .ok kind ∧
      Desk.simple.redeem default m.ticket.token none simple.day.world =
        Desk.simple.settle default m.offer kind none w' := by
  have one : simple.made.length = 1 := by decide +kernel
  have owned : ∀ m ∈ simple.made, m.request.client = default := by decide +kernel
  have inTime : ∀ m ∈ simple.made, simple.day.world.now < m.ticket.expiresAt := by decide +kernel
  have early : ∀ m ∈ simple.made,
      simple.day.world.clock + simple.day.world.takeSpan < m.expiry Desk.simple := by decide +kernel
  have reaches : Reaches Desk.simple { day := { world := World.simple } } simple :=
    .single (.event trivial)
  obtain ⟨m, made⟩ := List.length_eq_one_iff.1 one
  have member : m ∈ simple.made := made ▸ List.mem_singleton_self m
  have distinct : (simple.made.map (·.id)).Nodup := made ▸ List.nodup_singleton m.id
  have takes : simple.day.world.mishaps.takes = [] := List.isEmpty_iff.1 (by decide +kernel)
  have works : simple.day.world.CacheWorks Desk.simple none :=
    cacheWorks_of_calm (by decide +kernel) takes (by decide +kernel)
  have inv : Inv Desk.simple simple :=
    (inv_start Ledger.atRest_empty rfl).reaches reaches distinct
  have live : simple.Live Desk.simple m.ticket.token m :=
    ⟨member, (inv.genuine m member).named, List.not_mem_nil, early m member⟩
  obtain ⟨kind, w', valid, -, settled⟩ :=
    (redeemable_iff Desk.simple Ledger.atRest_empty rfl reaches distinct default m.ticket.token
      works).settles m live (owned m member) (inTime m member)
  exact ⟨m, made, kind, w', valid, settled⟩

end Annals

end Bureau
