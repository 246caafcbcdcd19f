import Bureau.Proofs.Desk.Redeemable
import Bureau.Proofs.Desk.Undisturbed

/-!
# What was quoted is what is settled

A ticket that a client has got can be redeemed as long as its offer has not been received and is
in time, if the client can pay for it and take what it buys. Then two rows are posted with the
amounts of the ticket, and nothing else changes (`Annals.quoted_is_settled`). Every stage of the
way agrees with the next: the offer in the cache is the one of the ticket, the rows of a sound
offer form the settlement that its request has asked for, and the books can take them.
-/

namespace Bureau

open Timed World

namespace Ledger

/-- The conversion of a sound offer goes through when the client can pay for it and take it. -/
theorem Balanced.post_conversion {l : Ledger} (h : l.Balanced) {o : Offer} (sound : o.Sound)
    {kind : SettlementKind} (hkind : o.kind? = some kind) {client : ClientId} {a b : Account}
    (source : l.account? ⟨client, o.source⟩ = some a)
    (covered : o.debitAmount.grains ≤ a.balance.grains)
    (destination : l.account? ⟨client, o.destination⟩ = some b)
    (room : b.balance.grains + o.creditAmount.grains ≤ maxAmount.grains)
    (txId : TxId) (now : Instant) :
    let batch := JournalBatch.conversion txId now kind client o.debit o.credit
    (∃ changes, (l.post batch).1 = some (.ok changes)) ∧
      l.Books (l.post batch).2 batch.entries := by
  intro batch
  have genuine := sound.ofBatch hkind txId now client
  have rows := Posting.rows_of_ofBatch genuine
  have places : ∀ e ∈ batch.entries, e.isClearing = false →
      e.amount.HasPlaces e.currency.places := fun e he _ => sound.places e he
  have dated : ∀ e ∈ batch.entries, e.transactedAt = now.toMicros := by
    simp [batch, JournalBatch.conversion]
  have allowed : ∀ e ∈ batch.entries, e.isClearing = false → ∃ a, l.account? e.key = some a ∧
      0 ≤ a.balance.grains + e.amount.grains ∧
      a.balance.grains + e.amount.grains ≤ maxAmount.grains := by
    have payer := h.accounts a (mem_of_account? source)
    have payee := h.accounts b (mem_of_account? destination)
    have bounded := (abs_le.1 ((Decimal.inRange_iff _).1 payer.inRange)).2
    have notNegative := payee.nonneg
    have debited := (Decimal.isPositive_iff _).1 sound.debited.1
    have credited := (Decimal.isPositive_iff _).1 sound.credited.1
    intro e he _
    simp only [batch, JournalBatch.conversion, List.mem_cons, List.not_mem_nil, or_false] at he
    rcases he with rfl | rfl
    · refine ⟨a, source, ?_, ?_⟩ <;> simp only [Offer.debit, Decimal.grains_neg] <;> omega
    · refine ⟨b, destination, ?_, room⟩
      simp only [Offer.credit]
      omega
  obtain ⟨changes, computed⟩ := h.exists_computed rows places allowed
  obtain ⟨result, -, posts⟩ := post_of_computed h.atRest genuine computed
  exact ⟨⟨changes, result⟩, h.books rows places dated posts⟩

end Ledger

namespace Desk

/-- Settling an offer whose posting nothing disturbs, and which goes through. -/
theorem settle_eq {d : Desk} {w : World} {client : ClientId} {offer : Offer}
    {kind : SettlementKind} (undisturbed : w.mishaps.ledger = []) (atRest : w.ledger.AtRest)
    (posts : ∀ txId, ∃ changes, (w.ledger.post
      (.conversion txId w.now kind client offer.debit offer.credit)).1 = some (.ok changes))
    (deadline : Option Nat) :
    ∃ txId w', let batch := JournalBatch.conversion txId w.now kind client offer.debit offer.credit
      d.settle client offer kind deadline w = (some (.ok ⟨txId, kind, batch.entries⟩), w') ∧
        w'.ledger = (w.ledger.post batch).2 := by
  let txId := TxId.mk (Uuid.ofRandom (w.random w.drawn))
  let batch := JournalBatch.conversion txId w.now kind client offer.debit offer.credit
  let drawn : World := { w with drawn := w.drawn + 1 }
  obtain ⟨changes, result⟩ := posts txId
  have posted : d.post batch deadline drawn =
      (some (.ok ⟨txId, kind, batch.entries, changes⟩),
        { drawn with ledger := (w.ledger.post batch).2 }) := by
    have free := Posting.unhindered_of_atRest atRest (Posting.start batch)
    rw [post, Posting.post_eq (w := drawn) undisturbed atRest.sound free, result]
    rfl
  have settled : d.settle client offer kind deadline w = (some (.ok ⟨txId, kind, batch.entries⟩),
      { drawn with
        ledger := (w.ledger.post batch).2
        counters := drawn.counters.add .offerRedeemed }) := by
    rw [settle, bind_apply, freshUuid_eq]
    simp only [bind_apply, Timed.read]
    rw [posted]
    rfl
  exact ⟨txId, _, settled, rfl⟩

end Desk

namespace Made

/-- The ticket is for what has been asked for, and the offer is sound. -/
structure Exact (m : Made) : Prop where
  sound : m.offer.Sound
  debit : m.ticket.debit = ⟨m.request.amount, m.request.source⟩
  credit : m.ticket.credit.currency = m.request.destination

theorem Exact.source {m : Made} (h : m.Exact) : m.offer.source = m.request.source :=
  congrArg Money.currency h.debit

theorem Exact.destination {m : Made} (h : m.Exact) : m.offer.destination = m.request.destination :=
  h.credit

end Made

/-- An offer that has been made waits in the cache, and the table of rates makes it exact. -/
theorem Event.of_made {d : Desk} {w : World} {limit : Option Nat} {request : OfferRequest}
    {m : Made} (made : Event.made d w (.errand limit (.createOffer request)) = [m]) :
    m.Genuine d ∧ m.entry d ∈ (d.createOffer request limit w).2.cache.entries ∧
      (Market.NoAnswers w → m.Exact) := by
  have ensured := d.ensures_createOffer request (w := w) limit
  simp only [Event.made] at made
  rcases result : d.createOffer request limit w with ⟨_ | e | ticket, w'⟩ <;>
    rw [result] at made ensured
  · cases made
  · cases made
  · obtain rfl := List.singleton_inj.1 made
    obtain ⟨-, ⟨_, ⟨⟩, makes⟩ | ⟨⟨_, impossible⟩, -⟩⟩ := ensured
    · exact ⟨⟨makes.valid, makes.named⟩, makes.gains.mem_new, fun none_ =>
        ⟨makes.sound none_, makes.debit none_, makes.credit none_⟩⟩
    · cases impossible

namespace Made

/-- The rows of the ticket: minus what it debits in the source, and plus what it credits in the
destination. -/
def rows (m : Made) (txId : TxId) (now : Instant) : List JournalEntry := [
  ⟨txId, m.request.client, m.request.source, m.ticket.debit.value.neg, now.toMicros⟩,
  ⟨txId, m.request.client, m.request.destination, m.ticket.credit.value, now.toMicros⟩]

/-- Redeeming the ticket settles what has been asked for, with the amounts of the ticket. -/
structure Settles (d : Desk) (m : Made) (deadline : Option Nat) (w : World)
    (kind : SettlementKind) (txId : TxId) : Prop where
  valid : m.request.validate = .ok kind
  /-- What is debited is the amount of the request. -/
  debit : m.ticket.debit = ⟨m.request.amount, m.request.source⟩
  credit : m.ticket.credit.currency = m.request.destination
  receipt : (d.redeem m.request.client m.ticket.token deadline w).1 =
    some (.ok ⟨txId, kind, m.rows txId w.now⟩)
  /-- Both rows are those of accounts that clients hold. -/
  holdable : ∀ e ∈ m.rows txId w.now, e.isClearing = false
  /-- Exactly these accounts change, by exactly these amounts, and these rows are posted. -/
  books : w.ledger.Books (d.redeem m.request.client m.ticket.token deadline w).2.ledger
    (m.rows txId w.now)

end Made

namespace Annals

/-- The ticket can be redeemed: its offer has not been received or replaced, and it expires by
neither clock; the cache answers and the ledger is not disturbed; the client holds both accounts,
and can pay what the ticket debits and take what it credits. -/
structure Ready (d : Desk) (m : Made) (deadline : Option Nat) (t : Annals) : Prop where
  unreceived : m.id ∉ t.received
  alone : ∀ m' ∈ t.made, m'.id ≠ m.id
  early : t.day.world.clock + t.day.world.takeSpan < m.expiry d
  inTime : t.day.world.now < m.ticket.expiresAt
  works : t.day.world.CacheWorks d deadline
  undisturbed : t.day.world.mishaps.ledger = []
  payer : ∃ a, t.day.world.ledger.account? ⟨m.request.client, m.request.source⟩ = some a ∧
    m.ticket.debit.value.value ≤ a.balance.value
  payee : ∃ a, t.day.world.ledger.account? ⟨m.request.client, m.request.destination⟩ = some a ∧
    a.balance.value + m.ticket.credit.value.value ≤ maxAmount.value

variable {d : Desk} {m : Made} {deadline : Option Nat} {t : Annals}

/-- The conversion of the offer can be posted, and its rows are those of the ticket. -/
theorem Ready.posts (ready : t.Ready d m deadline) (balanced : t.day.world.ledger.Balanced)
    (exact : m.Exact) {kind : SettlementKind} (flags : m.offer.kind? = some kind) (txId : TxId) :
    let l := t.day.world.ledger
    let batch := JournalBatch.conversion txId t.day.world.now kind m.request.client m.offer.debit
      m.offer.credit
    (∃ changes, (l.post batch).1 = some (.ok changes)) ∧
      batch.entries = m.rows txId t.day.world.now ∧
      l.Books (l.post batch).2 (m.rows txId t.day.world.now) := by
  intro l batch
  have rows : batch.entries = m.rows txId t.day.world.now := by
    simp only [batch, JournalBatch.conversion, Offer.debit, Offer.credit, exact.source,
      exact.destination]
    rfl
  obtain ⟨a, payer, covered⟩ := ready.payer
  obtain ⟨b, payee, room⟩ := ready.payee
  rw [← exact.source] at payer
  rw [← exact.destination] at payee
  have posts := balanced.post_conversion exact.sound flags payer
    (Decimal.value_le_value.1 covered) payee (Decimal.add_value_le.1 room) txId t.day.world.now
  exact ⟨posts.1, rows, rows ▸ posts.2⟩

/-- An offer that waits in the cache is settled when its client is ready. -/
theorem Ready.settles (ready : t.Ready d m deadline) (sound : t.day.world.Sound)
    (balanced : t.day.world.ledger.Balanced) (genuine : m.Genuine d) (exact : m.Exact)
    (there : m.entry d ∈ t.day.world.cache.entries) :
    ∃ kind txId, m.Settles d deadline t.day.world kind txId := by
  obtain ⟨kind, valid⟩ := genuine.valid
  obtain ⟨w', reached, aside, -⟩ :=
    Desk.reach_entry sound ready.works there genuine.named ready.early
  have claimed : d.claimed m.request.client m.ticket.token deadline t.day.world =
      (some (.ok (m.offer, kind)), w') := by
    rw [Desk.claimed_of_ok reached, aside.now, claim_own valid rfl ready.inTime]
  have undisturbed : w'.mishaps.ledger = [] := List.eq_nil_iff_forall_not_mem.2 fun c hc =>
    List.not_mem_nil (ready.undisturbed ▸ aside.calls c hc)
  have posts := ready.posts balanced exact (OfferRequest.valid_of_validate valid).flags
  rw [← aside.ledger, ← aside.now] at posts
  obtain ⟨txId, w'', settled, ledger⟩ := Desk.settle_eq (d := d) undisturbed
    (aside.ledger ▸ balanced.atRest) (fun txId => (posts txId).1) deadline
  obtain ⟨-, rows, books⟩ := posts txId
  have redeemed := (Desk.redeem_of_claimed_ok claimed).trans settled
  rw [rows, aside.now] at redeemed
  rw [← ledger, aside.ledger, aside.now] at books
  refine ⟨kind, txId, valid, exact.debit, exact.credit, ?_, ?_, ?_⟩
  · rw [redeemed]
  · simp only [Made.rows, List.mem_cons, List.not_mem_nil, or_false]
    rintro e (rfl | rfl)
    · exact exact.source ▸ exact.sound.source
    · exact exact.destination ▸ exact.sound.destination
  · rw [redeemed]
    exact books

/-- On any day at the desk: whoever has got a ticket, and after any events is ready to redeem it,
gets what was quoted. -/
theorem quoted_is_settled (d : Desk) {w : World} (new : w.IsNew) (events : List Event)
    (request : OfferRequest) (limit : Option Nat) {m : Made} {t : Annals} {deadline : Option Nat} :
    let day := events.foldl (Day.next d) { world := w }
    let asked := Event.errand limit (.createOffer request)
    asked.made d day.world = [m] → Reaches d { day := day.next d asked } t →
      t.Ready d m deadline → ∃ kind txId, m.Settles d deadline t.day.world kind txId := by
  intro day asked made reaches ready
  have inv : day.Inv := (Day.inv_new new).foldl d events
  obtain ⟨genuine, stored, exact⟩ := Event.of_made made
  have start : w.Sound := sound_of_empty (new.ledger ▸ Ledger.atRest_empty) new.entries
  have waits : Waits d m { day := day.next d asked } := fun _ _ => stored
  obtain ⟨sound, waits⟩ := waits.reaches (Day.sound_next (Day.sound_foldl start events) asked)
    reaches fun m' other same => absurd same (ready.alone m' other)
  have there : m.entry d ∈ t.day.world.cache.entries :=
    waits ready.unreceived (Nat.lt_of_le_of_lt (Nat.le_add_right _ _) ready.early)
  exact ready.settles sound (reaches.day_inv (inv.next d asked)).balanced genuine
    (exact inv.answers) there

/-- At the simple desk accounts have been opened, and money has been paid in. -/
def funded : Day := (Day.simple.take 3).foldl (Day.next Desk.simple) { world := World.simple }

/-- Then an offer is asked for. -/
def quoted : Annals :=
  { day := funded.next Desk.simple (.errand none (.createOffer OfferRequest.simple)) }

theorem quoted_is_settled_simple :
    ∃ m, Event.made Desk.simple funded.world (.errand none (.createOffer OfferRequest.simple)) =
        [m] ∧
      ∃ kind txId, m.Settles Desk.simple none quoted.day.world kind txId := by
  let asked := Event.errand none (.createOffer OfferRequest.simple)
  have new : World.simple.IsNew := ⟨rfl, rfl, fun q hq => absurd hq List.not_mem_nil⟩
  have one : (asked.made Desk.simple funded.world).length = 1 := by decide +kernel
  have early : ∀ m ∈ asked.made Desk.simple funded.world,
      quoted.day.world.clock + quoted.day.world.takeSpan < m.expiry Desk.simple := by
    decide +kernel
  have inTime : ∀ m ∈ asked.made Desk.simple funded.world,
      quoted.day.world.now < m.ticket.expiresAt := by decide +kernel
  have payer : ∀ m ∈ asked.made Desk.simple funded.world,
      ∃ a ∈ quoted.day.world.ledger.account? ⟨m.request.client, m.request.source⟩,
        m.ticket.debit.value.grains ≤ a.balance.grains := by decide +kernel
  have payee : ∀ m ∈ asked.made Desk.simple funded.world,
      ∃ a ∈ quoted.day.world.ledger.account? ⟨m.request.client, m.request.destination⟩,
        a.balance.grains + m.ticket.credit.value.grains ≤ maxAmount.grains := by decide +kernel
  have takes : quoted.day.world.mishaps.takes = [] := List.isEmpty_iff.1 (by decide +kernel)
  have works : quoted.day.world.CacheWorks Desk.simple none :=
    cacheWorks_of_calm (by decide +kernel) takes (by decide +kernel)
  obtain ⟨m, made⟩ := List.length_eq_one_iff.1 one
  have member : m ∈ asked.made Desk.simple funded.world := made ▸ List.mem_singleton_self m
  obtain ⟨a, source, covered⟩ := payer m member
  obtain ⟨b, destination, room⟩ := payee m member
  have ready : Ready Desk.simple m none quoted := {
    unreceived := List.not_mem_nil
    alone := fun m' other => absurd other List.not_mem_nil
    early := early m member
    inTime := inTime m member
    works
    undisturbed := List.isEmpty_iff.1 (by decide +kernel)
    payer := ⟨a, source, Decimal.value_le_value.2 covered⟩
    payee := ⟨b, destination, Decimal.add_value_le.2 room⟩ }
  exact ⟨m, made, quoted_is_settled Desk.simple new (Day.simple.take 3) OfferRequest.simple none
    made .refl ready⟩

end Annals

end Bureau
