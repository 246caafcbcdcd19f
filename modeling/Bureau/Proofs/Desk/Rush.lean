import Bureau.Proofs.Desk.Day
import Bureau.Proofs.Text.Hex
import Mathlib.Logic.Relation

/-!
# A rush of redemptions

`Rush` is a desk with any number of redemptions under way, each somewhere between its two steps:
it has been asked for, it has got hold of an offer, or it is over. Steps of different calls, other
errands and incidents come in any order. An offer is in the cache, with one call, or gone; once a
call has got hold of it, no other will (`Rush.Inv.once`), and only that call can post it
(`Rush.Inv.posted`).
-/

namespace Bureau

open Timed World

/-- A redemption at its place between the steps. -/
inductive Redemption where
  | asked (client : ClientId) (token : String)
  | holding (client : ClientId) (token : String) (offer : Offer)
  /-- It is over, with the offer that it has got hold of and its answer, unless the client has
  given up. -/
  | ended (token : String) (received : Option OfferId) (answer : Option (Except DeskError Receipt))

namespace Redemption

/-- The token that is presented. -/
def token : Redemption → String
  | asked _ token | holding _ token _ | ended token _ _ => token

/-- The offer that the call has got hold of. -/
def received : Redemption → Option OfferId
  | asked _ _ => none
  | holding _ _ offer => some offer.id
  | ended _ received _ => received

end Redemption

/-- A world with redemptions that are between their steps, and what has come of the others. -/
structure Rush where
  world : World
  calls : List Redemption := []
  /-- The identifiers of the offers that have been made. -/
  created : List OfferId := []
  /-- What has been posted, in the order of the commits, and for which offer. -/
  log : List (Option OfferId × Receipt) := []

namespace Rush

/-- The rush after an errand other than a redemption; a redemption is taken up. -/
@[simp] def serve (d : Desk) (s : Rush) (deadline : Option Nat) : Errand → Rush
  | .redeem client token => { s with calls := s.calls ++ [.asked client token] }
  | .createOffer request =>
    match d.createOffer request deadline s.world with
    | (some (.ok _), world) =>
      { s with world, created := s.created ++ [⟨Uuid.ofRandom (s.world.random s.world.drawn)⟩] }
    | (_, world) => { s with world }
  | .deposit client currency amount =>
    match d.deposit client currency amount deadline s.world with
    | (some (.ok receipt), world) => { s with world, log := s.log ++ [(none, receipt)] }
    | (_, world) => { s with world }
  | .openAccount client currency =>
    { s with world := (d.openAccount client currency deadline s.world).2 }
  | .balance client currency => { s with world := (d.balance client currency deadline s.world).2 }
  | .transaction client txId => { s with world := (d.transaction client txId deadline s.world).2 }
  | .listAccounts client cursor asked =>
    { s with world := (d.listAccounts client cursor asked deadline s.world).2 }
  | .listJournal client currency query asked =>
    { s with world := (d.listJournal client currency query asked deadline s.world).2 }
  | .verify txId => { s with world := (Desk.verify txId deadline s.world).2 }

/-- The rush after the first step of a redemption. -/
def reach (d : Desk) (s : Rush) (deadline : Option Nat) (i : Nat) (client : ClientId)
    (token : String) : Rush :=
  match d.reach token deadline s.world with
  | (some (.ok offer), world) =>
    { s with world, calls := s.calls.set i (.holding client token offer) }
  | (some (.error e), world) =>
    { s with world, calls := s.calls.set i (.ended token none (some (.error e))) }
  | (none, world) => { s with world, calls := s.calls.set i (.ended token none none) }

/-- The rush after the second step of a redemption. -/
def conclude (d : Desk) (s : Rush) (deadline : Option Nat) (i : Nat) (client : ClientId)
    (token : String) (offer : Offer) : Rush :=
  match d.conclude client offer deadline s.world with
  | (some (.ok receipt), world) =>
    { s with
      world
      calls := s.calls.set i (.ended token (some offer.id) (some (.ok receipt)))
      log := s.log ++ [(some offer.id, receipt)] }
  | (some (.error e), world) =>
    { s with world, calls := s.calls.set i (.ended token (some offer.id) (some (.error e))) }
  | (none, world) => { s with world, calls := s.calls.set i (.ended token (some offer.id) none) }

/-- Anything may come next. -/
inductive Step (d : Desk) (s : Rush) : Rush → Prop
  | errand (deadline : Option Nat) (errand : Errand) : Step d s (s.serve d deadline errand)
  | incident (incident : Incident) : Step d s { s with world := incident.change s.world }
  | reach (deadline : Option Nat) {i : Nat} {client : ClientId} {token : String}
      (place : s.calls[i]? = some (.asked client token)) :
      Step d s (s.reach d deadline i client token)
  | conclude (deadline : Option Nat) {i : Nat} {client : ClientId} {token : String} {offer : Offer}
      (place : s.calls[i]? = some (.holding client token offer)) :
      Step d s (s.conclude d deadline i client token offer)

/-- The states that any order of steps can reach. -/
abbrev Reaches (d : Desk) : Rush → Rush → Prop := Relation.ReflTransGen (Step d)

/-- What every state keeps. -/
structure Inv (d : Desk) (first : Ledger) (s : Rush) : Prop where
  atRest : s.world.ledger.AtRest
  /-- The journal is what the log says. -/
  journal : s.world.ledger.journal = first.journal ++ s.log.flatMap (·.2.entries)
  /-- Offers are kept under their own keys. -/
  named : ∀ x ∈ s.world.cache.entries, x.1 = x.2.offer.id.cacheKey
  /-- An offer in the cache has been made, and no call has got hold of it. -/
  cached : ∀ x ∈ s.world.cache.entries, x.2.offer.id ∈ s.created ∧
    ∀ c ∈ s.calls, c.received ≠ some x.2.offer.id
  /-- A call gets hold of the offer that its token names. -/
  tokens : ∀ c ∈ s.calls, ∀ id, c.received = some id →
    d.offerOf? c.token = some id ∧ id ∈ s.created
  /-- No two calls get hold of one offer. -/
  once : ∀ (i j : Nat) (c c' : Redemption) (id : OfferId), s.calls[i]? = some c →
    s.calls[j]? = some c' → c.received = some id → c'.received = some id → i = j
  /-- Whoever has got hold of nothing is told so. -/
  missed : ∀ token answer, .ended token none (some answer) ∈ s.calls →
    ∃ e, answer = .error e ∧ Desk.IsMiss e
  /-- What is posted for an offer is posted by the call that has got hold of it. -/
  posted : ∀ id receipt, (some id, receipt) ∈ s.log →
    ∃ token, .ended token (some id) (some (.ok receipt)) ∈ s.calls
  single : (s.log.filterMap (·.1)).Nodup

section Inv

variable {d : Desk} {first : Ledger} {s s' : Rush} {w : World} {i : Nat}

/-- A rush starts with no call under way and no offer made. -/
theorem inv_start (atRest : w.ledger.AtRest) (empty : w.cache.entries = []) :
    Inv d w.ledger { world := w } where
  atRest
  journal := by simp
  named := by simp [empty]
  cached := by simp [empty]
  tokens := by simp
  once := by simp
  missed := by simp
  posted := by simp
  single := List.nodup_nil

/-- A change of the world that posts nothing and brings no offer into the cache. -/
theorem Inv.quiet (inv : Inv d first s)
    (fewer : w.cache.entries.Sublist s.world.cache.entries) (atRest : w.ledger.AtRest)
    (journal : w.ledger.journal = s.world.ledger.journal) : Inv d first { s with world := w } where
  atRest
  journal := journal.trans inv.journal
  named x hx := inv.named x (fewer.subset hx)
  cached x hx := inv.cached x (fewer.subset hx)
  tokens := inv.tokens
  once := inv.once
  missed := inv.missed
  posted := inv.posted
  single := inv.single

theorem Inv.aside (inv : Inv d first s) (aside : s.world.Aside w)
    (fewer : w.cache.entries.Sublist s.world.cache.entries) :
    Inv d first { s with world := w } :=
  inv.quiet fewer (aside.ledger ▸ inv.atRest) (by rw [aside.ledger])

theorem Inv.unchanged (inv : Inv d first s) (beside : s.world.Beside w)
    (same : s.world.ledger.Unchanged w.ledger) : Inv d first { s with world := w } :=
  inv.quiet (beside.cache ▸ List.Sublist.refl _) (same.atRest inv.atRest) same.journal

/-! ### Calls -/

variable {c c' x : Redemption}

theorem getElem?_set_cases {calls : List Redemption} {j : Nat}
    (hx : (calls.set i c')[j]? = some x) : i = j ∧ x = c' ∨ calls[j]? = some x := by
  rw [List.getElem?_set] at hx
  split at hx
  · rename_i same
    split at hx
    · exact .inl ⟨same, (Option.some.inj hx).symm⟩
    · cases hx
  · exact .inr hx

theorem mem_set {calls : List Redemption} (place : calls[i]? = some c) (hx : x ∈ calls)
    (hne : x ≠ c) : x ∈ calls.set i c' := by
  obtain ⟨j, hj⟩ := List.mem_iff_getElem?.1 hx
  refine List.mem_iff_getElem?.2 ⟨j, ?_⟩
  rw [List.getElem?_set, if_neg, hj]
  rintro rfl
  rw [place] at hj
  exact hne (Option.some.inj hj).symm

/-- A call that is not ended may be told an answer, as long as it keeps what it has got hold of. -/
theorem Inv.tell (inv : Inv d first s) (place : s.calls[i]? = some c)
    (open_ : ∀ token received answer, c ≠ .ended token received answer)
    (token : c'.token = c.token) (received : c'.received = c.received)
    (missed : ∀ token answer, c' = .ended token none (some answer) →
      ∃ e, answer = .error e ∧ Desk.IsMiss e) :
    Inv d first { s with calls := s.calls.set i c' } := by
  have before : c ∈ s.calls := List.mem_of_getElem? place
  have look {j : Nat} {x : Redemption} (hx : (s.calls.set i c')[j]? = some x) :
      ∃ y, s.calls[j]? = some y ∧ x.received = y.received := by
    rcases getElem?_set_cases hx with ⟨rfl, rfl⟩ | hx
    · exact ⟨c, place, received⟩
    · exact ⟨x, hx, rfl⟩
  exact {
    atRest := inv.atRest
    journal := inv.journal
    named := inv.named
    cached := fun x hx => by
      refine ⟨(inv.cached x hx).1, fun y hy => ?_⟩
      rcases List.mem_or_eq_of_mem_set hy with hy | rfl
      · exact (inv.cached x hx).2 y hy
      · rw [received]
        exact (inv.cached x hx).2 c before
    tokens := fun y hy id hid => by
      rcases List.mem_or_eq_of_mem_set hy with hy | rfl
      · exact inv.tokens y hy id hid
      · rw [received] at hid
        rw [token]
        exact inv.tokens c before id hid
    once := fun j k y z id hy hz hyid hzid => by
      obtain ⟨y', hy', same⟩ := look hy
      obtain ⟨z', hz', same'⟩ := look hz
      exact inv.once j k y' z' id hy' hz' (same ▸ hyid) (same' ▸ hzid)
    missed := fun token answer h => by
      rcases List.mem_or_eq_of_mem_set h with h | rfl
      · exact inv.missed _ answer h
      · exact missed _ answer rfl
    posted := fun id receipt h => by
      obtain ⟨token, h⟩ := inv.posted id receipt h
      exact ⟨token, mem_set place h (open_ _ _ _).symm⟩
    single := inv.single }

/-- A call gets hold of an offer, which is then no longer in the cache. -/
theorem Inv.receive {client : ClientId} {token : String} {id : OfferId} {offer : Offer}
    {expiresAt : Nat} (inv : Inv d first s) (place : s.calls[i]? = some (.asked client token))
    (names : d.offerOf? token = some id) (aside : s.world.Aside w)
    (there : s.world.cache.lookup id.cacheKey = some ⟨offer, expiresAt⟩)
    (gone : w.cache = s.world.cache.erase id.cacheKey) :
    Inv d first { s with world := w, calls := s.calls.set i (.holding client token offer) } := by
  have entry : (id.cacheKey, ⟨offer, expiresAt⟩) ∈ s.world.cache.entries :=
    OfferCache.mem_of_lookup there
  obtain ⟨created, unheld⟩ := inv.cached (id.cacheKey, ⟨offer, expiresAt⟩) entry
  have key : id.cacheKey = offer.id.cacheKey :=
    inv.named (id.cacheKey, ⟨offer, expiresAt⟩) entry
  obtain rfl := OfferId.cacheKey_injective key
  have fewer : w.cache.entries.Sublist s.world.cache.entries :=
    gone ▸ OfferCache.sublist_erase _ _
  have before : (.asked client token : Redemption) ∈ s.calls := List.mem_of_getElem? place
  -- What is still in the cache has been received by nobody.
  have other {j : Nat} {x : Redemption} (hx : s.calls[j]? = some x) :
      x.received ≠ some offer.id := unheld x (List.mem_of_getElem? hx)
  exact {
    atRest := by rw [aside.ledger]; exact inv.atRest
    journal := by rw [aside.ledger]; exact inv.journal
    named := fun x hx => inv.named x (fewer.subset hx)
    cached := fun x hx => by
      refine ⟨(inv.cached x (fewer.subset hx)).1, fun y hy => ?_⟩
      rcases List.mem_or_eq_of_mem_set hy with hy | rfl
      · exact (inv.cached x (fewer.subset hx)).2 y hy
      · intro same
        have left : x.1 ≠ offer.id.cacheKey := by
          rw [gone] at hx
          simpa using (List.mem_filter.1 hx).2
        rw [inv.named x (fewer.subset hx)] at left
        exact left (congrArg OfferId.cacheKey (Option.some.inj same).symm)
    tokens := fun y hy id hid => by
      rcases List.mem_or_eq_of_mem_set hy with hy | rfl
      · exact inv.tokens y hy id hid
      · cases hid
        exact ⟨names, created⟩
    once := fun j k y z id hy hz hyid hzid => by
      rcases getElem?_set_cases hy with ⟨hj, rfl⟩ | hy <;>
        rcases getElem?_set_cases hz with ⟨hk, rfl⟩ | hz
      · exact hj.symm.trans hk
      · exact absurd (hzid.trans hyid.symm) (other hz)
      · exact absurd (hyid.trans hzid.symm) (other hy)
      · exact inv.once j k y z id hy hz hyid hzid
    missed := fun token answer h => by
      rcases List.mem_or_eq_of_mem_set h with h | h
      · exact inv.missed token answer h
      · cases h
    posted := fun id receipt h => by
      obtain ⟨token, h⟩ := inv.posted id receipt h
      exact ⟨token, mem_set place h (by simp)⟩
    single := inv.single }

/-- Rows are posted for no offer, or for one that the log does not have and by the call that has
got hold of it. -/
theorem Inv.log {label : Option OfferId} {receipt : Receipt} (inv : Inv d first s)
    (beside : s.world.Beside w) (atRest : w.ledger.AtRest)
    (journal : w.ledger.journal = s.world.ledger.journal ++ receipt.entries)
    (new : ∀ id, label = some id → id ∉ s.log.filterMap (·.1) ∧
      ∃ token, .ended token (some id) (some (.ok receipt)) ∈ s.calls) :
    Inv d first { s with world := w, log := s.log ++ [(label, receipt)] } where
  atRest
  journal := by rw [journal, inv.journal]; simp
  named := beside.cache ▸ inv.named
  cached := beside.cache ▸ inv.cached
  tokens := inv.tokens
  once := inv.once
  missed := inv.missed
  posted id r h := by
    rcases List.mem_append.1 h with h | h
    · exact inv.posted id r h
    · obtain ⟨rfl, rfl⟩ := Prod.mk.inj (List.mem_singleton.1 h)
      exact (new id rfl).2
  single := by
    cases label with
    | none => simpa using inv.single
    | some id =>
      rw [List.filterMap_append]
      refine List.nodup_append.2 ⟨inv.single, by simp, ?_⟩
      rintro a ha b hb rfl
      obtain rfl : a = id := by simpa using hb
      exact (new _ rfl).1 ha

/-- A call is taken up. -/
theorem Inv.ask (inv : Inv d first s) (client : ClientId) (token : String) :
    Inv d first { s with calls := s.calls ++ [.asked client token] } := by
  have before {x : Redemption} (hx : x ∈ s.calls ++ [.asked client token]) :
      x ∈ s.calls ∨ x = .asked client token := by simpa using hx
  have look {j : Nat} {x : Redemption} {id : OfferId}
      (hx : (s.calls ++ [.asked client token])[j]? = some x) (received : x.received = some id) :
      s.calls[j]? = some x := by
    rw [List.getElem?_append] at hx
    split at hx
    · exact hx
    · obtain rfl := List.mem_singleton.1 (List.mem_of_getElem? hx)
      cases received
  exact {
    atRest := inv.atRest
    journal := inv.journal
    named := inv.named
    cached := fun x hx => by
      refine ⟨(inv.cached x hx).1, fun c hc => ?_⟩
      rcases before hc with hc | rfl
      · exact (inv.cached x hx).2 c hc
      · exact fun h => by cases h
    tokens := fun c hc id received => by
      rcases before hc with hc | rfl
      · exact inv.tokens c hc id received
      · cases received
    once := fun j k y z id hy hz hyid hzid =>
      inv.once j k y z id (look hy hyid) (look hz hzid) hyid hzid
    missed := fun token answer h => by
      rcases before h with h | h
      · exact inv.missed token answer h
      · cases h
    posted := fun id receipt h => by
      obtain ⟨token, h⟩ := inv.posted id receipt h
      exact ⟨token, List.mem_append_left _ h⟩
    single := inv.single }

/-- An offer with a new identifier comes into the cache. -/
theorem Inv.create {offer : Offer} {now lifetime : Nat} (inv : Inv d first s)
    (aside : s.world.Aside w)
    (gains : OfferCache.Gains now s.world.cache.entries w.cache.entries offer lifetime)
    (new : offer.id ∉ s.created) :
    Inv d first { s with world := w, created := s.created ++ [offer.id] } := by
  have before {x : String × CacheEntry} (hx : x ∈ w.cache.entries) :
      x ∈ s.world.cache.entries ∨ x = (offer.id.cacheKey, ⟨offer, now + lifetime⟩) :=
    (gains.mem_cases hx).imp_left And.left
  exact {
    atRest := by rw [aside.ledger]; exact inv.atRest
    journal := by rw [aside.ledger]; exact inv.journal
    named := fun x hx => by
      rcases before hx with hx | rfl
      · exact inv.named x hx
      · rfl
    cached := fun x hx => by
      rcases before hx with hx | rfl
      · exact ⟨List.mem_append_left _ (inv.cached x hx).1, (inv.cached x hx).2⟩
      · refine ⟨List.mem_append_right _ List.mem_cons_self, fun c hc received => ?_⟩
        exact new (inv.tokens c hc offer.id received).2
    tokens := fun c hc id received => by
      obtain ⟨names, created⟩ := inv.tokens c hc id received
      exact ⟨names, List.mem_append_left _ created⟩
    once := inv.once
    missed := inv.missed
    posted := inv.posted
    single := inv.single }

/-! ### Steps -/

theorem Inv.looks {α : Type} {x : Timed α} (inv : Inv d first s) (deadline : Option Nat)
    (h : x.Looks) : Inv d first { s with world := (x deadline s.world).2 } := by
  have like : s.world.Like (x deadline s.world).2 := (h s.world).world deadline
  exact inv.aside like.toAside (like.cache ▸ List.Sublist.refl _)

theorem Inv.openAccount (inv : Inv d first s) (deadline : Option Nat) (client : ClientId)
    (currency : Currency) : Inv d first (s.serve d deadline (.openAccount client currency)) := by
  obtain ⟨beside, opened⟩ := d.openAccount_cases client currency s.world deadline
  simp only [serve]
  rcases opened with same | ⟨-, now, created⟩
  · exact inv.unchanged beside (inv.atRest.sound.unchanged same)
  · refine inv.quiet (beside.cache ▸ List.Sublist.refl _) ?_ ?_
    · exact created ▸ inv.atRest.createAccount ⟨client, currency⟩ now
    · rw [created, Ledger.journal_createAccount]

theorem Inv.deposit (inv : Inv d first s) (deadline : Option Nat) (client : ClientId)
    (currency : Currency) (amount : Decimal) :
    Inv d first (s.serve d deadline (.deposit client currency amount)) := by
  have ensured := d.ensures_deposit inv.atRest.sound client currency amount deadline
  simp only [serve]
  cases hx : d.deposit client currency amount deadline s.world with
  | mk result w =>
    rw [hx] at ensured
    rcases result with _ | e | receipt
    · exact inv.unchanged ensured.1 ensured.2
    · obtain ⟨beside, ⟨_, ⟨⟩, -⟩ | ⟨-, same⟩⟩ := ensured
      exact inv.unchanged beside same
    · obtain ⟨beside, ⟨txId, ⟨⟩, -, -, posted⟩ | ⟨⟨_, ⟨⟩⟩, -⟩⟩ := ensured
      exact inv.log beside (posted.atRest inv.atRest) posted.journal fun _ h => by cases h

theorem Inv.createOffer (inv : Inv d first s) (deadline : Option Nat) (request : OfferRequest)
    (distinct : (s.serve d deadline (.createOffer request)).created.Nodup) :
    Inv d first (s.serve d deadline (.createOffer request)) := by
  have ensured := d.ensures_createOffer request (w := s.world) deadline
  simp only [serve] at distinct ⊢
  cases hx : d.createOffer request deadline s.world with
  | mk result w =>
    rw [hx] at ensured distinct
    rcases result with _ | e | ticket
    · exact inv.aside ensured.1 ensured.2.fewer
    · obtain ⟨aside, ⟨_, ⟨⟩, -⟩ | ⟨-, sweeps⟩⟩ := ensured
      exact inv.aside aside sweeps.fewer
    · obtain ⟨aside, ⟨_, -, makes⟩ | ⟨⟨_, ⟨⟩⟩, -⟩⟩ := ensured
      refine inv.create aside makes.gains fun old => ?_
      exact (List.nodup_append.1 distinct).2.2 _ old _ List.mem_cons_self rfl

theorem Inv.serve (inv : Inv d first s) (deadline : Option Nat) (errand : Errand)
    (distinct : (s.serve d deadline errand).created.Nodup) :
    Inv d first (s.serve d deadline errand) := by
  cases errand with
  | openAccount client currency => exact inv.openAccount deadline client currency
  | deposit client currency amount => exact inv.deposit deadline client currency amount
  | createOffer request => exact inv.createOffer deadline request distinct
  | redeem client token => exact inv.ask client token
  | balance client currency => exact inv.looks deadline (d.looks_balance client currency)
  | transaction client txId => exact inv.looks deadline (d.looks_transaction client txId)
  | listAccounts client cursor asked =>
    exact inv.looks deadline (d.looks_listAccounts client cursor asked)
  | listJournal client currency query asked =>
    exact inv.looks deadline (d.looks_listJournal client currency query asked)
  | verify txId => exact inv.looks deadline (Desk.looks_verify txId)

theorem Inv.reach {client : ClientId} {token : String} (inv : Inv d first s)
    (place : s.calls[i]? = some (.asked client token)) (deadline : Option Nat) :
    Inv d first (s.reach d deadline i client token) := by
  have ensured := d.ensures_reach (w := s.world) token deadline
  unfold Rush.reach
  cases hx : d.reach token deadline s.world with
  | mk result w =>
    rw [hx] at ensured
    rcases result with _ | e | offer
    · have inv := inv.unchanged ensured.toBeside (inv.atRest.sound.unchanged ensured.ledger)
      exact inv.tell place (by simp) rfl rfl (by simp)
    · obtain ⟨aside, ⟨id, -, takes⟩ | ⟨-, ⟨⟩, same⟩⟩ := ensured
      · refine (inv.aside aside takes.sublist).tell place (by simp) rfl rfl
          fun token answer h => ?_
        cases h
        exact ⟨_, rfl, takes.isMiss⟩
      · refine (inv.aside aside (same ▸ List.Sublist.refl _)).tell place (by simp) rfl rfl
          fun token answer h => ?_
        cases h
        exact ⟨_, rfl, .inl rfl⟩
    · obtain ⟨aside, ⟨id, names, takes⟩ | ⟨-, ⟨⟩, -⟩⟩ := ensured
      obtain ⟨expiresAt, there, -, gone⟩ := takes.exists_of_ok
      exact inv.receive place names aside there gone

theorem Inv.conclude {client : ClientId} {token : String} {offer : Offer} (inv : Inv d first s)
    (place : s.calls[i]? = some (.holding client token offer)) (deadline : Option Nat) :
    Inv d first (s.conclude d deadline i client token offer) := by
  have ensured := d.ensures_conclude inv.atRest.sound client offer deadline
  have told (answer : Option (Except DeskError Receipt)) :
      Inv d first { s with calls := s.calls.set i (.ended token (some offer.id) answer) } :=
    inv.tell place (by simp) rfl rfl (by simp)
  unfold Rush.conclude
  cases hx : d.conclude client offer deadline s.world with
  | mk result w =>
    rw [hx] at ensured
    rcases result with _ | e | receipt
    · exact (told none).unchanged ensured.1 ensured.2
    · obtain ⟨beside, ⟨_, _, ⟨⟩, -⟩ | ⟨-, same⟩⟩ := ensured
      exact (told _).unchanged beside same
    · obtain ⟨beside, ⟨txId, kind, ⟨⟩, posted⟩ | ⟨⟨_, ⟨⟩⟩, -⟩⟩ := ensured
      refine (told _).log beside (posted.atRest inv.atRest) posted.journal fun id h => ?_
      cases h
      refine ⟨fun logged => ?_, token, ?_⟩
      · -- Whoever has posted the offer is over, and alone has got hold of it.
        obtain ⟨⟨_, before⟩, entry, rfl⟩ := List.mem_filterMap.1 logged
        obtain ⟨token', ended⟩ := inv.posted offer.id before entry
        obtain ⟨j, hj⟩ := List.mem_iff_getElem?.1 ended
        obtain rfl := inv.once i j _ _ offer.id place hj rfl rfl
        rw [place] at hj
        cases hj
      · obtain ⟨inside, -⟩ := List.getElem?_eq_some_iff.1 place
        exact List.mem_set inside _

/-- Only a redemption is a new call. -/
theorem calls_serve {errand : Errand} (deadline : Option Nat)
    (other : ∀ client token, errand ≠ .redeem client token) :
    (s.serve d deadline errand).calls = s.calls := by
  cases errand with
  | redeem client token => exact absurd rfl (other client token)
  | deposit client currency amount =>
    simp only [serve]
    split <;> rfl
  | createOffer request =>
    simp only [serve]
    split <;> rfl
  | _ => rfl

/-- Offers that have been made stay made. -/
theorem Step.created (step : Step d s s') : s.created.Sublist s'.created := by
  cases step with
  | errand deadline errand =>
    cases errand with
    | deposit client currency amount =>
      simp only [serve]
      split <;> exact List.Sublist.refl _
    | createOffer request =>
      simp only [serve]
      split
      · exact List.sublist_append_left _ _
      · exact List.Sublist.refl _
    | _ => exact List.Sublist.refl _
  | incident incident => exact List.Sublist.refl _
  | reach deadline place =>
    unfold Rush.reach
    split <;> exact List.Sublist.refl _
  | conclude deadline place =>
    unfold Rush.conclude
    split <;> exact List.Sublist.refl _

/-- A call that is over stays as it is. -/
theorem Step.ended {token : String} {received : Option OfferId}
    {answer : Option (Except DeskError Receipt)} (step : Step d s s')
    (ended : s.calls[i]? = some (.ended token received answer)) :
    s'.calls[i]? = some (.ended token received answer) := by
  have kept {j : Nat} {c c' : Redemption} (place : s.calls[j]? = some c)
      (open_ : c ≠ .ended token received answer) :
      (s.calls.set j c')[i]? = some (.ended token received answer) := by
    rw [List.getElem?_set, if_neg, ended]
    rintro rfl
    rw [place] at ended
    exact open_ (Option.some.inj ended)
  cases step with
  | errand deadline errand =>
    by_cases redeems : ∃ client token, errand = .redeem client token
    · obtain ⟨client, token, rfl⟩ := redeems
      obtain ⟨inside, -⟩ := List.getElem?_eq_some_iff.1 ended
      exact (List.getElem?_append_left inside).trans ended
    · rw [calls_serve deadline fun client token same => redeems ⟨client, token, same⟩]
      exact ended
  | incident incident => exact ended
  | reach deadline place =>
    unfold Rush.reach
    split <;> exact kept place (by simp)
  | conclude deadline place =>
    unfold Rush.conclude
    split <;> exact kept place (by simp)

/-- Every step keeps the invariant, as long as no two offers have one identifier. -/
theorem Inv.step (inv : Inv d first s) (step : Step d s s') (distinct : s'.created.Nodup) :
    Inv d first s' := by
  cases step with
  | errand deadline errand => exact inv.serve deadline errand distinct
  | incident incident =>
    have same := incident.ledger_change s.world
    exact inv.quiet (incident.sublist_change s.world) (same ▸ inv.atRest) (by rw [same])
  | reach deadline place => exact inv.reach place deadline
  | conclude deadline place => exact inv.conclude place deadline

/-- So does a run. -/
theorem Inv.reaches (inv : Inv d first s) (reaches : Reaches d s s')
    (distinct : s'.created.Nodup) : Inv d first s' := by
  induction reaches with
  | refl => exact inv
  | tail _ step ih => exact (ih (distinct.sublist step.created)).step step distinct

theorem ended_reaches {token : String} {received : Option OfferId}
    {answer : Option (Except DeskError Receipt)} (reaches : Reaches d s s')
    (ended : s.calls[i]? = some (.ended token received answer)) :
    s'.calls[i]? = some (.ended token received answer) := by
  induction reaches with
  | refl => exact ended
  | tail _ step ih => exact step.ended ih

end Inv

end Rush

end Bureau
