import Bureau.Proofs.Desk.Answers
import Bureau.Proofs.Desk.Rush

/-!
# An offer is redeemed at most once

However redemptions, other errands and incidents come in between each other: an offer is posted at
most once, by the one call that has got hold of it, and never when that call has failed.
-/

namespace Bureau.Rush

section

variable {d : Desk} {first : Ledger} {s : Rush} {i : Nat} {client : ClientId} {token : String}

/-- A call that reaches a working cache is told that there is no offer, unless it gets hold of the
one that its token names, which no call has done before. -/
theorem Inv.told (inv : Inv d first s) (place : s.calls[i]? = some (.asked client token))
    {deadline : Option Nat} (works : s.world.CacheWorks d deadline) :
    let next := s.reach d deadline i client token
    next.calls[i]? = some (.ended token none (some (.error .notFoundOrExpired))) ∨
      ∃ offer, next.calls[i]? = some (.holding client token offer) ∧
        d.offerOf? token = some offer.id ∧ ∀ c ∈ s.calls, c.received ≠ some offer.id := by
  intro next
  have after : Inv d first next := inv.reach place deadline
  obtain ⟨inside, -⟩ := List.getElem?_eq_some_iff.1 place
  obtain ⟨answer, w', answers, miss⟩ := d.answers_reach works token
  cases answer with
  | error e =>
    obtain rfl := miss e rfl
    left
    simp only [next, Rush.reach, answers]
    exact List.getElem?_set_self inside
  | ok offer =>
    have calls : next.calls = s.calls.set i (.holding client token offer) := by
      simp only [next, Rush.reach, answers]
    have holding : next.calls[i]? = some (.holding client token offer) := by
      rw [calls]
      exact List.getElem?_set_self inside
    refine .inr ⟨offer, holding, ?_, fun c hc received => ?_⟩
    · exact (after.tokens _ (List.mem_of_getElem? holding) offer.id rfl).1
    · obtain ⟨j, hj⟩ := List.mem_iff_getElem?.1 hc
      have other : i ≠ j := by
        rintro rfl
        rw [place] at hj
        cases hj
        cases received
      have still : next.calls[j]? = some c := by
        rw [calls, List.getElem?_set_ne other, hj]
      exact other (after.once i j _ c offer.id holding still rfl received)

end

/-! ### Two calls for one offer -/

/-- The rush after errands that nobody gives up. -/
def serveAll (d : Desk) (s : Rush) (errands : List Errand) : Rush :=
  errands.foldl (fun s errand => s.serve d none errand) s

theorem reaches_serveAll (d : Desk) (s : Rush) (errands : List Errand) :
    Reaches d s (s.serveAll d errands) := by
  induction errands generalizing s with
  | nil => exact .refl
  | cons errand rest ih => exact .head (.errand none errand) (ih _)

theorem calls_serveAll {d : Desk} {s : Rush} {errands : List Errand}
    (other : ∀ errand ∈ errands, ∀ client token, errand ≠ .redeem client token) :
    (s.serveAll d errands).calls = s.calls := by
  induction errands generalizing s with
  | nil => rfl
  | cons errand rest ih =>
    obtain ⟨head, tail⟩ := List.forall_mem_cons.1 other
    exact (ih tail).trans (calls_serve none head)

/-- A token is presented twice, and both calls reach for its offer. -/
def presentTwice (d : Desk) (s : Rush) (client : ClientId) (token : String) : Rush :=
  let asked := s.serveAll d [.redeem client token, .redeem client token]
  (asked.reach d none 0 client token).reach d none 1 client token

theorem reaches_presentTwice (d : Desk) {s : Rush} (new : s.calls = []) (client : ClientId)
    (token : String) :
    Reaches d s (s.presentTwice d client token) ∧
      (s.presentTwice d client token).created = s.created := by
  have reached (s : Rush) (i : Nat) : ∃ c, (s.reach d none i client token).created = s.created ∧
      (s.reach d none i client token).calls = s.calls.set i c := by
    unfold reach
    split <;> exact ⟨_, rfl, rfl⟩
  unfold presentTwice
  have asked := reaches_serveAll d s [.redeem client token, .redeem client token]
  have places : (s.serveAll d [.redeem client token, .redeem client token]).calls =
      [.asked client token, .asked client token] := by
    simp [serveAll, serve, new]
  have same : (s.serveAll d [.redeem client token, .redeem client token]).created = s.created := rfl
  generalize s.serveAll d [.redeem client token, .redeem client token] = s₀ at *
  obtain ⟨c, created, calls⟩ := reached s₀ 0
  obtain ⟨-, created', -⟩ := reached (s₀.reach d none 0 client token) 1
  have first : s₀.calls[0]? = some (.asked client token) := by rw [places]; rfl
  have second : (s₀.reach d none 0 client token).calls[1]? = some (.asked client token) := by
    rw [calls, places]
    rfl
  exact ⟨(asked.tail (.reach none first)).tail (.reach none second),
    created'.trans (created.trans same)⟩

/-- Money is paid in and an offer is made. -/
def prepared : Rush :=
  ({ world := World.simple } : Rush).serveAll Desk.simple [
    .openAccount default Currency.usd,
    .openAccount default Currency.eur,
    .deposit default Currency.usd (.hundredths 10000),
    .createOffer OfferRequest.simple]

/-! ### At most once -/

/-- No offer is redeemed twice. -/
structure AtMostOnce (d : Desk) (first : Ledger) (s : Rush) : Prop where
  /-- The journal is what the log says. -/
  journal : s.world.ledger.journal = first.journal ++ s.log.flatMap (·.2.entries)
  /-- No offer is posted twice. -/
  single : (s.log.filterMap (·.1)).Nodup
  /-- An offer is posted by a call that has got hold of it. -/
  posted : ∀ id receipt, (some id, receipt) ∈ s.log → id ∈ s.created ∧
    ∃ token, d.offerOf? token = some id ∧ .ended token (some id) (some (.ok receipt)) ∈ s.calls
  /-- At most one call gets hold of an offer. -/
  once : ∀ (i j : Nat) (c c' : Redemption) (id : OfferId), s.calls[i]? = some c →
    s.calls[j]? = some c' → c.received = some id → c'.received = some id → i = j
  /-- A call that gets hold of nothing is answered so. -/
  missed : ∀ token answer, .ended token none (some answer) ∈ s.calls →
    ∃ e, answer = .error e ∧ Desk.IsMiss e
  /-- A call that reaches a working cache learns that there is no offer, unless it is the one to
  get hold of it. -/
  told : ∀ (i : Nat) (client token deadline), s.calls[i]? = some (.asked client token) →
    s.world.CacheWorks d deadline →
    let next := s.reach d deadline i client token
    next.calls[i]? = some (.ended token none (some (.error .notFoundOrExpired))) ∨
      ∃ offer, next.calls[i]? = some (.holding client token offer) ∧
        d.offerOf? token = some offer.id ∧ ∀ c ∈ s.calls, c.received ≠ some offer.id
  /-- An offer whose call has failed or given up is never posted. -/
  lost : ∀ (i : Nat) (token id answer), s.calls[i]? = some (.ended token (some id) answer) →
    (∀ receipt, answer ≠ some (.ok receipt)) →
    ∀ s', Reaches d s s' → s'.created.Nodup → id ∉ s'.log.filterMap (·.1)

/-- In every state that any order of steps can reach, when no two offers have one identifier. -/
theorem at_most_once (d : Desk) {w : World} (atRest : w.ledger.AtRest)
    (empty : w.cache.entries = []) {s : Rush} (reaches : Reaches d { world := w } s)
    (distinct : s.created.Nodup) : s.AtMostOnce d w.ledger := by
  have inv : Inv d w.ledger s := (inv_start atRest empty).reaches reaches distinct
  exact {
    journal := inv.journal
    single := inv.single
    posted := fun id receipt h => by
      obtain ⟨token, ended⟩ := inv.posted id receipt h
      obtain ⟨names, created⟩ := inv.tokens _ ended id rfl
      exact ⟨created, token, names, ended⟩
    once := inv.once
    missed := inv.missed
    told := fun i client token deadline place works => inv.told place works
    lost := fun i token id answer ended failed s' later distinct' logged => by
      have inv' : Inv d w.ledger s' := inv.reaches later distinct'
      obtain ⟨⟨_, receipt⟩, entry, rfl⟩ := List.mem_filterMap.1 logged
      obtain ⟨token', posted⟩ := inv'.posted id receipt entry
      obtain ⟨j, hj⟩ := List.mem_iff_getElem?.1 posted
      have still := ended_reaches later ended
      obtain rfl := inv'.once i j _ _ id still hj rfl rfl
      rw [still] at hj
      cases hj
      exact failed receipt rfl }

theorem at_most_once_simple :
    prepared.created.length = 1 ∧
      (prepared.presentTwice Desk.simple default Desk.simpleToken).AtMostOnce Desk.simple
        World.simple.ledger := by
  have length : prepared.created.length = 1 := by decide +kernel
  have new : prepared.calls = [] := calls_serveAll (by simp)
  obtain ⟨reaches, created⟩ := reaches_presentTwice Desk.simple new default Desk.simpleToken
  have distinct : (prepared.presentTwice Desk.simple default Desk.simpleToken).created.Nodup := by
    obtain ⟨id, one⟩ := List.length_eq_one_iff.1 length
    rw [created, one]
    exact List.nodup_singleton id
  exact ⟨length, at_most_once Desk.simple Ledger.atRest_empty rfl
    ((reaches_serveAll _ _ _).trans reaches) distinct⟩

end Bureau.Rush
