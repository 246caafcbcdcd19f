import Bureau.Proofs.Desk.Day
import Mathlib.Logic.Relation

/-!
# Failures leave no trace

`Hall` is a desk in whose ledger others post at the same time, so that rows may be locked while an
errand is served. An errand that is answered with an error, or that its client gives up, leaves
what the ledger shows and the locks that are held as they were. It may have swept the cache of
offers that have expired, and a redemption may have lost the one offer that its token names
(`Hall.failure_atomic`).
-/

namespace Bureau

open Timed World

namespace Timed

variable {α : Type} {w : World}

/-- Only whether the operation succeeds, and why not. -/
def outcome (x : Timed (Except DeskError α)) : Timed (Except DeskError Unit) := do
  match ← x with
  | .ok _ => return .ok ()
  | .error e => return .error e

theorem snd_outcome (x : Timed (Except DeskError α)) (deadline : Option Nat) (w : World) :
    (x.outcome deadline w).2 = (x deadline w).2 := by
  rw [outcome, bind_apply]
  rcases x deadline w with ⟨_ | _ | _, w'⟩ <;> rfl

theorem Yields.outcome {x : Timed (Except DeskError α)} {done failed : World → Prop}
    (h : x.Yields w (fun _ => done) failed) : x.outcome.Yields w (fun _ => done) failed := by
  refine Ensures.bind h fun answer w' h => ?_
  cases answer <;> exact ensures_pure h

end Timed

/-- What every world keeps. -/
structure World.Sound (w : World) : Prop where
  ledger : w.ledger.Sound
  cache : OfferCache.Keyed w.cache.entries

theorem World.sound_of_empty {w : World} (atRest : w.ledger.AtRest) (empty : w.cache.entries = []) :
    w.Sound :=
  ⟨atRest.sound, empty ▸ OfferCache.keyed_nil⟩

theorem World.Sound.change {w : World} (sound : w.Sound) (incident : Incident) :
    (incident.change w).Sound :=
  ⟨(incident.ledger_change w).symm ▸ sound.ledger,
    sound.cache.sublist (incident.sublist_change w)⟩

namespace Desk

/-- Serves an errand, and tells only whether it succeeds. -/
def attempt (d : Desk) : Errand → Timed (Except DeskError Unit)
  | .openAccount client currency => (d.openAccount client currency).outcome
  | .deposit client currency amount => (d.deposit client currency amount).outcome
  | .createOffer request => (d.createOffer request).outcome
  | .redeem client token => (d.redeem client token).outcome
  | .balance client currency => (d.balance client currency).outcome
  | .transaction client txId => (d.transaction client txId).outcome
  | .listAccounts client cursor asked => (d.listAccounts client cursor asked).outcome
  | .listJournal client currency query asked => (d.listJournal client currency query asked).outcome
  | .verify txId => (Desk.verify txId).outcome

/-! ### What a failure leaves -/

/-- What an errand that fails does to the cache. -/
def Spoils (d : Desk) (w w' : World) : Errand → Prop
  | .redeem _ token => d.Loses token w.cache w'.cache
  | _ => OfferCache.Sweeps w'.clock w.cache.entries w'.cache.entries

/-- The ledger is unchanged; the cache may not be. -/
def Fails (d : Desk) (errand : Errand) (w w' : World) : Prop :=
  w.ledger.Unchanged w'.ledger ∧ d.Spoils w w' errand

variable {d : Desk} {w w' : World} {errand : Errand}

theorem Spoils.sublist (h : d.Spoils w w' errand) :
    w'.cache.entries.Sublist w.cache.entries := by
  cases errand with
  | redeem client token => exact Loses.sublist h
  | _ => exact OfferCache.Sweeps.fewer h

theorem Fails.sound (h : d.Fails errand w w') (sound : w.Sound) : w'.Sound :=
  ⟨h.1.sound, sound.cache.sublist h.2.sublist⟩

theorem fails_of_beside (beside : w.Beside w') (same : w.ledger.Unchanged w'.ledger) :
    d.Fails errand w w' := by
  have swept : OfferCache.Sweeps w'.clock w.cache.entries w'.cache.entries := by
    rw [beside.cache]
    exact OfferCache.sweeps_refl _ _
  refine ⟨same, ?_⟩
  cases errand with
  | redeem client token => exact .inl beside.cache
  | _ => exact swept

theorem yields_looks {α : Type} {x : Timed (Except DeskError α)} (sound : w.Sound)
    (h : x.Looks) : x.outcome.Yields w (fun _ => World.Sound) (d.Fails errand w) := by
  have fails {w' : World} (like : w.Like w') : d.Fails errand w w' :=
    fails_of_beside like.toBeside (sound.ledger.unchanged like.ledger)
  refine Yields.outcome ((h w).mono (fun answer w' like => ?_) fun _ like => fails like)
  cases answer with
  | ok a => exact (fails like).sound sound
  | error e => exact fails like

/-- An errand that is answered with an error or cut off leaves the ledger as it was. -/
theorem yields_attempt (d : Desk) (sound : w.Sound) (errand : Errand) :
    (d.attempt errand).Yields w (fun _ => World.Sound) (d.Fails errand w) := by
  cases errand with
  | openAccount client currency =>
    refine Yields.outcome ((d.yields_openAccount client currency w).mono (fun _ w' h => ?_)
      fun w' h => fails_of_beside h.1 (sound.ledger.unchanged h.2))
    obtain ⟨beside, -, created⟩ := h
    exact ⟨created ▸ sound.ledger.createAccount _ w.now, beside.cache ▸ sound.cache⟩
  | deposit client currency amount =>
    refine Yields.outcome ((ensures_deposit sound.ledger client currency amount).mono
      (fun answer w' h => ?_) fun w' h => fails_of_beside h.1 h.2)
    obtain ⟨beside, ⟨txId, rfl, -, -, posted⟩ | ⟨⟨e, rfl⟩, same⟩⟩ := h
    · exact ⟨posted.sound, beside.cache ▸ sound.cache⟩
    · exact fails_of_beside beside same
  | createOffer request =>
    refine Yields.outcome ((d.ensures_createOffer request).mono (fun answer w' h => ?_)
      fun w' h => ⟨sound.ledger.unchanged h.1.ledger, h.2⟩)
    obtain ⟨aside, ⟨t, rfl, makes⟩ | ⟨⟨e, rfl⟩, sweeps⟩⟩ := h
    · exact ⟨aside.ledger ▸ sound.ledger, sound.cache.gains makes.gains⟩
    · exact ⟨sound.ledger.unchanged aside.ledger, sweeps⟩
  | redeem client token =>
    refine Yields.outcome ((ensures_redeem sound.ledger client token).mono (fun answer w' h => ?_)
      fun w' h => ⟨h.2.2, h.2.1⟩)
    obtain ⟨-, loses, ⟨_, _, _, -, ⟨txId, kind, rfl, posted⟩ | ⟨⟨e, rfl⟩, same⟩⟩ |
      ⟨⟨e, rfl⟩, same⟩⟩ := h
    · exact ⟨posted.sound, sound.cache.sublist loses.sublist⟩
    · exact ⟨same, loses⟩
    · exact ⟨same, loses⟩
  | balance client currency => exact yields_looks sound (d.looks_balance client currency)
  | transaction client txId => exact yields_looks sound (d.looks_transaction client txId)
  | listAccounts client cursor asked =>
    exact yields_looks sound (d.looks_listAccounts client cursor asked)
  | listJournal client currency query asked =>
    exact yields_looks sound (d.looks_listJournal client currency query asked)
  | verify txId => exact yields_looks sound (looks_verify txId)

/-- Whatever its answer, an errand keeps the world sound. -/
theorem sound_attempt (d : Desk) (sound : w.Sound) (errand : Errand) (deadline : Option Nat) :
    (d.attempt errand deadline w).2.Sound :=
  (d.yields_attempt sound errand).world (fun _ _ h => h) (fun _ h => h.sound sound) deadline

/-! ### A cache that does not answer -/

/-- What the cache answers a redemption that asks for an offer, if it does so in time. -/
def cacheAnswer (d : Desk) (id : OfferId) : Timed (Option (Except MarketError (Option Offer))) :=
  within (ms d.settings.cacheDeadline) (OfferCache.callTake id.cacheKey)

theorem ensures_cacheAnswer (d : Desk) (id : OfferId) :
    (d.cacheAnswer id).Ensures w
      (fun answer w' => (∀ found, answer ≠ some (.ok found)) → w'.cache = w.cache)
      (fun w' => w'.cache = w.cache) := by
  refine Ensures.within ((OfferCache.ensures_callTake _).mono (fun answer w' h unanswered => ?_)
    fun w' h => ⟨fun _ => h.cache, h.cache⟩)
  rcases h.2 with ⟨-, same⟩ | ⟨rfl, -⟩
  · exact same
  · exact absurd rfl (unanswered _)

/-- An offer is lost only when the cache has answered. -/
theorem cache_redeem (client : ClientId) {token : String} {id : OfferId} {deadline : Option Nat}
    (names : d.offerOf? token = some id)
    (unanswered : ∀ found, (d.cacheAnswer id deadline w).1 ≠ some (some (.ok found))) :
    (d.redeem client token deadline w).2.cache = w.cache := by
  have called := d.ensures_cacheAnswer (w := w) id deadline
  rw [cacheAnswer] at called unanswered
  rw [redeem]
  simp only [names]
  rw [bind_apply, taken, bind_apply]
  rcases result : within (ms d.settings.cacheDeadline) (OfferCache.callTake id.cacheKey) deadline w
    with ⟨_ | _ | e | found, w₁⟩
  · rw [result] at called
    exact called
  · rw [result] at called
    exact called (by simp)
  · rw [result] at called
    exact called (by simp)
  · rw [result] at unanswered
    exact absurd rfl (unanswered found)

end Desk

/-! ### With others posting at the same time -/

/-- The desk's world, and postings of others that are under way in its ledger. -/
structure Hall where
  world : World
  postings : List Posting := []

namespace Hall

/-- An errand is served, something happens, or a posting of others begins or takes a move. -/
inductive Step (d : Desk) (s : Hall) : Hall → Prop
  | errand (deadline : Option Nat) (errand : Errand) :
      Step d s { s with world := (d.attempt errand deadline s.world).2 }
  | incident (incident : Incident) : Step d s { s with world := incident.change s.world }
  | enter (batch : JournalBatch) :
      Step d s { s with postings := s.postings ++ [Posting.start batch] }
  | move {i : Nat} {p p' : Posting} {l' : Ledger} (place : s.postings[i]? = some p)
      (moves : p.Moves s.world.ledger p' l') :
      Step d s { world := { s.world with ledger := l' }, postings := s.postings.set i p' }

/-- The states that any order of steps can reach. -/
abbrev Reaches (d : Desk) : Hall → Hall → Prop := Relation.ReflTransGen (Step d)

variable {d : Desk} {s s' : Hall}

theorem Step.sound (step : Step d s s') (sound : s.world.Sound) : s'.world.Sound := by
  cases step with
  | errand deadline errand => exact d.sound_attempt sound errand deadline
  | incident incident => exact sound.change incident
  | enter batch => exact sound
  | move place moves => exact ⟨moves.effect.sound sound.ledger, sound.cache⟩

theorem Reaches.sound (reaches : Reaches d s s') (sound : s.world.Sound) : s'.world.Sound := by
  induction reaches with
  | refl => exact sound
  | tail _ step ih => exact step.sound ih

/-- What an errand that has failed leaves behind. -/
structure NoTrace (d : Desk) (errand : Errand) (deadline : Option Nat) (w w' : World) : Prop where
  accounts : w'.ledger.accounts = w.ledger.accounts
  journal : w'.ledger.journal = w.ledger.journal
  /-- The same transactions hold the same locks. -/
  transactions : w'.ledger.transactions = w.ledger.transactions
  /-- Whatever could be posted before without waiting for a lock can be posted now. -/
  free : ∀ batch, (Posting.start batch).Unhindered w.ledger →
    (w'.ledger.post batch).1.isSome = true
  /-- Unless it is a redemption, the same offers are live. -/
  live : (∀ client token, errand ≠ .redeem client token) → ∀ (x : String × CacheEntry) (t : Nat),
    w'.clock ≤ t → x.2.isLive t = true → (x ∈ w'.cache.entries ↔ x ∈ w.cache.entries)
  /-- A redemption loses at most the entry of the offer that its token names. -/
  lost : ∀ client token, errand = .redeem client token →
    w'.cache.entries = w.cache.entries ∨
      ∃ id before e after, d.offerOf? token = some id ∧ e.offer.id = id ∧
        w.cache.entries = before ++ (id.cacheKey, e) :: after ∧
        w'.cache.entries = before ++ after
  /-- It loses nothing when its token does not open. -/
  unopened : ∀ client token, errand = .redeem client token → d.offerOf? token = none →
    w'.cache.entries = w.cache.entries
  /-- It loses nothing when the cache call fails or times out. -/
  unanswered : ∀ client token id, errand = .redeem client token → d.offerOf? token = some id →
    (∀ found, (within (Desk.ms d.settings.cacheDeadline) (OfferCache.callTake id.cacheKey)
      deadline w).1 ≠ some (some (.ok found))) →
    w'.cache.entries = w.cache.entries

theorem noTrace_attempt {errand : Errand} {deadline : Option Nat} {w : World} (sound : w.Sound)
    (failed : (d.attempt errand deadline w).1 ≠ some (.ok ())) :
    NoTrace d errand deadline w (d.attempt errand deadline w).2 := by
  have fails : d.Fails errand w (d.attempt errand deadline w).2 :=
    (d.yields_attempt sound errand).of_ne_ok fun _ => failed
  obtain ⟨ledger, cache⟩ := fails
  exact {
    accounts := ledger.accounts
    journal := ledger.journal
    transactions := ledger.transactions
    free := fun batch free => by
      refine Ledger.isSome_post ledger.sound ?_
      rw [Posting.Unhindered, ledger.transactions]
      exact free
    live := fun other x t later live => by
      cases errand with
      | redeem client token => exact absurd rfl (other client token)
      | _ => exact OfferCache.Sweeps.mem_iff cache later live
    lost := by
      rintro client token rfl
      exact Desk.Loses.entries_cases cache sound.cache
    unopened := by
      rintro client token rfl unopened
      rw [Desk.Loses.of_unopened cache unopened]
    unanswered := by
      rintro client token id rfl names unanswered
      have same := Desk.cache_redeem client names unanswered
      rw [Desk.attempt, snd_outcome, same] }

/-! ### A row that somebody else has locked -/

/-- The hall after errands that nobody gives up. -/
def serveAll (d : Desk) (s : Hall) (errands : List Errand) : Hall :=
  errands.foldl (fun s errand => { s with world := (d.attempt errand none s.world).2 }) s

theorem reaches_serveAll (d : Desk) (s : Hall) (errands : List Errand) :
    Reaches d s (s.serveAll d errands) := by
  induction errands generalizing s with
  | nil => exact .refl
  | cons errand rest ih => exact .head (.errand none errand) (ih _)

/-- The hall after the step of the posting at a place, where that can go on. -/
def go (s : Hall) (i : Nat) : Hall :=
  match s.postings[i]? with
  | none => s
  | some p =>
    if p.result?.isSome then s
    else
      match p.step s.world.ledger with
      | .went p' l' =>
        { world := { s.world with ledger := l' }, postings := s.postings.set i p' }
      | .waits _ => s

theorem reaches_go (d : Desk) (s : Hall) (i : Nat) : Reaches d s (s.go i) := by
  unfold go
  split
  · exact .refl
  · rename_i p place
    split
    · exact .refl
    · rename_i unfinished
      split
      · rename_i step
        exact .single (.move place (.went (by simpa using unfinished) step))
      · exact .refl

/-- An account is opened, and somebody who pays money in to it has locked its row. -/
def occupied : Hall :=
  let batch := JournalBatch.externalDeposit default default default default
    ⟨.hundredths 500, Currency.usd⟩
  let opened := ({ world := World.simple } : Hall).serveAll Desk.simple
    [.openAccount default Currency.usd]
  let entered : Hall := { opened with postings := opened.postings ++ [Posting.start batch] }
  (entered.go 0).go 0

theorem reaches_occupied : Reaches Desk.simple { world := World.simple } occupied := by
  unfold occupied
  refine .trans (.trans ?_ (reaches_go _ _ 0)) (reaches_go _ _ 0)
  exact (reaches_serveAll _ _ _).tail (.enter _)

/-! ### The theorem -/

/-- In every state that any order of steps can reach, an errand that fails leaves no trace. -/
theorem failure_atomic (d : Desk) {w : World} (atRest : w.ledger.AtRest)
    (empty : w.cache.entries = []) {s : Hall} (reaches : Reaches d { world := w } s)
    (errand : Errand) (deadline : Option Nat)
    (failed : (d.attempt errand deadline s.world).1 ≠ some (.ok ())) :
    NoTrace d errand deadline s.world (d.attempt errand deadline s.world).2 := by
  have start : w.Sound := sound_of_empty atRest empty
  exact noTrace_attempt (reaches.sound start) failed

/-- A deposit waits in vain for the row. -/
theorem failure_atomic_occupied :
    let deposit := Errand.deposit default Currency.usd (.hundredths 700)
    NoTrace Desk.simple deposit none occupied.world
      (Desk.simple.attempt deposit none occupied.world).2 := by
  intro deposit
  have failed : (Desk.simple.attempt deposit none occupied.world).1 ≠ some (.ok ()) := by
    decide +kernel
  exact failure_atomic Desk.simple Ledger.atRest_empty rfl reaches_occupied deposit none failed

end Hall

end Bureau
