import Bureau.Proofs.Desk.Settlement

/-!
# Answers in time

An operation that nothing cuts off has a result; `Timed.Answers` says which, and after how long. A
cache that works answers, so a redemption that reaches it gets hold of the offer or learns that
there is none (`Desk.answers_reach`).
-/

namespace Bureau

namespace Timed

variable {α β ε : Type} {w w₀ : World}

/-- After so many nanoseconds the operation has its result, unless it is cut off before. -/
def Answers (x : Timed α) (w : World) (span : Nat) (Q : α → World → Prop) : Prop :=
  ∃ a w', Q a w' ∧ w'.clock = w.clock + span ∧
    ∀ deadline : Option Nat, (∀ t ∈ deadline, w.clock + span ≤ t) → x deadline w = (some a, w')

variable {x : Timed α} {span : Nat} {Q : α → World → Prop}

theorem answers_pure {a : α} (h : Q a w) : (pure a : Timed α).Answers w 0 Q :=
  ⟨a, w, h, rfl, fun _ _ => rfl⟩

theorem answers_read {f : World → α} (h : Q (f w) w) : (read f).Answers w 0 Q :=
  ⟨f w, w, h, rfl, fun _ _ => rfl⟩

theorem answers_act {f : World → α × World} (clock : (f w).2.clock = w.clock)
    (h : Q (f w).1 (f w).2) : (act f).Answers w 0 Q :=
  ⟨(f w).1, (f w).2, h, clock, fun _ _ => rfl⟩

theorem answers_wait {Q : Unit → World → Prop}
    (h : Q () { w with clock := w.clock + span }) : (wait span).Answers w span Q := by
  refine ⟨(), _, h, rfl, fun deadline patient => ?_⟩
  unfold wait
  cases deadline with
  | none => rfl
  | some t => exact if_pos (patient t rfl)

theorem Answers.bind {f : α → Timed β} {final : β → World → Prop} {rest total : Nat}
    (hx : x.Answers w span Q) (hf : ∀ a w', Q a w' → (f a).Answers w' rest final)
    (sum : span + rest = total) : (x >>= f).Answers w total final := by
  obtain ⟨a, w', ha, clock, first⟩ := hx
  obtain ⟨b, w'', hb, clock', second⟩ := hf a w' ha
  refine ⟨b, w'', hb, by omega, fun deadline patient => ?_⟩
  rw [bind_apply, first deadline fun t ht => ?_]
  · refine second deadline fun t ht => ?_
    have := patient t ht
    omega
  · have := patient t ht
    omega

theorem Answers.within {limit : Nat} {Q : Option α → World → Prop}
    (h : x.Answers w span fun a => Q (some a)) (enough : span ≤ limit) :
    (within limit x).Answers w span Q := by
  obtain ⟨a, w', ha, clock, result⟩ := h
  refine ⟨some a, w', ha, clock, fun deadline patient => ?_⟩
  have own : x (some (w.clock + limit)) w = (some a, w') := result _ fun t ht => by
    cases ht
    omega
  unfold Timed.within
  cases deadline with
  | none =>
    dsimp only
    rw [own]
  | some t =>
    have outer : x (some t) w = (some a, w') := result _ patient
    dsimp only
    split
    · rw [outer]
    · rw [own]

end Timed

open Timed

/-! ### A cache that works -/

namespace World

/-- Nanoseconds until the cache answers the next call that takes an offer. -/
def takeSpan (w : World) : Nat :=
  (w.mishaps.takes.head?.map (·.delay)).getD 0 + w.cache.latency

/-- The cache answers a call made now: it is there, the call does not fail, and neither the desk nor
the client gives up before. -/
structure CacheWorks (w : World) (d : Desk) (deadline : Option Nat) : Prop where
  available : w.cache.available = true
  mishap : ∀ m ∈ w.mishaps.takes.head?, m.error = none
  inTime : w.takeSpan ≤ Desk.ms d.settings.cacheDeadline
  patient : ∀ t ∈ deadline, w.clock + w.takeSpan ≤ t

/-- It does when nothing befalls the call, and nobody but the desk may give it up. -/
theorem cacheWorks_of_calm {w : World} {d : Desk} (available : w.cache.available = true)
    (calm : w.mishaps.takes = []) (latency : w.cache.latency ≤ Desk.ms d.settings.cacheDeadline) :
    w.CacheWorks d none where
  available
  mishap := by simp [calm]
  inTime := by simpa [takeSpan, calm] using latency
  patient := by simp

end World

namespace OfferCache

variable {w : World}

/-- The mishap that waits is suffered for as long as its delay. -/
theorem answers_sufferTake (mishap : ∀ m ∈ w.mishaps.takes.head?, m.error = none) :
    (suffer popTake).Answers w ((w.mishaps.takes.head?.map (·.delay)).getD 0)
      (fun error w' => error = none ∧ w'.cache = w.cache) := by
  have popped : (act popTake).Answers w 0 (fun found w' =>
      found = w.mishaps.takes.head? ∧ w'.cache = w.cache) := by
    refine answers_act ?_ ⟨?_, w.still_popTake.cache⟩ <;> unfold popTake <;>
      cases w.mishaps.takes <;> rfl
  refine popped.bind ?_ (Nat.zero_add _)
  rintro found w' ⟨rfl, cache⟩
  cases next : w.mishaps.takes.head? with
  | none => exact answers_pure ⟨rfl, cache⟩
  | some m =>
    rw [next] at mishap
    refine (answers_wait (Q := fun _ w' => w'.cache = w.cache) cache).bind
      (fun _ w'' same => ?_) (Nat.add_zero _)
    exact answers_pure ⟨mishap m rfl, same⟩

theorem answers_callTake (available : w.cache.available = true)
    (mishap : ∀ m ∈ w.mishaps.takes.head?, m.error = none) (key : String) :
    (callTake key).Answers w w.takeSpan (fun answer _ => ∃ found, answer = .ok found) := by
  refine (answers_sufferTake mishap).bind ?_ rfl
  rintro error w₁ ⟨rfl, cache⟩
  refine (answers_read (Q := fun latency w' => latency = w.cache.latency ∧ w'.cache = w.cache)
    ⟨by rw [cache], cache⟩).bind ?_ (Nat.zero_add _)
  rintro latency w₂ ⟨rfl, cache⟩
  refine (answers_wait (Q := fun _ w' => w'.cache = w.cache) cache).bind
    (fun _ w₃ cache => ?_) (Nat.add_zero _)
  refine answers_act rfl ⟨((w.cache.lookup key).filter (·.isLive w₃.clock)).map (·.offer), ?_⟩
  dsimp only
  rw [cache, take, check, if_pos available]

end OfferCache

namespace Desk

variable {d : Desk} {w : World} {deadline : Option Nat}

theorem answers_taken (works : w.CacheWorks d deadline) (id : OfferId) :
    (d.taken id).Answers w w.takeSpan
      (fun answer _ => ∀ e, answer = .error e → e = .notFoundOrExpired) := by
  have took := OfferCache.answers_callTake works.available works.mishap id.cacheKey
  refine (Answers.within (Q := fun answer _ => ∃ found, answer = some (.ok found)) ?_
    works.inTime).bind ?_ (Nat.add_zero _)
  · obtain ⟨answer, w', ⟨found, rfl⟩, result⟩ := took
    exact ⟨_, w', ⟨found, rfl⟩, result⟩
  · rintro answer w' ⟨found, rfl⟩
    cases found with
    | none =>
      refine (answers_act (Q := fun _ _ => True) rfl trivial).bind (fun _ _ _ => ?_)
        (Nat.zero_add 0)
      exact answers_pure fun e h => by cases h; rfl
    | some offer => exact answers_pure fun e h => by cases h

/-- A redemption that reaches a working cache gets hold of an offer or learns that there is
none. -/
theorem answers_reach (works : w.CacheWorks d deadline) (token : String) :
    ∃ answer w', d.reach token deadline w = (some answer, w') ∧
      ∀ e, answer = .error e → e = .notFoundOrExpired := by
  unfold reach
  cases d.offerOf? token with
  | none => exact ⟨_, _, rfl, fun e h => by cases h; rfl⟩
  | some id =>
    obtain ⟨answer, w', found, -, result⟩ := answers_taken works id
    exact ⟨answer, w', result deadline works.patient, found⟩

end Desk

end Bureau
