import Bureau.Proofs.Offer.Cache

/-!
# Sweeping never shows

`TtlMap` is a cache that never drops anything: it remembers what has been stored and taken, and an
offer is there when it has been stored last under its key and its time has not passed. A cache
shows the same as such a map (`Shelf.Shows`), whatever its size and whenever it is swept; for a
sweep drops what has expired, and what has expired is never handed out again. So the cache answers
as the map does (`Shelf.replies_eq_ttlMap`).
-/

namespace Bureau

/-- What can be asked of a cache, and what can happen to it in between. A call counts from the
moment at which the cache answers it. -/
inductive CacheCall where
  | put (key : String) (offer : Offer) (lifetime : Nat)
  | take (key : String)
  | sweep
  /-- Some nanoseconds pass. -/
  | advance (nanos : Nat)
  | switch (available : Bool)

/-- The call is a sweep, which nobody gets an answer to. -/
def CacheCall.isSweep : CacheCall → Bool
  | sweep => true
  | _ => false

/-- What the cache answers. -/
inductive CacheReply where
  | put (result : Except MarketError Unit)
  | take (result : Except MarketError (Option Offer))
deriving DecidableEq

/-! ### A cache on the shelf -/

/-- A cache and the clock by which it goes. -/
structure Shelf where
  cache : OfferCache
  clock : Nat := 0

namespace Shelf

/-- The answer of the cache to a call, and the shelf after it. -/
def next (s : Shelf) : CacheCall → Option CacheReply × Shelf
  | .put key offer lifetime =>
    let (result, cache) := s.cache.put s.clock key offer lifetime
    (some (.put result), { s with cache })
  | .take key =>
    let (result, cache) := s.cache.take s.clock key
    (some (.take result), { s with cache })
  | .sweep => (none, { s with cache := s.cache.evictExpired s.clock })
  | .advance nanos => (none, { s with clock := s.clock + nanos })
  | .switch available => (none, { s with cache.available := available })

/-- The shelf after some calls. -/
def after (s : Shelf) (calls : List CacheCall) : Shelf :=
  calls.foldl (fun s call => (s.next call).2) s

/-- The answers to some calls, one after the other. -/
def replies (s : Shelf) : List CacheCall → List CacheReply
  | [] => []
  | call :: calls => (s.next call).1.toList ++ (s.next call).2.replies calls

end Shelf

/-! ### A map that forgets nothing -/

/-- What a call has done to the map. -/
inductive CacheDeed where
  | stored (key : String) (entry : CacheEntry)
  | taken (key : String)

/-- The key that it was done to. -/
def CacheDeed.key : CacheDeed → String
  | stored key _ | taken key => key

/-- A map that forgets an entry when its time has passed: it remembers all deeds and sweeps nothing.
-/
structure TtlMap where
  available : Bool := true
  clock : Nat := 0
  /-- What has been done, the latest first. -/
  deeds : List CacheDeed := []

namespace TtlMap

/-- The entry that has been stored last under a key, if it has not been taken since. -/
def entryAt (m : TtlMap) (key : String) : Option CacheEntry :=
  match m.deeds.find? (·.key = key) with
  | some (.stored _ entry) => some entry
  | some (.taken _) | none => none

/-- The offer under a key, if its time has not passed. -/
def offer? (m : TtlMap) (key : String) : Option Offer :=
  ((m.entryAt key).filter (·.isLive m.clock)).map (·.offer)

/-- The error of a map that is out of reach. -/
def offline : MarketError := .cacheUnavailable "offer cache is offline"

/-- The error of a lifetime that the clock cannot tell the end of. -/
def outOfRange (lifetime : Nat) : MarketError :=
  .cacheUnavailable ("ttl " ++ OfferCache.spanText lifetime ++ " is out of range")

/-- Stores an offer for some time, whatever was stored under its key before. -/
def put (m : TtlMap) (key : String) (offer : Offer) (lifetime : Nat) :
    Except MarketError Unit × TtlMap :=
  if !m.available then (.error offline, m)
  else if OfferCache.horizon ≤ m.clock + lifetime then (.error (outOfRange lifetime), m)
  else (.ok (), { m with deeds := .stored key ⟨offer, m.clock + lifetime⟩ :: m.deeds })

/-- Gives the live offer of a key away. -/
def take (m : TtlMap) (key : String) : Except MarketError (Option Offer) × TtlMap :=
  if !m.available then (.error offline, m)
  else (.ok (m.offer? key), { m with deeds := .taken key :: m.deeds })

/-- The answer of the map to a call, and the map after it. A sweep does nothing. -/
def next (m : TtlMap) : CacheCall → Option CacheReply × TtlMap
  | .put key offer lifetime =>
    let (result, m) := m.put key offer lifetime
    (some (.put result), m)
  | .take key =>
    let (result, m) := m.take key
    (some (.take result), m)
  | .sweep => (none, m)
  | .advance nanos => (none, { m with clock := m.clock + nanos })
  | .switch available => (none, { m with available })

/-- The answers to some calls, one after the other. -/
def replies (m : TtlMap) : List CacheCall → List CacheReply
  | [] => []
  | call :: calls => (m.next call).1.toList ++ (m.next call).2.replies calls

variable (available : Bool) (clock : Nat)

theorem entryAt_stored (m : TtlMap) (key k : String) (entry : CacheEntry) :
    entryAt ⟨available, clock, .stored key entry :: m.deeds⟩ k =
      if k = key then some entry else m.entryAt k := by
  by_cases same : k = key
  · subst same
    simp [entryAt, CacheDeed.key]
  · have other : key ≠ k := Ne.symm same
    simp [entryAt, CacheDeed.key, same, other]

theorem entryAt_taken (m : TtlMap) (key k : String) :
    entryAt ⟨available, clock, .taken key :: m.deeds⟩ k =
      if k = key then none else m.entryAt k := by
  by_cases same : k = key
  · subst same
    simp [entryAt, CacheDeed.key]
  · have other : key ≠ k := Ne.symm same
    simp [entryAt, CacheDeed.key, same, other]

/-- A sweep is nothing to the map. -/
theorem replies_filter (m : TtlMap) (calls : List CacheCall) :
    m.replies (calls.filter (!·.isSweep)) = m.replies calls := by
  induction calls generalizing m with
  | nil => rfl
  | cons call calls ih =>
    cases call with
    | sweep => exact ih m
    | put | take | advance | switch =>
      rw [List.filter_cons_of_pos rfl, replies, replies, ih]

/-- What has been taken is not there again before it is stored again. -/
theorem entryAt_next {m : TtlMap} {key : String} (gone : m.entryAt key = none) {call : CacheCall}
    (other : ∀ offer lifetime, call ≠ .put key offer lifetime) :
    (m.next call).2.entryAt key = none := by
  cases call with
  | put k offer lifetime =>
    have different : key ≠ k := fun same => other offer lifetime (same ▸ rfl)
    simp only [next, put]
    split
    · exact gone
    · split
      · exact gone
      · rw [entryAt_stored, if_neg different, gone]
  | take k =>
    simp only [next, take]
    split
    · exact gone
    · rw [entryAt_taken, gone, ite_self]
  | _ => exact gone

end TtlMap

/-! ### What is live in a cache -/

namespace OfferCache

variable {c : OfferCache} {now : Nat}

/-- No key is there twice. -/
def Unique (c : OfferCache) : Prop := (c.entries.map (·.1)).Nodup

/-- The live entry under a key. -/
def liveAt (c : OfferCache) (now : Nat) (key : String) : Option CacheEntry :=
  (c.lookup key).filter (·.isLive now)

theorem liveAt_eq_some_iff (unique : c.Unique) {key : String} {e : CacheEntry} :
    c.liveAt now key = some e ↔ (key, e) ∈ c.entries ∧ e.isLive now = true := by
  rw [liveAt, Option.filter_eq_some_iff]
  refine and_congr_left fun _ => ⟨mem_of_lookup, fun there => ?_⟩
  obtain ⟨e', found⟩ := exists_lookup there
  have same : (key, e') = (key, e) :=
    List.inj_on_of_nodup_map unique (mem_of_lookup found) there rfl
  rw [found, (Prod.mk.inj same).2]

theorem Unique.sublist {c' : OfferCache} (unique : c.Unique)
    (fewer : c'.entries.Sublist c.entries) : c'.Unique :=
  List.Nodup.sublist (fewer.map _) unique

/-- A sweep takes away nothing that is live. -/
theorem liveAt_evictExpired (unique : c.Unique) (now : Nat) (key : String) :
    (c.evictExpired now).liveAt now key = c.liveAt now key := by
  refine Option.ext fun e => ?_
  rw [liveAt_eq_some_iff unique,
    liveAt_eq_some_iff (unique.sublist (c.sublist_evictExpired now))]
  refine and_congr_left fun live => ?_
  exact (c.sweeps_evictExpired now).mem_iff (Nat.le_refl now) (x := (key, e)) live

theorem liveAt_erase (unique : c.Unique) (key k : String) :
    (c.erase key).liveAt now k = if k = key then none else c.liveAt now k := by
  refine Option.ext fun e => ?_
  rw [liveAt_eq_some_iff (unique.sublist (c.sublist_erase key)), erase, List.mem_filter]
  by_cases same : k = key
  · simp [same]
  · rw [if_neg same, liveAt_eq_some_iff unique]
    simp [same]

/-- The cache with an entry in place of what has been under a key. -/
def store (c : OfferCache) (key : String) (e : CacheEntry) : OfferCache :=
  { c with entries := (c.erase key).entries ++ [(key, e)] }

theorem Unique.store (unique : c.Unique) (key : String) (e : CacheEntry) :
    (c.store key e).Unique := by
  have rest : (c.erase key).Unique := unique.sublist (c.sublist_erase key)
  unfold Unique
  rw [OfferCache.store, List.map_append, List.nodup_append]
  refine ⟨rest, List.nodup_singleton _, ?_⟩
  intro k hk k' hk'
  obtain ⟨x, hx, rfl⟩ := List.mem_map.1 hk
  rw [List.map_singleton, List.mem_singleton] at hk'
  subst hk'
  simpa using (List.mem_filter.1 hx).2

theorem liveAt_store (unique : c.Unique) (key k : String) (e : CacheEntry) :
    (c.store key e).liveAt now k =
      if k = key then (some e).filter (·.isLive now) else c.liveAt now k := by
  refine Option.ext fun e' => ?_
  rw [liveAt_eq_some_iff (unique.store key e), store, erase, List.mem_append, List.mem_filter]
  by_cases same : k = key
  · rw [if_pos same, Option.filter_eq_some_iff]
    simp [same, and_comm, @eq_comm _ e']
  · rw [if_neg same, liveAt_eq_some_iff unique]
    simp [same]

/-- An answered take hands out what is live; otherwise nothing happens. -/
theorem take_eq (c : OfferCache) (now : Nat) (key : String) : c.take now key =
    if !c.available then (.error TtlMap.offline, c)
    else (.ok ((c.liveAt now key).map (·.offer)), c.erase key) := by
  unfold take check
  cases c.available <;> rfl

/-- An answered put stores the entry, in a cache that may have been swept before. -/
theorem put_eq (c : OfferCache) (now : Nat) (key : String) (offer : Offer) (lifetime : Nat) :
    c.put now key offer lifetime =
      if !c.available then (.error TtlMap.offline, c)
      else
        let swept := if c.maxEntries ≤ c.entries.length then c.evictExpired now else c
        if horizon ≤ now + lifetime then (.error (TtlMap.outOfRange lifetime), swept)
        else (.ok (), swept.store key ⟨offer, now + lifetime⟩) := by
  unfold put check
  cases c.available <;> rfl

end OfferCache

/-! ### The cache shows what the map does -/

namespace Shelf

/-- The same is live in both, from now on. -/
structure Shows (s : Shelf) (m : TtlMap) : Prop where
  clock : m.clock = s.clock
  available : m.available = s.cache.available
  unique : s.cache.Unique
  live : ∀ key, s.cache.liveAt s.clock key = (m.entryAt key).filter (·.isLive s.clock)

variable {s : Shelf} {m : TtlMap}

/-- What has expired does not come to life again. -/
theorem filter_isLive {e : Option CacheEntry} {now later : Nat} (le : now ≤ later) :
    (e.filter (·.isLive now)).filter (·.isLive later) = e.filter (·.isLive later) := by
  rw [Option.filter_filter]
  congr 1
  funext x
  rw [Bool.and_eq_right_iff_imp]
  exact fun live => CacheEntry.isLive_of_le live le

/-- A sweep at any time does not show. -/
theorem Shows.swept (shows : s.Shows m) :
    Shows { s with cache := s.cache.evictExpired s.clock } m where
  clock := shows.clock
  available := shows.available
  unique := shows.unique.sublist (s.cache.sublist_evictExpired _)
  live key := (OfferCache.liveAt_evictExpired shows.unique s.clock key).trans (shows.live key)

theorem Shows.put (shows : s.Shows m) (key : String) (offer : Offer) (lifetime : Nat) :
    (s.cache.put s.clock key offer lifetime).1 = (m.put key offer lifetime).1 ∧
      Shows { s with cache := (s.cache.put s.clock key offer lifetime).2 }
        (m.put key offer lifetime).2 := by
  rw [OfferCache.put_eq, TtlMap.put, shows.available, shows.clock]
  split
  · exact ⟨rfl, shows⟩
  · have swept : Shows { s with cache :=
        if s.cache.maxEntries ≤ s.cache.entries.length then s.cache.evictExpired s.clock
        else s.cache } m := by
      split
      · exact shows.swept
      · exact shows
    dsimp only
    generalize (if s.cache.maxEntries ≤ s.cache.entries.length then s.cache.evictExpired s.clock
        else s.cache) = c at swept
    split
    · exact ⟨rfl, swept⟩
    · refine ⟨rfl, rfl, shows.available ▸ swept.available, swept.unique.store key _, fun k => ?_⟩
      dsimp only
      rw [OfferCache.liveAt_store swept.unique, TtlMap.entryAt_stored]
      split
      · rfl
      · exact swept.live k

theorem Shows.take (shows : s.Shows m) (key : String) :
    (s.cache.take s.clock key).1 = (m.take key).1 ∧
      Shows { s with cache := (s.cache.take s.clock key).2 } (m.take key).2 := by
  rw [OfferCache.take_eq, TtlMap.take, shows.available, TtlMap.offer?, shows.clock, shows.live]
  split
  · exact ⟨rfl, shows⟩
  · refine ⟨rfl, rfl, rfl, shows.unique.sublist (s.cache.sublist_erase key), fun k => ?_⟩
    dsimp only
    rw [OfferCache.liveAt_erase shows.unique, TtlMap.entryAt_taken]
    split
    · rfl
    · exact shows.live k

/-- Both answer a call alike, and show the same afterwards. -/
theorem Shows.next (shows : s.Shows m) (call : CacheCall) :
    (s.next call).1 = (m.next call).1 ∧ (s.next call).2.Shows (m.next call).2 := by
  cases call with
  | put key offer lifetime =>
    obtain ⟨result, shows⟩ := shows.put key offer lifetime
    exact ⟨congrArg (some ∘ CacheReply.put) result, shows⟩
  | take key =>
    obtain ⟨result, shows⟩ := shows.take key
    exact ⟨congrArg (some ∘ CacheReply.take) result, shows⟩
  | sweep => exact ⟨rfl, shows.swept⟩
  | advance nanos =>
    refine ⟨rfl, congrArg (· + nanos) shows.clock, shows.available, shows.unique, fun key => ?_⟩
    have le : s.clock ≤ s.clock + nanos := Nat.le_add_right _ _
    have live := congrArg (Option.filter (·.isLive (s.clock + nanos))) (shows.live key)
    rwa [OfferCache.liveAt, filter_isLive le, filter_isLive le] at live
  | switch available => exact ⟨rfl, shows.clock, rfl, shows.unique, shows.live⟩

theorem Shows.replies (shows : s.Shows m) (calls : List CacheCall) :
    s.replies calls = m.replies calls := by
  induction calls generalizing s m with
  | nil => rfl
  | cons call calls ih =>
    obtain ⟨reply, shows⟩ := shows.next call
    rw [Shelf.replies, TtlMap.replies, reply, ih shows]

theorem Shows.after (shows : s.Shows m) (calls : List CacheCall) :
    ∃ m', (s.after calls).Shows m' := by
  induction calls generalizing s m with
  | nil => exact ⟨m, shows⟩
  | cons call calls ih => exact ih (shows.next call).2

/-- What has been taken stays away from the cache until it is stored again. -/
theorem Shows.after_of_gone (shows : s.Shows m) {key : String} (gone : m.entryAt key = none)
    {calls : List CacheCall} (other : ∀ call ∈ calls, ∀ offer lifetime,
      call ≠ .put key offer lifetime) :
    ∃ m', (s.after calls).Shows m' ∧ m'.entryAt key = none := by
  induction calls generalizing s m with
  | nil => exact ⟨m, shows, gone⟩
  | cons call calls ih =>
    exact ih (shows.next call).2 (TtlMap.entryAt_next gone (other call List.mem_cons_self))
      fun call' h => other call' (List.mem_cons_of_mem _ h)

/-- The cache does not answer, or the entry would outlive the clock. -/
def Fails (s : Shelf) : CacheCall → Prop
  | .put _ _ lifetime => s.cache.available = false ∨ OfferCache.horizon ≤ s.clock + lifetime
  | .take _ => s.cache.available = false
  | .sweep | .advance _ | .switch _ => False

/-- A call that fails is nothing to the map. -/
theorem Shows.next_of_fails (shows : s.Shows m) {call : CacheCall} (fails : s.Fails call) :
    (m.next call).2 = m := by
  cases call with
  | put key offer lifetime =>
    simp only [TtlMap.next, TtlMap.put, shows.available, shows.clock]
    rcases fails with offline | outOfRange
    · rw [offline]
      rfl
    · split
      · rfl
      · rfl
  | take key =>
    have offline : s.cache.available = false := fails
    simp only [TtlMap.next, TtlMap.take, shows.available, offline]
    rfl
  | sweep | advance | switch => cases fails

theorem shows_empty {c : OfferCache} (empty : c.entries = []) (clock : Nat) :
    Shows ⟨c, clock⟩ { available := c.available, clock } where
  clock := rfl
  available := rfl
  unique := by simp [OfferCache.Unique, empty]
  live key := by simp [OfferCache.liveAt, OfferCache.lookup, empty, TtlMap.entryAt]

/-- A cache answers like a map that never drops anything, whatever its size and whatever is asked of
it. So two caches that differ in size or in sweeps answer alike, a call that fails changes no later
answer, and what has been taken is not there again before it is stored again. -/
theorem replies_eq_ttlMap {c : OfferCache} (empty : c.entries = []) (clock : Nat) :
    (∀ calls, (Shelf.mk c clock).replies calls =
      TtlMap.replies { available := c.available, clock } calls) ∧
    (∀ c' : OfferCache, c'.entries = [] → c'.available = c.available → ∀ calls calls',
      calls'.filter (!·.isSweep) = calls.filter (!·.isSweep) →
      (Shelf.mk c' clock).replies calls' = (Shelf.mk c clock).replies calls) ∧
    (∀ calls call, let s := (Shelf.mk c clock).after calls
      s.Fails call → ∀ later, (s.next call).2.replies later = s.replies later) ∧
    (∀ calls between key found, let s := (Shelf.mk c clock).after calls
      let s' := (s.next (.take key)).2.after between
      (s.next (.take key)).1 = some (.take (.ok found)) →
      (∀ call ∈ between, ∀ offer lifetime, call ≠ .put key offer lifetime) →
      s'.cache.available = true → (s'.next (.take key)).1 = some (.take (.ok none))) := by
  have shows := shows_empty empty clock
  refine ⟨shows.replies, fun c' empty' available calls calls' same => ?_, fun calls call => ?_,
    fun calls between key found => ?_⟩
  · -- Sweeps do nothing to the map, so the two histories are one to it.
    rw [(shows_empty empty' clock).replies, shows.replies, available, ← TtlMap.replies_filter, same,
      TtlMap.replies_filter]
  · intro s fails later
    obtain ⟨m, shows⟩ := shows.after calls
    rw [shows.replies, (shows.next call).2.replies, shows.next_of_fails fails]
  · intro s s' answered other available
    obtain ⟨m, shows⟩ := shows.after calls
    obtain ⟨reply, shows'⟩ := shows.next (.take key)
    have gone : (m.next (.take key)).2.entryAt key = none := by
      rw [reply] at answered
      simp only [TtlMap.next, TtlMap.take] at answered ⊢
      split at answered
      · cases answered
      · rename_i online
        rw [if_neg online, TtlMap.entryAt_taken, if_pos rfl]
    obtain ⟨m', shows', gone⟩ := shows'.after_of_gone gone other
    rw [(shows'.next (.take key)).1]
    have online : m'.available = true := shows'.available.trans available
    simp only [TtlMap.next, TtlMap.take, online, TtlMap.offer?, gone]
    rfl

/-- A cache for one entry is swept when a second offer comes. The first one has expired by then and
is not missed, the second one is taken once, and nobody notices that the cache has been away. -/
theorem replies_eq_ttlMap_small :
    let offer : Offer := ⟨default, default, Currency.usd, Currency.eur, .one, .one, .one, false,
      false, default, default⟩
    let c : OfferCache := { maxEntries := 1 }
    let calls : List CacheCall := [.put "a" offer 5, .advance 5, .put "b" offer 5, .take "a",
      .switch false, .take "b", .switch true]
    let s := (Shelf.mk c 0).after calls
    (Shelf.mk c 0).replies calls =
      [.put (.ok ()), .put (.ok ()), .take (.ok none), .take (.error TtlMap.offline)] ∧
    (Shelf.mk {} 0).replies (.sweep :: calls) = (Shelf.mk c 0).replies calls ∧
    (s.next (.take "b")).1 = some (.take (.ok (some offer))) ∧
    ((s.next (.take "b")).2.next (.take "b")).1 = some (.take (.ok none)) := by
  intro offer c calls s
  obtain ⟨same, alike, -, once⟩ := replies_eq_ttlMap (c := c) rfl 0
  refine ⟨?_, alike {} rfl rfl calls (.sweep :: calls) rfl, ?_, ?_⟩
  · rw [same]
    rfl
  · rfl
  · exact once calls [] "b" (some offer) rfl (fun _ h => absurd h List.not_mem_nil) rfl

end Shelf

end Bureau
