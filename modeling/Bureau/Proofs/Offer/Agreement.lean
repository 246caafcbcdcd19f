import Bureau.Proofs.Offer.Cache

/-!
# What a client finds in two caches

The offers that have been made for clients are kept in a list. An entry is a client's alone when no
other client has been made an offer with its identifier. Two caches agree for a client when the
same entries that are this client's alone are live in them, from some time on. Then a token that
names no offer of another client's gets the same out of both (`OfferCache.Agrees.found`).
-/

namespace Bureau.OfferCache

variable {client other : ClientId} {made made' : List (ClientId × OfferId)} {now later : Nat}
  {entries entries' entries'' : List (String × CacheEntry)} {x : String × CacheEntry}

/-- The offer is the client's, and nobody else's has its identifier. -/
structure Sole (client : ClientId) (made : List (ClientId × OfferId)) (x : String × CacheEntry) :
    Prop where
  own : x.2.offer.client = client
  alone : ∀ m ∈ made, m.2 = x.2.offer.id → m.1 = client

theorem Sole.of_subset (h : Sole client made' x) (fewer : made ⊆ made') : Sole client made x :=
  ⟨h.own, fun m hm => h.alone m (fewer hm)⟩

/-- Every offer in the cache has been made. -/
def Known (made : List (ClientId × OfferId)) (entries : List (String × CacheEntry)) : Prop :=
  ∀ x ∈ entries, (x.2.offer.client, x.2.offer.id) ∈ made

theorem Known.of_subset (h : Known made entries) (fewer : made ⊆ made') : Known made' entries :=
  fun x hx => fewer (h x hx)

theorem Known.sublist (h : Known made entries) (fewer : entries'.Sublist entries) :
    Known made entries' :=
  fun x hx => h x (fewer.subset hx)

theorem Known.gains {offer : Offer} {lifetime : Nat} (h : Known made entries)
    (gains : Gains now entries entries' offer lifetime) :
    Known (made ++ [(offer.client, offer.id)]) entries' := by
  intro x hx
  rcases gains.mem_cases hx with ⟨there, -⟩ | rfl
  · exact List.mem_append_left _ (h x there)
  · exact List.mem_append_right _ List.mem_cons_self

/-- What is live once an offer has come: what was there before, and the offer. -/
theorem Gains.mem_iff {offer : Offer} {lifetime : Nat}
    (gains : Gains now entries entries' offer lifetime) (live : x.2.isLive now = true) :
    x ∈ entries' ↔ x ∈ entries ∧ x.1 ≠ offer.id.cacheKey ∨
      x = (offer.id.cacheKey, ⟨offer, now + lifetime⟩) := by
  refine ⟨gains.mem_cases, ?_⟩
  rintro (⟨there, different⟩ | rfl)
  · exact gains.mem_of_live there live different
  · exact gains.mem_new

/-- From this time on, the same entries that are the client's alone are live. -/
def Agrees (client : ClientId) (made : List (ClientId × OfferId)) (now : Nat)
    (entries entries' : List (String × CacheEntry)) : Prop :=
  ∀ x, Sole client made x → x.2.isLive now = true → (x ∈ entries' ↔ x ∈ entries)

namespace Agrees

theorem refl (entries : List (String × CacheEntry)) : Agrees client made now entries entries :=
  fun _ _ _ => Iff.rfl

theorem symm (h : Agrees client made now entries entries') :
    Agrees client made now entries' entries :=
  fun x sole live => (h x sole live).symm

theorem trans (h : Agrees client made now entries entries')
    (h' : Agrees client made now entries' entries'') : Agrees client made now entries entries'' :=
  fun x sole live => (h' x sole live).trans (h x sole live)

theorem mono (h : Agrees client made now entries entries') (fewer : made ⊆ made')
    (le : now ≤ later) : Agrees client made' later entries entries' :=
  fun x sole live => h x (sole.of_subset fewer) (CacheEntry.isLive_of_le live le)

theorem of_sweeps (h : Sweeps now entries entries') : Agrees client made now entries entries' :=
  fun _ _ live => h.mem_iff (Nat.le_refl now) live

/-! ### Taking -/

/-- Another client's offers may go. -/
theorem erase {c : OfferCache} {id : OfferId} (keyed : Keyed c.entries)
    (known : Known made c.entries) (ne : other ≠ client)
    (others : ∀ m ∈ made, m.2 = id → m.1 = other) :
    Agrees client made now c.entries (c.erase id.cacheKey).entries := by
  intro x sole _
  refine ⟨fun hx => (List.mem_filter.1 hx).1, fun hx => List.mem_filter.2 ⟨hx, ?_⟩⟩
  have different : x.1 ≠ id.cacheKey := by
    intro key
    rw [keyed.named x hx] at key
    have owned := others _ (known x hx) (OfferId.cacheKey_injective key)
    exact ne (owned.symm.trans sole.own)
  simpa using different

/-- Both caches may lose what is under a key. -/
theorem erase_both {c c' : OfferCache} (h : Agrees client made now c.entries c'.entries)
    (key : String) : Agrees client made now (c.erase key).entries (c'.erase key).entries :=
  fun x sole live => by
    rw [OfferCache.erase, OfferCache.erase, List.mem_filter, List.mem_filter, h x sole live]

/-- A token that names no offer of another client's gets the same out of both caches. -/
theorem found {c c' : OfferCache} {id : OfferId} (h : Agrees client made now c.entries c'.entries)
    (keyed : Keyed c.entries) (keyed' : Keyed c'.entries) (known : Known made c.entries)
    (known' : Known made c'.entries) (own : ∀ m ∈ made, m.2 = id → m.1 = client)
    (le : now ≤ later) :
    (c.lookup id.cacheKey).filter (·.isLive later) =
      (c'.lookup id.cacheKey).filter (·.isLive later) := by
  have sole {es : List (String × CacheEntry)} {e : CacheEntry} (keyed : Keyed es)
      (known : Known made es) (there : (id.cacheKey, e) ∈ es) :
      Sole client made (id.cacheKey, e) := by
    have named : e.offer.id = id := keyed.id_eq there
    exact ⟨own _ (known _ there) named, fun m hm same => own m hm (same.trans named)⟩
  refine Option.ext fun e => ?_
  rw [Option.filter_eq_some_iff, Option.filter_eq_some_iff]
  refine and_congr_left fun live => ⟨fun there => ?_, fun there => ?_⟩
  · have entry := mem_of_lookup there
    exact keyed'.lookup_eq ((h _ (sole keyed known entry)
      (CacheEntry.isLive_of_le live le)).2 entry)
  · have entry := mem_of_lookup there
    exact keyed.lookup_eq ((h _ (sole keyed' known' entry)
      (CacheEntry.isLive_of_le live le)).1 entry)

/-! ### Storing -/

section Gains

variable {offer : Offer} {lifetime : Nat}

/-- The same offer comes into both caches. -/
theorem gains_both {entries₁ entries₁' : List (String × CacheEntry)}
    (h : Agrees client made now entries entries')
    (gains : Gains later entries entries₁ offer lifetime)
    (gains' : Gains later entries' entries₁' offer lifetime) (fewer : made ⊆ made')
    (le : now ≤ later) : Agrees client made' later entries₁ entries₁' := by
  intro x sole live
  rw [gains.mem_iff live, gains'.mem_iff live, h.mono fewer le x sole live]

/-- An offer of another client's comes into the cache. -/
theorem gains (keyed : Keyed entries) (gains : Gains now entries entries' offer lifetime)
    (ne : offer.client ≠ client) (new : (offer.client, offer.id) ∈ made) :
    Agrees client made now entries entries' := by
  intro x sole live
  have different : x.2.offer.id ≠ offer.id := fun same =>
    ne (sole.alone _ new same.symm)
  rw [gains.mem_iff live]
  refine ⟨?_, fun hx => .inl ⟨hx, fun key => different ?_⟩⟩
  · rintro (⟨there, -⟩ | rfl)
    · exact there
    · exact absurd rfl different
  · rw [keyed.named x hx] at key
    exact OfferId.cacheKey_injective key

end Gains

end Agrees

end Bureau.OfferCache
