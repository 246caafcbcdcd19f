import Bureau.Offer.Cache
import Bureau.Proofs.Text.Hex
import Mathlib.Data.List.Nodup

/-!
# What waits in the cache

Storing and taking are described by what becomes of the entries. `Sweeps` drops entries that have
expired and no others; `Gains` puts one offer under its own key; taking erases a key, and hands out
what was under it if that is live. `Keyed` is what every cache keeps: an offer waits under its own
key, and there is at most one under each.
-/

namespace Bureau

theorem CacheEntry.isLive_of_le {e : CacheEntry} {now later : Nat} (live : e.isLive later = true)
    (le : now ≤ later) : e.isLive now = true := by
  unfold isLive at live ⊢
  rw [decide_eq_true_iff] at live ⊢
  omega

namespace OfferCache

variable {c : OfferCache} {now later : Nat} {key : String} {offer : Offer} {lifetime : Nat}
  {entries entries' : List (String × CacheEntry)} {x : String × CacheEntry}

theorem sublist_evictExpired (c : OfferCache) (now : Nat) :
    (c.evictExpired now).entries.Sublist c.entries :=
  List.filter_sublist

theorem sublist_erase (c : OfferCache) (key : String) :
    (c.erase key).entries.Sublist c.entries :=
  List.filter_sublist

theorem mem_of_lookup {e : CacheEntry} (h : c.lookup key = some e) : (key, e) ∈ c.entries := by
  obtain ⟨before, after, entries, -⟩ := List.lookup_eq_some_iff.1 h
  rw [entries]
  exact List.mem_append_right _ List.mem_cons_self

theorem exists_lookup {e : CacheEntry} (h : (key, e) ∈ c.entries) :
    ∃ e', c.lookup key = some e' := by
  cases found : c.lookup key with
  | some e' => exact ⟨e', rfl⟩
  | none =>
    have absent := List.lookup_eq_none_iff.1 found (key, e) h
    simp at absent

/-! ### Sweeping -/

/-- Entries may have been dropped, but none that is live at this time. -/
structure Sweeps (now : Nat) (entries entries' : List (String × CacheEntry)) : Prop where
  fewer : entries'.Sublist entries
  live : ∀ x ∈ entries, x.2.isLive now = true → x ∈ entries'

theorem sweeps_refl (now : Nat) (entries : List (String × CacheEntry)) :
    Sweeps now entries entries :=
  ⟨List.Sublist.refl _, fun _ h _ => h⟩

theorem sweeps_evictExpired (c : OfferCache) (now : Nat) :
    Sweeps now c.entries (c.evictExpired now).entries :=
  ⟨c.sublist_evictExpired now, fun _ h live => List.mem_filter.2 ⟨h, live⟩⟩

/-- A sweep does not change which entries are live. -/
theorem Sweeps.mem_iff (h : Sweeps now entries entries') (le : now ≤ later)
    (live : x.2.isLive later = true) : x ∈ entries' ↔ x ∈ entries :=
  ⟨fun hx => h.fewer.subset hx, fun hx => h.live x hx (CacheEntry.isLive_of_le live le)⟩

/-! ### Storing -/

/-- An offer has come under its own key, for so many nanoseconds from now. -/
def Gains (now : Nat) (entries entries' : List (String × CacheEntry)) (offer : Offer)
    (lifetime : Nat) : Prop :=
  ∃ swept, Sweeps now entries swept ∧
    entries' = swept.filter (·.1 ≠ offer.id.cacheKey) ++
      [(offer.id.cacheKey, ⟨offer, now + lifetime⟩)]

section Gains

variable (h : Gains now entries entries' offer lifetime)
include h

theorem Gains.mem_new : (offer.id.cacheKey, ⟨offer, now + lifetime⟩) ∈ entries' := by
  obtain ⟨swept, -, rfl⟩ := h
  exact List.mem_append_right _ List.mem_cons_self

theorem Gains.mem_cases (hx : x ∈ entries') :
    x ∈ entries ∧ x.1 ≠ offer.id.cacheKey ∨
      x = (offer.id.cacheKey, ⟨offer, now + lifetime⟩) := by
  obtain ⟨swept, sweeps, rfl⟩ := h
  rcases List.mem_append.1 hx with hx | hx
  · obtain ⟨hx, other⟩ := List.mem_filter.1 hx
    exact .inl ⟨sweeps.fewer.subset hx, by simpa using other⟩
  · exact .inr (List.mem_singleton.1 hx)

theorem Gains.mem_of_live (hx : x ∈ entries) (live : x.2.isLive now = true)
    (other : x.1 ≠ offer.id.cacheKey) : x ∈ entries' := by
  obtain ⟨swept, sweeps, rfl⟩ := h
  exact List.mem_append_left _ (List.mem_filter.2 ⟨sweeps.live x hx live, by simpa using other⟩)

end Gains

theorem put_cases (c : OfferCache) (now : Nat) (offer : Offer) (lifetime : Nat) :
    let put := c.put now offer.id.cacheKey offer lifetime
    put.1 = .ok () ∧ Gains now c.entries put.2.entries offer lifetime ∨
      (∃ e, put.1 = .error e) ∧ Sweeps now c.entries put.2.entries := by
  dsimp only [put]
  cases c.check with
  | error e => exact .inr ⟨⟨e, rfl⟩, sweeps_refl _ _⟩
  | ok _ =>
    dsimp only
    have swept : Sweeps now c.entries
        (if c.maxEntries ≤ c.entries.length then c.evictExpired now else c).entries := by
      split
      · exact c.sweeps_evictExpired now
      · exact sweeps_refl _ _
    generalize (if c.maxEntries ≤ c.entries.length then c.evictExpired now else c) = c' at *
    split
    · exact .inr ⟨⟨_, rfl⟩, swept⟩
    · exact .inl ⟨rfl, c'.entries, swept, rfl⟩

/-! ### Taking -/

/-- A cache that is there erases the key and hands out the offer under it, if that is live. -/
theorem take_cases (c : OfferCache) (now : Nat) (key : String) :
    let take := c.take now key
    (∃ e, take.1 = .error e) ∧ take.2 = c ∨
      take.1 = .ok (((c.lookup key).filter (·.isLive now)).map (·.offer)) ∧
        take.2 = c.erase key := by
  dsimp only [take]
  cases c.check with
  | error e => exact .inl ⟨⟨e, rfl⟩, rfl⟩
  | ok _ => exact .inr ⟨rfl, rfl⟩

/-! ### Keys -/

/-- Every offer waits under its own key, and no key is there twice. -/
structure Keyed (entries : List (String × CacheEntry)) : Prop where
  named : ∀ x ∈ entries, x.1 = x.2.offer.id.cacheKey
  keys : (entries.map (·.1)).Nodup

theorem keyed_nil : Keyed [] :=
  ⟨fun _ h => absurd h List.not_mem_nil, List.nodup_nil⟩

theorem Keyed.id_eq {id : OfferId} {e : CacheEntry} (h : Keyed entries)
    (there : (id.cacheKey, e) ∈ entries) : e.offer.id = id := by
  have key : id.cacheKey = e.offer.id.cacheKey := h.named (id.cacheKey, e) there
  exact (OfferId.cacheKey_injective key).symm

theorem Keyed.sublist (h : Keyed entries) (fewer : entries'.Sublist entries) : Keyed entries' :=
  ⟨fun x hx => h.named x (fewer.subset hx), h.keys.sublist (fewer.map _)⟩

theorem Keyed.gains (h : Keyed entries) (gains : Gains now entries entries' offer lifetime) :
    Keyed entries' := by
  obtain ⟨swept, sweeps, rfl⟩ := gains
  have rest : Keyed (swept.filter (·.1 ≠ offer.id.cacheKey)) :=
    h.sublist (List.filter_sublist.trans sweeps.fewer)
  refine ⟨fun x hx => ?_, ?_⟩
  · rcases List.mem_append.1 hx with hx | hx
    · exact rest.named x hx
    · rw [List.mem_singleton.1 hx]
  · rw [List.map_append, List.nodup_append]
    refine ⟨rest.keys, List.nodup_singleton _, ?_⟩
    intro k hk k' hk'
    obtain ⟨x, hx, rfl⟩ := List.mem_map.1 hk
    rw [List.map_singleton, List.mem_singleton] at hk'
    subst hk'
    simpa using (List.mem_filter.1 hx).2

/-- Asking for a key finds the entry under it. -/
theorem Keyed.lookup_eq {e : CacheEntry} (h : Keyed c.entries) (there : (key, e) ∈ c.entries) :
    c.lookup key = some e := by
  obtain ⟨e', found⟩ := exists_lookup there
  have same : (key, e') = (key, e) :=
    List.inj_on_of_nodup_map h.keys (mem_of_lookup found) there rfl
  rw [found, (Prod.mk.inj same).2]

/-- Erasing a key drops no live entry when the one under this key has expired. -/
theorem Keyed.sweeps_erase (h : Keyed c.entries)
    (dead : ∀ e, c.lookup key = some e → e.isLive now = false) :
    Sweeps now c.entries (c.erase key).entries := by
  refine ⟨c.sublist_erase key, fun x hx live => List.mem_filter.2 ⟨hx, ?_⟩⟩
  have other : x.1 ≠ key := by
    rintro rfl
    rw [dead x.2 (h.lookup_eq hx)] at live
    cases live
  simpa using other

/-- Erasing a key removes at most one entry, the one under this key. -/
theorem Keyed.erase_cases (h : Keyed c.entries) (key : String) :
    (c.erase key).entries = c.entries ∨
      ∃ before e after, c.entries = before ++ (key, e) :: after ∧
        (c.erase key).entries = before ++ after := by
  cases found : c.lookup key with
  | none =>
    left
    have absent := List.lookup_eq_none_iff.1 found
    refine List.filter_eq_self.2 fun x hx => ?_
    have other : x.1 ≠ key := fun same => by simpa [same] using absent x hx
    simpa using other
  | some e =>
    right
    obtain ⟨before, after, split, earlier⟩ := List.lookup_eq_some_iff.1 found
    refine ⟨before, e, after, split, ?_⟩
    have keys := h.keys
    rw [split, List.map_append, List.map_cons, List.nodup_append, List.nodup_cons] at keys
    have first : before.filter (·.1 ≠ key) = before := by
      refine List.filter_eq_self.2 fun x hx => ?_
      have other : x.1 ≠ key := fun same => by simpa [same] using earlier x hx
      simpa using other
    have last : after.filter (·.1 ≠ key) = after := by
      refine List.filter_eq_self.2 fun x hx => ?_
      have other : x.1 ≠ key := fun same => keys.2.1.1 (List.mem_map.2 ⟨x, hx, same⟩)
      simpa using other
    rw [erase, split, List.filter_append, List.filter_cons_of_neg (by simp), first, last]

/-! ### Counting -/

/-- How many entries had expired at this time and are gone. -/
def lapsed (now : Nat) (entries entries' : List (String × CacheEntry)) : Nat :=
  entries.countP fun x => !x.2.isLive now && (entries'.lookup x.1).isNone

/-- When some entries have been dropped, those are left whose key is still there. -/
theorem Keyed.length_eq_countP (h : Keyed entries) (fewer : entries'.Sublist entries) :
    entries'.length = entries.countP fun x => (entries'.lookup x.1).isSome := by
  have left : (entries.filter fun x => (entries'.lookup x.1).isSome).Perm entries' := by
    refine (List.perm_ext_iff_of_nodup (h.keys.of_map.filter _)
      (h.keys.of_map.sublist fewer)).2 fun x => ?_
    rw [List.mem_filter, Option.isSome_iff_exists]
    constructor
    · rintro ⟨hx, e, found⟩
      have there : (x.1, e) ∈ entries' := mem_of_lookup (c := { entries := entries' }) found
      have same : (x.1, e) = x := List.inj_on_of_nodup_map h.keys (fewer.subset there) hx rfl
      exact same ▸ there
    · intro hx
      exact ⟨fewer.subset hx, exists_lookup (c := { entries := entries' }) hx⟩
  rw [← left.length_eq, List.countP_eq_length_filter]

/-- A sweep drops what had expired. -/
theorem Sweeps.length_add_lapsed (h : Sweeps now entries entries') (keyed : Keyed entries) :
    entries'.length + lapsed now entries entries' = entries.length := by
  have gone : lapsed now entries entries' =
      entries.countP fun x => ¬(entries'.lookup x.1).isSome := by
    refine List.countP_congr fun x hx => ?_
    have left : x.2.isLive now = true → (entries'.lookup x.1).isSome = true := fun live =>
      Option.isSome_iff_exists.2 (exists_lookup (c := { entries := entries' }) (h.live x hx live))
    cases live : x.2.isLive now with
    | false => simp
    | true => simp [left live]
  rw [keyed.length_eq_countP h.fewer, gone, ← List.length_eq_countP_add_countP]

theorem lapsed_self (keyed : Keyed entries) (now : Nat) : lapsed now entries entries = 0 := by
  have count := (sweeps_refl now entries).length_add_lapsed keyed
  omega

/-- An offer with a new identifier comes to those that a sweep has left. -/
theorem Gains.length_add_lapsed (h : Gains now entries entries' offer lifetime)
    (keyed : Keyed entries) (fresh : ∀ x ∈ entries, x.2.offer.id ≠ offer.id) :
    entries'.length + lapsed now entries entries' = entries.length + 1 := by
  obtain ⟨swept, sweeps, rfl⟩ := h
  have other : ∀ x ∈ entries, x.1 ≠ offer.id.cacheKey := fun x hx key =>
    fresh x hx (OfferId.cacheKey_injective ((keyed.named x hx).symm.trans key))
  have kept : swept.filter (·.1 ≠ offer.id.cacheKey) = swept :=
    List.filter_eq_self.2 fun x hx => by simpa using other x (sweeps.fewer.subset hx)
  have gone : lapsed now entries (swept ++ [(offer.id.cacheKey, ⟨offer, now + lifetime⟩)]) =
      lapsed now entries swept := by
    refine List.countP_congr fun x hx => ?_
    have unlike : (x.1 == offer.id.cacheKey) = false := beq_false_of_ne (other x hx)
    simp [List.lookup_append, List.lookup_cons, unlike]
  have count := sweeps.length_add_lapsed keyed
  rw [kept, gone, List.length_append, List.length_singleton]
  omega

/-- An offer that is handed out has not lapsed. -/
theorem Keyed.length_erase_of_live {e : CacheEntry} (h : Keyed c.entries)
    (there : c.lookup key = some e) (live : e.isLive now = true) :
    (c.erase key).entries.length + 1 = c.entries.length ∧
      lapsed now c.entries (c.erase key).entries = 0 := by
  constructor
  · rcases h.erase_cases key with same | ⟨before, e', after, split, left⟩
    · have gone : (key, e) ∉ (c.erase key).entries := fun h => by
        simpa using (List.mem_filter.1 h).2
      exact absurd (mem_of_lookup there) (same ▸ gone)
    · rw [split, left]
      simp only [List.length_append, List.length_cons]
      omega
  · refine List.countP_eq_zero.2 fun x hx => ?_
    by_cases same : x.1 = key
    · obtain rfl : x = (key, e) := List.inj_on_of_nodup_map h.keys hx (mem_of_lookup there) same
      simp [live]
    · have kept : x ∈ (c.erase key).entries := List.mem_filter.2 ⟨hx, by simpa using same⟩
      obtain ⟨e', found⟩ := exists_lookup kept
      have found : (c.erase key).entries.lookup x.1 = some e' := found
      simp [found]

end OfferCache

end Bureau
