import Bureau.Desk.Basic
import Bureau.Proofs.Decimal.Value
import Bureau.Proofs.Desk.Timed
import Bureau.Proofs.Ledger.Store

/-!
# What calls change

Time passes in every call, counters count and mishaps are used up; `World.Still` is the relation
of a world to any later one in which nothing else has changed. Queries and quotes keep the world
still; the calls of the cache change the cache alone.
-/

namespace Bureau

open Timed World

/-- Apart from the ledger and the cache, nothing has changed but draws of random bits and counters,
and time has passed; a mishap that waits for a quote or for the ledger has waited before. -/
structure World.Apart (w w' : World) : Prop where
  random : w'.random = w.random
  now : w'.now = w.now
  clock : w.clock ≤ w'.clock
  quotes : ∀ q ∈ w'.mishaps.quotes, q ∈ w.mishaps.quotes
  calls : ∀ c ∈ w'.mishaps.ledger, c ∈ w.mishaps.ledger

/-- The cache has not changed either. -/
structure World.Beside (w w' : World) : Prop extends World.Apart w w' where
  cache : w'.cache = w.cache

/-- The ledger has not changed either. -/
structure World.Aside (w w' : World) : Prop extends World.Apart w w' where
  ledger : w'.ledger = w.ledger

/-- Neither the ledger nor the cache has changed. -/
structure World.Like (w w' : World) : Prop extends World.Beside w w', World.Aside w w'

/-- No random bits have been drawn either. -/
structure World.Still (w w' : World) : Prop extends World.Like w w' where
  drawn : w'.drawn = w.drawn

namespace World

variable {w w' w'' : World}

theorem Apart.refl (w : World) : w.Apart w :=
  ⟨rfl, rfl, Nat.le_refl _, fun _ h => h, fun _ h => h⟩

theorem Apart.trans (h : w.Apart w') (h' : w'.Apart w'') : w.Apart w'' where
  random := h'.random.trans h.random
  now := h'.now.trans h.now
  clock := h.clock.trans h'.clock
  quotes q hq := h.quotes q (h'.quotes q hq)
  calls c hc := h.calls c (h'.calls c hc)

theorem Beside.trans (h : w.Beside w') (h' : w'.Beside w'') : w.Beside w'' :=
  ⟨h.toApart.trans h'.toApart, h'.cache.trans h.cache⟩

theorem Aside.trans (h : w.Aside w') (h' : w'.Aside w'') : w.Aside w'' :=
  ⟨h.toApart.trans h'.toApart, h'.ledger.trans h.ledger⟩

theorem Like.trans (h : w.Like w') (h' : w'.Like w'') : w.Like w'' :=
  ⟨h.toBeside.trans h'.toBeside, h'.ledger.trans h.ledger⟩

theorem Still.refl (w : World) : w.Still w := ⟨⟨⟨Apart.refl w, rfl⟩, rfl⟩, rfl⟩

theorem Still.trans (h : w.Still w') (h' : w'.Still w'') : w.Still w'' :=
  ⟨h.toLike.trans h'.toLike, h'.drawn.trans h.drawn⟩

theorem still_clock (w : World) {clock : Nat} (later : w.clock ≤ clock) :
    w.Still { w with clock } :=
  ⟨⟨⟨⟨rfl, rfl, later, fun _ h => h, fun _ h => h⟩, rfl⟩, rfl⟩, rfl⟩

theorem still_counters (w : World) (counters : Counters) : w.Still { w with counters } :=
  ⟨⟨⟨{ Apart.refl w with }, rfl⟩, rfl⟩, rfl⟩

theorem still_crash (w : World) (overflow : SumOverflow) :
    w.Still { w with lastCrash := some overflow } :=
  ⟨⟨⟨{ Apart.refl w with }, rfl⟩, rfl⟩, rfl⟩

theorem like_drawn (w : World) (drawn : Nat) : w.Like { w with drawn } :=
  ⟨⟨{ Apart.refl w with }, rfl⟩, rfl⟩

theorem beside_ledger (w : World) (ledger : Ledger) : w.Beside { w with ledger } :=
  ⟨{ Apart.refl w with }, rfl⟩

theorem aside_cache (w : World) (cache : OfferCache) : w.Aside { w with cache } :=
  ⟨{ Apart.refl w with }, rfl⟩

/-- Mishaps are used up. -/
theorem still_mishaps (w : World) {mishaps : Mishaps}
    (quotes : ∀ q ∈ mishaps.quotes, q ∈ w.mishaps.quotes)
    (calls : ∀ c ∈ mishaps.ledger, c ∈ w.mishaps.ledger) : w.Still { w with mishaps } :=
  ⟨⟨⟨⟨rfl, rfl, Nat.le_refl _, quotes, calls⟩, rfl⟩, rfl⟩, rfl⟩

theorem still_popQuote (w : World) : w.Still (Market.popQuote w).2 := by
  unfold Market.popQuote
  split
  · exact Still.refl w
  · rename_i first rest quotes
    exact w.still_mishaps (fun q hq => quotes ▸ List.mem_cons_of_mem first hq) fun _ h => h

theorem still_popPut (w : World) : w.Still (OfferCache.popPut w).2 := by
  unfold OfferCache.popPut
  split
  · exact Still.refl w
  · exact w.still_mishaps (fun _ h => h) fun _ h => h

theorem still_popTake (w : World) : w.Still (OfferCache.popTake w).2 := by
  unfold OfferCache.popTake
  split
  · exact Still.refl w
  · exact w.still_mishaps (fun _ h => h) fun _ h => h

/-- A mishap that does not befall a call goes on waiting. -/
theorem mem_popFor {call : LedgerCall} {waiting : List (LedgerCall × Mishap LedgerError)} :
    ∀ c ∈ (Ledger.popFor call waiting).2, c ∈ waiting := by
  induction waiting with
  | nil => exact fun _ h => h
  | cons first rest ih =>
    unfold Ledger.popFor
    split
    · exact fun _ h => List.mem_cons_of_mem _ h
    · intro c hc
      rcases List.mem_cons.1 hc with rfl | hc
      · exact List.mem_cons_self
      · exact List.mem_cons_of_mem _ (ih c hc)

/-- A mishap that befalls a call has waited for it. -/
theorem mem_of_popFor {call : LedgerCall} {waiting : List (LedgerCall × Mishap LedgerError)}
    {mishap : Mishap LedgerError} (popped : (Ledger.popFor call waiting).1 = some mishap) :
    (call, mishap) ∈ waiting := by
  induction waiting with
  | nil => cases popped
  | cons first rest ih =>
    unfold Ledger.popFor at popped
    split at popped
    · rename_i same
      cases popped
      exact same ▸ List.mem_cons_self
    · exact List.mem_cons_of_mem _ (ih popped)

theorem still_pop (call : LedgerCall) (w : World) : w.Still (Ledger.pop call w).2 :=
  w.still_mishaps (fun _ h => h) mem_popFor

end World

namespace Timed

variable {α ε : Type} {w w₀ : World}

/-- From a world that is still, waiting keeps it still. -/
theorem still_wait (h : w₀.Still w) (span : Nat) :
    (wait span).Ensures w (fun _ => w₀.Still) w₀.Still :=
  ensures_wait (fun _ later => h.trans (w.still_clock later)) fun _ later =>
    h.trans (w.still_clock later)

theorem still_count (h : w₀.Still w) (event : Countable) {cut : World → Prop} :
    (count event).Ensures w (fun _ => w₀.Still) cut :=
  ensures_count fun counters => h.trans (w.still_counters counters)

theorem still_suffer (h : w₀.Still w) {pop : World → Option (Mishap ε) × World}
    (hpop : w.Still (pop w).2) : (suffer pop).Ensures w (fun _ => w₀.Still) w₀.Still := by
  refine Ensures.bind (ensures_act (Q := fun _ => w₀.Still) (h.trans hpop)) fun mishap w' hw' => ?_
  cases mishap with
  | none => exact ensures_pure hw'
  | some mishap =>
    refine Ensures.bind (still_wait hw' mishap.delay) fun _ w'' hw'' => ?_
    exact ensures_pure hw''

end Timed

/-! ### The market -/

namespace Market

/-- The quote prices what was asked for, in range and with no digits past the places of its
currency. -/
structure Prices (pair : CurrencyPair) (amount : Decimal) (q : Quote) : Prop where
  pair : q.pair = pair
  source : q.sourceAmount = amount
  exact : q.credit.IsExact
  inRange : q.amount.inRange = true

/-- Answers that stand in for the table do not occur. -/
def NoAnswers (w : World) : Prop := ∀ q ∈ w.mishaps.quotes, q.2 = none

variable {w : World} {pair : CurrencyPair} {amount : Decimal}

theorem prices_of_quote {t : RateTable} {now : Instant} {q : Quote}
    (h : t.quote now pair amount = .ok q) : Prices pair amount q := by
  unfold RateTable.quote at h
  split at h
  · cases h
  · split at h
    · cases h
    · unfold Quote.price at h
      split at h
      · rename_i rate _ converted hconverted
        cases h
        unfold Quote.convert? at hconverted
        rw [Option.filter_eq_some_iff, Option.map_eq_some_iff] at hconverted
        obtain ⟨⟨v, -, rfl⟩, inRange⟩ := hconverted
        exact ⟨rfl, rfl, Money.isExact_truncated ⟨v, pair.quote⟩, inRange⟩
      · cases h

theorem ensures_tableQuote {w₀ : World} (h : w₀.Still w) (conversion : RateTable.Conversion) :
    (tableQuote conversion pair amount).Ensures w
      (fun r w' => w₀.Still w' ∧ ∀ q, r = .ok q → Prices pair amount q) w₀.Still := by
  unfold tableQuote
  split
  · exact ensures_pure ⟨h, fun q hq => by cases hq⟩
  · refine Ensures.bind (ensures_read (Q := fun _ => w₀.Still) h) fun latency w' hw' => ?_
    refine Ensures.bind (still_wait hw' latency) fun _ w'' hw'' => ?_
    exact ensures_read ⟨hw'', fun q hq => prices_of_quote hq⟩

theorem ensures_quote (conversion : RateTable.Conversion) :
    (quote conversion pair amount).Ensures w
      (fun r w' => w.Still w' ∧ (NoAnswers w → ∀ q, r = .ok q → Prices pair amount q))
      w.Still := by
  have table {w' : World} (hw' : w.Still w') : (tableQuote conversion pair amount).Ensures w'
      (fun r w' => w.Still w' ∧ (NoAnswers w → ∀ q, r = .ok q → Prices pair amount q)) w.Still :=
    (ensures_tableQuote hw' conversion).mono (fun r w'' h => ⟨h.1, fun _ => h.2⟩) fun _ h => h
  have popped : (act popQuote).Ensures w (fun found w' => w.Still w' ∧
      ∀ mishap answer, found = some (mishap, answer) → (mishap, answer) ∈ w.mishaps.quotes)
      w.Still := by
    refine ensures_act ⟨w.still_popQuote, fun mishap answer found => ?_⟩
    unfold popQuote at found
    split at found
    · cases found
    · rename_i first rest quotes
      cases found
      rw [quotes]
      exact List.mem_cons_self
  refine Ensures.bind popped fun found w' hw' => ?_
  obtain ⟨hw', member⟩ := hw'
  cases found with
  | none => exact table hw'
  | some found =>
    obtain ⟨mishap, answer⟩ := found
    refine Ensures.bind (still_wait hw' mishap.delay) fun _ w'' hw'' => ?_
    cases error : mishap.error with
    | some e =>
      simp only
      exact ensures_pure ⟨hw'', fun _ q hq => by cases hq⟩
    | none =>
      cases answer with
      | none => exact table hw''
      | some answer =>
        refine ensures_read ⟨hw'', fun none_ => ?_⟩
        exact absurd (none_ _ (member mishap _ rfl)) (by simp)

end Market

/-! ### The ledger -/

namespace Ledger

variable {α : Type} {w : World}

theorem ensures_query (name : LedgerCall) (f : Ledger → α) :
    (query name f).Ensures w (fun _ => w.Still) w.Still := by
  refine Ensures.bind (still_suffer (Still.refl w) (w.still_pop name)) fun error w' hw' => ?_
  cases error with
  | some e => exact ensures_pure hw'
  | none => exact ensures_act hw'

/-- The account is opened now, unless the call fails. -/
theorem yields_callCreateAccount (key : AccountKey) :
    (callCreateAccount key).Yields w
      (fun _ w' => w.Beside w' ∧ w'.ledger = (w.ledger.createAccount key w.now).2)
      (fun w' => w.Beside w' ∧ w'.ledger = w.ledger) := by
  refine Ensures.bind ((still_suffer (Still.refl w) (w.still_pop _)).mono (fun _ _ h => h)
    fun _ h => ⟨h.toBeside, h.ledger⟩) fun error w' hw' => ?_
  cases error with
  | some e => exact ensures_pure ⟨hw'.toBeside, hw'.ledger⟩
  | none =>
    refine ensures_act ?_
    dsimp only
    have beside := hw'.toBeside.trans (w'.beside_ledger (w'.ledger.createAccount key w'.now).2)
    rw [hw'.ledger, hw'.now] at beside ⊢
    cases opened : (w.ledger.createAccount key w.now).1 with
    | error e => exact ⟨beside, createAccount_of_error key w.now opened⟩
    | ok account => exact ⟨beside, rfl⟩

end Ledger

end Bureau
