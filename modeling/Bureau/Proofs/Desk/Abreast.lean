import Bureau.Desk.Accounts
import Bureau.Desk.Offers
import Bureau.Desk.Listing
import Bureau.Desk.Settlement
import Bureau.Proofs.Desk.Accounts
import Bureau.Proofs.Offer.Cache

/-!
# Two worlds of one scene

What an operation notices without looking into the ledger or at the entries of the cache is the
`Scene`. `Timed.Abreast` compares two operations that run in two worlds of one scene: whatever the
deadline, both have a result or neither, and the scenes are one again. An operation is `Blind` when
the scene alone decides its result; making an offer is (`Desk.blind_createOffer`). What is asked of
the ledger or taken from the cache is compared for two worlds in which it is the same.
-/

namespace Bureau

open Timed World

/-- The clocks, the random bits, the market, and what will befall the calls. -/
structure Scene where
  clock : Nat
  now : Instant
  random : Nat → BitVec 128
  drawn : Nat := 0
  rates : RateTable
  lockWait : Nat
  mishaps : Mishaps := {}
  /-- Whether the cache answers, and after how many nanoseconds. -/
  available : Bool := true
  latency : Nat := 0

namespace World

/-- What a world is like apart from its books. -/
def scene (w : World) : Scene where
  clock := w.clock
  now := w.now
  random := w.random
  drawn := w.drawn
  rates := w.rates
  lockWait := w.lockWait
  mishaps := w.mishaps
  available := w.cache.available
  latency := w.cache.latency

section Scene

variable {w w' : World} (h : w.scene = w'.scene)

include h

theorem scene_clock (clock : Nat) : { w with clock }.scene = { w' with clock }.scene :=
  congrArg (fun s : Scene => { s with clock }) h

theorem scene_drawn (drawn : Nat) : { w with drawn }.scene = { w' with drawn }.scene :=
  congrArg (fun s : Scene => { s with drawn }) h

theorem scene_mishaps (mishaps : Mishaps) :
    { w with mishaps }.scene = { w' with mishaps }.scene :=
  congrArg (fun s : Scene => { s with mishaps }) h

end Scene

theorem scene_cache {w : World} {cache : OfferCache}
    (available : cache.available = w.cache.available)
    (latency : cache.latency = w.cache.latency) : { w with cache }.scene = w.scene := by
  simp only [scene, available, latency]

end World

namespace Timed

variable {α α' β β' : Type}

/-- Both operations have a result, or neither has, and their worlds are of one scene and otherwise
related. -/
inductive Alongside (Q : α → β → World → World → Prop) (C : World → World → Prop) :
    Option α × World → Option β × World → Prop
  | result {a : α} {b : β} {v v' : World} (scene : v.scene = v'.scene) (h : Q a b v v') :
      Alongside Q C (some a, v) (some b, v')
  | cut {v v' : World} (scene : v.scene = v'.scene) (h : C v v') :
      Alongside Q C (none, v) (none, v')

/-- Whatever the deadline: two operations in two worlds come to outcomes of one kind. -/
def Abreast (x : Timed α) (y : Timed β) (w w' : World) (Q : α → β → World → World → Prop)
    (C : World → World → Prop) : Prop :=
  ∀ deadline, Alongside Q C (x deadline w) (y deadline w')

section Abreast

variable {x : Timed α} {y : Timed β} {w w' : World} {Q Q' : α → β → World → World → Prop}
  {C C' : World → World → Prop}

theorem Abreast.mono (h : x.Abreast y w w' Q C)
    (hQ : ∀ a b v v', v.scene = v'.scene → Q a b v v' → Q' a b v v')
    (hC : ∀ v v', v.scene = v'.scene → C v v' → C' v v') : x.Abreast y w w' Q' C' := by
  intro deadline
  have both := h deadline
  generalize x deadline w = p, y deadline w' = q at both ⊢
  cases both with
  | result scene h => exact .result scene (hQ _ _ _ _ scene h)
  | cut scene h => exact .cut scene (hC _ _ scene h)

/-- What each operation ensures by itself may be added. -/
theorem Abreast.and {P : α → World → Prop} {P' : β → World → Prop} {cut cut' : World → Prop}
    (h : x.Abreast y w w' Q C) (hx : x.Ensures w P cut) (hy : y.Ensures w' P' cut') :
    x.Abreast y w w' (fun a b v v' => Q a b v v' ∧ P a v ∧ P' b v')
      fun v v' => C v v' ∧ cut v ∧ cut' v' := by
  intro deadline
  have both := h deadline
  have left := hx deadline
  have right := hy deadline
  generalize x deadline w = p, y deadline w' = q at both left right ⊢
  cases both with
  | result scene h => exact .result scene ⟨h, left, right⟩
  | cut scene h => exact .cut scene ⟨h, left, right⟩

/-- The same, where nothing more is asked of a cut. -/
theorem Abreast.also {P : α → World → Prop} {P' : β → World → Prop} {cut cut' : World → Prop}
    (h : x.Abreast y w w' Q C) (hx : x.Ensures w P cut) (hy : y.Ensures w' P' cut') :
    x.Abreast y w w' (fun a b v v' => Q a b v v' ∧ P a v ∧ P' b v') C :=
  (h.and hx hy).mono (fun _ _ _ _ _ h => h) fun _ _ _ h => h.1

theorem abreast_pure {a : α} {b : β} (scene : w.scene = w'.scene) (h : Q a b w w') :
    (pure a : Timed α).Abreast (pure b) w w' Q C :=
  fun _ => .result scene h

theorem Abreast.bind {f : α → Timed α'} {g : β → Timed β'} {R : α' → β' → World → World → Prop}
    (h : x.Abreast y w w' Q C)
    (hf : ∀ a b v v', v.scene = v'.scene → Q a b v v' → (f a).Abreast (g b) v v' R C) :
    (x >>= f).Abreast (y >>= g) w w' R C := by
  intro deadline
  have both := h deadline
  rw [bind_apply, bind_apply]
  generalize x deadline w = p, y deadline w' = q at both ⊢
  cases both with
  | result scene h => exact hf _ _ _ _ scene h deadline
  | cut scene h => exact .cut scene h

theorem abreast_read {f : World → α} {g : World → β} (scene : w.scene = w'.scene)
    (h : Q (f w) (g w') w w') : (read f).Abreast (read g) w w' Q C :=
  fun _ => .result scene h

theorem abreast_act {f : World → α × World} {g : World → β × World}
    (scene : (f w).2.scene = (g w').2.scene) (h : Q (f w).1 (g w').1 (f w).2 (g w').2) :
    (act f).Abreast (act g) w w' Q C :=
  fun _ => .result scene h

/-- Two operations that are given the same time. -/
theorem Abreast.within {Q : Option α → Option β → World → World → Prop}
    (scene : w.scene = w'.scene) (h : x.Abreast y w w' (fun a b => Q (some a) (some b))
      fun v v' => Q none none v v' ∧ C v v') (span : Nat) :
    (within span x).Abreast (within span y) w w' Q C := by
  have clock : w'.clock = w.clock := (congrArg Scene.clock scene).symm
  have own : Alongside Q C (some (x (some (w.clock + span)) w).1, (x (some (w.clock + span)) w).2)
      (some (y (some (w.clock + span)) w').1, (y (some (w.clock + span)) w').2) := by
    have both := h (some (w.clock + span))
    generalize x (some (w.clock + span)) w = p, y (some (w.clock + span)) w' = q at both ⊢
    cases both with
    | result scene h => exact .result scene h
    | cut scene h => exact .result scene h.1
  intro deadline
  unfold Timed.within
  rw [clock]
  cases deadline with
  | none => exact own
  | some d =>
    dsimp only
    by_cases earlier : d < w.clock + span
    · rw [if_pos earlier, if_pos earlier]
      have both := h (some d)
      generalize x (some d) w = p, y (some d) w' = q at both ⊢
      cases both with
      | result scene h => exact .result scene h
      | cut scene h => exact .cut scene h.2
    · rw [if_neg earlier, if_neg earlier]
      exact own

/-- Both results come in time, or neither does. -/
theorem Abreast.limited {R : α → β → Prop} (scene : w.scene = w'.scene)
    (h : x.Abreast y w w' (fun a b _ _ => R a b) fun _ _ => True) (span : Nat) :
    (Timed.within span x).Abreast (Timed.within span y) w w' (fun a b _ _ => Option.Rel R a b)
      fun _ _ => True :=
  (h.mono (fun _ _ _ _ _ related => .some related) fun _ _ _ _ => ⟨.none, trivial⟩).within scene
    span

theorem Abreast.onCut {cleanUp cleanUp' : World → World} (h : x.Abreast y w w' Q C)
    (hcut : ∀ v v', v.scene = v'.scene → C v v' →
      (cleanUp v).scene = (cleanUp' v').scene ∧ C' (cleanUp v) (cleanUp' v')) :
    (onCut cleanUp x).Abreast (onCut cleanUp' y) w w' Q C' := by
  intro deadline
  have both := h deadline
  unfold Timed.onCut
  generalize x deadline w = p, y deadline w' = q at both ⊢
  cases both with
  | result scene h => exact .result scene h
  | cut scene h => exact .cut (hcut _ _ scene h).1 (hcut _ _ scene h).2

/-- The operations have the same result, if they have one. -/
abbrev Agree (x y : Timed α) (w w' : World) : Prop :=
  x.Abreast y w w' (fun a b _ _ => a = b) fun _ _ => True

end Abreast

/-! ### Operations that the scene decides -/

/-- The scene alone decides the result, and the scene that follows. -/
def Blind (x : Timed α) : Prop :=
  ∀ w w', w.scene = w'.scene → x.Agree x w w'

section Blind

variable {x : Timed α}

theorem blind_pure (a : α) : (pure a : Timed α).Blind :=
  fun _ _ scene => abreast_pure scene rfl

theorem Blind.bind {f : α → Timed β} (hx : x.Blind) (hf : ∀ a, (f a).Blind) :
    (x >>= f).Blind :=
  fun w w' scene => (hx w w' scene).bind fun a _ v v' scene same => same ▸ hf a v v' scene

/-- After the same result, the scene decides what follows. -/
theorem Agree.then_blind {f : α → Timed β} {w w' : World} (h : x.Agree x w w')
    (hf : ∀ a, (f a).Blind) : (x >>= f).Agree (x >>= f) w w' :=
  h.bind fun a _ v v' scene same => same ▸ hf a v v' scene

theorem blind_read {f : World → α} (h : ∀ w w', w.scene = w'.scene → f w = f w') :
    (read f).Blind :=
  fun w w' scene => abreast_read scene (h w w' scene)

theorem blind_act {f : World → α × World} (h : ∀ w w', w.scene = w'.scene →
    (f w).1 = (f w').1 ∧ (f w).2.scene = (f w').2.scene) : (act f).Blind :=
  fun w w' scene => abreast_act (h w w' scene).2 (h w w' scene).1

theorem blind_crash (overflow : SumOverflow) : (crash overflow : Timed α).Blind :=
  fun _ _ scene _ => .cut scene trivial

theorem blind_wait (span : Nat) : (wait span).Blind := by
  intro w w' scene deadline
  have clock : w'.clock = w.clock := (congrArg Scene.clock scene).symm
  unfold wait
  rw [clock]
  cases deadline with
  | none => exact .result (scene_clock scene _) rfl
  | some d =>
    dsimp only
    by_cases before : w.clock + span ≤ d
    · rw [if_pos before, if_pos before]
      exact .result (scene_clock scene _) rfl
    · rw [if_neg before, if_neg before]
      exact .cut (scene_clock scene _) trivial

theorem Agree.within {w w' : World} (h : x.Agree x w w') (scene : w.scene = w'.scene)
    (span : Nat) : (within span x).Agree (within span x) w w' :=
  (h.mono (fun _ _ _ _ _ same => congrArg some same) fun _ _ _ _ => ⟨rfl, trivial⟩).within scene
    span

theorem Blind.within (h : x.Blind) (span : Nat) : (within span x).Blind :=
  fun w w' scene => Agree.within (h w w' scene) scene span

theorem blind_count (event : Countable) : (count event).Blind :=
  blind_act fun _ _ scene => ⟨rfl, scene⟩

theorem blind_draw : draw.Blind := by
  refine blind_act fun w w' scene => ?_
  have random : w.random = w'.random := congrArg Scene.random scene
  have drawn : w.drawn = w'.drawn := congrArg Scene.drawn scene
  refine ⟨by rw [random, drawn], ?_⟩
  rw [drawn]
  exact scene_drawn scene _

theorem blind_freshUuid : freshUuid.Blind := blind_draw.bind fun _ => blind_pure _

theorem blind_freshNonce : freshNonce.Blind := blind_draw.bind fun _ => blind_pure _

theorem blind_suffer {ε : Type} {pop : World → Option (Mishap ε) × World}
    (h : ∀ w w', w.scene = w'.scene →
      (pop w).1 = (pop w').1 ∧ (pop w).2.scene = (pop w').2.scene) : (suffer pop).Blind := by
  refine (blind_act h).bind fun mishap => ?_
  cases mishap with
  | none => exact blind_pure _
  | some mishap => exact (blind_wait _).bind fun _ => blind_pure _

end Blind

end Timed

/-! ### The market -/

namespace Market

theorem scene_popQuote {w w' : World} (scene : w.scene = w'.scene) :
    (popQuote w).1 = (popQuote w').1 ∧ (popQuote w).2.scene = (popQuote w').2.scene := by
  have mishaps : w.mishaps = w'.mishaps := congrArg Scene.mishaps scene
  unfold popQuote
  rw [← mishaps]
  cases w.mishaps.quotes with
  | nil => exact ⟨rfl, scene⟩
  | cons first rest => exact ⟨rfl, by rw [mishaps]; exact scene_mishaps scene _⟩

theorem blind_tableQuote (conversion : RateTable.Conversion) (pair : CurrencyPair)
    (amount : Decimal) : (tableQuote conversion pair amount).Blind := by
  unfold tableQuote
  split
  · exact blind_pure _
  · refine Blind.bind (blind_read fun w w' scene => ?_) fun latency =>
      (blind_wait latency).bind fun _ => blind_read fun w w' scene => ?_
    · exact congrArg (·.rates.latency) scene
    · exact congrArg (fun s => s.rates.quote s.now pair amount) scene

theorem blind_quote (conversion : RateTable.Conversion) (pair : CurrencyPair) (amount : Decimal) :
    (quote conversion pair amount).Blind := by
  refine Blind.bind (blind_act fun _ _ => scene_popQuote) fun found => ?_
  rcases found with _ | ⟨mishap, answer⟩
  · exact blind_tableQuote conversion pair amount
  · refine (blind_wait _).bind fun _ => ?_
    rcases mishap.error with _ | e
    · rcases answer with _ | ⟨rate, converted⟩
      · exact blind_tableQuote conversion pair amount
      · exact blind_read fun w w' scene =>
          congrArg (fun s : Scene => Except.ok (Quote.mk pair rate amount converted s.now)) scene
    · exact blind_pure _

end Market

/-! ### The cache -/

namespace OfferCache

theorem scene_popPut {w w' : World} (scene : w.scene = w'.scene) :
    (popPut w).1 = (popPut w').1 ∧ (popPut w).2.scene = (popPut w').2.scene := by
  have mishaps : w.mishaps = w'.mishaps := congrArg Scene.mishaps scene
  unfold popPut
  rw [← mishaps]
  cases w.mishaps.puts with
  | nil => exact ⟨rfl, scene⟩
  | cons first rest => exact ⟨rfl, by rw [mishaps]; exact scene_mishaps scene _⟩

theorem scene_popTake {w w' : World} (scene : w.scene = w'.scene) :
    (popTake w).1 = (popTake w').1 ∧ (popTake w).2.scene = (popTake w').2.scene := by
  have mishaps : w.mishaps = w'.mishaps := congrArg Scene.mishaps scene
  unfold popTake
  rw [← mishaps]
  cases w.mishaps.takes with
  | nil => exact ⟨rfl, scene⟩
  | cons first rest => exact ⟨rfl, by rw [mishaps]; exact scene_mishaps scene _⟩

/-- Storing does not change whether and when the cache answers. -/
theorem put_keeps (c : OfferCache) (now : Nat) (key : String) (offer : Offer) (lifetime : Nat) :
    (c.put now key offer lifetime).2.available = c.available ∧
      (c.put now key offer lifetime).2.latency = c.latency := by
  unfold put
  split
  · exact ⟨rfl, rfl⟩
  · have swept : (if c.maxEntries ≤ c.entries.length then c.evictExpired now else c).available =
          c.available ∧
        (if c.maxEntries ≤ c.entries.length then c.evictExpired now else c).latency =
          c.latency := by
      split <;> exact ⟨rfl, rfl⟩
    dsimp only
    split <;> exact swept

/-- Whether an offer is stored does not depend on what waits in the cache. -/
theorem put_congr {c c' : OfferCache} (available : c.available = c'.available) (now : Nat)
    (key : String) (offer : Offer) (lifetime : Nat) :
    (c.put now key offer lifetime).1 = (c'.put now key offer lifetime).1 := by
  unfold put check
  rw [available]
  cases c'.available with
  | false => rfl
  | true =>
    by_cases late : horizon ≤ now + lifetime
    · simp only [if_pos late, if_true]
    · simp only [if_neg late, if_true]

theorem blind_callPut (key : String) (offer : Offer) (lifetime : Nat) :
    (callPut key offer lifetime).Blind := by
  refine (blind_suffer fun _ _ => scene_popPut).bind fun error => ?_
  cases error with
  | some e => exact blind_pure _
  | none =>
    refine Blind.bind (blind_read fun w w' scene => congrArg Scene.latency scene) fun latency =>
      (blind_wait latency).bind fun _ => blind_act fun w w' scene => ?_
    have clock : w.clock = w'.clock := congrArg Scene.clock scene
    have available : w.cache.available = w'.cache.available := congrArg Scene.available scene
    have left := w.cache.put_keeps w.clock key offer lifetime
    have right := w'.cache.put_keeps w'.clock key offer lifetime
    refine ⟨clock ▸ put_congr available w.clock key offer lifetime, ?_⟩
    exact (scene_cache left.1 left.2).trans (scene.trans (scene_cache right.1 right.2).symm)

/-- What is handed out depends on the live offer under the key alone. -/
theorem take_congr {c c' : OfferCache} (available : c.available = c'.available) {now : Nat}
    {key : String} (same : ((c.lookup key).filter (·.isLive now)).map (·.offer) =
      ((c'.lookup key).filter (·.isLive now)).map (·.offer)) :
    (c.take now key).1 = (c'.take now key).1 := by
  unfold take check
  rw [available]
  cases c'.available with
  | false => rfl
  | true => exact congrArg Except.ok same

theorem scene_take (w : World) (now : Nat) (key : String) :
    { w with cache := (w.cache.take now key).2 }.scene = w.scene := by
  unfold take
  split <;> rfl

/-- The cache answers two calls alike when the same live offer is under the key. -/
theorem abreast_callTake {w w' : World} (scene : w.scene = w'.scene) (key : String)
    (same : ∀ now, w.clock ≤ now → ((w.cache.lookup key).filter (·.isLive now)).map (·.offer) =
      ((w'.cache.lookup key).filter (·.isLive now)).map (·.offer)) :
    (callTake key).Agree (callTake key) w w' := by
  have suffered := (blind_suffer (fun _ _ => scene_popTake) w w' scene).also
    (still_suffer (Still.refl w) w.still_popTake) (still_suffer (Still.refl w') w'.still_popTake)
  refine suffered.bind fun error _ v v' scene ⟨equal, h, h'⟩ => ?_
  subst equal
  cases error with
  | some e => exact abreast_pure scene rfl
  | none =>
    refine (abreast_read (Q := fun a b v v' => a = b ∧ w.Still v ∧ w'.Still v') scene
      ⟨congrArg Scene.latency scene, h, h'⟩).bind fun latency _ v v' scene ⟨equal, h, h'⟩ => ?_
    subst equal
    refine ((blind_wait latency v v' scene).also (still_wait h latency)
      (still_wait h' latency)).bind fun _ _ v v' scene ⟨_, h, h'⟩ => ?_
    refine abreast_act ?_ ?_
    · exact (scene_take v v.clock key).trans (scene.trans (scene_take v' v'.clock key).symm)
    · have clock : v'.clock = v.clock := (congrArg Scene.clock scene).symm
      dsimp only
      rw [clock]
      refine take_congr (congrArg Scene.available scene) ?_
      rw [h.cache, h'.cache]
      exact same v.clock h.clock

end OfferCache

/-! ### The ledger -/

/-- Two answers are the same error, or they succeed with results that are related. -/
inductive Matches {α β ε : Type} (R : α → β → Prop) : Except ε α → Except ε β → Prop
  | error (e : ε) : Matches R (.error e) (.error e)
  | ok {a : α} {b : β} (h : R a b) : Matches R (.ok a) (.ok b)

namespace Ledger

variable {α : Type} {w w' : World} {name : LedgerCall} {R : α → α → Prop}

theorem scene_pop {w w' : World} (scene : w.scene = w'.scene) (name : LedgerCall) :
    (pop name w).1 = (pop name w').1 ∧ (pop name w).2.scene = (pop name w').2.scene := by
  have mishaps : w.mishaps = w'.mishaps := congrArg Scene.mishaps scene
  unfold pop
  rw [mishaps]
  exact ⟨rfl, scene_mishaps scene _⟩

/-- What befalls two calls is the same, and meanwhile the ledger stays as it is. -/
theorem abreast_suffer (scene : w.scene = w'.scene) (name : LedgerCall) :
    (suffer (pop name)).Abreast (suffer (pop name)) w w'
      (fun a b v v' => a = b ∧ w.Still v ∧ w'.Still v') fun _ _ => True :=
  (blind_suffer (fun _ _ scene => scene_pop scene name) w w' scene).also
    (still_suffer (Still.refl w) (w.still_pop name))
    (still_suffer (Still.refl w') (w'.still_pop name))

/-- Two calls for work that goes alike in the two ledgers. -/
theorem abreast_call {work : World → Except LedgerError α × Ledger} (scene : w.scene = w'.scene)
    (alike : ∀ v v', v.scene = v'.scene → v.ledger = w.ledger → v'.ledger = w'.ledger →
      Matches R (work v).1 (work v').1) :
    (call name work).Abreast (call name work) w w' (fun a b _ _ => Matches R a b)
      fun _ _ => True := by
  refine (abreast_suffer scene name).bind fun error _ v v' scene ⟨equal, h, h'⟩ => ?_
  subst equal
  cases error with
  | some e => exact abreast_pure scene (.error e)
  | none => exact abreast_act scene (alike v v' scene h.ledger h'.ledger)

theorem abreast_query {f : Ledger → α} (scene : w.scene = w'.scene)
    (alike : R (f w.ledger) (f w'.ledger)) :
    (query name f).Abreast (query name f) w w' (fun a b _ _ => Matches R a b) fun _ _ => True :=
  abreast_call scene fun v v' _ h h' => .ok (by rw [h, h']; exact alike)

/-- Whether an account can be opened is for the ledger to say. -/
theorem abreast_callCreateAccount {key : AccountKey} (scene : w.scene = w'.scene)
    (same : w.ledger.account? key = w'.ledger.account? key) :
    (callCreateAccount key).Abreast (callCreateAccount key) w w'
      (fun a b _ _ => Matches (· = ·) a b) fun _ _ => True := by
  refine abreast_call scene fun v v' scene h h' => ?_
  have now : v'.now = v.now := (congrArg Scene.now scene).symm
  rw [now, createAccount, createAccount, h, h', ← same]
  split
  · exact .error _
  · exact .ok rfl

end Ledger

/-! ### The desk -/

namespace Desk

variable {d : Desk} {α : Type} {w w' : World} {R : α → α → Prop}

theorem blind_failing (event : Countable) (e : DeskError) :
    (failing event e : Timed (Except DeskError α)).Blind :=
  (blind_count event).bind fun _ => blind_pure _

theorem abreast_ledgerRead {x : Timed (Except LedgerError α)} (scene : w.scene = w'.scene)
    (h : x.Abreast x w w' (fun a b _ _ => Matches R a b) fun _ _ => True) :
    (d.ledgerRead x).Abreast (d.ledgerRead x) w w' (fun a b _ _ => Matches R a b)
      fun _ _ => True := by
  refine (h.limited scene _).bind fun a b v v' scene alike => ?_
  cases alike with
  | none => exact abreast_pure scene (.error _)
  | some alike =>
    cases alike with
    | error e => exact abreast_pure scene (.error _)
    | ok alike => exact abreast_pure scene (.ok alike)

theorem matches_eq {ε : Type} {a b : Except ε α} (h : Matches (· = ·) a b) : a = b := by
  cases h with
  | error e => rfl
  | ok same => rw [same]

/-- What is read is the same. -/
theorem agree_read {f : Ledger → α} (scene : w.scene = w'.scene)
    (same : f w.ledger = f w'.ledger) (name : LedgerCall) :
    (d.ledgerRead (Ledger.query name f)).Agree (d.ledgerRead (Ledger.query name f)) w w' :=
  (abreast_ledgerRead scene (Ledger.abreast_query scene same)).mono
    (fun _ _ _ _ _ alike => matches_eq alike) fun _ _ _ h => h

theorem blind_page {κ : Type} [Wire κ] (size : Nat) (rows : List α) (cursor : α → κ) :
    (d.page size rows cursor).Blind := by
  unfold page
  dsimp only
  split
  · exact blind_pure _
  · refine Blind.bind ?_ fun _ => blind_pure _
    exact blind_freshNonce.bind fun _ => blind_pure _

/-! ### Making an offer -/

theorem blind_priced (r : OfferRequest) (kind : SettlementKind) : (d.priced r kind).Blind := by
  refine ((Market.blind_quote _ _ _).within _).bind fun answer => ?_
  rcases answer with _ | e | quote
  · exact blind_failing _ _
  · dsimp only
    split
    · exact blind_failing _ _
    · exact blind_pure _
  · dsimp only
    split
    · exact blind_pure _
    · exact blind_failing _ _

theorem blind_drawn (r : OfferRequest) (quote : Quote) (lifetime : Nat) :
    (d.drawn r quote lifetime).Blind :=
  blind_freshUuid.bind fun _ => blind_freshNonce.bind fun _ => blind_read fun w w' scene => by
    rw [show w.now = w'.now from congrArg Scene.now scene]

theorem blind_stored (offer : Offer) (lifetime : Nat) : (d.stored offer lifetime).Blind := by
  refine ((OfferCache.blind_callPut _ _ _).within _).bind fun answer => ?_
  rcases answer with _ | e | _
  · exact blind_failing _ _
  · exact blind_failing _ _
  · exact blind_pure _

/-- Nothing that others have left in the ledger or in the cache changes what becomes of a request
for an offer. -/
theorem blind_createOffer (r : OfferRequest) : (d.createOffer r).Blind := by
  unfold createOffer
  split
  · exact blind_pure _
  · refine (blind_priced r _).bind fun quoted => ?_
    rcases quoted with e | quote
    · exact blind_pure _
    · refine (blind_drawn r quote _).bind fun found => ?_
      rcases found with _ | ⟨offer, token⟩
      · exact blind_crash _
      · refine (blind_stored offer _).bind fun stored => ?_
        cases stored with
        | error e => exact blind_pure _
        | ok => exact (blind_count _).bind fun _ => blind_pure _

end Desk

end Bureau
