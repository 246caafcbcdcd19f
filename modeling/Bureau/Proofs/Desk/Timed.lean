import Bureau.Desk.World

/-!
# Reasoning about operations in time

`Timed.Ensures` says what holds after an operation, whatever its deadline: one thing of its result
and the world, another of the world in which it has been cut off. There is one rule for each way
of making an operation. `Timed.Yields` is the form for operations that may answer with an error.
-/

namespace Bureau.Timed

variable {α β : Type} {w : World}

theorem bind_apply (x : Timed α) (f : α → Timed β) (deadline : Option Nat) (w : World) :
    (x >>= f) deadline w = match x deadline w with
      | (some a, w') => f a deadline w'
      | (none, w') => (none, w') :=
  rfl

theorem freshUuid_eq (deadline : Option Nat) (w : World) : freshUuid deadline w =
    (some (Uuid.ofRandom (w.random w.drawn)), { w with drawn := w.drawn + 1 }) :=
  rfl

/-- Whatever the deadline: a result comes with its postcondition, a cut with the other. -/
def Ensures (x : Timed α) (w : World) (Q : α → World → Prop) (cut : World → Prop) : Prop :=
  ∀ deadline, match x deadline w with
    | (some a, w') => Q a w'
    | (none, w') => cut w'

section Ensures

variable {x : Timed α} {Q Q' : α → World → Prop} {cut cut' : World → Prop}

theorem Ensures.mono (h : x.Ensures w Q cut) (hQ : ∀ a w', Q a w' → Q' a w')
    (hcut : ∀ w', cut w' → cut' w') : x.Ensures w Q' cut' := by
  intro deadline
  have := h deadline
  split at this
  · exact hQ _ _ this
  · exact hcut _ this

/-- What holds with every outcome holds of the world after the operation. -/
theorem Ensures.world (h : x.Ensures w (fun _ => cut) cut) (deadline : Option Nat) :
    cut (x deadline w).2 := by
  have := h deadline
  cases hx : x deadline w with
  | mk result w' =>
    rw [hx] at this
    cases result with
    | none => exact this
    | some a => exact this

/-- What holds of every result holds of the one that the operation has. -/
theorem Ensures.result (h : x.Ensures w Q cut) {deadline : Option Nat} {a : α}
    (answered : (x deadline w).1 = some a) : Q a (x deadline w).2 := by
  have := h deadline
  cases hx : x deadline w with
  | mk result w' =>
    rw [hx] at this answered
    obtain rfl : result = some a := answered
    exact this

theorem ensures_pure {a : α} (h : Q a w) : (pure a : Timed α).Ensures w Q cut :=
  fun _ => h

theorem Ensures.bind {f : α → Timed β} {final : β → World → Prop} (hx : x.Ensures w Q cut)
    (hf : ∀ a w', Q a w' → (f a).Ensures w' final cut) : (x >>= f).Ensures w final cut := by
  intro deadline
  have first := hx deadline
  rw [bind_apply]
  cases h : x deadline w with
  | mk result w' =>
    rw [h] at first
    cases result with
    | none => exact first
    | some a => exact hf a w' first deadline

theorem ensures_read {f : World → α} (h : Q (f w) w) : (read f).Ensures w Q cut :=
  fun _ => h

theorem ensures_act {f : World → α × World} (h : Q (f w).1 (f w).2) :
    (act f).Ensures w Q cut :=
  fun _ => h

theorem ensures_wait {span : Nat} {Q : Unit → World → Prop}
    (h : ∀ clock, w.clock ≤ clock → Q () { w with clock })
    (hcut : ∀ clock, w.clock ≤ clock → cut { w with clock }) : (wait span).Ensures w Q cut := by
  intro deadline
  unfold wait
  cases deadline with
  | none => exact h _ (Nat.le_add_right _ _)
  | some d =>
    dsimp only
    by_cases before : w.clock + span ≤ d
    · rw [if_pos before]
      exact h _ (Nat.le_add_right _ _)
    · rw [if_neg before]
      exact hcut _ (Nat.le_max_left _ _)

theorem ensures_crash {overflow : SumOverflow} (h : cut { w with lastCrash := some overflow }) :
    (crash overflow : Timed α).Ensures w Q cut :=
  fun _ => h

/-- An operation that is cut off by its own span has no result but goes on; one that is cut off by
the deadline around it does not. -/
theorem Ensures.within {span : Nat} {Q : Option α → World → Prop}
    (h : x.Ensures w (fun a => Q (some a)) fun w' => Q none w' ∧ cut w') :
    (within span x).Ensures w Q cut := by
  intro deadline
  have own := h (some (w.clock + span))
  unfold Timed.within
  cases deadline with
  | none =>
    dsimp only
    cases hx : x (some (w.clock + span)) w with
    | mk result w' =>
      rw [hx] at own
      cases result with
      | none => exact own.1
      | some a => exact own
  | some d =>
    dsimp only
    by_cases earlier : d < w.clock + span
    · rw [if_pos earlier]
      have outer := h (some d)
      cases hx : x (some d) w with
      | mk result w' =>
        rw [hx] at outer
        cases result with
        | none => exact outer.2
        | some a => exact outer
    · rw [if_neg earlier]
      cases hx : x (some (w.clock + span)) w with
      | mk result w' =>
        rw [hx] at own
        cases result with
        | none => exact own.1
        | some a => exact own

theorem Ensures.onCut {cleanUp : World → World}
    (h : x.Ensures w Q fun w' => cut (cleanUp w')) : (onCut cleanUp x).Ensures w Q cut := by
  intro deadline
  have := h deadline
  unfold Timed.onCut
  cases hx : x deadline w with
  | mk result w' =>
    rw [hx] at this
    cases result with
    | none => exact this
    | some a => exact this

theorem ensures_count {event : Countable} {Q : Unit → World → Prop}
    (h : ∀ counters, Q () { w with counters }) : (count event).Ensures w Q cut :=
  ensures_act (h _)

theorem ensures_freshUuid {Q : Uuid → World → Prop}
    (h : Q (Uuid.ofRandom (w.random w.drawn)) { w with drawn := w.drawn + 1 }) :
    freshUuid.Ensures w Q cut :=
  fun _ => h

theorem ensures_freshNonce {Q : Bytes → World → Prop}
    (h : ∀ n, Q (Bytes.ofNat Gcm.nonceLength n) { w with drawn := w.drawn + 1 }) :
    freshNonce.Ensures w Q cut :=
  fun _ => h _

end Ensures

/-! ### Success and failure -/

section Yields

variable {ε : Type} {x : Timed (Except ε α)} {done done' : α → World → Prop}
  {failed failed' : World → Prop}

/-- Success comes with its postcondition; an error and a cut come with the other. -/
def Yields (x : Timed (Except ε α)) (w : World) (done : α → World → Prop)
    (failed : World → Prop) : Prop :=
  x.Ensures w (fun answer w' => match answer with
    | .ok a => done a w'
    | .error _ => failed w') failed

theorem Yields.mono (h : x.Yields w done failed) (hdone : ∀ a w', done a w' → done' a w')
    (hfailed : ∀ w', failed w' → failed' w') : x.Yields w done' failed' := by
  refine Ensures.mono h (fun answer w' h => ?_) hfailed
  cases answer with
  | ok a => exact hdone a w' h
  | error e => exact hfailed w' h

/-- An operation that does not succeed has failed. -/
theorem Yields.of_ne_ok (h : x.Yields w done failed) {deadline : Option Nat}
    (unsuccessful : ∀ a, (x deadline w).1 ≠ some (.ok a)) : failed (x deadline w).2 := by
  have ensured := h deadline
  rcases result : x deadline w with ⟨_ | _ | a, w'⟩ <;> rw [result] at ensured unsuccessful
  · exact ensured
  · exact ensured
  · exact absurd rfl (unsuccessful a)

/-- What holds of every success and every failure holds of the world after the operation. -/
theorem Yields.world {P : World → Prop} (h : x.Yields w done failed)
    (hdone : ∀ a w', done a w' → P w') (hfailed : ∀ w', failed w' → P w')
    (deadline : Option Nat) : P (x deadline w).2 := by
  refine Ensures.world (Ensures.mono h (fun answer w' h => ?_) hfailed) deadline
  cases answer with
  | ok a => exact hdone a w' h
  | error e => exact hfailed w' h

end Yields

end Bureau.Timed
