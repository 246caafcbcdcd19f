import Bureau.Proofs.Desk.Archive
import Bureau.Proofs.Desk.Listing
import Bureau.Proofs.Ledger.Listing

/-!
# Walking through a listing

A client follows the cursors of a listing from page to page; between the pages anything may happen,
and a page that is not answered is asked for again. `Progress` is what every step of such a walk
keeps: what has been shown ascends strictly and lies before the place where the walk goes on, and
no row that is due there has been passed over.
-/

namespace Bureau

open Std Timed World

/-! ### Progress -/

section Progress

variable {α κ : Type} [Ord κ] {key : α → κ} {due : α → Prop} {shown rows : List α}
  {place : Option κ}

/-- Rows have been shown up to a place, or up to the start if there is none. -/
structure Progress (key : α → κ) (due : α → Prop) (shown : List α) (place : Option κ) : Prop where
  ascending : Ascending key shown
  /-- What has been shown lies before the place. -/
  before : ∀ a ∈ shown, ∃ k ∈ place, compare (key a) k = .lt
  /-- A due row before the place has been shown, perhaps in another state. -/
  met : ∀ a, due a → (∃ k ∈ place, compare (key a) k = .lt) → ∃ b ∈ shown, key b = key a

/-- Everything that is due has been shown. -/
structure Complete (key : α → κ) (due : α → Prop) (shown : List α) : Prop where
  ascending : Ascending key shown
  met : ∀ a, due a → ∃ b ∈ shown, key b = key a

theorem progress_start : Progress key due [] none where
  ascending := List.Pairwise.nil
  before := fun _ h => by cases h
  met := fun _ _ h => by
    obtain ⟨k, h, -⟩ := h
    cases h

/-- The rows behind a place, among them every due one. -/
structure Behind (key : α → κ) (due : α → Prop) (rows : List α) (place : Option κ) : Prop where
  ascending : Ascending key rows
  behind : ∀ a ∈ rows, ∀ k ∈ place, (compare (key a) k).isGE
  all : ∀ a, due a → (∀ k ∈ place, (compare (key a) k).isGE) → ∃ b ∈ rows, key b = key a

theorem lt_or_behind (place : Option κ) (k : κ) :
    (∃ p ∈ place, compare k p = .lt) ∨ ∀ p ∈ place, (compare k p).isGE := by
  cases place with
  | none => exact .inr fun p h => by cases h
  | some p =>
    cases order : compare k p with
    | lt => exact .inl ⟨p, rfl, order⟩
    | eq => exact .inr fun q h => by cases h; rw [order]; rfl
    | gt => exact .inr fun q h => by cases h; rw [order]; rfl

/-- A due row has been shown, or is behind the place. -/
theorem Progress.shown_or_behind (h : Progress key due shown place)
    (behind : Behind key due rows place) {a : α} (ha : due a) :
    (∃ b ∈ shown, key b = key a) ∨ ∃ b ∈ rows, key b = key a := by
  rcases lt_or_behind place (key a) with before | after
  · exact .inl (h.met a ha before)
  · exact .inr (behind.all a ha after)

variable [TransOrd κ]

theorem lt_of_lt_of_isGE {a k b : κ} (before : compare a k = .lt) (behind : (compare b k).isGE) :
    compare a b = .lt := by
  refine TransCmp.lt_of_lt_of_isLE before ?_
  rw [show compare k b = (compare b k).swap from OrientedCmp.eq_swap]
  cases order : compare b k with
  | lt => rw [order] at behind; cases behind
  | eq | gt => rfl

/-- What has been shown and the next rows ascend together. -/
theorem Progress.append (h : Progress key due shown place) (behind : Behind key due rows place)
    (size : Nat) : Ascending key (shown ++ rows.take size) := by
  refine List.pairwise_append.2 ⟨h.ascending, behind.ascending.take, fun a ha b hb => ?_⟩
  obtain ⟨k, at_, before⟩ := h.before a ha
  exact lt_of_lt_of_isGE before (behind.behind b (List.mem_of_mem_take hb) k at_)

/-- A page that is not the last makes progress to the first row that it leaves out. -/
theorem Progress.more (h : Progress key due shown place) (behind : Behind key due rows place)
    {size : Nat} {next : α} (left : rows[size]? = some next) :
    Progress key due (shown ++ rows.take size) (some (key next)) := by
  obtain ⟨inside, rfl⟩ := List.getElem?_eq_some_iff.1 left
  have split : rows = rows.take size ++ rows[size] :: rows.drop (size + 1) := by
    rw [List.getElem_cons_drop, List.take_append_drop]
  have ascending := behind.ascending
  rw [Ascending, split, List.pairwise_append, List.pairwise_cons] at ascending
  obtain ⟨-, ⟨after, -⟩, upTo⟩ := ascending
  refine ⟨h.append behind size, fun a ha => ⟨_, rfl, ?_⟩, fun a ha before => ?_⟩
  · rcases List.mem_append.1 ha with ha | ha
    · obtain ⟨k, at_, before⟩ := h.before a ha
      exact lt_of_lt_of_isGE before (behind.behind _ (List.getElem_mem inside) k at_)
    · exact upTo a ha _ List.mem_cons_self
  · obtain ⟨k, here, before⟩ := before
    cases here
    rcases h.shown_or_behind behind ha with ⟨b, hb, same⟩ | ⟨b, hb, same⟩
    · exact ⟨b, List.mem_append_left _ hb, same⟩
    · -- A row with a key before that of the next row is on the page.
      rw [split] at hb
      rcases List.mem_append.1 hb with hb | hb
      · exact ⟨b, List.mem_append_right _ hb, same⟩
      · rw [← same] at before
        rcases List.mem_cons.1 hb with rfl | hb
        · rw [ReflOrd.compare_self] at before
          cases before
        · have := TransCmp.lt_trans before (after b hb)
          rw [ReflOrd.compare_self] at this
          cases this

/-- After the last page nothing that is due is missing. -/
theorem Progress.complete (h : Progress key due shown place) (behind : Behind key due rows place)
    {size : Nat} (last : rows[size]? = none) : Complete key due (shown ++ rows.take size) := by
  have whole : rows.take size = rows :=
    List.take_of_length_le (List.getElem?_eq_none_iff.1 last)
  refine ⟨h.append behind size, fun a ha => ?_⟩
  rw [whole]
  rcases h.shown_or_behind behind ha with ⟨b, hb, same⟩ | ⟨b, hb, same⟩
  · exact ⟨b, List.mem_append_left _ hb, same⟩
  · exact ⟨b, List.mem_append_right _ hb, same⟩

end Progress

/-! ### Walks -/

/-- A client's way through a listing. -/
structure Walk (α : Type) where
  world : World
  /-- The cursor of the last page that has been shown. -/
  cursor : Option String := none
  /-- All rows that have been shown, page by page. -/
  shown : List α := []
  /-- Whether the last page had no cursor. -/
  finished : Bool := false

/-- What happens before a page is asked for, when the client gives up waiting for it, and how many
rows it asks for. -/
structure Leg where
  before : List Event := []
  deadline : Option Nat := none
  asked : Int

namespace Walk

variable {α : Type}

/-- The world when the next page is asked for. -/
def ahead (d : Desk) (walk : Walk α) (leg : Leg) : World :=
  (leg.before.foldl (Day.next d) { world := walk.world }).world

/-- The walk after a leg: unless it is over, the next page is shown, if it is answered. -/
def step (d : Desk) (read : Option String → Timed (Except DeskError (Page α))) (walk : Walk α)
    (leg : Leg) : Walk α :=
  let world := walk.ahead d leg
  if walk.finished then { walk with world }
  else
    match read walk.cursor leg.deadline world with
    | (some (.ok page), world) =>
      { world
        cursor := page.nextCursor
        shown := walk.shown ++ page.items
        finished := page.nextCursor.isNone }
    | (_, world) => { walk with world }

variable {d : Desk} {read : Option String → Timed (Except DeskError (Page α))} {walk : Walk α}
  {leg : Leg}

/-- What a leg can do. -/
inductive Went (d : Desk) (read : Option String → Timed (Except DeskError (Page α)))
    (walk : Walk α) (leg : Leg) : Walk α → Prop
  | stayed {world : World} (like : (walk.ahead d leg).Like world) :
      Went d read walk leg { walk with world }
  | went {page : Page α} {world : World} (like : (walk.ahead d leg).Like world)
      (under : walk.finished = false)
      (answer : read walk.cursor leg.deadline (walk.ahead d leg) = (some (.ok page), world)) :
      Went d read walk leg
        { world
          cursor := page.nextCursor
          shown := walk.shown ++ page.items
          finished := page.nextCursor.isNone }

theorem went_step (looks : ∀ cursor, (read cursor).Looks) (walk : Walk α) (leg : Leg) :
    Went d read walk leg (walk.step d read leg) := by
  have like := (looks walk.cursor (walk.ahead d leg)).world leg.deadline
  unfold step
  dsimp only
  split
  · exact .stayed (Still.refl _).toLike
  · rename_i under
    split
    · rename_i page world answer
      rw [answer] at like
      exact .went like (by simpa using under) answer
    · rename_i answer
      rw [answer] at like
      exact .stayed like

/-- The world goes on from where the events of the leg left it. -/
theorem like_step (looks : ∀ cursor, (read cursor).Looks) (walk : Walk α) (leg : Leg) :
    (walk.ahead d leg).Like (walk.step d read leg).world := by
  have went := went_step (d := d) looks walk leg
  generalize walk.step d read leg = next at went
  cases went with
  | stayed like => exact like
  | went like _ _ => exact like

theorem sound_ahead (sound : walk.world.Sound) (leg : Leg) : (walk.ahead d leg).Sound :=
  @Day.sound_foldl d { world := walk.world } sound leg.before

theorem extends_ahead (sound : walk.world.Sound) (leg : Leg) :
    walk.world.ledger.Extends (walk.ahead d leg).ledger :=
  @Day.extends_foldl d { world := walk.world } sound leg.before

theorem records_ahead (sound : walk.world.Sound)
    (records : ∃ receipts, walk.world.ledger.Records receipts) (leg : Leg) :
    ∃ receipts, (walk.ahead d leg).ledger.Records receipts := by
  obtain ⟨receipts, records⟩ := records
  have kept := Archive.records_foldl (d := d) (s := ⟨{ world := walk.world }, receipts⟩) sound
    records leg.before
  dsimp only at kept
  rw [Archive.day_foldl] at kept
  exact ⟨_, kept⟩

/-! ### Where a walk stands -/

/-- The walk has made progress to the place that its cursor opens to, or it is complete. -/
structure Stands {κ : Type} [Ord κ] (opens : Option String → Option κ → Prop) (key : α → κ)
    (due : α → Prop) (walk : Walk α) : Prop where
  under : walk.finished = false →
    ∃ place, opens walk.cursor place ∧ Progress key due walk.shown place
  finished : walk.finished = true → Complete key due walk.shown

section Stands

variable {κ γ : Type} [Ord κ] [Wire γ] {opens : Option String → Option κ → Prop} {key : α → κ}
  {due : α → Prop} {place : α → γ} {rows : List α} {page : Page α} {size : Nat}

theorem Stands.ascending (h : Stands opens key due walk) : Ascending key walk.shown := by
  cases finished : walk.finished with
  | true => exact (h.finished finished).ascending
  | false =>
    obtain ⟨place, -, progress⟩ := h.under finished
    exact progress.ascending

/-- A page of the rows behind its place brings the walk on. -/
theorem stands_went [Std.TransOrd κ] {start : Option κ}
    (progress : Progress key due walk.shown start) (behind : Behind key due rows start)
    (shows : page.Shows d size rows place)
    (opened : ∀ row token, d.openCursor γ token = .ok (place row) →
      opens (some token) (some (key row))) (world : World) :
    Stands opens key due
      { world
        cursor := page.nextCursor
        shown := walk.shown ++ page.items
        finished := page.nextCursor.isNone } := by
  rw [shows.items]
  cases next : rows[size]? with
  | none =>
    have last := shows.last next
    refine ⟨fun under => ?_, fun _ => progress.complete behind next⟩
    dsimp only at under
    rw [last] at under
    cases under
  | some row =>
    obtain ⟨token, cursor, opens'⟩ := shows.more row next
    refine ⟨fun _ => ⟨some (key row), ?_, progress.more behind next⟩, fun finished => ?_⟩
    · dsimp only
      rw [cursor]
      exact opened row token opens'
    · dsimp only at finished
      rw [cursor] at finished
      cases finished

/-- A page is the last, or it is full. -/
theorem last_or_full (shows : page.Shows d size rows place) :
    page.nextCursor.isNone = true ∨ page.items.length = size := by
  cases next : rows[size]? with
  | none =>
    rw [shows.last next]
    exact .inl rfl
  | some row =>
    obtain ⟨inside, -⟩ := List.getElem?_eq_some_iff.1 next
    rw [shows.items, List.length_take]
    exact .inr (Nat.min_eq_left (Nat.le_of_lt inside))

end Stands

/-! ### Walks that go on -/

theorem finished_step (finished : walk.finished = true) (leg : Leg) :
    (walk.step d read leg).finished = true := by
  simp only [step, finished, if_true]

/-- A walk in which every leg shows rows is over after these legs, or it has shown a row for each;
and a walk that is over stays so. What makes a leg show rows may depend on the legs to come. -/
theorem finished_or_long {γ : Type} (P : List γ → Walk α → Prop) (f : Walk α → γ → Walk α)
    (step : ∀ leg rest walk, P (leg :: rest) walk → P rest (f walk leg) ∧
      (walk.finished = true → (f walk leg).finished = true) ∧
      ((f walk leg).finished = true ∨ walk.shown.length < (f walk leg).shown.length))
    (legs : List γ) (walk : Walk α) (start : P legs walk) :
    (walk.finished = true → (legs.foldl f walk).finished = true) ∧
      ((legs.foldl f walk).finished = true ∨
        walk.shown.length + legs.length ≤ (legs.foldl f walk).shown.length) := by
  induction legs generalizing walk with
  | nil => exact ⟨id, .inr (Nat.le_refl _)⟩
  | cons leg rest ih =>
    obtain ⟨kept, still, on⟩ := step leg rest walk start
    obtain ⟨stays, long⟩ := ih _ kept
    refine ⟨fun finished => stays (still finished), ?_⟩
    rcases on with finished | longer
    · exact .inl (stays finished)
    · refine long.imp_right fun long => ?_
      rw [List.length_cons, List.foldl_cons]
      omega

end Walk

/-! ### Worlds in which nothing befalls a call -/

/-- The event brings no mishap for a call. -/
def Event.Spares (name : LedgerCall) (event : Event) : Prop :=
  ∀ mishap, event ≠ .incident (.ledger name mishap)

/-- What happens around the desk leaves a call alone, unless it is a mishap of that call. -/
theorem World.Calm.change {w : World} {name : LedgerCall} (calm : w.Calm name)
    {incident : Incident} (spares : (Event.incident incident).Spares name) :
    (incident.change w).Calm name := by
  -- Only a new mishap of the same call could befall it.
  cases incident with
  | ledger call mishap =>
    intro c hc
    rcases List.mem_append.1 hc with hc | hc
    · exact calm c hc
    · rw [List.mem_singleton.1 hc]
      rintro rfl
      exact spares mishap rfl
  | _ => exact calm

namespace Day

variable {d : Desk} {day : Day} {name : LedgerCall}

theorem calm_next (sound : day.world.Sound) (calm : day.world.Calm name) {event : Event}
    (spares : event.Spares name) : (day.next d event).world.Calm name := by
  cases event with
  | errand deadline errand =>
    intro c hc
    exact calm c ((apart_serve sound deadline errand).calls c hc)
  | incident incident => exact calm.change spares

theorem calm_foldl (sound : day.world.Sound) (calm : day.world.Calm name) {events : List Event}
    (spares : ∀ event ∈ events, event.Spares name) :
    (events.foldl (Day.next d) day).world.Calm name := by
  induction events generalizing day with
  | nil => exact calm
  | cons event rest ih =>
    exact ih (sound_next sound event) (calm_next sound calm (spares event List.mem_cons_self))
      fun e he => spares e (List.mem_cons_of_mem _ he)

end Day

theorem World.Calm.like {w w' : World} {name : LedgerCall} (calm : w.Calm name)
    (like : w.Like w') : w'.Calm name :=
  fun c hc => calm c (like.calls c hc)

theorem World.Dated.like {w w' : World} (dated : w.Dated) (like : w.Like w') : w'.Dated :=
  ⟨like.now ▸ dated.now, like.ledger ▸ dated.rows⟩

theorem World.Sound.like {w w' : World} (sound : w.Sound) (like : w.Like w') : w'.Sound :=
  ⟨like.ledger ▸ sound.ledger, like.cache ▸ sound.cache⟩

end Bureau
