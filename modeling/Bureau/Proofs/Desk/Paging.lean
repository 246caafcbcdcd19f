import Bureau.Proofs.Desk.AccountWalk
import Bureau.Proofs.Desk.JournalWalk

/-!
# How long pages are

A page asks for one row more than it shows, and the number of rows is a machine word. Where that
word has room, a page holds the first of the rows that are left, as many as fit, and carries a
cursor when more of them are left (`Page.Holds`). The settings that are accepted leave one case
without room: the longest page of all, asked for by default. Then the number overflows, and every
listing crashes (`Desk.pages_hold`, `Desk.listing_crashes_of_longest`).
-/

namespace Bureau

open Timed World

/-! ### Pages of some rows -/

namespace Page

variable {α : Type} {size : Nat} {rows : List α} {p : Page α}

/-- The page holds the first of some rows, as many as fit, and there is a cursor when it does not
hold them all. -/
structure Holds (size : Nat) (rows : List α) (p : Page α) : Prop where
  items : p.items = rows.take size
  sized : p.size = size
  cursor : p.hasMore = true ↔ size < rows.length

/-- One row more than fits is enough to know whether there are more. -/
theorem Holds.of_take (h : p.Holds size (rows.take (size + 1))) : p.Holds size rows where
  items := by rw [h.items, List.take_take, Nat.min_eq_left (Nat.le_succ size)]
  sized := h.sized
  cursor := by
    rw [h.cursor, List.length_take]
    omega

theorem Made.holds {d : Desk} {κ : Type} [Wire κ] {place : α → κ} (h : p.Made d size rows place) :
    p.Holds size rows where
  items := h.items
  sized := h.sized
  cursor := by
    cases next : rows[size]? with
    | none =>
      have short : ¬ size < rows.length := Nat.not_lt.2 (List.getElem?_eq_none_iff.1 next)
      rw [hasMore, h.last next]
      exact iff_of_false (by decide) short
    | some row =>
      obtain ⟨long, -⟩ := List.getElem?_eq_some_iff.1 next
      obtain ⟨nonce, -, cursor⟩ := h.more row next
      rw [hasMore, cursor]
      exact iff_of_true rfl long

end Page

namespace Desk

variable {d : Desk} {w : World} {asked : Int}

/-- Both listings answer with the first of the rows that are left where they start, as many as fit;
nothing but a mishap keeps a page from being answered. -/
structure Lists (d : Desk) (asked : Int) : Prop where
  accounts : ∀ {client cursor start} deadline w, d.accountStart cursor = .ok start →
    (∀ p w', d.listAccounts client cursor asked deadline w = (some (.ok p), w') →
      p.Holds (d.pageSize asked) (w.ledger.accountsFrom client start)) ∧
    (w.Calm .accountsPage →
      ∃ p w', d.listAccounts client cursor asked deadline w = (some (.ok p), w'))
  journal : ∀ {client currency query window start} deadline w,
    d.journalStart query = .ok (window, start) →
    (∀ p w', d.listJournal client currency query asked deadline w = (some (.ok p), w') →
      p.Holds (d.pageSize asked) (w.ledger.rowsFrom ⟨client, currency⟩ window start)) ∧
    (w.Calm .journalPage →
      ∃ p w', d.listJournal client currency query asked deadline w = (some (.ok p), w'))

/-- Both listings crash wherever they start, and nothing but that happens. -/
structure ListingsCrash (d : Desk) (asked : Int) : Prop where
  accounts : ∀ {client cursor start} deadline w, d.accountStart cursor = .ok start →
    d.listAccounts client cursor asked deadline w = (none, { w with lastCrash := some .count })
  journal : ∀ {client currency query window start} deadline w,
    d.journalStart query = .ok (window, start) →
    d.listJournal client currency query asked deadline w =
      (none, { w with lastCrash := some .count })

theorem lists_of_room (room : d.pageSize asked + 1 < twoTo 64) : d.Lists asked where
  accounts deadline w opens := by
    refine ⟨fun p w' answer => ?_, fun calm => listAccounts_calm opens calm _ room deadline⟩
    have made := (ensures_accountsPage opens _ asked).result (congrArg Prod.fst answer) p rfl
    rw [Ledger.accountsPage_eq] at made
    exact made.holds.of_take
  journal deadline w opens := by
    refine ⟨fun p w' answer => ?_, fun calm => listJournal_calm opens calm _ _ room deadline⟩
    have made := (ensures_journalPage opens _ _ asked).result (congrArg Prod.fst answer) p rfl
    rw [Ledger.journalPage_eq] at made
    exact made.holds.of_take

theorem listingsCrash_of_full (full : twoTo 64 ≤ d.pageSize asked + 1) :
    d.ListingsCrash asked where
  accounts deadline w opens := by
    unfold listAccounts
    simp only [opens, rowsToAsk_overflow full]
    rfl
  journal deadline w opens := by
    unfold listJournal
    simp only [opens, rowsToAsk_overflow full]
    rfl

/-! ### The one case without room -/

/-- The longest page that a word can count is asked for by default. -/
def AsksLongest (d : Desk) (asked : Int) : Prop :=
  asked < 1 ∧ d.settings.defaultPageSize = twoTo 64 - 1

/-- A request is a signed word, so only the default size can leave no room. -/
theorem pageSize_room (accepted : d.settings.fault? = none)
    (word : d.settings.maxPageSize < twoTo 64) (long : asked < twoTo 63)
    (other : ¬ d.AsksLongest asked) : d.pageSize asked + 1 < twoTo 64 := by
  have bounds := defaultPageSize_bounds accepted
  have half : twoTo 64 = twoTo 63 * 2 := twoTo_succ 63
  unfold AsksLongest at other
  unfold pageSize
  split <;> omega

theorem pageSize_longest (h : d.AsksLongest asked) : d.pageSize asked = twoTo 64 - 1 := by
  rw [pageSize, if_pos h.1, h.2]

/-- For settings that are accepted, whatever is asked for: a page has room for one row at least and
for as many as may be at most. Unless the longest page of all is asked for by default, there is room
for the row behind it in the word that counts them; so both listings hold the first of the rows that
are left, and have a cursor when there are more than fit. In that one case the number of rows
overflows, and both listings crash. -/
theorem pages_hold (d : Desk) (accepted : d.settings.fault? = none)
    (word : d.settings.maxPageSize < twoTo 64) {asked : Int} (long : asked < twoTo 63) :
    let size := d.pageSize asked
    (1 ≤ size ∧ size ≤ d.settings.maxPageSize) ∧
    (¬ d.AsksLongest asked →
      size + 1 < twoTo 64 ∧ rowsToAsk size = .ok (size + 1) ∧ d.Lists asked) ∧
    (d.AsksLongest asked →
      size + 1 = twoTo 64 ∧ rowsToAsk size = .error .count ∧ d.ListingsCrash asked) := by
  intro size
  refine ⟨pageSize_bounds accepted asked, fun other => ?_, fun longest => ?_⟩
  · have room : size + 1 < twoTo 64 := pageSize_room accepted word long other
    exact ⟨room, rowsToAsk_eq room, lists_of_room room⟩
  · have full : size + 1 = twoTo 64 := by
      rw [show size = twoTo 64 - 1 from pageSize_longest longest]
      rfl
    exact ⟨full, rowsToAsk_overflow full.ge, listingsCrash_of_full full.ge⟩

/-- Three accounts, pages of two by default, and no other bound than that of the word: the page
holds two of the accounts and has a cursor. -/
theorem pages_hold_two :
    let d : Desk := { Desk.simple with
      settings := { secret := "secret", defaultPageSize := 2, maxPageSize := twoTo 64 - 1 } }
    let history := [Currency.usd, Currency.eur, Currency.gbp].map fun currency =>
      Event.errand none (.openAccount default currency)
    let start := (history.foldl (Day.next d) { world := World.simple }).world
    (start.ledger.accountsFrom default none).length = 3 ∧
      ∃ p w', d.listAccounts default none 0 none start = (some (.ok p), w') ∧
        p.items = (start.ledger.accountsFrom default none).take 2 ∧ p.hasMore = true := by
  intro d history start
  have three : (start.ledger.accountsFrom default none).length = 3 := by
    rw [Ledger.accountsFrom, List.length_mergeSort]
    decide +kernel
  have calm : start.Calm .accountsPage := fun c hc => by
    rw [show start.mishaps.ledger = [] by decide +kernel] at hc
    cases hc
  obtain ⟨-, others, -⟩ :=
    pages_hold d (by decide) (by decide) (show (0 : Int) < twoTo 63 by decide)
  obtain ⟨-, -, lists⟩ := others fun longest => absurd longest.2 (by decide)
  obtain ⟨good, answered⟩ := lists.accounts none start
    (show d.accountStart none = .ok none from rfl)
  obtain ⟨p, w', answer⟩ := answered calm
  have holds := good p w' answer
  exact ⟨three, p, w', answer, holds.items, holds.cursor.2 (by rw [three]; decide)⟩

/-- Settings that make the longest page of all the default are accepted. The client has an account,
and the listing crashes instead of showing it. -/
theorem listing_crashes_of_longest :
    let d : Desk := { Desk.simple with
      settings :=
        { secret := "secret", defaultPageSize := twoTo 64 - 1, maxPageSize := twoTo 64 - 1 } }
    let opening := Event.errand none (.openAccount default Currency.usd)
    let start := ([opening].foldl (Day.next d) { world := World.simple }).world
    d.settings.fault? = none ∧ twoTo 64 ≤ d.pageSize 0 + 1 ∧
      (start.ledger.accountsFrom default none).length = 1 ∧
      d.listAccounts default none 0 none start =
        (none, { start with lastCrash := some .count }) := by
  intro d opening start
  have one : (start.ledger.accountsFrom default none).length = 1 := by
    rw [Ledger.accountsFrom, List.length_mergeSort]
    decide +kernel
  have full : twoTo 64 ≤ d.pageSize 0 + 1 := by decide
  exact ⟨by decide, full, one, (listingsCrash_of_full full).accounts none start rfl⟩

end Desk

end Bureau
