import Bureau.Proofs.Desk.Day
import Bureau.Proofs.Desk.Listing
import Bureau.Proofs.Ledger.Listing
import Mathlib.Logic.ExistsUnique

/-!
# Rows under their months

The windows of the months at one distance from UTC lie end to end, so an instant is in the window
of at most one month, and of exactly one when it lies between two boundaries. A listing of journal
rows from the start of a month shows the rows of its window, and so each row of an account comes
under the month of its local date and under no other (`Desk.months_tile_rows`).
-/

namespace Bureau

namespace Window

open Date (following)

variable {year : Int} {month : Nat} {ahead : Int} {w : Window}

/-- The window begins at local midnight of the first of a month, lasts as long as the month has
days, and ends where the window of the next month begins. -/
structure Spans (w : Window) (year : Int) (month : Nat) (ahead : Int) : Prop where
  months : 1 ≤ month ∧ month ≤ 12
  date : w.start.localDate ahead = ⟨year, month, 1⟩
  midnight : (w.start.seconds + ahead) % 86400 = 0 ∧ w.start.nanos = 0
  lasts : w.stop.nanosSince w.start = 86400 * (daysInMonth year month : Int) * 1000000000
  followed : ∀ next, ofMonth? (following year month).1 (following year month).2 ahead = some next →
    next.start = w.stop

theorem spans_ofMonth? (h : ofMonth? year month ahead = some w) : w.Spans year month ahead := by
  obtain ⟨⟨-, months, -, -⟩, -, rfl⟩ := ofMonth?_eq_some_iff.1 h
  -- Midnights are whole days apart from the start of the epoch, as the zone counts them.
  have days : firstSecond year month ahead + ahead = Date.monthStart year month * 86400 := by
    rw [firstSecond]
    omega
  have length := firstSecond_following year months.1 ahead
  refine { months, date := ?_, midnight := ⟨?_, rfl⟩, lasts := ?_, followed := fun next h => ?_ }
  · rw [Instant.localDate, days, Int.mul_ediv_cancel _ (by decide),
      Date.ofDayNumber_monthStart months.1 months.2]
  · rw [days]
    exact Int.mul_emod_left _ _
  · rw [Instant.nanosSince, length]
    dsimp only
    omega
  · obtain ⟨-, -, rfl⟩ := ofMonth?_eq_some_iff.1 h
    rfl

/-- Only the month of the local date can have an instant in its window. -/
theorem eq_localDate {t : Instant} {p : Int × Nat} (h : ofMonth? p.1 p.2 ahead = some w)
    (inside : w.contains t = true) :
    p = ((t.localDate ahead).year, (t.localDate ahead).month) := by
  obtain ⟨year, month⟩ := (contains_iff h t).1 inside
  exact Prod.ext year.symm month.symm

/-- Between two boundaries an instant is in the window of exactly one month. -/
theorem existsUnique_month {t : Instant} {first last : Int × Nat} {begun ended : Window}
    (hfirst : ofMonth? first.1 first.2 ahead = some begun)
    (hlast : ofMonth? last.1 last.2 ahead = some ended) (after : begun.start ≤ t)
    (before : t < ended.stop) :
    ∃! p : Int × Nat, ∃ w, ofMonth? p.1 p.2 ahead = some w ∧ w.contains t = true := by
  obtain ⟨w, hw⟩ := exists_window hfirst hlast after before
  refine ⟨((t.localDate ahead).year, (t.localDate ahead).month),
    ⟨w, hw, (contains_iff hw t).2 ⟨rfl, rfl⟩⟩, ?_⟩
  rintro p ⟨v, hv, inside⟩
  exact eq_localDate hv inside

end Window

namespace Desk

variable {d : Desk} {l : Ledger} {offset : Option Int}

/-- The query for the rows of a month, without a cursor. -/
def monthQuery (offset : Option Int) (p : Int × Nat) : JournalQuery :=
  { year := some p.1, month := some p.2, utcOffset := offset }

theorem journalStart_monthQuery_iff {p : Int × Nat} {window : Window}
    {start : Option JournalKey} :
    d.journalStart (monthQuery offset p) = .ok (window, start) ↔
      Window.ofMonth? p.1 p.2 (offset.getD d.settings.utcOffset) = some window ∧ start = none := by
  have made : d.journalStart (monthQuery offset p) =
      (d.monthWindow (monthQuery offset p)).map fun window => (window, none) := rfl
  rw [made]
  constructor
  · intro h
    cases hw : d.monthWindow (monthQuery offset p) with
    | error e =>
      rw [hw] at h
      cases h
    | ok w =>
      rw [hw] at h
      cases h
      obtain ⟨year, month, named, named', found⟩ := monthWindow_eq_ok_iff.1 hw
      cases named
      cases named'
      exact ⟨found, rfl⟩
  · rintro ⟨found, rfl⟩
    rw [monthWindow_eq_ok_iff.2 ⟨p.1, p.2, rfl, rfl, found⟩]
    rfl

/-- The listing of a month shows a row, on a page that is long enough. -/
def ListsUnder (d : Desk) (l : Ledger) (offset : Option Int) (e : JournalEntry)
    (p : Int × Nat) : Prop :=
  ∃ window, d.journalStart (monthQuery offset p) = .ok (window, none) ∧
    ∃ limit, e ∈ l.journalPage e.key window none limit

theorem listsUnder_iff {e : JournalEntry} (posted : e ∈ l.journal) {p : Int × Nat} :
    d.ListsUnder l offset e p ↔
      ∃ w, Window.ofMonth? p.1 p.2 (offset.getD d.settings.utcOffset) = some w ∧
        w.contains e.transactedAt = true := by
  refine exists_congr fun window => and_congr ?_ ?_
  · rw [journalStart_monthQuery_iff]
    exact and_iff_left rfl
  · constructor
    · rintro ⟨limit, shown⟩
      rw [Ledger.journalPage_eq] at shown
      exact (Ledger.mem_rowsFrom.1 (List.mem_of_mem_take shown)).1.2.2
    · intro inside
      refine ⟨(l.rowsFrom e.key window none).length, ?_⟩
      rw [Ledger.journalPage_eq, List.take_length]
      exact Ledger.mem_rowsFrom.2 ⟨⟨posted, rfl, inside⟩, fun k hk => by cases hk⟩

/-- Months tile time. A month that has a window is one of the twelve; the window begins at local
midnight of its first day, lasts as many days as the month has in the calendar, and ends where the
next month's window begins. Windows of different months have no instant in common. Between the start
of one window and the end of another every instant lies in the window of exactly one month, and
every row of the journal is listed under exactly one. -/
theorem months_tile_rows (d : Desk) (l : Ledger) (offset : Option Int) :
    let ahead := offset.getD d.settings.utcOffset
    (∀ year month w, Window.ofMonth? year month ahead = some w → w.Spans year month ahead) ∧
    (∀ p q : Int × Nat, ∀ v w, Window.ofMonth? p.1 p.2 ahead = some v →
      Window.ofMonth? q.1 q.2 ahead = some w → p ≠ q →
      ∀ t, ¬ (v.contains t = true ∧ w.contains t = true)) ∧
    ∀ first last : Int × Nat, ∀ begun ended, Window.ofMonth? first.1 first.2 ahead = some begun →
      Window.ofMonth? last.1 last.2 ahead = some ended →
      (∀ t, begun.start ≤ t → t < ended.stop →
        ∃! p : Int × Nat, ∃ w, Window.ofMonth? p.1 p.2 ahead = some w ∧ w.contains t = true) ∧
      ∀ e ∈ l.journal, begun.start ≤ e.transactedAt → e.transactedAt < ended.stop →
        ∃! p : Int × Nat, d.ListsUnder l offset e p := by
  intro ahead
  refine ⟨fun year month w => Window.spans_ofMonth?, ?_, ?_⟩
  · rintro p q v w hv hw different t ⟨inV, inW⟩
    exact different ((Window.eq_localDate hv inV).trans (Window.eq_localDate hw inW).symm)
  · intro first last begun ended hfirst hlast
    refine ⟨fun t => Window.existsUnique_month hfirst hlast, fun e posted after before => ?_⟩
    have one := Window.existsUnique_month hfirst hlast after before
    exact (existsUnique_congr fun p => listsUnder_iff posted).2 one

/-- A row posted four hours ahead of UTC, in the last hour of the leap day of 2024. It lies between
the starts of December 2023 and March 2024, so it comes under one month; February is that month. -/
theorem months_tile_rows_leapDay :
    let row : JournalEntry :=
      ⟨default, default, Currency.usd, .hundredths 100, ⟨1709233200, 0⟩⟩
    let l : Ledger := { journal := [row] }
    let december : Window := ⟨⟨1701374400, 0⟩, ⟨1704052800, 0⟩⟩
    let february : Window := ⟨⟨1706731200, 0⟩, ⟨1709236800, 0⟩⟩
    december.Spans 2023 12 14400 ∧ february.Spans 2024 2 14400 ∧
      (∀ t, ¬ (december.contains t = true ∧ february.contains t = true)) ∧
      Desk.simple.ListsUnder l (some 14400) row (2024, 2) ∧
      ∃! p : Int × Nat, Desk.simple.ListsUnder l (some 14400) row p := by
  intro row l december february
  have begun : Window.ofMonth? 2023 12 14400 = some december := by decide
  have ended : Window.ofMonth? 2024 2 14400 = some february := by decide
  obtain ⟨spans, apart, between⟩ := months_tile_rows Desk.simple l (some 14400)
  have posted : row ∈ l.journal := List.mem_singleton.2 rfl
  refine ⟨spans 2023 12 december begun, spans 2024 2 february ended,
    apart (2023, 12) (2024, 2) december february begun ended (by decide), ?_, ?_⟩
  · exact (listsUnder_iff posted).2 ⟨february, ended, by decide⟩
  · exact (between (2023, 12) (2024, 2) december february begun ended).2 row posted (by decide)
      (by decide)

end Desk

end Bureau
