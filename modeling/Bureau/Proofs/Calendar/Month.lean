import Bureau.Calendar.Instant
import Bureau.Proofs.Calendar.Date

/-!
# Months tile time

The window of a month at a distance from UTC holds the instants whose local date is in the month
(`Window.contains_iff`). So the windows of two months have no instant in common, and between the
start of one and the end of another every instant is in a window (`Window.exists_window`): the
months between have their bounds in the calendar too.
-/

namespace Bureau

namespace Instant

/-- The date that a zone shows at an instant. -/
def localDate (t : Instant) (ahead : Int) : Date :=
  Date.ofDayNumber ((t.seconds + ahead) / 86400)

theorem ofLocal?_midnight (date : Date) (ahead : Int) : ofLocal? date 0 0 0 0 ahead =
    if ahead ≤ -86400 ∨ 86400 ≤ ahead then none
    else ofSeconds? (date.dayNumber * 86400 - ahead) 0 := by
  simp [ofLocal?]

/-- A whole second has come when the seconds have. -/
theorem whole_le_iff {seconds : Int} {t : Instant} : (⟨seconds, 0⟩ : Instant) ≤ t ↔
    seconds ≤ t.seconds := by
  change ¬ (t.seconds < seconds ∨ (t.seconds = seconds ∧ t.nanos < 0)) ↔ _
  omega

theorem lt_whole_iff {seconds : Int} {t : Instant} : t < (⟨seconds, 0⟩ : Instant) ↔
    t.seconds < seconds := by
  change t.seconds < seconds ∨ (t.seconds = seconds ∧ t.nanos < 0) ↔ _
  omega

end Instant

namespace Window

open Date (monthStart following Earlier)

variable {year : Int} {month : Nat} {ahead : Int} {t : Instant} {w : Window}

/-! ### The first instant of a month -/

/-- Seconds from 1970-01-01T00:00:00Z to local midnight of the first day of a month. -/
def firstSecond (year : Int) (month : Nat) (ahead : Int) : Int :=
  monthStart year month * 86400 - ahead

/-- A month that begins in the calendar: its year is there, and so is its first instant. -/
structure Begins (year : Int) (month : Nat) (ahead : Int) : Prop where
  years : Date.minYear ≤ year ∧ year ≤ Date.maxYear
  months : 1 ≤ month ∧ month ≤ 12
  lessThanADay : -86400 < ahead ∧ ahead < 86400
  seconds : Instant.minSeconds ≤ firstSecond year month ahead ∧
    firstSecond year month ahead < Instant.endSeconds

theorem monthStart?_eq_some_iff : monthStart? year month ahead = some t ↔
    Begins year month ahead ∧ t = ⟨firstSecond year month ahead, 0⟩ := by
  have first : (Date.mk year month 1).dayNumber * 86400 - ahead =
      firstSecond year month ahead := by
    simp [Date.dayNumber_eq_monthStart, firstSecond]
  have made : monthStart? year month ahead =
      (Date.ofParts? year month 1).bind (Instant.ofLocal? · 0 0 0 0 ahead) := rfl
  rw [made]
  unfold Date.ofParts?
  constructor
  · intro h
    split at h
    · rename_i there
      rw [Option.bind_some, Instant.ofLocal?_midnight, first] at h
      split at h
      · cases h
      · rename_i small
        unfold Instant.ofSeconds? at h
        split at h
        · rename_i between
          cases h
          exact ⟨⟨⟨there.1, there.2.1⟩, ⟨there.2.2.1, there.2.2.2.1⟩, by omega, between⟩, rfl⟩
        · cases h
    · cases h
  · rintro ⟨⟨years, months, small, between⟩, rfl⟩
    have days := Date.daysInMonth_pos year months.1 months.2
    rw [if_pos ⟨years.1, years.2, months.1, months.2, Nat.le_refl 1, days⟩, Option.bind_some,
      Instant.ofLocal?_midnight, if_neg (by omega), first]
    exact if_pos between

/-! ### Windows -/

/-- A month has a window when it and the month after it begin in the calendar. -/
theorem ofMonth?_eq_some_iff : ofMonth? year month ahead = some w ↔
    Begins year month ahead ∧
      Begins (following year month).1 (following year month).2 ahead ∧
      w = ⟨⟨firstSecond year month ahead, 0⟩,
        ⟨firstSecond (following year month).1 (following year month).2 ahead, 0⟩⟩ := by
  have made : ofMonth? year month ahead = (monthStart? year month ahead).bind fun start =>
      (monthStart? (following year month).1 (following year month).2 ahead).bind
        fun stop => some ⟨start, stop⟩ := by
    unfold ofMonth? following
    split <;> rfl
  rw [made]
  constructor
  · intro h
    obtain ⟨start, begun, h⟩ := Option.bind_eq_some_iff.1 h
    obtain ⟨stop, ended, h⟩ := Option.bind_eq_some_iff.1 h
    cases h
    obtain ⟨begins, rfl⟩ := monthStart?_eq_some_iff.1 begun
    obtain ⟨ends, rfl⟩ := monthStart?_eq_some_iff.1 ended
    exact ⟨begins, ends, rfl⟩
  · rintro ⟨begins, ends, rfl⟩
    rw [monthStart?_eq_some_iff.2 ⟨begins, rfl⟩, monthStart?_eq_some_iff.2 ⟨ends, rfl⟩]
    rfl

/-- The first second of the next month comes when the days of the month have passed. -/
theorem firstSecond_following (year : Int) {month : Nat} (first : 1 ≤ month) (ahead : Int) :
    firstSecond (following year month).1 (following year month).2 ahead =
      firstSecond year month ahead + 86400 * daysInMonth year month := by
  rw [firstSecond, Date.monthStart_following year first, firstSecond]
  omega

/-- A month's window holds the instants at which the local date is in the month. -/
theorem contains_iff (h : ofMonth? year month ahead = some w) (t : Instant) :
    w.contains t = true ↔ (t.localDate ahead).year = year ∧ (t.localDate ahead).month = month := by
  obtain ⟨⟨-, ⟨first, last⟩, -, -⟩, -, rfl⟩ := ofMonth?_eq_some_iff.1 h
  rw [Instant.localDate, Date.month_ofDayNumber_iff first last, contains, Bool.and_eq_true,
    decide_eq_true_iff, decide_eq_true_iff, Instant.whole_le_iff, Instant.lt_whole_iff,
    firstSecond_following year first, firstSecond]
  omega

/-! ### Months one after another -/

theorem monthStart_le {year' : Int} {month' : Nat} (first : 1 ≤ month) (last : month ≤ 12)
    (h : ¬ Earlier year' month' year month) : monthStart year month ≤ monthStart year' month' := by
  by_cases same : year = year' ∧ month = month'
  · obtain ⟨rfl, rfl⟩ := same
    exact Int.le_refl _
  · have earlier : Earlier year month year' month' := by
      unfold Earlier at h ⊢
      omega
    have := Date.monthStart_add_le first last earlier
    omega

/-- A month that lies between two that begin in the calendar begins there as well. -/
theorem Begins.between {first last : Int × Nat} (begun : Begins first.1 first.2 ahead)
    (ended : Begins last.1 last.2 ahead) (months : 1 ≤ month ∧ month ≤ 12)
    (after : ¬ Earlier year month first.1 first.2) (before : ¬ Earlier last.1 last.2 year month) :
    Begins year month ahead := by
  have low := monthStart_le begun.months.1 begun.months.2 after
  have high := monthStart_le months.1 months.2 before
  have least := begun.seconds.1
  have most := ended.seconds.2
  have years := begun.years.1
  have years' := ended.years.2
  unfold Earlier at after before
  unfold firstSecond at least most
  refine ⟨⟨by omega, by omega⟩, months, begun.lessThanADay, ?_⟩
  unfold firstSecond
  omega

theorem following_months (year : Int) (h : 1 ≤ month ∧ month ≤ 12) :
    1 ≤ (following year month).2 ∧ (following year month).2 ≤ 12 := by
  unfold following
  split <;> dsimp only <;> omega

/-- The next month comes behind whatever its month comes behind, and behind no later month. -/
theorem following_order {year' : Int} {month' : Nat} (h : 1 ≤ month ∧ month ≤ 12)
    (h' : 1 ≤ month' ∧ month' ≤ 12) (order : ¬ Earlier year' month' year month) :
    ¬ Earlier (following year' month').1 (following year' month').2 year month ∧
      ¬ Earlier (following year' month').1 (following year' month').2
        (following year month).1 (following year month).2 := by
  unfold following Earlier at *
  split <;> split <;> dsimp only <;> omega

/-- Between the start of one window and the end of another, the month of the local date has a
window. -/
theorem exists_window {first last : Int × Nat} {begun ended : Window}
    (hfirst : ofMonth? first.1 first.2 ahead = some begun)
    (hlast : ofMonth? last.1 last.2 ahead = some ended) (after : begun.start ≤ t)
    (before : t < ended.stop) :
    ∃ w, ofMonth? (t.localDate ahead).year (t.localDate ahead).month ahead = some w := by
  obtain ⟨start, -, rfl⟩ := ofMonth?_eq_some_iff.1 hfirst
  obtain ⟨lastStart, stop, rfl⟩ := ofMonth?_eq_some_iff.1 hlast
  rw [Instant.whole_le_iff, firstSecond] at after
  rw [Instant.lt_whole_iff, firstSecond_following last.1 lastStart.months.1, firstSecond] at before
  obtain ⟨begins, ends⟩ : monthStart (t.localDate ahead).year (t.localDate ahead).month ≤
      (t.seconds + ahead) / 86400 ∧ (t.seconds + ahead) / 86400 <
        monthStart (t.localDate ahead).year (t.localDate ahead).month +
          daysInMonth (t.localDate ahead).year (t.localDate ahead).month := by
    have there := Date.exists_ofDayNumber ((t.seconds + ahead) / 86400)
    exact (Date.month_ofDayNumber_iff there.month there.twelve _).1 ⟨rfl, rfl⟩
  have months : 1 ≤ (t.localDate ahead).month ∧ (t.localDate ahead).month ≤ 12 := by
    have there := Date.exists_ofDayNumber ((t.seconds + ahead) / 86400)
    exact ⟨there.month, there.twelve⟩
  generalize (t.localDate ahead).year = year at *
  generalize (t.localDate ahead).month = month at *
  have notBefore : ¬ Earlier year month first.1 first.2 := by
    intro earlier
    have := Date.monthStart_add_le months.1 months.2 earlier
    omega
  have notAfter : ¬ Earlier last.1 last.2 year month := by
    intro later
    have := Date.monthStart_add_le lastStart.months.1 lastStart.months.2 later
    omega
  have behindFirst := (following_order start.months months notBefore).1
  have beforeLast := (following_order months lastStart.months notAfter).2
  exact ⟨_, ofMonth?_eq_some_iff.2 ⟨start.between lastStart months notBefore notAfter,
    start.between stop (following_months year months) behindFirst beforeLast, rfl⟩⟩

end Window

end Bureau
