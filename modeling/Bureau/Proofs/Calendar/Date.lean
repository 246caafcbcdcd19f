import Bureau.Calendar.Date

/-!
# Day numbers and dates

Every day number has a date, which exists, lies in the year that holds the number, and has that
number again. A date that exists is the only one with its day number (`ofDayNumber_dayNumber`), and
the days of a month are the numbers from that of its first day on (`month_ofDayNumber_iff`).
-/

namespace Bureau

namespace Date

/-! ### Years -/

theorem yearStart_succ (year : Int) :
    yearStart (year + 1) = yearStart year + if isLeapYear year then 366 else 365 := by
  have leap : isLeapYear year = true ↔ year % 4 = 0 ∧ (year % 100 ≠ 0 ∨ year % 400 = 0) := by
    simp [isLeapYear]
  by_cases h : isLeapYear year = true
  · rw [if_pos h]
    have := leap.1 h
    unfold yearStart
    omega
  · rw [if_neg h]
    have := mt leap.2 h
    unfold yearStart
    omega

theorem yearStart_mono {a b : Int} (h : a ≤ b) : yearStart a ≤ yearStart b := by
  unfold yearStart
  omega

/-- The guess that `yearOf` begins with is at most one year off. -/
theorem yearStart_guess (n : Int) :
    let guess := 1970 + (400 * n) / 146097
    yearStart (guess - 1) ≤ n ∧ n < yearStart (guess + 2) := by
  intro guess
  have : guess = 1970 + (400 * n) / 146097 := rfl
  unfold yearStart
  omega

theorem yearStart_yearOf (n : Int) : yearStart (yearOf n) ≤ n ∧ n < yearStart (yearOf n + 1) := by
  have guessed := yearStart_guess n
  unfold yearOf
  generalize 1970 + (400 * n) / 146097 = guess at guessed ⊢
  dsimp only at guessed ⊢
  split
  · rename_i late
    rw [show guess - 1 + 1 = guess by omega]
    exact ⟨guessed.1, late⟩
  · rename_i late
    split
    · rename_i early
      rw [show guess + 1 + 1 = guess + 2 by omega]
      exact ⟨early, guessed.2⟩
    · rename_i early
      exact ⟨Int.not_lt.1 late, Int.not_le.1 early⟩

/-- The year of a day between two years lies between them. -/
theorem yearOf_between {first last n : Int} (le : yearStart first ≤ n)
    (lt : n < yearStart (last + 1)) : first ≤ yearOf n ∧ yearOf n ≤ last := by
  obtain ⟨begun, ended⟩ := yearStart_yearOf n
  constructor
  · refine Int.not_lt.1 fun before => ?_
    have := yearStart_mono (show yearOf n + 1 ≤ first by omega)
    omega
  · refine Int.not_lt.1 fun after => ?_
    have := yearStart_mono (show last + 1 ≤ yearOf n by omega)
    omega

/-! ### Months -/

theorem daysInMonth_le (year : Int) (month : Nat) : daysInMonth year month ≤ 31 := by
  unfold daysInMonth
  repeat' split
  all_goals decide

theorem daysBefore_succ (year : Int) {month : Nat} (h : 1 ≤ month) :
    daysBefore year (month + 1) = daysBefore year month + daysInMonth year month := by
  cases month with
  | zero => cases h
  | succ month => rfl

/-- The twelve months fill the year. -/
theorem daysBefore_end (year : Int) :
    (daysBefore year 13 : Int) = yearStart (year + 1) - yearStart year := by
  rw [yearStart_succ]
  simp only [daysBefore, daysInMonth]
  split <;> omega

/-- From a month on, the months that are left are searched until the day is in one of them. -/
theorem monthOf_spec (year : Int) (month left day : Nat) (first : 1 ≤ month)
    (last : month + left = 12) (within : daysBefore year month + day < daysBefore year 13) :
    let found := monthOf year month left day
    1 ≤ found.1 ∧ found.1 ≤ 12 ∧ 1 ≤ found.2 ∧ found.2 ≤ daysInMonth year found.1 ∧
      daysBefore year found.1 + found.2 = daysBefore year month + day + 1 := by
  induction left generalizing month day with
  | zero =>
    obtain rfl : month = 12 := by omega
    have december : daysBefore year 13 = daysBefore year 12 + daysInMonth year 12 := rfl
    simp only [monthOf]
    omega
  | succ left ih =>
    unfold monthOf
    dsimp only
    split
    · rename_i inside
      exact ⟨first, by omega, Nat.le_add_left 1 day, inside, rfl⟩
    · rename_i behind
      have next := daysBefore_succ year first
      have found := ih (month + 1) (day - daysInMonth year month) (by omega) (by omega)
        (by omega)
      dsimp only at found
      omega

/-! ### Dates -/

/-- What the date of a day number is. -/
theorem ofDayNumber_spec (n : Int) :
    let date := ofDayNumber n
    date.year = yearOf n ∧ 1 ≤ date.month ∧ date.month ≤ 12 ∧ 1 ≤ date.day ∧
      date.day ≤ daysInMonth date.year date.month ∧ date.dayNumber = n := by
  obtain ⟨begun, ended⟩ := yearStart_yearOf n
  have length := daysBefore_end (yearOf n)
  have within : daysBefore (yearOf n) 1 + (n - yearStart (yearOf n)).toNat <
      daysBefore (yearOf n) 13 := by
    rw [show daysBefore (yearOf n) 1 = 0 from rfl]
    omega
  obtain ⟨month, twelve, day, inMonth, sum⟩ :=
    monthOf_spec (yearOf n) 1 11 _ (Nat.le_refl 1) rfl within
  refine ⟨rfl, month, twelve, day, inMonth, ?_⟩
  rw [show daysBefore (yearOf n) 1 = 0 from rfl] at sum
  rw [dayNumber, ofDayNumber]
  dsimp only
  omega

/-- A day number within the calendar has a date that exists. -/
theorem ofParts?_ofDayNumber {n : Int} (first : yearStart minYear ≤ n)
    (last : n < yearStart (maxYear + 1)) :
    ofParts? (ofDayNumber n).year (ofDayNumber n).month (ofDayNumber n).day =
      some (ofDayNumber n) := by
  obtain ⟨year, month, twelve, day, inMonth, -⟩ := ofDayNumber_spec n
  obtain ⟨low, high⟩ := yearOf_between first last
  rw [← year] at low high
  exact if_pos ⟨low, high, month, twelve, day, inMonth⟩

/-! ### Dates that exist -/

/-- The year has the month, and the month has the day. -/
structure Exists (d : Date) : Prop where
  month : 1 ≤ d.month
  twelve : d.month ≤ 12
  day : 1 ≤ d.day
  inMonth : d.day ≤ daysInMonth d.year d.month

theorem exists_ofDayNumber (n : Int) : (ofDayNumber n).Exists := by
  obtain ⟨-, month, twelve, day, inMonth, -⟩ := ofDayNumber_spec n
  exact ⟨month, twelve, day, inMonth⟩

theorem dayNumber_ofDayNumber (n : Int) : (ofDayNumber n).dayNumber = n := by
  obtain ⟨-, -, -, -, -, number⟩ := ofDayNumber_spec n
  exact number

/-- A month is over before a later month of the year begins. -/
theorem daysBefore_add_le (year : Int) {month later : Nat} (first : 1 ≤ month)
    (h : month < later) :
    daysBefore year month + daysInMonth year month ≤ daysBefore year later := by
  induction later with
  | zero => cases h
  | succ later ih =>
    rw [daysBefore_succ year (by omega)]
    rcases Nat.lt_succ_iff_lt_or_eq.1 h with before | rfl
    · have := ih before
      omega
    · exact Nat.le_refl _

theorem daysInMonth_pos (year : Int) {month : Nat} (first : 1 ≤ month) (last : month ≤ 12) :
    1 ≤ daysInMonth year month := by
  unfold daysInMonth
  split
  case h_12 => split <;> decide
  case h_13 => grind
  all_goals decide

/-- Day number of the first day of a month. -/
def monthStart (year : Int) (month : Nat) : Int := yearStart year + daysBefore year month

theorem dayNumber_eq_monthStart (d : Date) :
    d.dayNumber = monthStart d.year d.month + ((d.day : Int) - 1) := by
  rw [dayNumber, monthStart]
  omega

/-- The month after a month. -/
def following (year : Int) (month : Nat) : Int × Nat :=
  if month = 12 then (year + 1, 1) else (year, month + 1)

/-- The month after a month begins when the days of the month are over. -/
theorem monthStart_following (year : Int) {month : Nat} (first : 1 ≤ month) :
    monthStart (following year month).1 (following year month).2 =
      monthStart year month + daysInMonth year month := by
  unfold following
  split
  · rename_i december
    have whole := daysBefore_end year
    rw [daysBefore_succ year (by decide)] at whole
    rw [monthStart, monthStart, december, show daysBefore (year + 1) 1 = 0 from rfl]
    push_cast at whole ⊢
    omega
  · rw [monthStart, monthStart, daysBefore_succ year first]
    push_cast
    omega

/-- Months in their order: the years first, and then the months of the year. -/
def Earlier (year : Int) (month : Nat) (year' : Int) (month' : Nat) : Prop :=
  year < year' ∨ (year = year' ∧ month < month')

/-- A month is over before a later one begins. -/
theorem monthStart_add_le {year year' : Int} {month month' : Nat} (first : 1 ≤ month)
    (last : month ≤ 12) (h : Earlier year month year' month') :
    monthStart year month + daysInMonth year month ≤ monthStart year' month' := by
  rw [monthStart, monthStart]
  rcases h with before | ⟨rfl, before⟩
  · have inYear := daysBefore_add_le year first (show month < 13 by omega)
    have whole := daysBefore_end year
    have next := yearStart_mono (show year + 1 ≤ year' by omega)
    omega
  · have := daysBefore_add_le year first before
    omega

/-- The days of a month are those whose numbers lie between its first day and the next month. -/
theorem month_ofDayNumber_iff {year : Int} {month : Nat} (first : 1 ≤ month) (last : month ≤ 12)
    (n : Int) : ((ofDayNumber n).year = year ∧ (ofDayNumber n).month = month) ↔
      monthStart year month ≤ n ∧ n < monthStart year month + daysInMonth year month := by
  have there := exists_ofDayNumber n
  have number := dayNumber_eq_monthStart (ofDayNumber n)
  rw [dayNumber_ofDayNumber] at number
  have day := there.day
  have inMonth := there.inMonth
  constructor
  · rintro ⟨rfl, rfl⟩
    omega
  · rintro ⟨begun, ended⟩
    -- In an earlier or a later month the day would lie before or behind this one.
    have notEarlier : ¬ Earlier (ofDayNumber n).year (ofDayNumber n).month year month := by
      intro earlier
      have := monthStart_add_le there.month there.twelve earlier
      omega
    have notLater : ¬ Earlier year month (ofDayNumber n).year (ofDayNumber n).month := by
      intro later
      have := monthStart_add_le first last later
      omega
    unfold Earlier at notEarlier notLater
    omega

/-- A date that exists is the one of its day number. -/
theorem ofDayNumber_dayNumber {d : Date} (h : d.Exists) : ofDayNumber d.dayNumber = d := by
  have number := dayNumber_eq_monthStart d
  have day := h.day
  have inMonth := h.inMonth
  have between : monthStart d.year d.month ≤ d.dayNumber ∧
      d.dayNumber < monthStart d.year d.month + daysInMonth d.year d.month := by omega
  obtain ⟨year, month⟩ := (month_ofDayNumber_iff h.month h.twelve d.dayNumber).2 between
  have again := dayNumber_eq_monthStart (ofDayNumber d.dayNumber)
  rw [dayNumber_ofDayNumber, year, month] at again
  have same : (ofDayNumber d.dayNumber).day = d.day := by omega
  generalize ofDayNumber d.dayNumber = found at year month same
  cases found
  cases d
  rw [mk.injEq]
  exact ⟨year, month, same⟩

/-- The first day of a month. -/
theorem ofDayNumber_monthStart {year : Int} {month : Nat} (first : 1 ≤ month)
    (last : month ≤ 12) : ofDayNumber (monthStart year month) = ⟨year, month, 1⟩ := by
  have there : Exists ⟨year, month, 1⟩ :=
    ⟨first, last, Nat.le_refl 1, daysInMonth_pos year first last⟩
  have number : dayNumber ⟨year, month, 1⟩ = monthStart year month := by
    simp [dayNumber_eq_monthStart]
  rw [← number, ofDayNumber_dayNumber there]

end Date

end Bureau
