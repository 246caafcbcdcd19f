/-!
# Civil dates

The proleptic Gregorian calendar, with years counted through zero, and the day number of a date
counted from 1970-01-01.
-/

namespace Bureau

/-- The rule of the Gregorian calendar, also before it came into use. -/
def isLeapYear (year : Int) : Bool :=
  year % 4 == 0 && (year % 100 != 0 || year % 400 == 0)

/-- Days of a month of the year; none for a month that does not exist. -/
def daysInMonth (year : Int) (month : Nat) : Nat :=
  match month with
  | 1 | 3 | 5 | 7 | 8 | 10 | 12 => 31
  | 4 | 6 | 9 | 11 => 30
  | 2 => if isLeapYear year then 29 else 28
  | _ => 0

/-- A day of the proleptic Gregorian calendar; months and days count from one. -/
structure Date where
  year : Int
  month : Nat
  day : Nat
deriving DecidableEq, Repr

namespace Date

/-- First and last year of the calendar. -/
def minYear : Int := -262143

/-- The last year whose days can all be told. -/
def maxYear : Int := 262142

/-- Day number of the first of January, counted from 1970-01-01. -/
def yearStart (year : Int) : Int :=
  365 * (year - 1970) + ((year - 1) / 4 - 492) - ((year - 1) / 100 - 19) + ((year - 1) / 400 - 4)

/-- Days of the year before the first of a month. -/
def daysBefore (year : Int) : Nat → Nat
  | 0 => 0
  | 1 => 0
  | month + 1 => daysBefore year month + daysInMonth year month

/-- Day number of the date, counted from 1970-01-01. -/
def dayNumber (d : Date) : Int :=
  yearStart d.year + daysBefore d.year d.month + (d.day : Int) - 1

/-- The date of a year, month and day that exist. -/
def ofParts? (year : Int) (month day : Nat) : Option Date :=
  if minYear ≤ year ∧ year ≤ maxYear ∧ 1 ≤ month ∧ month ≤ 12 ∧ 1 ≤ day ∧
      day ≤ daysInMonth year month then
    some ⟨year, month, day⟩
  else none

/-- The month of a year that holds a day counted from its start, and the day of that month. -/
def monthOf (year : Int) (month : Nat) : Nat → Nat → Nat × Nat
  | 0, day => (month, day + 1)
  | left + 1, day =>
    let length := daysInMonth year month
    if day < length then (month, day + 1) else monthOf year (month + 1) left (day - length)

/-- The year that holds a day number: the guess from the mean length of a year is late or early
by at most one. -/
def yearOf (dayNumber : Int) : Int :=
  let guess := 1970 + (400 * dayNumber) / 146097
  if dayNumber < yearStart guess then guess - 1
  else if yearStart (guess + 1) ≤ dayNumber then guess + 1
  else guess

/-- The date of a day number. -/
def ofDayNumber (dayNumber : Int) : Date :=
  let year := yearOf dayNumber
  let (month, day) := monthOf year 1 11 (dayNumber - yearStart year).toNat
  ⟨year, month, day⟩

end Date

end Bureau
