import Bureau.Calendar.Date
import Bureau.Text.Basic
import Bureau.Words

/-!
# Instants and months

An instant is a number of seconds since 1970-01-01T00:00:00Z and a number of nanoseconds, which
passes `10⁹` in a leap second. Instants lie in the years of the calendar. They are written in the
form of RFC 3339, with as many groups of three fractional digits as are needed. A calendar month at
a fixed distance from UTC is the half-open window from local midnight of its first day to local
midnight of the first day of the next month.
-/

namespace Bureau

/-- A point of time, as seconds since the start of 1970 and nanoseconds into the second. -/
structure Instant where
  seconds : Int
  nanos : Nat
deriving DecidableEq, Repr, Inhabited

namespace Instant

instance : Ord Instant :=
  ⟨fun a b => (compare a.seconds b.seconds).then (compare a.nanos b.nanos)⟩

/-- Earlier: by seconds, and within a second by nanoseconds. -/
def Before (a b : Instant) : Prop :=
  a.seconds < b.seconds ∨ (a.seconds = b.seconds ∧ a.nanos < b.nanos)

instance : LT Instant := ⟨Before⟩
instance : LE Instant := ⟨fun a b => ¬ Before b a⟩

instance (a b : Instant) : Decidable (a < b) :=
  inferInstanceAs (Decidable (a.seconds < b.seconds ∨ (a.seconds = b.seconds ∧ a.nanos < b.nanos)))

instance (a b : Instant) : Decidable (a ≤ b) :=
  inferInstanceAs (Decidable (¬ (b < a)))

/-- First second of the calendar. -/
def minSeconds : Int := Date.yearStart Date.minYear * 86400

/-- First second after the calendar. -/
def endSeconds : Int := Date.yearStart (Date.maxYear + 1) * 86400

/-- An instant within the years of the calendar. -/
def ofSeconds? (seconds : Int) (nanos : Nat) : Option Instant :=
  if minSeconds ≤ seconds ∧ seconds < endSeconds then some ⟨seconds, nanos⟩ else none

/-- The instant some nanoseconds later or earlier; a leap second counts as the one before it. -/
def addNanos? (t : Instant) (delta : Int) : Option Instant :=
  let total := (t.nanos : Int) + delta
  ofSeconds? (t.seconds + total / 1000000000) (total % 1000000000).toNat

/-- The instant some milliseconds later or earlier. -/
def addMillis? (t : Instant) (ms : Int) : Option Instant :=
  t.addNanos? (ms * 1000000)

/-- Nanoseconds from one instant to another. -/
def nanosSince (t start : Instant) : Int :=
  (t.seconds - start.seconds) * 1000000000 + ((t.nanos : Int) - start.nanos)

/-- The instant without the digits past the microsecond. -/
def toMicros (t : Instant) : Instant :=
  { t with nanos := t.nanos - t.nanos % 1000 }

/-! ### Writing -/

/-- A year of four digits, or with a sign when it is negative or longer. -/
def yearText (year : Int) : List Char :=
  if 0 ≤ year ∧ year ≤ 9999 then Text.padded 4 year.toNat
  else (if year < 0 then '-' else '+') :: Text.atLeast 4 year.natAbs

/-- The fraction of a second in the fewest groups of three digits. -/
def fractionText (nanos : Nat) : List Char :=
  if nanos = 0 then []
  else if nanos % 1000000 = 0 then '.' :: Text.padded 3 (nanos / 1000000)
  else if nanos % 1000 = 0 then '.' :: Text.padded 6 (nanos / 1000)
  else '.' :: Text.padded 9 nanos

/-- Date and time of day in UTC, without a zone. -/
def localText (t : Instant) : List Char :=
  let date := Date.ofDayNumber (t.seconds / 86400)
  let inDay := (t.seconds % 86400).toNat
  let leap := t.nanos / 1000000000
  yearText date.year ++ '-' :: Text.padded 2 date.month ++ '-' :: Text.padded 2 date.day ++
    'T' :: Text.padded 2 (inDay / 3600) ++ ':' :: Text.padded 2 (inDay / 60 % 60) ++
    ':' :: Text.padded 2 (inDay % 60 + leap) ++ fractionText (t.nanos % 1000000000)

/-- RFC 3339 with the zone `Z`. -/
def toString (t : Instant) : String :=
  String.ofList (t.localText ++ ['Z'])

instance : ToString Instant := ⟨toString⟩

/-- RFC 3339 with the zone `+00:00`. -/
def toOffsetString (t : Instant) : String :=
  String.ofList (t.localText ++ "+00:00".toList)

/-! ### Reading

Reading is more lenient than writing: blanks may stand before each number, numbers may have fewer
digits, a blank may stand for the `T`, and the zone may be `UTC` or lack its colon. -/

/-- At most `width` digits in front, at least one, and the text behind them. -/
def takeNumber? (width : Nat) (cs : List Char) : Option (Nat × List Char) :=
  let ds := (cs.take width).takeWhile fun c => (Text.digit? c).isSome
  (Text.digits? ds).map fun n => (n, cs.drop ds.length)

/-- A number of at most `width` digits behind blanks. -/
def field? (width : Nat) (cs : List Char) : Option (Nat × List Char) :=
  takeNumber? width (Text.trimStart cs)

/-- A year of at most four digits, or one of any length behind a sign. -/
def year? (cs : List Char) : Option (Int × List Char) :=
  match Text.trimStart cs with
  | '-' :: rest => (takeNumber? rest.length rest).map fun (n, rest) => (-(n : Int), rest)
  | '+' :: rest => (takeNumber? rest.length rest).map fun (n, rest) => ((n : Int), rest)
  | cs => (takeNumber? 4 cs).map fun (n, rest) => ((n : Int), rest)

/-- The text behind an expected mark. -/
def mark? (c : Char) : List Char → Option (List Char)
  | d :: rest => if c = d then some rest else none
  | [] => none

/-- The nanoseconds of a fraction, of which digits past the ninth are dropped. -/
def fraction? : List Char → Option (Nat × List Char)
  | '.' :: rest =>
    let ds := rest.takeWhile fun c => (Text.digit? c).isSome
    let kept := ds.take 9
    (Text.digits? kept).map fun n => (n * tenTo (9 - kept.length), rest.drop ds.length)
  | cs => some (0, cs)

/-- The seconds that a zone is ahead of UTC. -/
def zone? (cs : List Char) : Option (Int × List Char) :=
  match cs with
  | 'Z' :: rest | 'z' :: rest => some (0, rest)
  | u :: t :: c :: rest =>
    if u.toUpper = 'U' ∧ t.toUpper = 'T' ∧ c.toUpper = 'C' then some (0, rest)
    else
      let negative := u = '-' ∨ u = '−'
      if ¬ (u = '+' ∨ negative) then none
      else do
        let hours ← Text.digits? [t, c]
        match rest.dropWhile fun c => c == ':' || Text.isBlank c with
        | m₁ :: m₂ :: rest =>
          let minutes ← Text.digits? [m₁, m₂]
          if 59 < minutes then none
          else
            let seconds : Int := hours * 3600 + minutes * 60
            some (if negative then -seconds else seconds, rest)
        | _ => none
  | _ => none

/-- The instant at which a zone shows a date and time of day. The second 60 is a leap second. -/
def ofLocal? (date : Date) (hour minute second nanos : Nat) (ahead : Int) : Option Instant :=
  if 23 < hour ∨ 59 < minute ∨ 60 < second ∨ ahead ≤ -86400 ∨ 86400 ≤ ahead then none
  else
    let leap := if second = 60 then 1 else 0
    let inDay : Nat := hour * 3600 + minute * 60 + (second - leap)
    ofSeconds? (date.dayNumber * 86400 + inDay - ahead) (nanos + leap * 1000000000)

/-- A date, a time of day and a zone. -/
def ofString? (text : String) : Option Instant := do
  let (year, cs) ← year? text.toList
  let cs ← mark? '-' (Text.trimStart cs)
  let (month, cs) ← field? 2 cs
  let cs ← mark? '-' (Text.trimStart cs)
  let (day, cs) ← field? 2 cs
  let cs ← (mark? 'T' cs).orElse fun _ => (mark? 't' cs).orElse fun _ => mark? ' ' cs
  let (hour, cs) ← field? 2 cs
  let cs ← mark? ':' (Text.trimStart cs)
  let (minute, cs) ← field? 2 cs
  let cs ← mark? ':' (Text.trimStart cs)
  let (second, cs) ← field? 2 cs
  let (nanos, cs) ← fraction? cs
  let (ahead, cs) ← zone? (Text.trimStart cs)
  if !(Text.trimStart cs).isEmpty then none
  else ofLocal? (← Date.ofParts? year month day) hour minute second nanos ahead

end Instant

/-! ### Windows -/

/-- A half-open range of instants. -/
structure Window where
  start : Instant
  stop : Instant
deriving DecidableEq

namespace Window

/-- The start belongs to the window and the end does not. -/
def contains (w : Window) (t : Instant) : Bool :=
  w.start ≤ t && t < w.stop

/-- Local midnight of the first day of a month. -/
def monthStart? (year : Int) (month : Nat) (ahead : Int) : Option Instant := do
  Instant.ofLocal? (← Date.ofParts? year month 1) 0 0 0 0 ahead

/-- The window of a month, where both of its ends lie in the calendar. -/
def ofMonth? (year : Int) (month : Nat) (ahead : Int) : Option Window := do
  let start ← monthStart? year month ahead
  let stop ←
    if month = 12 then monthStart? (year + 1) 1 ahead else monthStart? year (month + 1) ahead
  return ⟨start, stop⟩

end Window

end Bureau
