import Bureau.Calendar.Instant
import Bureau.Proofs.Calendar.Date
import Bureau.Proofs.Text.Digits

/-!
# Instants are read as they are written

The text of an instant within the calendar reads as this instant: its date exists and has the day
number again, no digit of its fraction is lost, and a leap second is told from the second before
it.
-/

namespace Bureau

namespace Instant

open Text

/-- An instant within the calendar; nanoseconds pass `10⁹` in the last second of a minute only. -/
structure Valid (t : Instant) : Prop where
  first : minSeconds ≤ t.seconds
  last : t.seconds < endSeconds
  nanos : t.nanos < 2000000000
  leap : 1000000000 ≤ t.nanos → t.seconds % 60 = 59

theorem Valid.toMicros {t : Instant} (h : t.Valid) : t.toMicros.Valid where
  first := h.first
  last := h.last
  nanos := Nat.lt_of_le_of_lt (Nat.sub_le _ _) h.nanos
  leap long := h.leap (Nat.le_trans long (Nat.sub_le _ _))

/-- A whole second that the calendar holds. -/
theorem valid_whole {seconds : Int} (h : minSeconds ≤ seconds ∧ seconds < endSeconds) :
    (⟨seconds, 0⟩ : Instant).Valid where
  first := h.1
  last := h.2
  nanos := Nat.zero_lt_succ _
  leap long := absurd long (Nat.not_succ_le_zero _)

/-! ### Years -/

theorem year?_of_isDigit {c : Char} (h : isDigit c) (cs : List Char) :
    year? (c :: cs) = (takeNumber? 4 (c :: cs)).map fun (n, rest) => ((n : Int), rest) := by
  unfold year?
  rw [trimStart_of_isDigit h]
  split
  · rename_i same
    cases same
    exact absurd h (by decide)
  · rename_i same
    cases same
    exact absurd h (by decide)
  · rfl

theorem takeNumber?_atLeast (width n : Nat) {rest : List Char} (stops : Stops rest) :
    takeNumber? (atLeast width n ++ rest).length (atLeast width n ++ rest) = some (n, rest) :=
  takeNumber?_append (writes_atLeast width n) (atLeast_ne_nil width n)
    (by rw [List.length_append]; exact Nat.le_add_right _ _) (.inr stops)

theorem year?_minus (cs : List Char) :
    year? ('-' :: cs) = (takeNumber? cs.length cs).map fun (n, rest) => (-(n : Int), rest) :=
  rfl

theorem year?_plus (cs : List Char) :
    year? ('+' :: cs) = (takeNumber? cs.length cs).map fun (n, rest) => ((n : Int), rest) :=
  rfl

theorem year?_yearText (year : Int) {rest : List Char} (stops : Stops rest) :
    year? (yearText year ++ rest) = some (year, rest) := by
  unfold yearText
  split
  · rename_i four
    have small : year.toNat < tenTo 4 := by
      change year.toNat < 10000
      omega
    have written := writes_padded small
    have length := length_padded 4 year.toNat
    cases ds : padded 4 year.toNat with
    | nil => rw [ds] at length; cases length
    | cons d others =>
      rw [ds] at written length
      rw [List.cons_append, year?_of_isDigit (written.digits d List.mem_cons_self),
        ← List.cons_append, takeNumber?_append written (by simp) (Nat.le_of_eq length)
          (.inl length)]
      simp only [Option.map_some, Int.toNat_of_nonneg four.1]
  · have taken := takeNumber?_atLeast 4 year.natAbs stops
    by_cases negative : year < 0
    · rw [if_pos negative, List.cons_append, year?_minus, taken]
      simp only [Option.map_some, Option.some.injEq, Prod.mk.injEq, and_true]
      omega
    · rw [if_neg negative, List.cons_append, year?_plus, taken]
      simp only [Option.map_some, Option.some.injEq, Prod.mk.injEq, and_true]
      omega

/-! ### Fractions -/

theorem fraction?_padded {width n : Nat} (wide : 0 < width) (most : width ≤ 9)
    (h : n < tenTo width) {rest : List Char} (stops : Stops rest) :
    fraction? ('.' :: (padded width n ++ rest)) = some (n * tenTo (9 - width), rest) := by
  have written := writes_padded h
  have length := length_padded width n
  have nonempty : padded width n ≠ [] := fun none_ => by
    rw [none_] at length
    exact absurd length (Nat.ne_of_lt wide)
  have taken : (padded width n ++ rest).takeWhile (fun c => (digit? c).isSome) = padded width n :=
    takeWhile_digits written.digits stops
  have kept : (padded width n).take 9 = padded width n :=
    List.take_of_length_le (Nat.le_trans (Nat.le_of_eq length) most)
  simp only [fraction?, taken, kept, written.digits? nonempty, Option.map_some, length,
    List.drop_left']

theorem fraction?_fractionText {nanos : Nat} (h : nanos < 1000000000) (rest : List Char) :
    fraction? (fractionText nanos ++ 'Z' :: rest) = some (nanos, 'Z' :: rest) := by
  have stops : Stops ('Z' :: rest) := fun c hc => by
    cases hc
    rfl
  unfold fractionText
  split
  · rename_i zero
    rw [zero]
    rfl
  · split
    · rw [List.cons_append, fraction?_padded (by decide) (by decide)
        (by change _ < 1000; omega) stops]
      simp only [Option.some.injEq, Prod.mk.injEq, and_true]
      change nanos / 1000000 * 1000000 = nanos
      omega
    · split
      · rw [List.cons_append, fraction?_padded (by decide) (by decide)
          (by change _ < 1000000; omega) stops]
        simp only [Option.some.injEq, Prod.mk.injEq, and_true]
        change nanos / 1000 * 1000 = nanos
        omega
      · rw [List.cons_append, fraction?_padded (by decide) (by decide)
          (by change _ < 1000000000; omega) stops]
        simp [tenTo]

/-! ### Instants -/

/-- A date and a time of day read as the instant that they were taken from. -/
theorem ofLocal?_localParts {t : Instant} (h : t.Valid) :
    ofLocal? (Date.ofDayNumber (t.seconds / 86400)) ((t.seconds % 86400).toNat / 3600)
      ((t.seconds % 86400).toNat / 60 % 60)
      ((t.seconds % 86400).toNat % 60 + t.nanos / 1000000000) (t.nanos % 1000000000) 0 =
      some t := by
  obtain ⟨first, last, nanos, leap⟩ := h
  obtain ⟨-, -, -, -, -, day⟩ := Date.ofDayNumber_spec (t.seconds / 86400)
  obtain ⟨inDay, hinDay⟩ : ∃ inDay : Nat, (inDay : Int) = t.seconds % 86400 :=
    ⟨_, Int.toNat_of_nonneg (by omega)⟩
  rw [← hinDay, Int.toNat_natCast]
  unfold ofLocal?
  rw [if_neg (by omega), day]
  -- The second 60 is written in leap seconds only.
  have isLeap : inDay % 60 + t.nanos / 1000000000 = 60 ↔ 1000000000 ≤ t.nanos := by
    constructor
    · omega
    · intro long
      have := leap long
      omega
  have total : ofSeconds? t.seconds t.nanos = some t := if_pos ⟨first, last⟩
  rw [← total]
  by_cases long : 1000000000 ≤ t.nanos
  · have := leap long
    simp only [if_pos (isLeap.2 long)]
    congr 1 <;> omega
  · simp only [if_neg (mt isLeap.1 long)]
    congr 1 <;> omega

theorem stops_of_head {c : Char} (h : isDigit c = false) (rest : List Char) :
    Stops (c :: rest) := fun d hd => by
  cases hd
  exact h

/-- A mark is no blank. -/
theorem trimStart_mark {c : Char} (h : isBlank c = false) (cs : List Char) :
    trimStart (c :: cs) = c :: cs := by
  simp [trimStart, h]

theorem mark?_self (c : Char) (cs : List Char) : mark? c (c :: cs) = some cs :=
  if_pos rfl

theorem ofString?_toString {t : Instant} (h : t.Valid) : ofString? t.toString = some t := by
  obtain ⟨-, -, twelve, -, inMonth, -⟩ := Date.ofDayNumber_spec (t.seconds / 86400)
  have date := Date.ofParts?_ofDayNumber (n := t.seconds / 86400)
    (by have := h.first; unfold minSeconds at this; omega)
    (by have := h.last; unfold endSeconds at this; omega)
  have moment := ofLocal?_localParts h
  have nanos := h.nanos
  have fraction := fraction?_fractionText (Nat.mod_lt t.nanos (by decide : 0 < 1000000000)) []
  have days := Nat.le_trans inMonth (Date.daysInMonth_le _ _)
  have two {n : Nat} (small : n < 100) (rest : List Char) :
      field? 2 (padded 2 n ++ rest) = some (n, rest) := field?_padded (by decide) small rest
  have month := two (n := (Date.ofDayNumber (t.seconds / 86400)).month) (by omega)
  have day := two (n := (Date.ofDayNumber (t.seconds / 86400)).day) (by omega)
  have hour := two (n := (t.seconds % 86400).toNat / 3600) (by omega)
  have minute := two (n := (t.seconds % 86400).toNat / 60 % 60) (by omega)
  have second := two (n := (t.seconds % 86400).toNat % 60 + t.nanos / 1000000000) (by omega)
  have year := fun rest => year?_yearText (Date.ofDayNumber (t.seconds / 86400)).year
    (stops_of_head (c := '-') (by decide) rest)
  have hyphen := trimStart_mark (c := '-') (by decide)
  have colon := trimStart_mark (c := ':') (by decide)
  have zulu := trimStart_mark (c := 'Z') (by decide)
  have zone : zone? ['Z'] = some (0, []) := rfl
  have nothing : trimStart [] = [] := rfl
  unfold ofString? toString localText
  simp only [String.toList_ofList, List.append_assoc, List.cons_append, bind, year,
    Option.bind_some, hyphen, colon, zulu, mark?_self, month, day, hour, minute, second, fraction,
    Option.orElse_some, zone, nothing, List.isEmpty_nil, Bool.not_true,
    Bool.false_eq_true, if_false, date, moment]

end Instant

end Bureau
