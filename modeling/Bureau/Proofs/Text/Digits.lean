import Bureau.Calendar.Instant

/-!
# Numbers are read off their digits

Both ways of writing a number, with a fixed width and with at least one, are runs of decimal digits
whose value is the number. A reader that takes digits from the front of a text takes such a run
whole, where the run is as long as it may be or what stands behind it is no digit.
-/

namespace Bureau

namespace Text

/-- The character is an ASCII decimal digit. -/
def isDigit (c : Char) : Bool := (digit? c).isSome

@[simp] theorem isSome_digit? (c : Char) : (digit? c).isSome = isDigit c := rfl

/-! ### Single digits -/

theorem digit?_digitChar (n : Nat) : digit? (digitChar n) = some (n % 10) := by
  have all : ∀ d : Fin 10, digit? (Char.ofNat ('0'.toNat + d)) = some d.val := by decide
  exact all ⟨n % 10, Nat.mod_lt _ (by decide)⟩

theorem toNat_of_isDigit {c : Char} (h : isDigit c) : 48 ≤ c.toNat ∧ c.toNat ≤ 57 := by
  unfold isDigit digit? at h
  split at h
  · assumption
  · cases h

theorem isBlank_of_isDigit {c : Char} (h : isDigit c) : isBlank c = false := by
  have := toNat_of_isDigit h
  simp only [isBlank, Bool.or_eq_false_iff, Bool.and_eq_false_iff, beq_eq_false_iff_ne,
    decide_eq_false_iff_not]
  omega

theorem digit?_of_isDigit {c : Char} (h : c.isDigit) : digit? c = some (c.toNat - '0'.toNat) := by
  simp only [Char.isDigit, Bool.and_eq_true, decide_eq_true_eq] at h
  exact if_pos h

/-! ### Runs of digits -/

theorem digitsFrom_append (v : Nat) (as bs : List Char) :
    digitsFrom v (as ++ bs) = (digitsFrom v as).bind fun w => digitsFrom w bs := by
  induction as generalizing v with
  | nil => rfl
  | cons a as ih =>
    simp only [List.cons_append, digitsFrom]
    cases digit? a with
    | none => rfl
    | some d => exact ih _

/-- The digits of a run, and the number that they write. -/
structure Writes (ds : List Char) (n : Nat) : Prop where
  value : digitsFrom 0 ds = some n
  digits : ∀ c ∈ ds, isDigit c

theorem Writes.digits? {ds : List Char} {n : Nat} (h : Writes ds n) (nonempty : ds ≠ []) :
    digits? ds = some n := by
  cases ds with
  | nil => exact absurd rfl nonempty
  | cons d ds => exact h.value

theorem length_padded (width n : Nat) : (padded width n).length = width := by
  induction width generalizing n with
  | zero => rfl
  | succ width ih => simp [padded, ih]

theorem digitsFrom_padded {width n : Nat} (h : n < tenTo width) (v : Nat) :
    digitsFrom v (padded width n) = some (v * tenTo width + n) := by
  induction width generalizing n with
  | zero =>
    obtain rfl : n = 0 := Nat.lt_one_iff.1 h
    simp [padded, digitsFrom]
  | succ width ih =>
    rw [tenTo_succ] at h
    rw [padded, digitsFrom_append, ih (by omega)]
    simp only [Option.bind_some, digitsFrom, digit?_digitChar, tenTo_succ]
    congr 1
    rw [Nat.add_mul, Nat.mul_assoc]
    omega

theorem writes_padded {width n : Nat} (h : n < tenTo width) : Writes (padded width n) n where
  value := by simpa using digitsFrom_padded h 0
  digits := by
    clear h
    induction width generalizing n with
    | zero => intro c hc; cases hc
    | succ width ih =>
      intro c hc
      rcases List.mem_append.1 hc with hc | hc
      · exact ih c hc
      · rw [List.mem_singleton.1 hc, isDigit, digit?_digitChar]
        rfl

theorem digitsFrom_eq_foldl {ds : List Char} (h : ∀ c ∈ ds, c.isDigit) (v : Nat) :
    digitsFrom v ds = some (Nat.ofDigitChars 10 ds v) := by
  induction ds generalizing v with
  | nil => rfl
  | cons d ds ih =>
    rw [digitsFrom, digit?_of_isDigit (h d List.mem_cons_self)]
    refine (ih (fun c hc => h c (List.mem_cons_of_mem d hc)) _).trans ?_
    rw [Nat.ofDigitChars, Nat.ofDigitChars, List.foldl_cons, Nat.mul_comm v]

theorem writes_repr (n : Nat) : Writes (Nat.repr n).toList n := by
  have digits : ∀ c ∈ Nat.toDigits 10 n, c.isDigit := fun c hc =>
    Nat.isDigit_of_mem_toDigits (by decide) (by decide) hc
  rw [Nat.repr_eq_ofList_toDigits, String.toList_ofList]
  refine ⟨?_, fun c hc => ?_⟩
  · rw [digitsFrom_eq_foldl digits, Nat.ofDigitChars_ten_toDigits]
  · rw [isDigit, digit?_of_isDigit (digits c hc)]
    rfl

/-- Zeros in front do not matter. -/
theorem Writes.zeros {ds : List Char} {n : Nat} (h : Writes ds n) (k : Nat) :
    Writes (List.replicate k '0' ++ ds) n where
  value := by
    induction k with
    | zero => exact h.value
    | succ k ih => exact ih
  digits := by
    intro c hc
    rcases List.mem_append.1 hc with hc | hc
    · rw [(List.mem_replicate.1 hc).2]
      rfl
    · exact h.digits c hc

theorem writes_atLeast (width n : Nat) : Writes (atLeast width n) n :=
  (writes_repr n).zeros _

theorem atLeast_ne_nil (width n : Nat) : atLeast width n ≠ [] := by
  simp [atLeast]

/-! ### Readers -/

/-- What stands behind a run of digits is no digit. -/
def Stops (rest : List Char) : Prop := ∀ c ∈ rest.head?, isDigit c = false

theorem takeWhile_digits {ds rest : List Char} (digits : ∀ c ∈ ds, isDigit c) (stops : Stops rest) :
    (ds ++ rest).takeWhile (fun c => isDigit c) = ds := by
  rw [List.takeWhile_append_of_pos digits]
  cases rest with
  | nil => simp
  | cons c rest =>
    rw [List.takeWhile_cons_of_neg (by simp [stops c rfl]), List.append_nil]

theorem trimStart_of_isDigit {c : Char} (h : isDigit c) (cs : List Char) :
    trimStart (c :: cs) = c :: cs := by
  simp [trimStart, isBlank_of_isDigit h]

end Text

namespace Instant

open Text

/-- Digits are taken up to the width, or up to what is no digit. -/
theorem takeNumber?_append {width n : Nat} {ds rest : List Char} (h : Writes ds n)
    (nonempty : ds ≠ []) (short : ds.length ≤ width) (stops : ds.length = width ∨ Stops rest) :
    takeNumber? width (ds ++ rest) = some (n, rest) := by
  have taken : ((ds ++ rest).take width).takeWhile (fun c => (digit? c).isSome) = ds := by
    rcases stops with full | stops
    · rw [List.take_left' full]
      have whole : Stops [] := fun _ h => by cases h
      simpa using takeWhile_digits h.digits whole
    · rw [List.take_append, List.take_of_length_le short]
      refine takeWhile_digits h.digits fun c hc => ?_
      cases rest with
      | nil => simp at hc
      | cons d rest =>
        cases hw : width - ds.length with
        | zero => simp [hw] at hc
        | succ k =>
          rw [hw, List.take_succ_cons] at hc
          exact stops c hc
  simp only [takeNumber?, taken, h.digits? nonempty, Option.map_some, List.drop_left']

/-- A number of fixed width is read whole, whatever stands behind it. -/
theorem field?_padded {width n : Nat} (wide : 0 < width) (h : n < tenTo width) (rest : List Char) :
    field? width (padded width n ++ rest) = some (n, rest) := by
  have written := writes_padded h
  have length := length_padded width n
  cases ds : padded width n with
  | nil =>
    rw [ds] at length
    exact absurd length (Nat.ne_of_lt wide)
  | cons d others =>
    rw [ds] at written length
    have first : isDigit d := written.digits d List.mem_cons_self
    rw [field?, List.cons_append, trimStart_of_isDigit first, ← List.cons_append]
    exact takeNumber?_append written (by simp) (Nat.le_of_eq length) (.inl length)

end Instant

end Bureau
