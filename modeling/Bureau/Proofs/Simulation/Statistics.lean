import Bureau.Simulation.Statistics
import Mathlib.Algebra.Order.BigOperators.Group.List
import Mathlib.Algebra.Order.Ring.Nat
import Mathlib.Data.List.Infix
import Mathlib.Data.List.Sort

/-!
# What the statistics tell

`Statistics.ofAttempts` counts attempts one after the other. Each of them is counted under one
heading, by the code of its error, and the samples are the latest latencies in their order
(`Statistics.Tells`). A percentile is one of the samples: at least the share asked for does not
exceed it, and at most this share lies below it (`Statistics.accounts_for_attempts`). The average is
the mean of the samples, rounded down, as long as their sum is a word, and there is none otherwise
(`Statistics.average_is_mean_iff`).
-/

namespace Bureau

/-- How an attempt of a simulated client ended. -/
inductive Attempt where
  | settled (latency : Nat)
  | failed (error : DeskError)

namespace Attempt

/-- How long the settlement took when the attempt settled. -/
def latency? : Attempt → Option Nat
  | settled latency => some latency
  | failed _ => none

/-- The code that the client saw when the attempt failed. -/
def code? : Attempt → Option String
  | settled _ => none
  | failed error => some error.code

end Attempt

namespace Statistics

/-! ### Counting attempts -/

/-- Counts an attempt. -/
def add (s : Statistics) : Attempt → Statistics
  | .settled latency => s.addSettled latency
  | .failed error => s.addError error

/-- The statistics of some attempts, in their order. -/
def ofAttempts (attempts : List Attempt) : Statistics := attempts.foldl add {}

/-- How long each of the settlements took. -/
def latencies (attempts : List Attempt) : List Nat := attempts.filterMap Attempt.latency?

/-- The codes with which the other attempts failed. -/
def codes (attempts : List Attempt) : List String := attempts.filterMap Attempt.code?

/-- The statistics count these attempts. -/
structure Tells (s : Statistics) (attempts : List Attempt) : Prop where
  total : s.total = attempts.length
  parts : s.total = s.settled + s.missed + s.refused + s.retryable + s.failed
  settled : s.settled = (latencies attempts).length
  missed : s.missed = (codes attempts).count "NOT_FOUND_OR_EXPIRED"
  refused : s.refused = (codes attempts).count "INSUFFICIENT_FUNDS"
  retryable : s.retryable = (codes attempts).count "RETRY"
  failed : s.failed = (codes attempts).count "VALIDATION" + (codes attempts).count "ACCOUNT_EXISTS"
  latest : s.samples.toList <:+ latencies attempts
  size : s.samples.size = min s.settled window

section Slide

variable {samples : Array Nat}

/-- The oldest sample goes first. -/
theorem slide_suffix {all : List Nat} (h : samples.toList <:+ all) (latency : Nat) :
    (slide samples latency).toList <:+ all ++ [latency] := by
  unfold slide
  split
  · rw [Array.toList_push]
    exact List.suffix_append_self_iff.2 h
  · have kept : (samples.extract 1 samples.size).toList = samples.toList.drop 1 := by simp
    rw [Array.toList_push, kept]
    exact List.suffix_append_self_iff.2 ((List.drop_suffix 1 _).trans h)

theorem size_slide {settled : Nat} (h : samples.size = min settled window) (latency : Nat) :
    (slide samples latency).size = min (settled + 1) window := by
  have positive : 0 < window := by decide
  unfold slide
  split
  · rw [Array.size_push]
    omega
  · rw [Array.size_push, Array.size_extract]
    omega

end Slide

theorem tells_nothing : ({} : Statistics).Tells [] where
  total := rfl
  parts := rfl
  settled := rfl
  missed := rfl
  refused := rfl
  retryable := rfl
  failed := rfl
  latest := List.suffix_rfl
  size := rfl

/-- An error is counted under the heading of its code. -/
theorem addError_eq (s : Statistics) (e : DeskError) :
    s.addError e = { s with
      total := s.total + 1
      missed := s.missed + [e.code].count "NOT_FOUND_OR_EXPIRED"
      refused := s.refused + [e.code].count "INSUFFICIENT_FUNDS"
      retryable := s.retryable + [e.code].count "RETRY"
      failed := s.failed + ([e.code].count "VALIDATION" + [e.code].count "ACCOUNT_EXISTS") } := by
  cases e <;> rfl

/-- There is no other code. -/
theorem count_code (e : DeskError) :
    [e.code].count "NOT_FOUND_OR_EXPIRED" + [e.code].count "INSUFFICIENT_FUNDS" +
      [e.code].count "RETRY" +
      ([e.code].count "VALIDATION" + [e.code].count "ACCOUNT_EXISTS") = 1 := by
  cases e <;> rfl

section Tells

variable {s : Statistics} {attempts : List Attempt}

theorem Tells.addSettled (h : s.Tells attempts) (latency : Nat) :
    (s.addSettled latency).Tells (attempts ++ [.settled latency]) := by
  have more : latencies (attempts ++ [.settled latency]) = latencies attempts ++ [latency] :=
    List.filterMap_append
  have same : codes (attempts ++ [.settled latency]) = codes attempts := by
    simp [codes, Attempt.code?]
  have parts := h.parts
  constructor
  all_goals
    simp only [Statistics.addSettled, List.length_append, List.length_singleton, more, same]
  · rw [h.total]
  · omega
  · rw [h.settled]
  · exact h.missed
  · exact h.refused
  · exact h.retryable
  · exact h.failed
  · exact slide_suffix h.latest latency
  · exact size_slide h.size latency

theorem Tells.addError (h : s.Tells attempts) (e : DeskError) :
    (s.addError e).Tells (attempts ++ [.failed e]) := by
  have same : latencies (attempts ++ [.failed e]) = latencies attempts := by
    simp [latencies, Attempt.latency?]
  have more : codes (attempts ++ [.failed e]) = codes attempts ++ [e.code] :=
    List.filterMap_append
  have parts := h.parts
  have one := count_code e
  rw [addError_eq]
  constructor
  all_goals
    simp only [List.length_append, List.length_singleton, List.count_append, more, same]
  · rw [h.total]
  · omega
  · exact h.settled
  · rw [h.missed]
  · rw [h.refused]
  · rw [h.retryable]
  · have := h.failed
    omega
  · exact h.latest
  · exact h.size

theorem Tells.add (h : s.Tells attempts) (attempt : Attempt) :
    (s.add attempt).Tells (attempts ++ [attempt]) := by
  cases attempt with
  | settled latency => exact h.addSettled latency
  | failed error => exact h.addError error

theorem Tells.foldl (h : s.Tells attempts) (more : List Attempt) :
    (more.foldl Statistics.add s).Tells (attempts ++ more) := by
  induction more generalizing s attempts with
  | nil => rwa [List.append_nil]
  | cons attempt more ih =>
    rw [List.foldl_cons, List.append_cons]
    exact ih (h.add attempt)

theorem tells_ofAttempts (attempts : List Attempt) : (ofAttempts attempts).Tells attempts :=
  tells_nothing.foldl attempts

theorem Tells.size_le (h : s.Tells attempts) : s.samples.size ≤ window :=
  h.size.trans_le (Nat.min_le_right _ _)

end Tells

/-! ### Percentiles -/

section Sorted

variable {before after : List Nat} {x : Nat} (sorted : (before ++ x :: after).Pairwise (· ≤ ·))
include sorted

/-- In a sorted list an item and those before it do not exceed it. -/
theorem length_lt_countP_le : before.length < (before ++ x :: after).countP (· ≤ x) := by
  have below : ∀ y ∈ before, decide (y ≤ x) = true := fun y hy =>
    decide_eq_true ((List.pairwise_append.1 sorted).2.2 y hy x List.mem_cons_self)
  have own : 0 < (x :: after).countP (· ≤ x) :=
    List.countP_pos_iff.2 ⟨x, List.mem_cons_self, decide_eq_true le_rfl⟩
  rw [List.countP_append, List.countP_eq_length.2 below]
  omega

/-- Only items before it are less. -/
theorem countP_lt_le_length : (before ++ x :: after).countP (· < x) ≤ before.length := by
  have above : ∀ y ∈ x :: after, ¬decide (y < x) = true := by
    intro y hy
    rw [decide_eq_true_iff, Nat.not_lt]
    rcases List.mem_cons.1 hy with rfl | hy
    · exact le_rfl
    · exact List.rel_of_pairwise_cons (List.pairwise_append.1 sorted).2.1 hy
  rw [List.countP_append, List.countP_eq_zero.2 above]
  exact List.countP_le_length

end Sorted

section Percentile

variable {s : Statistics} (nonempty : s.samples ≠ #[]) (percent : Nat)
include nonempty

/-- A percentile stands among the sorted samples behind as many as its share of them is, rounded
down, though not behind all. -/
theorem exists_sorted : ∃ before after,
    s.samples.toList.Perm (before ++ s.percentile percent :: after) ∧
      (before ++ s.percentile percent :: after).Pairwise (· ≤ ·) ∧
      before.length = min (s.samples.size * percent / 100) (s.samples.size - 1) := by
  have positive : 0 < s.samples.size := Array.size_pos_iff.2 nonempty
  have perm := List.mergeSort_perm s.samples.toList (· ≤ ·)
  have sorted := List.pairwise_mergeSort' (· ≤ ·) s.samples.toList
  have length := perm.length_eq.trans Array.length_toList
  unfold percentile
  generalize s.samples.toList.mergeSort (· ≤ ·) = all at perm sorted length
  dsimp only
  rw [length]
  -- The list is cut in two at the place, and the item there is the first one of the second part.
  generalize place : min (s.samples.size * percent / 100) (s.samples.size - 1) = i
  have there : i < all.length := by omega
  have split : all.take i ++ all.getD i 0 :: all.drop (i + 1) = all := by
    rw [← List.getElem_eq_getD (h := there), List.getElem_cons_drop, List.take_append_drop]
  refine ⟨all.take i, all.drop (i + 1), ?_, ?_, List.length_take_of_le there.le⟩
  · rw [split]
    exact perm.symm
  · rwa [split]

theorem percentile_mem : s.percentile percent ∈ s.samples := by
  obtain ⟨before, after, perm, -, -⟩ := exists_sorted nonempty percent
  rw [← Array.mem_toList_iff, perm.mem_iff]
  exact List.mem_append_right _ List.mem_cons_self

/-- At least the share that is asked for does not exceed the percentile. -/
theorem share_le_countP_le (share : percent ≤ 100) :
    percent * s.samples.size ≤ 100 * s.samples.toList.countP (· ≤ s.percentile percent) := by
  obtain ⟨before, after, perm, sorted, place⟩ := exists_sorted nonempty percent
  have count := length_lt_countP_le sorted
  rw [← perm.countP_eq, place] at count
  have most : percent * s.samples.size ≤ 100 * s.samples.size := Nat.mul_le_mul_right _ share
  rw [Nat.mul_comm] at most ⊢
  omega

/-- At most this share lies below the percentile. -/
theorem countP_lt_le_share :
    100 * s.samples.toList.countP (· < s.percentile percent) ≤ percent * s.samples.size := by
  obtain ⟨before, after, perm, sorted, place⟩ := exists_sorted nonempty percent
  have count := countP_lt_le_length sorted
  rw [← perm.countP_eq, place] at count
  rw [Nat.mul_comm percent]
  omega

end Percentile

/-- Every attempt is counted under one heading, the samples are the latest latencies in their order,
as many as the window holds, and of these the 99th percentile is one that at least 99 of a hundred
do not exceed and at most 99 of a hundred fall short of. -/
theorem accounts_for_attempts (attempts : List Attempt) :
    let s := ofAttempts attempts
    s.Tells attempts ∧
    (s.samples ≠ #[] →
      s.percentile 99 ∈ s.samples ∧
      99 * s.samples.size ≤ 100 * s.samples.toList.countP (· ≤ s.percentile 99) ∧
      100 * s.samples.toList.countP (· < s.percentile 99) ≤ 99 * s.samples.size) := by
  intro s
  refine ⟨tells_ofAttempts attempts, fun nonempty => ?_⟩
  exact ⟨percentile_mem nonempty 99, share_le_countP_le nonempty 99 (by decide),
    countP_lt_le_share nonempty 99⟩

/-- Three settlements and two failures: all of the three samples are needed for 99 of a hundred. -/
theorem accounts_for_attempts_five :
    let attempts : List Attempt := [.settled 100, .failed .notFoundOrExpired, .settled 200,
      .failed (.transient "cache down"), .settled 150]
    let s := ofAttempts attempts
    s.Tells attempts ∧ s.samples = #[100, 200, 150] ∧ s.percentile 99 ∈ s.samples ∧
      s.samples.toList.countP (· ≤ s.percentile 99) = 3 := by
  intro attempts s
  obtain ⟨tells, percentile⟩ := accounts_for_attempts attempts
  obtain ⟨member, share, -⟩ := percentile (by decide)
  have most : s.samples.toList.countP (· ≤ s.percentile 99) ≤ 3 := List.countP_le_length
  have share : 99 * 3 ≤ 100 * s.samples.toList.countP (· ≤ s.percentile 99) := share
  exact ⟨tells, rfl, member, by omega⟩

/-! ### Averages -/

section Mean

variable {l : List Nat} (nonempty : l ≠ [])
include nonempty

theorem exists_le_mean : ∃ low ∈ l, low ≤ l.sum / l.length := by
  by_contra none
  push Not at none
  have more := l.card_nsmul_le_sum (l.sum / l.length + 1) none
  have less := Nat.lt_mul_div_succ l.sum (List.length_pos_iff.2 nonempty)
  exact absurd more (not_le.2 less)

theorem exists_mean_le : ∃ high ∈ l, l.sum / l.length ≤ high := by
  by_contra none
  push Not at none
  obtain ⟨x, hx⟩ := List.exists_mem_of_ne_nil l nonempty
  have above := none x hx
  have less := l.sum_le_card_nsmul (l.sum / l.length - 1) fun y hy => by
    have := none y hy
    omega
  have more := Nat.mul_div_le l.sum l.length
  have fewer : l.length * (l.sum / l.length - 1) < l.length * (l.sum / l.length) :=
    Nat.mul_lt_mul_of_pos_left (by omega) (List.length_pos_iff.2 nonempty)
  exact absurd (fewer.trans_le more) (not_lt.2 less)

end Mean

/-- The exact mean of the samples, rounded down. -/
def mean (s : Statistics) : Nat := s.samples.toList.sum / s.samples.size

/-- Words are added up exactly when their sum is a word: no part of it is larger. -/
theorem foldlM_addWords {start : Nat} (word : start < twoTo 64) (l : List Nat) :
    l.foldlM addWords start =
      if start + l.sum < twoTo 64 then .ok (start + l.sum) else .error .count := by
  -- On the samples, for every start that is a word, as each sum so far must be one.
  induction l generalizing start with
  | nil => exact (if_pos word).symm
  | cons x l ih =>
    rw [List.foldlM_cons, List.sum_cons, addWords, ← Nat.add_assoc]
    by_cases fits : start + x < twoTo 64
    · rw [if_pos fits]
      exact ih fits
    · rw [if_neg fits, if_neg (by omega)]
      rfl

theorem average_eq (s : Statistics) : s.average =
    if s.samples.toList.sum < twoTo 64 then .ok s.mean else .error .count := by
  rw [average, ← Array.foldlM_toList, foldlM_addWords (by decide), Nat.zero_add]
  split <;> rfl

theorem Tells.sum_lt {s : Statistics} {attempts : List Attempt} (h : s.Tells attempts)
    (short : ∀ latency ∈ latencies attempts, latency ≤ (twoTo 64 - 1) / window) :
    s.samples.toList.sum < twoTo 64 := by
  have sum := s.samples.toList.sum_le_card_nsmul _ fun latency there =>
    short latency (h.latest.subset there)
  have most : s.samples.toList.length * ((twoTo 64 - 1) / window) ≤
      window * ((twoTo 64 - 1) / window) := Nat.mul_le_mul_right _ h.size_le
  have room : window * ((twoTo 64 - 1) / window) < twoTo 64 := by decide
  exact (sum.trans most).trans_lt room

/-- The average is the mean of the samples, rounded down, exactly when their sum is a word;
otherwise there is none. The mean lies between the smallest and the largest sample. The sum is a
word as long as no settlement takes the ten thousandth part of the largest one. -/
theorem average_is_mean_iff (attempts : List Attempt) :
    let s := ofAttempts attempts
    (s.average = .ok s.mean ↔ s.samples.toList.sum < twoTo 64) ∧
    (s.average = .error .count ↔ twoTo 64 ≤ s.samples.toList.sum) ∧
    (s.samples ≠ #[] → (∃ low ∈ s.samples, low ≤ s.mean) ∧ ∃ high ∈ s.samples, s.mean ≤ high) ∧
    ((∀ latency ∈ latencies attempts, latency ≤ (twoTo 64 - 1) / window) →
      s.samples.toList.sum < twoTo 64) := by
  intro s
  have tells : s.Tells attempts := tells_ofAttempts attempts
  refine ⟨?_, ?_, fun nonempty => ?_, tells.sum_lt⟩
  · rw [average_eq]
    split
    · exact iff_of_true rfl ‹_›
    · exact iff_of_false nofun ‹_›
  · rw [average_eq, ← not_lt]
    split
    · exact iff_of_false nofun (not_not.2 ‹_›)
    · exact iff_of_true rfl ‹_›
  · have nonempty : s.samples.toList ≠ [] := fun none => nonempty (Array.toList_eq_nil_iff.1 none)
    simp only [← Array.mem_toList_iff]
    exact ⟨exists_le_mean nonempty, exists_mean_le nonempty⟩

/-- Three settlements and a failure. -/
theorem average_is_mean_iff_three :
    let s := ofAttempts [.settled 100, .settled 200, .failed .notFoundOrExpired, .settled 150]
    s.average = .ok s.mean ∧ (∃ low ∈ s.samples, low ≤ s.mean) ∧
      ∃ high ∈ s.samples, s.mean ≤ high := by
  intro s
  obtain ⟨exact, -, between, fits⟩ := average_is_mean_iff
    [.settled 100, .settled 200, .failed .notFoundOrExpired, .settled 150]
  exact ⟨exact.2 (fits (by decide)), between (by decide)⟩

/-- Two settlements that took as long as can be told: their mean is a word, but their sum is not. -/
theorem average_overflows :
    let longest := twoTo 64 - 1
    let s := ofAttempts [.settled longest, .settled longest]
    s.samples = #[longest, longest] ∧ s.mean = longest ∧ s.average = .error .count := by
  intro longest s
  refine ⟨rfl, by decide, ?_⟩
  rw [average_eq, if_neg (by decide)]

end Statistics

end Bureau
