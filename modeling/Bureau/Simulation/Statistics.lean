import Bureau.Desk.Error

/-!
# Statistics

How the attempts of simulated clients have ended, and how long the latest settlements took. The
counts have no bound. A latency is cut to the largest word, and the sum of the latencies must be a
word.
-/

namespace Bureau

/-- How many attempts have ended in each way, and how long the latest settlements took. -/
structure Statistics where
  /-- Attempts, however they ended. -/
  total : Nat := 0
  settled : Nat := 0
  /-- Redemptions that found no live offer. -/
  missed : Nat := 0
  /-- Requests refused for want of funds or of an account. -/
  refused : Nat := 0
  /-- Failures that may pass with time. -/
  retryable : Nat := 0
  /-- All other failures. -/
  failed : Nat := 0
  /-- Milliseconds that the latest settlements took, in their order. -/
  samples : Array Nat := #[]

namespace Statistics

/-- Number of settlements whose latency is kept. -/
def window : Nat := 10000

/-- Whole milliseconds of some nanoseconds; the largest number of 64 bits where they are more. -/
def milliseconds (nanos : Nat) : Nat := min (nanos / 1000000) (twoTo 64 - 1)

/-- The samples with one more; the oldest makes room when the window is full. -/
def slide (samples : Array Nat) (latency : Nat) : Array Nat :=
  if samples.size < window then samples.push latency
  else (samples.extract 1 samples.size).push latency

/-- Counts a settlement. -/
def addSettled (s : Statistics) (latency : Nat) : Statistics :=
  { s with
    total := s.total + 1
    settled := s.settled + 1
    samples := slide s.samples latency }

/-- Counts an attempt that ended in an error. -/
def addError (s : Statistics) (e : DeskError) : Statistics :=
  let s := { s with total := s.total + 1 }
  match e with
  | .notFoundOrExpired => { s with missed := s.missed + 1 }
  | .insufficientFundsOrMissingAccount _ => { s with refused := s.refused + 1 }
  | e =>
    if e.isRetryable then { s with retryable := s.retryable + 1 }
    else { s with failed := s.failed + 1 }

/-- Average latency of the window, from a sum that is a word; zero when nothing has settled. -/
def average (s : Statistics) : Except SumOverflow Nat :=
  (s.samples.foldlM addWords 0).map (· / s.samples.size)

/-- The latency that so many percent of the window do not exceed; zero when nothing has settled. -/
def percentile (s : Statistics) (percent : Nat) : Nat :=
  let sorted := s.samples.toList.mergeSort
  sorted.getD (min (sorted.length * percent / 100) (sorted.length - 1)) 0

/-- Share of the attempts that settled. -/
def successRate (s : Statistics) : Float :=
  if s.total = 0 then 0.0 else Float.ofNat s.settled / Float.ofNat s.total

end Statistics

end Bureau
