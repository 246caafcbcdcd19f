import Bureau.Desk.Counters
import Bureau.Ledger.Posting
import Bureau.Market.RateTable
import Bureau.Offer.Cache
import Bureau.Token

/-!
# The world of the desk

The desk works in a world that it shares with others: two clocks, a source of random bits, the
table of rates, the cache of offers, the ledger and the counters. Mishaps wait in the world for
the calls that they will befall. An operation takes time, and a deadline may cut it off; what it
has done until then stays done. So it does when the operation crashes over a sum that does not fit.
-/

namespace Bureau

/-- What befalls a call: it is delayed, and may then fail. -/
structure Mishap (ε : Type) where
  /-- Nanoseconds. -/
  delay : Nat := 0
  error : Option ε := none

/-- The mishaps that wait for calls, in the order in which they will befall them. -/
structure Mishaps where
  /-- For quotes; a rate and an amount answer in place of the table. -/
  quotes : List (Mishap MarketError × Option (Decimal × Decimal)) := []
  puts : List (Mishap MarketError) := []
  takes : List (Mishap MarketError) := []
  ledger : List (LedgerCall × Mishap LedgerError) := []

namespace Mishaps

/-- One more mishap of a request for a quote, with the answer that replaces the true one. -/
def addQuote (m : Mishaps) (mishap : Mishap MarketError) (answer : Option (Decimal × Decimal)) :
    Mishaps :=
  { m with quotes := m.quotes ++ [(mishap, answer)] }

/-- One more mishap of an attempt to cache an offer. -/
def addPut (m : Mishaps) (mishap : Mishap MarketError) : Mishaps :=
  { m with puts := m.puts ++ [mishap] }

/-- One more mishap of an attempt to take an offer. -/
def addTake (m : Mishaps) (mishap : Mishap MarketError) : Mishaps :=
  { m with takes := m.takes ++ [mishap] }

/-- One more mishap of a call of the ledger. -/
def addLedger (m : Mishaps) (call : LedgerCall) (mishap : Mishap LedgerError) : Mishaps :=
  { m with ledger := m.ledger ++ [(call, mishap)] }

end Mishaps

/-- What the desk works in. -/
structure World where
  /-- Nanoseconds on the clock by which waits, deadlines and the cache go. -/
  clock : Nat := 0
  /-- The time of day, by which offers expire and rows are dated. -/
  now : Instant
  /-- The source of random bits, and how often it has been used. -/
  random : Nat → BitVec 128
  drawn : Nat := 0
  rates : RateTable
  cache : OfferCache := {}
  ledger : Ledger := {}
  /-- Nanoseconds that a transaction waits for the lock of a row. -/
  lockWait : Nat
  counters : Counters := {}
  mishaps : Mishaps := {}
  /-- The sum over which an operation crashed last. -/
  lastCrash : Option SumOverflow := none

/-- An operation in the world. It may have a deadline; without a result it has been cut off or has
crashed. -/
def Timed (α : Type) : Type :=
  Option Nat → World → Option α × World

namespace Timed

instance : Monad Timed where
  pure a := fun _ w => (some a, w)
  bind x f := fun deadline w =>
    match x deadline w with
    | (some a, w) => f a deadline w
    | (none, w) => (none, w)

/-- Runs an operation that has no deadline. -/
def run {α : Type} (x : Timed α) (w : World) : Option α × World := x none w

/-- Looks at the world. -/
def read {α : Type} (f : World → α) : Timed α := fun _ w => (some (f w), w)

/-- Changes the world at once. -/
def act {α : Type} (f : World → α × World) : Timed α := fun _ w =>
  let (a, w) := f w
  (some a, w)

/-- Lets some nanoseconds pass. A wait that ends with the deadline is not cut off. -/
def wait (span : Nat) : Timed Unit := fun deadline w =>
  let stop := w.clock + span
  match deadline with
  | none => (some (), { w with clock := stop })
  | some d =>
    if stop ≤ d then (some (), { w with clock := stop })
    else (none, { w with clock := max w.clock d })

/-- Breaks off for good; the world remembers over what. Nothing that has a span of its own crashes,
so a crash is not taken for the end of one. -/
def crash {α : Type} (overflow : SumOverflow) : Timed α := fun _ w =>
  (none, { w with lastCrash := some overflow })

/-- Gives an operation some nanoseconds; it has no result when it would take longer. -/
def within {α : Type} (span : Nat) (x : Timed α) : Timed (Option α) := fun deadline w =>
  let own := w.clock + span
  match deadline with
  | some d => if d < own then
      match x (some d) w with
      | (some a, w) => (some (some a), w)
      | (none, w) => (none, w)
    else
      let (result, w) := x (some own) w
      (some result, w)
  | none =>
    let (result, w) := x (some own) w
    (some result, w)

/-- Changes the world when the operation is cut off. -/
def onCut {α : Type} (cleanUp : World → World) (x : Timed α) : Timed α := fun deadline w =>
  match x deadline w with
  | (some a, w) => (some a, w)
  | (none, w) => (none, cleanUp w)

/-- Runs operations side by side: all start now, in their order, and the last to end ends all. -/
def together {α : Type} : List (Timed α) → Timed (List α)
  | [] => pure []
  | x :: rest => do
    let start ← read (·.clock)
    let a ← x
    let stop ← read (·.clock)
    act fun w => ((), { w with clock := start })
    let as ← together rest
    act fun w => ((), { w with clock := max stop w.clock })
    return a :: as

/-- Runs an operation and tells how many nanoseconds it took. -/
def timing {α : Type} (x : Timed α) : Timed (α × Nat) := do
  let start ← read (·.clock)
  let a ← x
  let stop ← read (·.clock)
  return (a, stop - start)

/-- Counts an event. -/
def count (event : Countable) : Timed Unit :=
  act fun w => ((), { w with counters := w.counters.add event })

/-- Draws random bits. -/
def draw : Timed (BitVec 128) :=
  act fun w => (w.random w.drawn, { w with drawn := w.drawn + 1 })

/-- A random identifier. -/
def freshUuid : Timed Uuid := do
  return Uuid.ofRandom (← draw)

/-- A nonce for a token. -/
def freshNonce : Timed Bytes := do
  return Bytes.ofNat Gcm.nonceLength (← draw).toNat

end Timed

end Bureau
