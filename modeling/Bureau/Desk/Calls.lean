import Bureau.Desk.World

/-!
# Calls

The calls that the desk makes to the market, the cache and the ledger. A mishap is used up as soon
as its call begins, also when the call is then cut off.
-/

namespace Bureau

namespace Timed

/-- Lives through a mishap, if there is one: first its delay, then its error. -/
def suffer {ε : Type} (pop : World → Option (Mishap ε) × World) : Timed (Option ε) := do
  match ← act pop with
  | none => return none
  | some mishap =>
    wait mishap.delay
    return mishap.error

end Timed

namespace Market

open Timed

/-- The mishap of the next request for a quote, if one is due, which is then done with. -/
def popQuote (w : World) : Option (Mishap MarketError × Option (Decimal × Decimal)) × World :=
  match w.mishaps.quotes with
  | [] => (none, w)
  | first :: rest => (some first, { w with mishaps.quotes := rest })

/-- The work of the table itself: it refuses at once what it does not support, and is then as slow
as it is. -/
def tableQuote (conversion : RateTable.Conversion) (pair : CurrencyPair) (amount : Decimal) :
    Timed (Except MarketError Quote) := do
  if !conversion.supports pair then
    return .error (.unsupportedConversion pair.base pair.quote)
  else
    wait (← read (·.rates.latency))
    read fun w => w.rates.quote w.now pair amount

/-- Keeps a rate for a pair. -/
def setRate (pair : CurrencyPair) (rate : Decimal) : Timed Unit :=
  act fun w => ((), { w with rates := w.rates.setRate pair rate })

/-- Switches the table on or off. -/
def setAvailable (available : Bool) : Timed Unit :=
  act fun w => ((), { w with rates.available := available })

/-- Lets the table be slow by some nanoseconds. -/
def setLatency (latency : Nat) : Timed Unit :=
  act fun w => ((), { w with rates.latency := latency })

/-- Asks for a quote. -/
def quote (conversion : RateTable.Conversion) (pair : CurrencyPair) (amount : Decimal) :
    Timed (Except MarketError Quote) := do
  match ← act popQuote with
  | none => tableQuote conversion pair amount
  | some (mishap, answer) =>
    wait mishap.delay
    match mishap.error, answer with
    | some e, _ => return .error e
    | none, some (rate, converted) =>
      read fun w => .ok ⟨pair, rate, amount, converted, w.now⟩
    | none, none => tableQuote conversion pair amount

end Market

namespace OfferCache

open Timed

/-- The mishap of the next attempt to cache an offer. -/
def popPut (w : World) : Option (Mishap MarketError) × World :=
  match w.mishaps.puts with
  | [] => (none, w)
  | first :: rest => (some first, { w with mishaps.puts := rest })

/-- The mishap of the next attempt to take an offer from the cache. -/
def popTake (w : World) : Option (Mishap MarketError) × World :=
  match w.mishaps.takes with
  | [] => (none, w)
  | first :: rest => (some first, { w with mishaps.takes := rest })

/-- Switches the cache on or off. -/
def setAvailable (available : Bool) : Timed Unit :=
  act fun w => ((), { w with cache.available := available })

/-- Lets the cache be slow by some nanoseconds. -/
def setLatency (latency : Nat) : Timed Unit :=
  act fun w => ((), { w with cache.latency := latency })

/-- Drops every entry that has expired. -/
def sweep : Timed Unit :=
  act fun w => ((), { w with cache := w.cache.evictExpired w.clock })

/-- Stores an offer for some nanoseconds. -/
def callPut (key : String) (offer : Offer) (lifetime : Nat) : Timed (Except MarketError Unit) := do
  match ← suffer popPut with
  | some e => return .error e
  | none =>
    wait (← read (·.cache.latency))
    act fun w =>
      let (result, cache) := w.cache.put w.clock key offer lifetime
      (result, { w with cache })

/-- Takes the offer under a key. -/
def callTake (key : String) : Timed (Except MarketError (Option Offer)) := do
  match ← suffer popTake with
  | some e => return .error e
  | none =>
    wait (← read (·.cache.latency))
    act fun w =>
      let (result, cache) := w.cache.take w.clock key
      (result, { w with cache })

end OfferCache

namespace Ledger

open Timed

/-- The first mishap that waits for a call. -/
def popFor (call : LedgerCall) :
    List (LedgerCall × Mishap LedgerError) →
      Option (Mishap LedgerError) × List (LedgerCall × Mishap LedgerError)
  | [] => (none, [])
  | (c, mishap) :: rest =>
    if c = call then (some mishap, rest)
    else
      let (found, left) := popFor call rest
      (found, (c, mishap) :: left)

/-- The first mishap that waits for a call of the ledger. -/
def pop (call : LedgerCall) (w : World) : Option (Mishap LedgerError) × World :=
  let (found, left) := popFor call w.mishaps.ledger
  (found, { w with mishaps.ledger := left })

/-- Asks the ledger for some work. -/
def call {α : Type} (name : LedgerCall) (work : World → Except LedgerError α × Ledger) :
    Timed (Except LedgerError α) := do
  match ← suffer (pop name) with
  | some e => return .error e
  | none =>
    act fun w =>
      let (result, ledger) := work w
      (result, { w with ledger })

/-- Asks the ledger for what it holds. -/
def query {α : Type} (name : LedgerCall) (f : Ledger → α) : Timed (Except LedgerError α) :=
  call name fun w => (.ok (f w.ledger), w.ledger)

/-- Asks the ledger for some work that leaves it as it is when it fails. -/
def attempt {α : Type} (name : LedgerCall) (work : Ledger → Except LedgerError (α × Ledger)) :
    Timed (Except LedgerError α) :=
  call name fun w =>
    match work w.ledger with
    | .ok (a, ledger) => (.ok a, ledger)
    | .error e => (.error e, w.ledger)

/-- Opens an empty account. -/
def callCreateAccount (key : AccountKey) : Timed (Except LedgerError Account) :=
  call .createAccount fun w => w.ledger.createAccount key w.now

/-- Opens a transaction and gives its number. -/
def callBegin : Timed (Except LedgerError Nat) :=
  attempt .begin fun l => .ok l.begin

/-- Writes the changed balance to the transaction's copy of the account. -/
def callUpdate (number : Nat) (change : BalanceChange) (moment : Instant) :
    Timed (Except LedgerError Account) :=
  attempt .update fun l => l.update number change moment

/-- Adds rows to those that the transaction will post. -/
def callInsert (number : Nat) (entries : List JournalEntry) : Timed (Except LedgerError Unit) :=
  attempt .insert fun l => (l.insert number entries).map (((), ·))

/-- Makes everything visible that the transaction holds, and ends it. -/
def callCommit (number : Nat) : Timed (Except LedgerError Unit) :=
  attempt .commit fun l => (l.commit number).map (((), ·))

/-- Ends the transaction without a trace. -/
def callRollback (number : Nat) : Timed (Except LedgerError Unit) :=
  attempt .rollback fun l => (l.rollback number).map (((), ·))

/-- Drops a transaction; this is no call, and nothing befalls it. -/
def dropTransaction (number : Nat) : Timed Unit :=
  act fun w => ((), { w with ledger := w.ledger.drop number })

/-- Asks for the lock of a row in a transaction, for as long as the ledger waits. -/
def callLock (number : Nat) (key : AccountKey) : Timed (Except LedgerError Account) := do
  match ← suffer (pop .lock) with
  | some e => return .error e
  | none =>
    match ← read fun w => w.ledger.lock number key with
    | .refused e => return .error e
    | .granted account ledger => act fun w => (.ok account, { w with ledger })
    | .busy =>
      wait (← read (·.lockWait))
      return .error (.lockTimeout key)

end Ledger

namespace Posting

open Timed

/-- Drops the transaction of a posting that has been cut off. -/
def release (p : Posting) (w : World) : World := { w with ledger := p.cutOff w.ledger }

/-- A posting after its step has failed. -/
def failIn (p : Posting) (error : LedgerError) : Timed Posting :=
  act fun w =>
    let (p, ledger) := p.fail w.ledger error
    (p, { w with ledger })

/-- One step of a posting: what befalls the call, and then the step itself, which gives up when it
has waited long enough for a lock. -/
def advance (p : Posting) (name : LedgerCall) : Timed Posting := do
  match ← suffer (Ledger.pop name) with
  | some e => p.failIn e
  | none =>
    match ← read fun w => p.step w.ledger with
    | .went p ledger => act fun w => (p, { w with ledger })
    | .waits key =>
      wait (← read (·.lockWait))
      p.failIn (.lockTimeout key)

/-- Takes the steps that are left. -/
def drive : Nat → Posting → Timed Posting
  | 0, p => pure p
  | steps + 1, p =>
    match p.call? with
    | none => pure p
    | some name => do
      let p ← onCut p.release (p.advance name)
      drive steps p

/-- Posts a batch within some nanoseconds. -/
def post (deadline : Nat) (batch : JournalBatch) : Timed (Except LedgerError Posted) := do
  match Posting.ofBatch batch with
  | .error e => return .error e
  | .ok p =>
    match ← within deadline (drive p.remaining p) with
    | none => return .error .timeout
    | some p =>
      match p.result? with
      | some (.ok changes) =>
        return .ok { txId := batch.txId, kind := batch.kind, entries := batch.entries, changes }
      | some (.error e) => return .error e
      | none => return .error .timeout

end Posting

end Bureau
