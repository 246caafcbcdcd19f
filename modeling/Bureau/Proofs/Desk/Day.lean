import Bureau.Proofs.Desk.Accounts
import Bureau.Proofs.Desk.Settlement

/-!
# A day at the desk

`Errand` is anything that a client can ask of the desk, `Incident` anything that can happen around
it: rates and clocks are set, collaborators fail, are slow or come back. `Day.serve` is the day
after an errand and `Day.next` the day after either.
-/

namespace Bureau

open Timed World

/-- What a client asks of the desk. -/
inductive Errand where
  | openAccount (client : ClientId) (currency : Currency)
  | deposit (client : ClientId) (currency : Currency) (amount : Decimal)
  | createOffer (request : OfferRequest)
  | redeem (client : ClientId) (token : String)
  | balance (client : ClientId) (currency : Currency)
  | transaction (client : ClientId) (txId : TxId)
  | listAccounts (client : ClientId) (cursor : Option String) (asked : Int)
  | listJournal (client : ClientId) (currency : Currency) (query : JournalQuery) (asked : Int)
  | verify (txId : TxId)

/-- What happens around the desk. -/
inductive Incident where
  | rate (pair : CurrencyPair) (rate : Decimal)
  | market (available : Bool)
  | marketLatency (nanos : Nat)
  | cache (available : Bool)
  | cacheLatency (nanos : Nat)
  | sweep
  /-- The clock by which waits and the cache go shows so many nanoseconds. -/
  | clock (nanos : Nat)
  /-- It is this time of day. -/
  | now (moment : Instant)
  /-- Something will befall a call. -/
  | quote (mishap : Mishap MarketError)
  | put (mishap : Mishap MarketError)
  | take (mishap : Mishap MarketError)
  | ledger (call : LedgerCall) (mishap : Mishap LedgerError)

/-- The world after an incident. -/
def Incident.change (w : World) : Incident → World
  | .rate pair price => ((Market.setRate pair price).run w).2
  | .market available => ((Market.setAvailable available).run w).2
  | .marketLatency nanos => ((Market.setLatency nanos).run w).2
  | .cache available => ((OfferCache.setAvailable available).run w).2
  | .cacheLatency nanos => ((OfferCache.setLatency nanos).run w).2
  | .sweep => (OfferCache.sweep.run w).2
  | .clock nanos => { w with clock := nanos }
  | .now moment => { w with now := moment }
  | .quote mishap => { w with mishaps := w.mishaps.addQuote mishap none }
  | .put mishap => { w with mishaps := w.mishaps.addPut mishap }
  | .take mishap => { w with mishaps := w.mishaps.addTake mishap }
  | .ledger call mishap => { w with mishaps := w.mishaps.addLedger call mishap }

namespace Incident

variable (w : World)

/-- No incident touches the ledger. -/
theorem ledger_change (i : Incident) : (i.change w).ledger = w.ledger := by
  cases i <;> rfl

/-- No incident brings an entry into the cache. -/
theorem sublist_change (i : Incident) : (i.change w).cache.entries.Sublist w.cache.entries := by
  cases i with
  | sweep => exact OfferCache.sublist_evictExpired _ _
  | _ => exact List.Sublist.refl _

/-- No incident answers in place of the table of rates. -/
theorem noAnswers_change (i : Incident) (h : Market.NoAnswers w) :
    Market.NoAnswers (i.change w) := by
  cases i with
  | quote mishap =>
    intro q hq
    rcases List.mem_append.1 hq with hq | hq
    · exact h q hq
    · rw [List.mem_singleton.1 hq]
  | _ => exact h

end Incident

/-- What happens on a day: a client asks for something and may give up waiting at some moment, or
something happens around the desk. -/
inductive Event where
  | errand (deadline : Option Nat) (errand : Errand)
  | incident (incident : Incident)

/-- The world, and the amounts that clients have got a receipt for when they paid them in. -/
structure Day where
  world : World
  deposits : List Decimal := []

namespace Day

/-- The day after an operation. -/
def act {α : Type} (day : Day) (deadline : Option Nat) (x : Timed α) : Day :=
  { day with world := (x deadline day.world).2 }

/-- The day after an errand. -/
def serve (d : Desk) (day : Day) (deadline : Option Nat) : Errand → Day
  | .openAccount client currency => day.act deadline (d.openAccount client currency)
  | .deposit client currency amount =>
    match d.deposit client currency amount deadline day.world with
    | (some (.ok _), world) => { world, deposits := day.deposits ++ [amount] }
    | (_, world) => { day with world }
  | .createOffer request => day.act deadline (d.createOffer request)
  | .redeem client token => day.act deadline (d.redeem client token)
  | .balance client currency => day.act deadline (d.balance client currency)
  | .transaction client txId => day.act deadline (d.transaction client txId)
  | .listAccounts client cursor asked => day.act deadline (d.listAccounts client cursor asked)
  | .listJournal client currency query asked =>
    day.act deadline (d.listJournal client currency query asked)
  | .verify txId => day.act deadline (Desk.verify txId)

/-- The day after an event. -/
def next (d : Desk) (day : Day) : Event → Day
  | .errand deadline errand => day.serve d deadline errand
  | .incident incident => { day with world := incident.change day.world }

end Day

/-! ### A simple desk -/

/-- A desk with the settings as they come, whose tokens are sealed under the zero key. -/
def Desk.simple : Desk := { settings := {}, codec := ⟨⟨List.replicate 32 0, by decide⟩⟩ }

/-- A world in which nothing has happened and one rate is kept. -/
def World.simple : World :=
  { now := default
    random := BitVec.ofNat 128
    rates := { name := "table", rates := [(⟨Currency.usd, Currency.eur⟩, .hundredths 90)] }
    lockWait := 5000000000 }

/-- A request for the currency that has a rate. -/
def OfferRequest.simple : OfferRequest :=
  ⟨default, Currency.usd, Currency.eur, .hundredths 2500, false, false⟩

/-- The token of the first offer that the simple desk makes after a deposit. -/
def Desk.simpleToken : String := "AAAAAAAAAAAAAAACvyw2M_n7tQphCJLWh1e5Yx7-07HJx1BXv_3Q2WYe8FTt"

end Bureau
