import Bureau.Desk.Listing
import Bureau.Desk.Offers
import Bureau.Simulation.Client
import Bureau.Simulation.Scenario
import Bureau.Simulation.Statistics

/-!
# Simulations

A simulation brings clients to a desk and lets them act out scenarios, or trade at random. It
breaks off at the first step that does not end as the scenario asks; what was done until then
stays done and counted. A failed exchange is counted and does not break it off.
-/

namespace Bureau

/-- A desk with its simulated clients, and what they have done so far. -/
structure Simulation where
  desk : Desk
  /-- How much faster than in the scenario the waits are. -/
  speed : Float
  /-- The source of random choices. -/
  choices : StdGen
  clients : List SimulatedClient := []
  statistics : Statistics := {}
  /-- The transactions posted by steps, in their order. -/
  posted : List TxId := []

namespace Simulation

open Timed
open Scenario (Condition Fault Order Step)

/-- A part of a simulation: it may break off, and what it has done stays. -/
abbrev Play (α : Type) := ExceptT SimulationError (StateT Simulation Timed) α

/-- Asks the desk for something that must not fail. -/
def ask {α : Type} (x : Timed (Except DeskError α)) (blame : DeskError → SimulationError) :
    Play α := do
  match ← x with
  | .ok a => return a
  | .error e => throw (blame e)

/-! ### Reading steps -/

/-- The first client of a name. -/
def findClient (name : String) : Play SimulatedClient := do
  match (← get).clients.find? (·.name == name) with
  | some c => return c
  | none => throw (.unknownClient name)

/-- Reads an amount of a scenario. -/
def readAmount (text : String) : Play Decimal :=
  match Decimal.ofText text with
  | .ok d => return d
  | .error fault => throw (.invalidAmount text fault)

/-- Reads a currency of a scenario. -/
def readCurrency (text : String) : Play Currency :=
  match Currency.ofString? text with
  | some c => return c
  | none => throw (.invalidCurrency text)

/-- The request that an order stands for. -/
def readOrder (client : ClientId) (o : Order) : Play OfferRequest := do
  return {
    client
    source := ← readCurrency o.source
    destination := ← readCurrency o.destination
    amount := ← readAmount o.amount
    isPurchase := false
    isSale := false }

/-! ### Single steps -/

/-- Asks the desk for an offer and gives its ticket. -/
def makeOffer (r : OfferRequest) : Play OfferTicket := do
  ask ((← get).desk.createOffer r) (.offer r.source r.destination)

/-- Makes an offer and redeems it. -/
def convert (desk : Desk) (r : OfferRequest) : Timed (Except DeskError Receipt) := do
  match ← desk.createOffer r with
  | .error e => return .error e
  | .ok ticket => desk.redeem r.client ticket.token

/-- Counts how an attempt ended and how many nanoseconds it took. -/
def note (outcome : Except DeskError Receipt) (nanos : Nat) : Play Unit :=
  modify fun s =>
    match outcome with
    | .ok receipt =>
      { s with
        statistics := s.statistics.addSettled (Statistics.milliseconds nanos)
        posted := s.posted ++ [receipt.txId] }
    | .error e => { s with statistics := s.statistics.addError e }

/-- Nanoseconds within which redemptions that are made at once have to end. -/
def batchDeadline : Nat := Desk.ms 30000

/-- Redeems tokens side by side and tells how many were settled. -/
def race (client : ClientId) (tokens : List String) : Play Nat := do
  let desk := (← get).desk
  match ← within batchDeadline (together (tokens.map fun t => timing (desk.redeem client t))) with
  | none => throw .unfinished
  | some outcomes =>
    outcomes.forM fun (outcome, nanos) => note outcome nanos
    return outcomes.countP fun (outcome, _) => outcome.toOption.isSome

/-- Offers in both directions of a pair, in turn. -/
def opposingOffers (client : ClientId) (amount first second : String) : Nat → Play (List String)
  | 0 => return []
  | pairs + 1 => do
    let there ← makeOffer (← readOrder client ⟨"", amount, first, second⟩)
    let back ← makeOffer (← readOrder client ⟨"", amount, second, first⟩)
    return there.token :: back.token :: (← opposingOffers client amount first second pairs)

/-- Lists accounts from a cursor to the end, at most so many pages. -/
def walk (client : ClientId) (size : Int) : Nat → Option String → Play (List Currency)
  | 0, _ => return []
  | pages + 1, cursor => do
    let page ← ask ((← get).desk.listAccounts client cursor size) .listing
    let seen := page.items.map (·.currency)
    match page.nextCursor with
    | none => return seen
    | some next => return seen ++ (← walk client size pages (some next))

/-- Seconds after which no clock goes on; a wait that would end later takes thirty years. -/
def lastSecond : Nat := twoTo 63

/-- The seconds to wait; thirty years where the clock could not tell the end. -/
def clipped (clock seconds : Nat) : Nat :=
  if clock / 1000000000 + seconds < lastSecond then seconds else 30 * 365 * 86400

/-- Whole seconds that a wait takes at a speed. -/
def waitAt (speed : Float) (seconds : Nat) : Nat :=
  (seconds.toUInt64.toFloat / speed).toUInt64.toNat

/-- Makes something go wrong. -/
def inject : Fault → Timed Unit
  | .quoteOutage => Market.setAvailable false
  | .quoteLatency delay => Market.setLatency (Desk.ms delay)
  | .cacheOutage => OfferCache.setAvailable false

/-- Ends everything that was made to go wrong. -/
def clear : Timed Unit := do
  Market.setAvailable true
  Market.setLatency 0
  OfferCache.setAvailable true

/-- Breaks the scenario off where the condition does not hold. -/
def check : Condition → Play Unit
  | .balanceEquals client currency amount => do
    let c ← findClient client
    let expected ← readAmount amount
    let actual ← c.balance (← get).desk (← readCurrency currency)
    if !actual.sameValue expected then throw (.balance c.name currency actual expected)
  | .ledgerConsistent => do
    (← get).posted.forM fun txId => discard (ask (Desk.verify txId) (.audit txId))

/-- Makes an offer and redeems it after its end. -/
def outlive (c : SimulatedClient) (o : Order) : Play Unit := do
  let ticket ← makeOffer (← readOrder c.id o)
  let desk := (← get).desk
  wait (Desk.ms (desk.settings.fiatLifetime + 500))
  match ← desk.redeem c.id ticket.token with
  | .ok receipt => throw (.expiredSettled receipt.txId)
  | .error .notFoundOrExpired =>
    modify fun s => { s with statistics := s.statistics.addError .notFoundOrExpired }
  | .error e => throw (.expiredFailed e)

/-- Takes one step. -/
def step : Step → Play Unit
  | .wait seconds => do
    let clock ← read (·.clock)
    wait (Desk.ms (1000 * clipped clock (waitAt (← get).speed seconds)))
  | .deposit client amount currency => do
    let c ← findClient client
    let currency ← readCurrency currency
    let receipt ← ask ((← get).desk.deposit c.id currency (← readAmount amount)) (.deposit c.name)
    modify fun s => { s with posted := s.posted ++ [receipt.txId] }
  | .exchange order => do
    let c ← findClient order.client
    let request ← readOrder c.id order
    let (outcome, nanos) ← timing (convert (← get).desk request)
    note outcome nanos
  | .redemptionRace order attempts => do
    let c ← findClient order.client
    let ticket ← makeOffer (← readOrder c.id order)
    let settled ← race c.id (List.replicate attempts ticket.token)
    if settled ≠ 1 then throw (.settlements settled)
  | .opposingExchanges client amount first second pairs => do
    let c ← findClient client
    let tokens ← opposingOffers c.id amount first second pairs
    discard (race c.id tokens)
  | .expiry order => do
    outlive (← findClient order.client) order
  | .paginationWalk client size => do
    let c ← findClient client
    let pages ← read (·.ledger.accounts.length)
    let seen ← walk c.id size (pages + 1) none
    let expected := c.currencies.mergeSort fun a b => (compare a b).isLE
    if seen ≠ expected then throw (.walk seen expected)
  | .injectFault fault => inject fault
  | .clearFaults => clear
  | .require condition => check condition

/-! ### Whole simulations -/

/-- The rates between which the usual clients exchange. -/
def standardRates : List (CurrencyPair × Decimal) :=
  [(⟨.usd, .eur⟩, .hundredths 92),
    (⟨.usd, .gbp⟩, .hundredths 79),
    (⟨.usd, .cad⟩, .hundredths 135),
    (⟨.eur, .gbp⟩, .hundredths 86),
    (⟨.btc, .usd⟩, .whole 25000)]

/-- Sets the rates that the simulation starts from. -/
def seedRates : Timed Unit :=
  standardRates.forM fun (pair, rate) => Market.setRate pair rate

/-- Sets the rates and brings in the usual clients. -/
def populate (count : Nat) : Play Unit := do
  seedRates
  let clients ← SimulatedClient.crowd count
  let desk := (← get).desk
  clients.forM fun c => do
    match ← c.onboard desk SimulatedClient.standardFunding with
    | .error e => throw e
    | .ok () => return ()
  modify fun s => { s with clients }

/-- Plays a part of a simulation in a world. Nothing cuts it off, so that it ends or crashes. -/
def play {α : Type} (x : Play α) (s : Simulation) (w : World) :
    Except SimulationError α × Simulation × World :=
  match (x.run.run s).run w with
  | (some (result, s), w) => (result, s, w)
  | (none, w) => (.error (w.lastCrash.elim .unfinished .crashed), s, w)

/-- Acts a scenario out. -/
def perform (scenario : Scenario) : Play Unit :=
  scenario.steps.forM step

/-- Chooses a number below a bound. -/
def choose (bound : Nat) : Play Nat :=
  modifyGet fun s =>
    let (n, choices) := stdNext s.choices
    (n % bound, { s with choices })

/-- Lets a random client exchange a random amount. -/
def exchangeAtRandom : Play Unit := do
  let s ← get
  match s.clients[← choose s.clients.length]? with
  | none => return ()
  | some c =>
    let traded : List Currency := [.usd, .eur, .gbp]
    let source ← choose 3
    let destination := (source + 1 + (← choose 2)) % 3
    let cents := 100 + (← choose 49900)
    let request : OfferRequest := {
      client := c.id
      source := traded.getD source .usd
      destination := traded.getD destination .usd
      amount := (Decimal.ofParts? false cents 2).getD .zero
      isPurchase := false
      isSale := false }
    let (outcome, nanos) ← timing (convert s.desk request)
    note outcome nanos

/-- Milliseconds between two random exchanges. -/
def pause (speed : Float) : Nat := (1000.0 / speed).toUInt64.toNat

/-- Exchanges at random until the clock has come to `stop`, at most so many times. -/
def tradeUntil (stop : Nat) : Nat → Play Unit
  | 0 => return ()
  | attempts + 1 => do
    if (← read (·.clock)) < stop then
      exchangeAtRandom
      wait (Desk.ms (pause (← get).speed))
      tradeUntil stop attempts

/-- Exchanges at random for some milliseconds. -/
def trade (span : Nat) : Play Unit := do
  let s ← get
  if s.clients.isEmpty then wait (Desk.ms span)
  else
    let start ← read (·.clock)
    tradeUntil (start + Desk.ms span) (span / pause s.speed + 1)

end Simulation

end Bureau
