import Bureau.Proofs.Desk.Day
import Bureau.Proofs.Ledger.Books

/-!
# Money is conserved

Over any run of the desk the books stay balanced, and what stands in the journal as paid in is
what clients have paid in. A batch keeps the books balanced because its rows are exact: a deposit
is checked, and an offer in the cache was checked when it was made (`Day.Inv.offers`).
-/

namespace Bureau

open Timed World

/-! ### What a batch adds to the books -/

namespace Ledger

/-- What the journal says has been paid in, in grains. -/
def paidIn (l : Ledger) : Int :=
  ((l.journal.filter (·.currency = Currency.deposit)).map (·.amount.grains)).sum

theorem Balanced.hasPosted {l l' : Ledger} {batch : JournalBatch} (h : l.Balanced)
    (posted : l.HasPosted batch l')
    (places : ∀ e ∈ batch.entries, e.isClearing = false → e.amount.HasPlaces e.currency.places)
    (moment : Instant) (dated : ∀ e ∈ batch.entries, e.transactedAt = moment) :
    l'.Balanced := by
  have atRest : l'.AtRest := posted.atRest h.atRest
  obtain ⟨p, changes, genuine, posts, -⟩ := posted
  have rows := Posting.rows_of_ofBatch genuine
  obtain ⟨deltas, -, -, rfl⟩ := Posting.ofBatch_eq_ok genuine
  refine h.post rows places (fun e he => ?_) posts atRest
  obtain ⟨row, rest, entries⟩ := List.exists_cons_of_ne_nil (List.ne_nil_of_mem he)
  have entries : batch.entries = row :: rest := entries
  have first := dated row (entries ▸ List.mem_cons_self)
  rw [dated e he, Posting.moment, entries, List.head?_cons, Option.map_some, Option.getD_some,
    first]

theorem paidIn_append {l l' : Ledger} {entries : List JournalEntry}
    (h : l'.journal = l.journal ++ entries) :
    l'.paidIn = l.paidIn +
      ((entries.filter (·.currency = Currency.deposit)).map (·.amount.grains)).sum := by
  rw [paidIn, h, List.filter_append, List.map_append, List.sum_append, paidIn]

/-- The conversion of a sound offer. -/
theorem Balanced.conversion {l l' : Ledger} {txId : TxId} {now : Instant} {kind : SettlementKind}
    {client : ClientId} {offer : Offer} (h : l.Balanced) (sound : offer.Sound)
    (posted : l.HasPosted (.conversion txId now kind client offer.debit offer.credit) l') :
    l'.Balanced ∧ l'.paidIn = l.paidIn := by
  refine ⟨h.hasPosted posted (fun e he _ => sound.places e he) now.toMicros
    (by simp [JournalBatch.conversion]), ?_⟩
  · have debit : offer.debit.currency ≠ Currency.deposit := Currency.ne_deposit sound.source
    have credit : offer.credit.currency ≠ Currency.deposit :=
      Currency.ne_deposit sound.destination
    rw [paidIn_append posted.journal]
    simp [JournalBatch.conversion, debit, credit]

/-- A deposit of an exact amount of money. -/
theorem Balanced.externalDeposit {l l' : Ledger} {txId : TxId} {now : Instant}
    {treasury client : ClientId} {amount : Money} (h : l.Balanced)
    (fiat : amount.currency.isFiat = true) (exact : amount.IsExact)
    (posted : l.HasPosted (.externalDeposit txId now treasury client amount) l') :
    l'.Balanced ∧ l'.paidIn = l.paidIn - amount.value.grains := by
  have holdable : amount.currency.isClearing = false := by
    unfold Currency.isFiat at fiat
    rw [Currency.isClearing, eq_of_beq fiat]
    rfl
  refine ⟨h.hasPosted posted (fun e he open_ => ?_) now.toMicros
    (by simp [JournalBatch.externalDeposit]), ?_⟩
  · simp only [JournalBatch.externalDeposit, List.mem_cons, List.not_mem_nil, or_false] at he
    rcases he with rfl | rfl
    · rw [JournalEntry.isClearing, Currency.isClearing_deposit] at open_
      cases open_
    · exact exact
  · have client : amount.currency ≠ Currency.deposit := Currency.ne_deposit holdable
    rw [paidIn_append posted.journal]
    simp [JournalBatch.externalDeposit, client, Int.sub_eq_add_neg]

theorem Balanced.unchanged {l l' : Ledger} (h : l.Balanced) (same : l.Unchanged l') :
    l'.Balanced ∧ l'.paidIn = l.paidIn :=
  ⟨h.congr (same.atRest h.atRest) same.accounts same.journal, by rw [paidIn, same.journal, paidIn]⟩

end Ledger

/-- Nothing has been done in the world: the ledger and the cache are empty, and nothing answers in
place of the table of rates. -/
structure World.IsNew (w : World) : Prop where
  ledger : w.ledger = {}
  entries : w.cache.entries = []
  answers : Market.NoAnswers w

namespace Day

/-- What every state of a day keeps. -/
structure Inv (day : Day) : Prop where
  balanced : day.world.ledger.Balanced
  offers : ∀ x ∈ day.world.cache.entries, x.2.offer.Sound
  answers : Market.NoAnswers day.world
  paidIn : day.world.ledger.paidIn = -(day.deposits.map Decimal.grains).sum

section Inv

variable {day : Day} {w : World}

/-- The invariant looks at the ledger, the cache and the mishaps of quotes only. -/
theorem Inv.settled (inv : day.Inv) (apart : day.world.Apart w)
    (fewer : w.cache.entries.Sublist day.world.cache.entries)
    (books : w.ledger.Balanced ∧ w.ledger.paidIn = day.world.ledger.paidIn) :
    Inv { day with world := w } where
  balanced := books.1
  offers x hx := inv.offers x (fewer.subset hx)
  answers q hq := inv.answers q (apart.quotes q hq)
  paidIn := books.2.trans inv.paidIn

theorem Inv.like (inv : day.Inv) (like : day.world.Like w) : Inv { day with world := w } :=
  inv.settled like.toApart (like.cache ▸ List.Sublist.refl _)
    (by rw [like.ledger]; exact ⟨inv.balanced, rfl⟩)

/-- An operation whose every outcome keeps the invariant keeps it. -/
theorem Inv.act {α : Type} {x : Timed α} (deadline : Option Nat)
    (h : x.Ensures day.world (fun _ w => Inv { day with world := w })
      fun w => Inv { day with world := w }) : (day.act deadline x).Inv :=
  h.world deadline

theorem Inv.looks {α : Type} {x : Timed α} (inv : day.Inv) (deadline : Option Nat)
    (h : x.Looks) : (day.act deadline x).Inv :=
  inv.like ((h day.world).world deadline)

theorem Inv.openAccount (inv : day.Inv) (d : Desk) (deadline : Option Nat) (client : ClientId)
    (currency : Currency) : (day.act deadline (d.openAccount client currency)).Inv := by
  obtain ⟨beside, opened⟩ := d.openAccount_cases client currency day.world deadline
  refine inv.settled beside.toApart (beside.cache ▸ List.Sublist.refl _) ?_
  rcases opened with same | ⟨holdable, now, created⟩
  · exact ⟨same.symm ▸ inv.balanced, congrArg Ledger.paidIn same⟩
  · refine ⟨created ▸ inv.balanced.createAccount now holdable, ?_⟩
    have same := congrArg Ledger.journal created
    rw [Ledger.journal_createAccount] at same
    rw [Ledger.paidIn, same, Ledger.paidIn]

theorem Inv.createOffer (inv : day.Inv) (d : Desk) (deadline : Option Nat) (r : OfferRequest) :
    (day.act deadline (d.createOffer r)).Inv := by
  have failed {w : World} (aside : day.world.Aside w)
      (fewer : w.cache.entries.Sublist day.world.cache.entries) : Inv { day with world := w } :=
    inv.settled aside.toApart fewer (by rw [aside.ledger]; exact ⟨inv.balanced, rfl⟩)
  refine Inv.act deadline ((d.ensures_createOffer r).mono (fun answer w h => ?_) fun _ h =>
    failed h.1 h.2.fewer)
  obtain ⟨aside, ⟨ticket, -, makes⟩ | ⟨-, sweeps⟩⟩ := h
  · refine { balanced := ?_, offers := fun x hx => ?_, answers := ?_, paidIn := ?_ }
    · exact aside.ledger ▸ inv.balanced
    · rcases makes.gains.mem_cases hx with ⟨hx, -⟩ | rfl
      · exact inv.offers x hx
      · exact makes.sound inv.answers
    · exact fun q hq => inv.answers q (aside.quotes q hq)
    · exact aside.ledger ▸ inv.paidIn
  · exact failed aside sweeps.fewer

theorem Inv.redeem (inv : day.Inv) (d : Desk) (deadline : Option Nat) (client : ClientId)
    (token : String) : (day.act deadline (d.redeem client token)).Inv := by
  refine Inv.act deadline ((d.ensures_redeem inv.balanced.atRest.sound client token).mono
    (fun answer w h => ?_) fun w h => ?_)
  · obtain ⟨apart, loses, ⟨key, offer, expiresAt, there, settles⟩ | ⟨-, same⟩⟩ := h
    · have sound : offer.Sound := inv.offers _ (OfferCache.mem_of_lookup there)
      refine inv.settled apart loses.sublist ?_
      rcases settles with ⟨txId, kind, -, posted⟩ | ⟨-, same⟩
      · exact inv.balanced.conversion sound posted
      · exact inv.balanced.unchanged same
    · exact inv.settled apart loses.sublist (inv.balanced.unchanged same)
  · exact inv.settled h.1 h.2.1.sublist (inv.balanced.unchanged h.2.2)

theorem Inv.deposit (inv : day.Inv) (d : Desk) (deadline : Option Nat) (client : ClientId)
    (currency : Currency) (amount : Decimal) :
    (day.serve d deadline (.deposit client currency amount)).Inv := by
  have ensured := d.ensures_deposit inv.balanced.atRest.sound client currency amount deadline
  simp only [serve]
  cases hx : d.deposit client currency amount deadline day.world with
  | mk result w =>
    rw [hx] at ensured
    rcases result with _ | e | receipt
    · exact inv.settled ensured.1.toApart (ensured.1.cache ▸ List.Sublist.refl _)
        (inv.balanced.unchanged ensured.2)
    · obtain ⟨beside, ⟨_, impossible, -⟩ | ⟨-, same⟩⟩ := ensured
      · cases impossible
      · exact inv.settled beside.toApart (beside.cache ▸ List.Sublist.refl _)
          (inv.balanced.unchanged same)
    · obtain ⟨beside, ⟨txId, -, fiat, exact, posted⟩ | ⟨⟨_, impossible⟩, -⟩⟩ := ensured
      · obtain ⟨balanced, paid⟩ := inv.balanced.externalDeposit fiat exact posted
        refine { balanced, offers := fun x hx => ?_, answers := ?_, paidIn := ?_ }
        · rw [beside.cache] at hx
          exact inv.offers x hx
        · exact fun q hq => inv.answers q (beside.quotes q hq)
        · rw [paid, inv.paidIn, List.map_append, List.sum_append, List.map_singleton,
            List.sum_singleton]
          dsimp only
          omega
      · cases impossible

/-- Every event keeps the invariant. -/
theorem Inv.next (inv : day.Inv) (d : Desk) (event : Event) : (day.next d event).Inv := by
  cases event with
  | errand deadline errand =>
    cases errand with
    | openAccount client currency => exact inv.openAccount d deadline client currency
    | deposit client currency amount => exact inv.deposit d deadline client currency amount
    | createOffer request => exact inv.createOffer d deadline request
    | redeem client token => exact inv.redeem d deadline client token
    | balance client currency => exact inv.looks deadline (d.looks_balance client currency)
    | transaction client txId => exact inv.looks deadline (d.looks_transaction client txId)
    | listAccounts client cursor asked =>
      exact inv.looks deadline (d.looks_listAccounts client cursor asked)
    | listJournal client currency query asked =>
      exact inv.looks deadline (d.looks_listJournal client currency query asked)
    | verify txId => exact inv.looks deadline (Desk.looks_verify txId)
  | incident incident =>
    exact {
      balanced := (incident.ledger_change day.world).symm ▸ inv.balanced
      offers := fun x hx => inv.offers x ((incident.sublist_change day.world).subset hx)
      answers := incident.noAnswers_change day.world inv.answers
      paidIn := (incident.ledger_change day.world).symm ▸ inv.paidIn }

theorem Inv.foldl (inv : day.Inv) (d : Desk) (events : List Event) :
    (events.foldl (Day.next d) day).Inv := by
  induction events generalizing day with
  | nil => exact inv
  | cons event rest ih => exact ih (inv.next d event)

end Inv

theorem inv_new {w : World} (new : w.IsNew) : Inv { world := w } where
  balanced := new.ledger ▸ Ledger.balanced_empty
  offers x hx := by
    rw [new.entries] at hx
    cases hx
  answers := new.answers
  paidIn := by
    rw [new.ledger]
    rfl

/-- After any events, every account is the exact sum of its rows, in range and without places that
its currency does not have, and it remembers its last row. Clients hold no clearing currency, and
the rows of the deposit account sum to what has been paid in. -/
theorem conserved (d : Desk) {w : World} (new : w.IsNew) (events : List Event) :
    let day := events.foldl (Day.next d) { world := w }
    let journal := day.world.ledger.journal
    (∀ a ∈ day.world.ledger.accounts,
      a.balance.value = ((a.rows journal).map (·.amount.value)).sum ∧
      0 ≤ a.balance.value ∧ a.balance.value ≤ maxAmount.value ∧
      (∃ n : Int, a.balance.value = n / 10 ^ a.currency.places) ∧
      a.lastTxAmount = ((a.rows journal).getLast?.map (·.amount)).getD Decimal.zero ∧
      a.lastTxAt = (a.rows journal).getLast?.map (·.transactedAt)) ∧
    (∀ a ∈ day.world.ledger.accounts, a.currency.isClearing = false) ∧
    ((journal.filter (·.currency = Currency.deposit)).map (·.amount.value)).sum =
      -(day.deposits.map Decimal.value).sum := by
  intro day journal
  have inv : day.Inv := (inv_new new).foldl d events
  have sum (rows : List JournalEntry) : (rows.map (·.amount.value)).sum =
      ((rows.map (·.amount.grains)).sum : Int) / 10 ^ Decimal.maxScale := by
    have := Decimal.sum_value (rows.map (·.amount))
    rwa [List.map_map, List.map_map] at this
  refine ⟨fun a ha => ?_, fun a ha => (inv.balanced.accounts a ha).holdable, ?_⟩
  · have agrees := inv.balanced.accounts a ha
    refine ⟨?_, ?_, ?_, ?_, agrees.lastAmount, agrees.lastAt⟩
    · rw [sum, ← agrees.sum, Decimal.value_eq_grains]
    · exact Decimal.value_nonneg.2 agrees.nonneg
    · have := (Decimal.inRange_iff _).1 agrees.inRange
      exact Decimal.value_le_value.2 ((le_abs_self _).trans this)
    · exact agrees.places.exists_value (a.currency.places_le.trans (by decide))
  · have := inv.paidIn
    rw [sum, Decimal.sum_value]
    rw [Ledger.paidIn] at this
    rw [this]
    push_cast
    ring

/-- Money is paid in, some of it is converted, and a deposit in fractions of a cent is refused. -/
def simple : List Event := [
  .errand none (.openAccount default Currency.usd),
  .errand none (.openAccount default Currency.eur),
  .errand none (.deposit default Currency.usd (.hundredths 10000)),
  .errand none (.createOffer OfferRequest.simple),
  .errand none (.redeem default Desk.simpleToken),
  .errand none (.deposit default Currency.usd ⟨false, 1, 3, by decide, by decide⟩)]

theorem conserved_simple :
    let day := simple.foldl (Day.next Desk.simple) { world := World.simple }
    ((day.world.ledger.journal.filter (·.currency = Currency.deposit)).map (·.amount.value)).sum =
      -100 := by
  intro day
  have new : World.simple.IsNew := ⟨rfl, rfl, fun q hq => absurd hq List.not_mem_nil⟩
  have deposits : day.deposits = [.hundredths 10000] := by decide +kernel
  have sum := (conserved Desk.simple new simple).2.2
  change _ = -(day.deposits.map Decimal.value).sum at sum
  have mantissa : (Decimal.hundredths 10000).mantissa = 10000 := rfl
  rw [sum, deposits, List.map_singleton, List.sum_singleton, Decimal.value, mantissa]
  norm_num [Decimal.hundredths]

end Day

end Bureau
