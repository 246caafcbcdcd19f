import Bureau.Proofs.Desk.Abreast
import Bureau.Proofs.Desk.Annals
import Bureau.Proofs.Desk.Listing
import Bureau.Proofs.Ledger.Listing

/-!
# Visits to the desk

A run of the desk is a list of visits, each an errand with its own scene: the time, the random bits,
the market and what befalls the calls. `Desk.log` is what the visits are answered, and
`Visit.Without` leaves out visits that a client has nothing to do with. A run is steady when the
clock does not go back, and honest when nobody presents a token of somebody else's offer. Whatever
a client is answered shows its own accounts and rows, and in the receipt of a deposit also the row
of the bureau's clearing account (`Desk.yields_answer`).
-/

namespace Bureau

open Timed World

/-! ### Answers -/

/-- The client that an errand is made for; anybody may have a transaction checked. -/
def Errand.client? : Errand → Option ClientId
  | .openAccount client _ | .deposit client _ _ | .redeem client _ | .balance client _
  | .transaction client _ | .listAccounts client _ _ | .listJournal client _ _ _ => some client
  | .createOffer request => some request.client
  | .verify _ => none

/-- What an errand is answered when it succeeds. -/
inductive Content where
  | account (account : Account)
  | receipt (receipt : Receipt)
  | ticket (ticket : OfferTicket)
  | rows (rows : List JournalEntry)
  | accounts (page : Page Account)
  | journal (page : Page JournalEntry)
  | kind (kind : SettlementKind)

namespace Content

/-- The accounts that an answer shows. -/
def shownAccounts : Content → List Account
  | account a => [a]
  | accounts page => page.items
  | _ => []

/-- The rows of the journal that an answer shows. -/
def shownRows : Content → List JournalEntry
  | receipt r => r.entries
  | rows shown => shown
  | journal page => page.items
  | _ => []

/-- Everything that is shown is the client's own, but for the row of the bureau's clearing account
in the receipt of a deposit. -/
structure Own (d : Desk) (errand : Errand) (client : ClientId) (content : Content) : Prop where
  accounts : ∀ a ∈ content.shownAccounts, a.client = client
  rows : ∀ e ∈ content.shownRows, e.client = client ∨
    (∃ currency amount, errand = .deposit client currency amount) ∧
      e.client = d.settings.treasury ∧ e.currency = Currency.deposit

variable {d : Desk} {errand : Errand} {client : ClientId} {content : Content}

theorem Own.of_accounts (rows : content.shownRows = [])
    (h : ∀ a ∈ content.shownAccounts, a.client = client) : content.Own d errand client :=
  ⟨h, by simp [rows]⟩

theorem Own.of_rows (accounts : content.shownAccounts = [])
    (h : ∀ e ∈ content.shownRows, e.client = client) : content.Own d errand client :=
  ⟨by simp [accounts], fun e he => .inl (h e he)⟩

end Content

namespace Timed

variable {α β : Type} {w w' : World}

/-- Tells what an operation has come to in another form. -/
def telling (x : Timed (Except DeskError α)) (f : α → β) : Timed (Except DeskError β) := do
  match ← x with
  | .ok a => return .ok (f a)
  | .error e => return .error e

theorem telling_apply (x : Timed (Except DeskError α)) (f : α → β) (deadline : Option Nat)
    (w : World) : x.telling f deadline w =
      ((x deadline w).1.map (·.map f), (x deadline w).2) := by
  rw [telling, bind_apply]
  rcases x deadline w with ⟨_ | _ | _, w'⟩ <;> rfl

theorem snd_telling (x : Timed (Except DeskError α)) (f : α → β) (deadline : Option Nat)
    (w : World) : (x.telling f deadline w).2 = (x deadline w).2 := by
  rw [telling_apply]

theorem Ensures.telling {x : Timed (Except DeskError α)} {f : α → β}
    {Q : Except DeskError β → World → Prop} {cut : World → Prop}
    (h : x.Ensures w (fun answer => Q (answer.map f)) cut) : (x.telling f).Ensures w Q cut := by
  refine Ensures.bind h fun answer w' h => ?_
  cases answer <;> exact ensures_pure h

theorem Yields.telling {x : Timed (Except DeskError α)} {f : α → β} {done : β → World → Prop}
    {failed : World → Prop} (h : x.Yields w (fun a => done (f a)) failed) :
    (x.telling f).Yields w done failed := by
  refine Ensures.telling (Ensures.mono h (fun answer w' h => ?_) fun _ h => h)
  cases answer <;> exact h

end Timed

/-- Serves an errand, and tells what it has come to. -/
def Desk.answer (d : Desk) : Errand → Timed (Except DeskError Content)
  | .openAccount client currency => (d.openAccount client currency).telling .account
  | .deposit client currency amount => (d.deposit client currency amount).telling .receipt
  | .createOffer request => (d.createOffer request).telling .ticket
  | .redeem client token => (d.redeem client token).telling .receipt
  | .balance client currency => (d.balance client currency).telling .account
  | .transaction client txId => (d.transaction client txId).telling .rows
  | .listAccounts client cursor asked => (d.listAccounts client cursor asked).telling .accounts
  | .listJournal client currency query asked =>
    (d.listJournal client currency query asked).telling .journal
  | .verify txId => (Desk.verify txId).telling .kind

/-! ### Whose offers -/

namespace Errand

/-- The offer that an answer gives a ticket for: whose it is, and its identifier. -/
def made (d : Desk) : Errand → Option (Except DeskError Content) → List (ClientId × OfferId)
  | .createOffer request, some (.ok (.ticket t)) =>
    (d.offerOf? t.token).toList.map (request.client, ·)
  | _, _ => []

/-- A redemption does not present a token of an offer that has been made for another client. -/
def PresentsOwn (d : Desk) (made : List (ClientId × OfferId)) : Errand → Prop
  | .redeem client token => ∀ m ∈ made, d.offerOf? token = some m.2 → m.1 = client
  | _ => True

instance (d : Desk) (made : List (ClientId × OfferId)) :
    (errand : Errand) → Decidable (errand.PresentsOwn d made)
  | .redeem client token =>
    inferInstanceAs (Decidable (∀ m ∈ made, d.offerOf? token = some m.2 → m.1 = client))
  | .openAccount _ _ | .deposit _ _ _ | .createOffer _ | .balance _ _ | .transaction _ _
  | .listAccounts _ _ _ | .listJournal _ _ _ _ | .verify _ => .isTrue trivial

variable {d : Desk} {made made' : List (ClientId × OfferId)} {errand : Errand}

theorem presentsOwn_nil : errand.PresentsOwn d [] := by
  cases errand with
  | redeem client token => exact fun m hm => absurd hm List.not_mem_nil
  | _ => trivial

theorem PresentsOwn.of_subset (h : errand.PresentsOwn d made') (fewer : made ⊆ made') :
    errand.PresentsOwn d made := by
  cases errand with
  | redeem client token => exact fun m hm => h m (fewer hm)
  | _ => trivial

theorem PresentsOwn.append (h : errand.PresentsOwn d made) (h' : errand.PresentsOwn d made') :
    errand.PresentsOwn d (made ++ made') := by
  cases errand with
  | redeem client token => exact fun m hm => (List.mem_append.1 hm).elim (h m) (h' m)
  | _ => trivial

end Errand

/-! ### Runs -/

/-- An errand, and what it meets with at the desk. -/
structure Visit where
  errand : Errand
  scene : Scene
  /-- When the client gives up waiting. -/
  deadline : Option Nat := none

/-- The offer that the visit makes, if it asks for one and is answered. -/
def Visit.offers (v : Visit) : List (ClientId × OfferId) :=
  match v.errand with
  | .createOffer request => [(request.client, ⟨.ofRandom (v.scene.random v.scene.drawn)⟩)]
  | _ => []

/-- A visit and its answer, unless the client has given up. -/
structure Answered where
  visit : Visit
  answer : Option (Except DeskError Content)

namespace Answered

/-- The client asked for this answer. -/
def isFor (client : ClientId) (a : Answered) : Bool := a.visit.errand.client? = some client

/-- The offers that the answer gives tokens for, with their owners. -/
def made (d : Desk) (a : Answered) : List (ClientId × OfferId) := a.visit.errand.made d a.answer

end Answered

/-- The ledger and the entries of the cache, in another scene. -/
def World.under (w : World) (s : Scene) : World :=
  { w with
    clock := s.clock
    now := s.now
    random := s.random
    drawn := s.drawn
    rates := s.rates
    lockWait := s.lockWait
    mishaps := s.mishaps
    cache := { w.cache with available := s.available, latency := s.latency } }

namespace Desk

/-- The answer to a visit, and the world that it leaves. -/
def visit (d : Desk) (w : World) (v : Visit) : Option (Except DeskError Content) × World :=
  d.answer v.errand v.deadline (w.under v.scene)

/-- What visits are answered that come one after another. -/
def log (d : Desk) : World → List Visit → List Answered
  | _, [] => []
  | w, v :: visits => ⟨v, (d.visit w v).1⟩ :: d.log (d.visit w v).2 visits

theorem visit_mem_of_mem_log {d : Desk} {w : World} {visits : List Visit} {a : Answered}
    (h : a ∈ d.log w visits) : a.visit ∈ visits := by
  induction visits generalizing w with
  | nil => cases h
  | cons v visits ih =>
    rcases List.mem_cons.1 h with rfl | later
    · exact List.mem_cons_self
    · exact List.mem_cons_of_mem _ (ih later)

/-- The clock does not go back from one visit to the next. -/
def Steady (d : Desk) : World → List Visit → Prop
  | _, [] => True
  | w, v :: visits => w.clock ≤ v.scene.clock ∧ d.Steady (d.visit w v).2 visits

instance (d : Desk) : (w : World) → (visits : List Visit) → Decidable (d.Steady w visits)
  | _, [] => .isTrue trivial
  | w, v :: visits =>
    have := instDecidableSteady d (d.visit w v).2 visits
    inferInstanceAs (Decidable (_ ∧ _))

/-- No redemption presents a token of an offer that has been made for another client before. -/
def Honest (d : Desk) (log : List Answered) : Prop :=
  log.Pairwise fun earlier later => later.visit.errand.PresentsOwn d (earlier.made d)

instance (d : Desk) (log : List Answered) : Decidable (d.Honest log) :=
  inferInstanceAs (Decidable (log.Pairwise _))

end Desk

/-- The visits with some left out, none of which is the client's. -/
inductive Visit.Without (client : ClientId) : List Visit → List Visit → Prop
  | nil : Without client [] []
  | keep (v : Visit) {visits kept : List Visit} (h : Without client visits kept) :
      Without client (v :: visits) (v :: kept)
  | drop {v : Visit} {visits kept : List Visit} (foreign : v.errand.client? ≠ some client)
      (h : Without client visits kept) : Without client (v :: visits) kept

/-! ### What is shown -/

namespace Desk

variable {d : Desk} {w : World} {client : ClientId}

theorem yields_own_openAccount (currency : Currency) :
    (d.openAccount client currency).Yields w (fun a _ => a.client = client) fun _ => True := by
  unfold openAccount
  split
  · exact ensures_pure trivial
  · refine yields_ledgerRead (Ensures.bind (Q := fun _ _ => True) ?_ fun error w' _ => ?_)
    · exact (still_suffer (Still.refl w) (w.still_pop _)).mono (fun _ _ _ => trivial)
        fun _ _ => trivial
    · cases error with
      | some e => exact ensures_pure trivial
      | none =>
        refine ensures_act ?_
        dsimp only
        cases created : (w'.ledger.createAccount ⟨client, currency⟩ w'.now).1 with
        | error e => trivial
        | ok a =>
          obtain rfl := Ledger.createAccount_eq_ok _ _ created
          rfl

/-- What is read of the ledger is what it holds. -/
theorem yields_read {α : Type} (name : LedgerCall) (f : Ledger → α) :
    (d.ledgerRead (Ledger.query name f)).Yields w (fun found _ => found = f w.ledger)
      fun _ => True :=
  (d.ensures_ledgerRead name f).mono (fun _ _ h => h.1) fun _ _ => trivial

theorem yields_own_balance (currency : Currency) :
    (d.balance client currency).Yields w (fun a _ => a.client = client) fun _ => True := by
  refine Ensures.bind (yields_read .account _) fun answer w' h => ?_
  rcases answer with e | _ | a
  · exact ensures_pure trivial
  · exact ensures_pure trivial
  · exact ensures_pure (congrArg AccountKey.client (Ledger.key_of_account? h.symm))

theorem yields_own_transaction (txId : TxId) :
    (d.transaction client txId).Yields w (fun rows _ => ∀ e ∈ rows, e.client = client)
      fun _ => True := by
  refine Ensures.bind (yields_read .journalFor _) fun answer w' h => ?_
  cases answer with
  | error e => exact ensures_pure trivial
  | ok rows =>
    dsimp only
    split
    · exact ensures_pure trivial
    · exact ensures_pure fun e he => of_decide_eq_true (List.mem_filter.1 he).2

theorem yields_own_listAccounts (cursor : Option String) (asked : Int) :
    (d.listAccounts client cursor asked).Yields w (fun p _ => ∀ a ∈ p.items, a.client = client)
      fun _ => True := by
  cases opens : d.accountStart cursor with
  | error e =>
    rw [listAccounts_of_refused opens]
    exact ensures_pure trivial
  | ok start =>
    refine (ensures_accountsPage opens client asked).mono (fun answer _ h => ?_) fun _ h => h
    cases answer with
    | error e => trivial
    | ok p =>
      intro a ha
      rw [(h p rfl).items, Ledger.accountsPage_eq] at ha
      have listed := List.mem_of_mem_take (List.mem_of_mem_take ha)
      exact (Ledger.mem_accountsFrom.1 listed).1.2

theorem yields_own_listJournal (currency : Currency) (query : JournalQuery) (asked : Int) :
    (d.listJournal client currency query asked).Yields w
      (fun p _ => ∀ e ∈ p.items, e.client = client) fun _ => True := by
  cases opens : d.journalStart query with
  | error e =>
    rw [listJournal_of_refused opens]
    exact ensures_pure trivial
  | ok found =>
    refine (ensures_journalPage opens client currency asked).mono (fun answer _ h => ?_)
      fun _ h => h
    cases answer with
    | error e => trivial
    | ok p =>
      intro e he
      rw [(h p rfl).items, Ledger.journalPage_eq] at he
      have listed := List.mem_of_mem_take (List.mem_of_mem_take he)
      exact congrArg AccountKey.client (Ledger.mem_rowsFrom.1 listed).1.2.1

theorem yields_own_deposit (sound : w.ledger.Sound) (currency : Currency) (amount : Decimal) :
    (d.deposit client currency amount).Yields w (fun r _ => ∀ e ∈ r.entries, e.client = client ∨
      e.client = d.settings.treasury ∧ e.currency = Currency.deposit) fun _ => True := by
  refine (ensures_deposit sound client currency amount).mono (fun answer w' h => ?_)
    fun _ _ => trivial
  obtain ⟨-, ⟨txId, rfl, -⟩ | ⟨⟨e, rfl⟩, -⟩⟩ := h
  · simp [JournalBatch.externalDeposit]
  · trivial

theorem yields_own_redeem (sound : w.ledger.Sound) (token : String) :
    (d.redeem client token).Yields w (fun r _ => ∀ e ∈ r.entries, e.client = client)
      fun _ => True := by
  refine (ensures_redeem sound client token).mono (fun answer w' h => ?_) fun _ _ => trivial
  obtain ⟨-, -, ⟨_, _, _, -, ⟨txId, kind, rfl, -⟩ | ⟨⟨e, rfl⟩, -⟩⟩ | ⟨⟨e, rfl⟩, -⟩⟩ := h
  · simp [JournalBatch.conversion]
  · trivial
  · trivial

/-- Whatever a client is answered shows what is its own. -/
theorem yields_answer (sound : w.ledger.Sound) {errand : Errand}
    (own : errand.client? = some client) :
    (d.answer errand).Yields w (fun content _ => content.Own d errand client) fun _ => True := by
  cases errand with
  | openAccount _ currency =>
    cases own
    exact ((yields_own_openAccount currency).mono (fun a _ h =>
      .of_accounts rfl (List.forall_mem_singleton.2 h)) fun _ h => h).telling
  | deposit _ currency amount =>
    cases own
    exact ((yields_own_deposit sound currency amount).mono (fun r _ h =>
      ⟨by simp [Content.shownAccounts], fun e he => (h e he).imp_right fun clearing =>
        ⟨⟨currency, amount, rfl⟩, clearing⟩⟩) fun _ h => h).telling
  | createOffer request =>
    refine Yields.telling ((d.ensures_createOffer request).mono (fun answer _ _ => ?_)
      fun _ _ => trivial)
    cases answer with
    | error e => trivial
    | ok t => exact .of_rows rfl (List.forall_mem_nil _)
  | redeem _ token =>
    cases own
    exact ((yields_own_redeem sound token).mono (fun r _ h => .of_rows rfl h) fun _ h => h).telling
  | balance _ currency =>
    cases own
    exact ((yields_own_balance currency).mono (fun a _ h =>
      .of_accounts rfl (List.forall_mem_singleton.2 h)) fun _ h => h).telling
  | transaction _ txId =>
    cases own
    exact ((yields_own_transaction txId).mono (fun rows _ h => .of_rows rfl h)
      fun _ h => h).telling
  | listAccounts _ cursor asked =>
    cases own
    exact ((yields_own_listAccounts cursor asked).mono (fun p _ h => .of_accounts rfl h)
      fun _ h => h).telling
  | listJournal _ currency query asked =>
    cases own
    exact ((yields_own_listJournal currency query asked).mono (fun p _ h => .of_rows rfl h)
      fun _ h => h).telling
  | verify txId => cases own

end Desk

end Bureau
