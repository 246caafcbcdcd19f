import Bureau.Proofs.Desk.Twins
import Bureau.Proofs.Desk.Visits
import Bureau.Proofs.Ledger.Alike
import Bureau.Proofs.Offer.Agreement

/-!
# Two worlds that look alike to a client

`World.Mirrors` relates two worlds between which a client cannot tell: their ledgers look alike to
it, and the same offers of its own are live in their caches. An errand of somebody else leads from
a world to one that mirrors it (`Desk.mirrors_foreign`). Any request for an offer is answered
alike in two such worlds of one scene, and keeps them alike (`Desk.abreast_createOffer`).
-/

namespace Bureau

open Timed World

/-- Nothing is going on in the ledger, and every offer in the cache has been made. -/
structure World.Orderly (made : List (ClientId × OfferId)) (w : World) : Prop where
  atRest : w.ledger.AtRest
  keyed : OfferCache.Keyed w.cache.entries
  known : OfferCache.Known made w.cache.entries

/-- A client cannot tell the worlds apart, from some time on. -/
structure World.Mirrors (client : ClientId) (made : List (ClientId × OfferId)) (now : Nat)
    (w w' : World) : Prop where
  left : w.Orderly made
  right : w'.Orderly made
  ledger : w.ledger.Alike client w'.ledger
  cache : OfferCache.Agrees client made now w.cache.entries w'.cache.entries

namespace World

variable {client : ClientId} {made made' : List (ClientId × OfferId)} {now later : Nat}
  {w w' w'' : World}

theorem Orderly.of_subset (h : w.Orderly made) (fewer : made ⊆ made') : w.Orderly made' :=
  ⟨h.atRest, h.keyed, h.known.of_subset fewer⟩

namespace Mirrors

theorem symm (h : w.Mirrors client made now w') : w'.Mirrors client made now w :=
  ⟨h.right, h.left, h.ledger.symm, h.cache.symm⟩

theorem trans (h : w.Mirrors client made now w') (h' : w'.Mirrors client made now w'') :
    w.Mirrors client made now w'' :=
  ⟨h.left, h'.right, h.ledger.trans h'.ledger, h.cache.trans h'.cache⟩

theorem mono (h : w.Mirrors client made now w') (fewer : made ⊆ made') (le : now ≤ later) :
    w.Mirrors client made' later w' :=
  ⟨h.left.of_subset fewer, h.right.of_subset fewer, h.ledger, h.cache.mono fewer le⟩

end Mirrors

/-- The cache is as it was. -/
theorem Orderly.of_cache (h : w.Orderly made) (atRest : w'.ledger.AtRest)
    (cache : w'.cache = w.cache) : w'.Orderly made :=
  ⟨atRest, cache ▸ h.keyed, cache ▸ h.known⟩

/-- The cache has lost entries. -/
theorem Orderly.of_sublist (h : w.Orderly made) (atRest : w'.ledger.AtRest)
    (fewer : w'.cache.entries.Sublist w.cache.entries) : w'.Orderly made :=
  ⟨atRest, h.keyed.sublist fewer, h.known.sublist fewer⟩

theorem Orderly.mirrors_of_cache (h : w.Orderly made) (atRest : w'.ledger.AtRest)
    (cache : w'.cache = w.cache) (alike : w.ledger.Alike client w'.ledger) :
    w.Mirrors client made now w' :=
  ⟨h, h.of_cache atRest cache, alike, by rw [cache]; exact .refl _⟩

theorem Orderly.mirrors_of_like (h : w.Orderly made) (like : w.Like w') :
    w.Mirrors client made now w' :=
  h.mirrors_of_cache (like.ledger ▸ h.atRest) like.cache
    (.of_eq (congrArg Ledger.accounts like.ledger) (congrArg Ledger.journal like.ledger))

end World

/-! ### Receipts -/

namespace Ledger

variable {treasury client other : ClientId} {l l' l₁ l₁' : Ledger}
  {answer : Except DeskError Receipt} {batch : JournalBatch}

/-- The rows are of the client's own accounts, but for those of the clearing account. -/
def RowsFor (treasury client : ClientId) (batch : JournalBatch) : Prop :=
  ∀ e ∈ batch.entries, e.client = client ∨ e.client = treasury ∧ e.isClearing = true

/-- A receipt is given exactly for what has been posted for the client. -/
def Replies (treasury client : ClientId) (l : Ledger) (answer : Except DeskError Receipt)
    (l' : Ledger) : Prop :=
  (∃ batch : JournalBatch, answer = .ok ⟨batch.txId, batch.kind, batch.entries⟩ ∧
      RowsFor treasury client batch ∧ l.HasPosted batch l') ∨
    (∃ e, answer = .error e) ∧ l.Unchanged l'

/-- Only the client's own accounts are locked. -/
theorem RowsFor.keys {p : Posting} (rows : RowsFor treasury client batch)
    (genuine : Posting.ofBatch batch = .ok p) : ∀ key ∈ p.keys, key.client = client := by
  intro key hkey
  have same : p.batch = batch := by
    obtain ⟨deltas, -, -, rfl⟩ := Posting.ofBatch_eq_ok genuine
    rfl
  obtain ⟨⟨e, he, rfl⟩, open_⟩ := ((Posting.rows_of_ofBatch genuine).keys key).1 hkey
  rcases rows e (same ▸ he) with own | ⟨-, clearing⟩
  · exact own
  · rw [JournalEntry.key, show e.currency.isClearing = true from clearing] at open_
    cases open_

/-- What is posted for others is not seen. -/
theorem RowsFor.alike_of_ne (rows : RowsFor treasury other batch) (posted : l.HasPosted batch l')
    (ne : other ≠ client) (notTreasury : client ≠ treasury) : l.Alike client l' := by
  obtain ⟨p, changes, genuine, posts, -⟩ := posted
  refine .posts_of_ne posts (fun key hkey => rows.keys genuine key hkey ▸ ne) fun e he => ?_
  obtain ⟨deltas, -, -, rfl⟩ := Posting.ofBatch_eq_ok genuine
  rcases rows e he with own | ⟨clearing, -⟩
  · exact own ▸ ne
  · exact clearing ▸ notTreasury.symm

/-- The same is posted in two ledgers. -/
theorem RowsFor.alike (rows : RowsFor treasury client batch) (h : l.Alike client l')
    (posted : l.HasPosted batch l₁) (posted' : l'.HasPosted batch l₁') :
    l₁.Alike client l₁' := by
  obtain ⟨p, changes, genuine, posts, -⟩ := posted
  obtain ⟨p', changes', genuine', posts', -⟩ := posted'
  rw [genuine] at genuine'
  cases genuine'
  exact h.posts posts posts' (rows.keys genuine)

namespace Replies

theorem atRest (h : Replies treasury client l answer l') (atRest : l.AtRest) : l'.AtRest := by
  rcases h with ⟨batch, -, -, posted⟩ | ⟨-, same⟩
  · exact posted.atRest atRest
  · exact same.atRest atRest

theorem alike_of_ne (h : Replies treasury other l answer l') (ne : other ≠ client)
    (notTreasury : client ≠ treasury) : l.Alike client l' := by
  rcases h with ⟨batch, -, rows, posted⟩ | ⟨-, same⟩
  · exact rows.alike_of_ne posted ne notTreasury
  · exact .of_eq same.accounts same.journal

/-- The same answer stands for the same rows. -/
theorem alike (alike : l.Alike client l') (h : Replies treasury client l answer l₁)
    (h' : Replies treasury client l' answer l₁') : l₁.Alike client l₁' := by
  rcases h with ⟨batch, rfl, rows, posted⟩ | ⟨⟨e, rfl⟩, same⟩
  · obtain ⟨batch', receipt, -, posted'⟩ | ⟨⟨_, ⟨⟩⟩, -⟩ := h'
    obtain rfl : batch = batch' := by
      cases batch
      cases batch'
      cases receipt
      rfl
    exact rows.alike alike posted posted'
  · obtain ⟨_, ⟨⟩, -⟩ | ⟨-, same'⟩ := h'
    exact (Alike.of_eq same.accounts same.journal).symm.trans
      (alike.trans (.of_eq same'.accounts same'.journal))

end Replies

end Ledger

namespace Desk

variable {d : Desk} {client other : ClientId} {l l' : Ledger} {answer : Except DeskError Receipt}
  {now : Instant}

theorem rowsFor_conversion (treasury : ClientId) (txId : TxId) (now : Instant)
    (kind : SettlementKind) (debit credit : Money) :
    Ledger.RowsFor treasury client (.conversion txId now kind client debit credit) := by
  intro e he
  simp only [JournalBatch.conversion, List.mem_cons, List.not_mem_nil, or_false] at he
  rcases he with rfl | rfl <;> exact .inl rfl

theorem rowsFor_externalDeposit (treasury : ClientId) (txId : TxId) (now : Instant)
    (amount : Money) :
    Ledger.RowsFor treasury client (.externalDeposit txId now treasury client amount) := by
  intro e he
  simp only [JournalBatch.externalDeposit, List.mem_cons, List.not_mem_nil, or_false] at he
  rcases he with rfl | rfl
  · exact .inr ⟨rfl, Currency.isClearing_deposit⟩
  · exact .inl rfl

theorem Settles.replies {offer : Offer} (treasury : ClientId)
    (h : Settles now client offer l answer l') : l.Replies treasury client answer l' := by
  rcases h with ⟨txId, kind, receipt, posted⟩ | failed
  · exact .inl ⟨_, receipt, rowsFor_conversion _ _ _ _ _ _, posted⟩
  · exact .inr failed

theorem PaysIn.replies {amount : Money} (h : d.PaysIn now client amount l answer l') :
    l.Replies d.settings.treasury client answer l' := by
  rcases h with ⟨txId, receipt, -, -, posted⟩ | failed
  · exact .inl ⟨_, receipt, rowsFor_externalDeposit _ _ _ _, posted⟩
  · exact .inr failed

/-! ### Errands of others -/

variable {made : List (ClientId × OfferId)} {w w' : World} {deadline : Option Nat}

/-- A look changes nothing. -/
theorem mirrors_looks {α : Type} {x : Timed α} (orderly : w.Orderly made) (h : x.Looks)
    (floor : Nat) (deadline : Option Nat) : w.Mirrors client made floor (x deadline w).2 :=
  orderly.mirrors_of_like ((h w).world deadline)

theorem mirrors_openAccount (orderly : w.Orderly made) (ne : other ≠ client) (currency : Currency)
    (floor : Nat) (deadline : Option Nat) :
    w.Mirrors client made floor (d.openAccount other currency deadline w).2 := by
  obtain ⟨beside, same | ⟨-, now, created⟩⟩ := d.openAccount_cases other currency w deadline
  · exact orderly.mirrors_of_like ⟨beside, same⟩
  · refine orderly.mirrors_of_cache ?_ beside.cache ?_
    · exact created ▸ orderly.atRest.createAccount _ now
    · exact created ▸ .createAccount_of_ne ne _ now

theorem mirrors_deposit (orderly : w.Orderly made) (ne : other ≠ client)
    (notTreasury : client ≠ d.settings.treasury) (currency : Currency) (amount : Decimal)
    (floor : Nat) (deadline : Option Nat) :
    w.Mirrors client made floor (d.deposit other currency amount deadline w).2 := by
  refine Ensures.world ((ensures_deposit orderly.atRest.sound other currency amount).mono
    (fun answer w' h => ?_) fun w' h => ?_) deadline
  · exact orderly.mirrors_of_cache (h.2.replies.atRest orderly.atRest) h.1.cache
      (h.2.replies.alike_of_ne ne notTreasury)
  · exact orderly.mirrors_of_cache (h.2.atRest orderly.atRest) h.1.cache
      (.of_eq h.2.accounts h.2.journal)

/-- A redemption of somebody else's offer by its owner. -/
theorem mirrors_redeem (orderly : w.Orderly made) (ne : other ≠ client)
    (notTreasury : client ≠ d.settings.treasury) {token : String}
    (own : ∀ m ∈ made, d.offerOf? token = some m.2 → m.1 = other) (floor : Nat)
    (deadline : Option Nat) :
    w.Mirrors client made floor (d.redeem other token deadline w).2 := by
  have settled {w' : World} (loses : d.Loses token w.cache w'.cache) (atRest : w'.ledger.AtRest)
      (alike : w.ledger.Alike client w'.ledger) : w.Mirrors client made floor w' := by
    refine ⟨orderly, orderly.of_sublist atRest loses.sublist, alike, ?_⟩
    rcases loses with same | ⟨id, names, gone⟩
    · rw [same]
      exact .refl _
    · rw [gone]
      exact .erase orderly.keyed orderly.known ne fun m hm same => own m hm (same ▸ names)
  refine Ensures.world ((ensures_redeem orderly.atRest.sound other token).mono
    (fun answer w' h => ?_) fun w' h => ?_) deadline
  · obtain ⟨-, loses, h⟩ := h
    have replies : w.ledger.Replies d.settings.treasury other answer w'.ledger := by
      rcases h with ⟨_, _, _, -, settles⟩ | failed
      · exact settles.replies _
      · exact .inr failed
    exact settled loses (replies.atRest orderly.atRest) (replies.alike_of_ne ne notTreasury)
  · exact settled h.2.1 (h.2.2.atRest orderly.atRest) (.of_eq h.2.2.accounts h.2.2.journal)

/-- What is done for others is not seen. -/
theorem mirrors_foreign (orderly : w.Orderly made) {errand : Errand}
    (foreign : errand.client? ≠ some client) (notTreasury : client ≠ d.settings.treasury)
    (notMaking : ∀ r, errand ≠ .createOffer r) (own : errand.PresentsOwn d made) (floor : Nat)
    (deadline : Option Nat) :
    w.Mirrors client made floor (d.answer errand deadline w).2 := by
  cases errand with
  | openAccount other currency =>
    rw [answer, snd_telling]
    exact mirrors_openAccount orderly (foreign <| congrArg some ·) currency floor deadline
  | deposit other currency amount =>
    rw [answer, snd_telling]
    exact mirrors_deposit orderly (foreign <| congrArg some ·) notTreasury currency amount floor
      deadline
  | createOffer r => exact absurd rfl (notMaking r)
  | redeem other token =>
    rw [answer, snd_telling]
    exact mirrors_redeem orderly (foreign <| congrArg some ·) notTreasury own
      floor deadline
  | balance other currency =>
    rw [answer, snd_telling]
    exact mirrors_looks orderly (d.looks_balance other currency) floor deadline
  | transaction other txId =>
    rw [answer, snd_telling]
    exact mirrors_looks orderly (d.looks_transaction other txId) floor deadline
  | listAccounts other cursor asked =>
    rw [answer, snd_telling]
    exact mirrors_looks orderly (d.looks_listAccounts other cursor asked) floor deadline
  | listJournal other currency query asked =>
    rw [answer, snd_telling]
    exact mirrors_looks orderly (d.looks_listJournal other currency query asked) floor deadline
  | verify txId =>
    rw [answer, snd_telling]
    exact mirrors_looks orderly (looks_verify txId) floor deadline

/-! ### Requests for offers -/

/-- What a request for an offer does to an orderly world. -/
structure Offers (d : Desk) (r : OfferRequest) (made : List (ClientId × OfferId)) (w : World)
    (answer : Option (Except DeskError Content)) (w' : World) : Prop where
  aside : w.Aside w'
  orderly : w'.Orderly (made ++ Errand.made d (.createOffer r) answer)
  /-- There is a ticket for an offer that has come into the cache, or entries have expired. -/
  cases : (∃ t, answer = some (.ok (.ticket t)) ∧ d.Makes r w t w') ∨
    OfferCache.Sweeps w'.clock w.cache.entries w'.cache.entries ∧
      Errand.made d (.createOffer r) answer = []

theorem Makes.made_eq {r : OfferRequest} {t : OfferTicket} (h : d.Makes r w t w') :
    Errand.made d (.createOffer r) (some (.ok (.ticket t))) = [(r.client, w.nextOfferId)] := by
  rw [Errand.made, h.named]
  rfl

theorem ensures_offers (orderly : w.Orderly made) (r : OfferRequest) :
    (d.answer (.createOffer r)).Ensures w (fun answer => d.Offers r made w (some answer))
      (d.Offers r made w none) := by
  have swept {w' : World} {answer : Option (Except DeskError Content)} (aside : w.Aside w')
      (sweeps : OfferCache.Sweeps w'.clock w.cache.entries w'.cache.entries)
      (none_ : Errand.made d (.createOffer r) answer = []) : d.Offers r made w answer w' := by
    refine ⟨aside, ?_, .inr ⟨sweeps, none_⟩⟩
    rw [none_, List.append_nil]
    exact orderly.of_sublist (aside.ledger ▸ orderly.atRest) sweeps.fewer
  refine Ensures.telling ((d.ensures_createOffer r).mono (fun answer w' h => ?_) fun w' h =>
    swept h.1 h.2 rfl)
  obtain ⟨aside, ⟨t, rfl, makes⟩ | ⟨⟨e, rfl⟩, sweeps⟩⟩ := h
  · refine ⟨aside, ⟨aside.ledger ▸ orderly.atRest, orderly.keyed.gains makes.gains, ?_⟩,
      .inl ⟨t, rfl, makes⟩⟩
    rw [Except.map, makes.made_eq]
    exact orderly.known.gains makes.gains
  · exact swept aside sweeps rfl

/-- An offer of somebody else's is not the client's. -/
theorem Offers.mirrors_of_ne {r : OfferRequest} {answer : Option (Except DeskError Content)}
    (h : d.Offers r made w answer w') (orderly : w.Orderly made) (ne : r.client ≠ client) :
    w.Mirrors client (made ++ Errand.made d (.createOffer r) answer) w'.clock w' := by
  refine ⟨orderly.of_subset (List.subset_append_left _ _), h.orderly,
    .of_eq (congrArg Ledger.accounts h.aside.ledger) (congrArg Ledger.journal h.aside.ledger), ?_⟩
  rcases h.cases with ⟨t, rfl, makes⟩ | ⟨sweeps, -⟩
  · refine .gains orderly.keyed makes.gains ne ?_
    rw [makes.made_eq]
    exact List.mem_append_right _ List.mem_cons_self
  · exact .of_sweeps sweeps

/-- Two worlds stay alike when the same offer is made in both. -/
theorem Offers.mirrors {r : OfferRequest} {answer : Option (Except DeskError Content)}
    {v v' : World} {floor : Nat} (h : d.Offers r made w answer v)
    (h' : d.Offers r made w' answer v')
    (mirrors : w.Mirrors client made floor w') (le : floor ≤ w.clock) (start : w.scene = w'.scene)
    (scene : v.scene = v'.scene) :
    v.Mirrors client (made ++ Errand.made d (.createOffer r) answer) v.clock v' := by
  have clock : v'.clock = v.clock := (congrArg Scene.clock scene).symm
  have le : floor ≤ v.clock := le.trans h.aside.clock
  refine ⟨h.orderly, h'.orderly, ?_, ?_⟩
  · rw [h.aside.ledger, h'.aside.ledger]
    exact mirrors.ledger
  · rcases h.cases with ⟨t, rfl, makes⟩ | ⟨sweeps, none_⟩
    · obtain ⟨t', same, makes'⟩ | ⟨-, none_⟩ := h'.cases
      · cases same
        have now : w'.now = w.now := (congrArg Scene.now start).symm
        have next : w'.nextOfferId = w.nextOfferId :=
          (congrArg (fun s : Scene => OfferId.mk (.ofRandom (s.random s.drawn))) start).symm
        have gains' := makes'.gains
        rw [now, next, clock] at gains'
        exact mirrors.cache.gains_both makes.gains gains' (List.subset_append_left _ _) le
      · rw [makes.made_eq] at none_
        cases none_
    · obtain ⟨t, rfl, makes⟩ | ⟨sweeps', -⟩ := h'.cases
      · rw [makes.made_eq] at none_
        cases none_
      · rw [clock] at sweeps'
        refine OfferCache.Agrees.mono ?_ (List.subset_append_left _ _) (Nat.le_refl _)
        exact (OfferCache.Agrees.of_sweeps sweeps).symm.trans
          ((mirrors.cache.mono (List.Subset.refl _) le).trans (.of_sweeps sweeps'))

/-- A request for an offer is answered alike. -/
theorem abreast_createOffer {floor : Nat} (mirrors : w.Mirrors client made floor w')
    (le : floor ≤ w.clock) (start : w.scene = w'.scene) (r : OfferRequest) :
    (d.answer (.createOffer r)).Abreast (d.answer (.createOffer r)) w w'
      (fun a b v v' => a = b ∧
        v.Mirrors client (made ++ Errand.made d (.createOffer r) (some a)) v.clock v')
      fun v v' => v.Mirrors client (made ++ Errand.made d (.createOffer r) none) v.clock v' := by
  have told : (d.answer (.createOffer r)).Blind := by
    refine (d.blind_createOffer r).bind fun answer => ?_
    cases answer <;> exact blind_pure _
  refine ((told w w' start).and (ensures_offers mirrors.left r)
    (ensures_offers mirrors.right r)).mono (fun a b v v' scene h => ?_) fun v v' scene h => ?_
  · obtain ⟨rfl, left, right⟩ := h
    exact ⟨rfl, left.mirrors right mirrors le start scene⟩
  · exact h.2.1.mirrors h.2.2 mirrors le start scene

end Desk

end Bureau
