import Bureau.Proofs.Calendar.Instant
import Bureau.Proofs.Desk.Annals
import Bureau.Proofs.Desk.Listing
import Bureau.Proofs.Desk.Records

/-!
# What an event adds to the books

An event opens at most one account and gives at most one receipt. The accounts that there are stay,
and the journal grows at its end by the rows of the receipt, which form the settlement that the
receipt names (`World.Grows`). `Archive` is a day at the desk together with all receipts that have
been given. An audit finds the kind of settlement of a receipt again (`Desk.verify_eq`), and every
client finds its own rows (`Desk.transaction_eq`).
-/

namespace Bureau

open Timed World

/-- The rows form the settlement that the receipt names, and all are of one moment. -/
structure Receipt.Genuine (moment : Instant) (r : Receipt) : Prop extends r.Consistent where
  dated : ∀ e ∈ r.entries, e.transactedAt = moment

namespace Event

/-- The receipts that an event gives. -/
def receipts (d : Desk) (w : World) : Event → List Receipt
  | .errand deadline (.deposit client currency amount) =>
    match d.deposit client currency amount deadline w with
    | (some (.ok receipt), _) => [receipt]
    | _ => []
  | .errand deadline (.redeem client token) =>
    match d.redeem client token deadline w with
    | (some (.ok receipt), _) => [receipt]
    | _ => []
  | _ => []

end Event

/-! ### One event -/

/-- Accounts are added behind the others, and the rows of receipts at the end of the journal. -/
structure World.Grows (w w' : World) (receipts : List Receipt) : Prop where
  accounts : w.ledger.accounts.map Account.key <+: w'.ledger.accounts.map Account.key
  journal : w'.ledger.journal = w.ledger.journal ++ receipts.flatMap Receipt.entries
  genuine : ∀ r ∈ receipts, r.Genuine w.now.toMicros

namespace Ledger

variable {l l' : Ledger} {batch : JournalBatch}

theorem HasPosted.keys (h : l.HasPosted batch l') :
    l'.accounts.map Account.key = l.accounts.map Account.key := by
  obtain ⟨p, changes, -, posts, -⟩ := h
  rw [posts.accounts, List.map_map]
  exact List.map_congr_left fun a _ => a.key_settled changes p.moment

theorem HasPosted.consistent (h : l.HasPosted batch l') :
    checkConsistency batch.entries = .ok batch.kind := by
  obtain ⟨p, changes, genuine, -⟩ := h
  obtain ⟨-, check, -⟩ := Posting.ofBatch_eq_ok genuine
  exact JournalBatch.check_eq_ok_iff.1 check

theorem keys_createAccount (l : Ledger) (key : AccountKey) (now : Instant) :
    l.accounts.map Account.key <+: (l.createAccount key now).2.accounts.map Account.key := by
  unfold createAccount
  split
  · exact List.prefix_refl _
  · dsimp only
    rw [List.map_append]
    exact List.prefix_append _ _

end Ledger

namespace World

variable {w w' : World}

theorem grows_nothing (accounts : w'.ledger.accounts = w.ledger.accounts)
    (journal : w'.ledger.journal = w.ledger.journal) : w.Grows w' [] where
  accounts := accounts ▸ List.prefix_refl _
  journal := by rw [journal, List.flatMap_nil, List.append_nil]
  genuine := fun _ h => by cases h

theorem grows_unchanged (same : w.ledger.Unchanged w'.ledger) : w.Grows w' [] :=
  grows_nothing same.accounts same.journal

theorem grows_posted {batch : JournalBatch} (posted : w.ledger.HasPosted batch w'.ledger)
    (own : ∀ e ∈ batch.entries, e.txId = batch.txId)
    (dated : ∀ e ∈ batch.entries, e.transactedAt = w.now.toMicros) :
    w.Grows w' [⟨batch.txId, batch.kind, batch.entries⟩] where
  accounts := posted.keys ▸ List.prefix_refl _
  journal := by rw [posted.journal, List.flatMap_singleton]
  genuine := fun r hr => by
    rw [List.mem_singleton.1 hr]
    exact ⟨⟨posted.consistent, own⟩, dated⟩

theorem Grows.records {receipts new : List Receipt} (grows : w.Grows w' new)
    (records : w.ledger.Records receipts) : w'.ledger.Records (receipts ++ new) where
  journal := by rw [grows.journal, records.journal, List.flatMap_append]
  consistent := fun r hr => (List.mem_append.1 hr).elim (records.consistent r) fun new =>
    (grows.genuine r new).toConsistent

theorem grows_looks {α : Type} {x : Timed α} (h : x.Looks) (deadline : Option Nat) :
    w.Grows (x deadline w).2 [] :=
  have like := (h w).world deadline
  grows_nothing (congrArg Ledger.accounts like.ledger) (congrArg Ledger.journal like.ledger)

end World

namespace Desk

variable {d : Desk} {w : World}

theorem grows_deposit (sound : w.ledger.Sound) (client : ClientId) (currency : Currency)
    (amount : Decimal) (deadline : Option Nat) :
    w.Grows (d.deposit client currency amount deadline w).2
      (Event.receipts d w (.errand deadline (.deposit client currency amount))) := by
  have ensured := ensures_deposit (d := d) sound client currency amount deadline
  simp only [Event.receipts]
  rcases result : d.deposit client currency amount deadline w with ⟨_ | e | receipt, w'⟩
  · rw [result] at ensured
    exact grows_unchanged ensured.2
  · rw [result] at ensured
    obtain ⟨-, ⟨_, ⟨⟩, -⟩ | ⟨-, same⟩⟩ := ensured
    exact grows_unchanged same
  · rw [result] at ensured
    obtain ⟨-, ⟨txId, ⟨⟩, -, -, posted⟩ | ⟨⟨_, ⟨⟩⟩, -⟩⟩ := ensured
    exact grows_posted posted (by simp [JournalBatch.externalDeposit])
      (by simp [JournalBatch.externalDeposit])

theorem grows_redeem (sound : w.ledger.Sound) (client : ClientId) (token : String)
    (deadline : Option Nat) :
    w.Grows (d.redeem client token deadline w).2
      (Event.receipts d w (.errand deadline (.redeem client token))) := by
  have ensured := ensures_redeem (d := d) sound client token deadline
  simp only [Event.receipts]
  rcases result : d.redeem client token deadline w with ⟨_ | e | receipt, w'⟩
  · rw [result] at ensured
    exact grows_unchanged ensured.2.2
  · rw [result] at ensured
    obtain ⟨-, -, ⟨_, _, _, -, ⟨_, _, ⟨⟩, -⟩ | ⟨-, same⟩⟩ | ⟨-, same⟩⟩ := ensured
    · exact grows_unchanged same
    · exact grows_unchanged same
  · rw [result] at ensured
    obtain ⟨-, -, ⟨_, _, _, -, ⟨txId, kind, ⟨⟩, posted⟩ | ⟨⟨_, ⟨⟩⟩, -⟩⟩ | ⟨⟨_, ⟨⟩⟩, -⟩⟩ := ensured
    exact grows_posted posted (by simp [JournalBatch.conversion])
      (by simp [JournalBatch.conversion])

end Desk

namespace Day

variable {d : Desk} {day : Day}

/-- Every event adds its receipts to the books, and nothing else but an account. -/
theorem grows_next (sound : day.world.Sound) (event : Event) :
    day.world.Grows (day.next d event).world (event.receipts d day.world) := by
  cases event with
  | incident incident =>
    exact grows_nothing (congrArg Ledger.accounts (incident.ledger_change day.world))
      (congrArg Ledger.journal (incident.ledger_change day.world))
  | errand deadline errand =>
    rw [next, world_serve]
    cases errand with
    | openAccount client currency =>
      rw [Desk.attempt, snd_outcome]
      obtain ⟨-, same | ⟨-, now, created⟩⟩ :=
        d.openAccount_cases client currency day.world deadline
      · exact grows_nothing (congrArg Ledger.accounts same) (congrArg Ledger.journal same)
      · refine ⟨?_, ?_, fun _ h => by cases h⟩
        · rw [created]
          exact Ledger.keys_createAccount _ _ now
        · rw [created, Ledger.journal_createAccount]
          exact (List.append_nil _).symm
    | deposit client currency amount =>
      rw [Desk.attempt, snd_outcome]
      exact Desk.grows_deposit sound.ledger client currency amount deadline
    | redeem client token =>
      rw [Desk.attempt, snd_outcome]
      exact Desk.grows_redeem sound.ledger client token deadline
    | createOffer request =>
      rw [Desk.attempt, snd_outcome]
      have aside : day.world.Aside (d.createOffer request deadline day.world).2 :=
        Ensures.world ((d.ensures_createOffer request).mono (fun _ _ h => h.1) fun _ h => h.1)
          deadline
      exact grows_nothing (congrArg Ledger.accounts aside.ledger)
        (congrArg Ledger.journal aside.ledger)
    | balance client currency =>
      rw [Desk.attempt, snd_outcome]
      exact grows_looks (d.looks_balance client currency) deadline
    | transaction client txId =>
      rw [Desk.attempt, snd_outcome]
      exact grows_looks (d.looks_transaction client txId) deadline
    | listAccounts client cursor asked =>
      rw [Desk.attempt, snd_outcome]
      exact grows_looks (d.looks_listAccounts client cursor asked) deadline
    | listJournal client currency query asked =>
      rw [Desk.attempt, snd_outcome]
      exact grows_looks (d.looks_listJournal client currency query asked) deadline
    | verify txId =>
      rw [Desk.attempt, snd_outcome]
      exact grows_looks (Desk.looks_verify txId) deadline

theorem apart_serve (sound : day.world.Sound) (deadline : Option Nat) (errand : Errand) :
    day.world.Apart (day.serve d deadline errand).world := by
  rw [world_serve]
  exact Desk.apart_attempt sound.ledger errand deadline

end Day

/-! ### Many events -/

/-- The accounts and the rows that there were are still there, in front. -/
structure Ledger.Extends (l l' : Ledger) : Prop where
  accounts : l.accounts.map Account.key <+: l'.accounts.map Account.key
  journal : l.journal <+: l'.journal

namespace Ledger.Extends

variable {l l' l'' : Ledger}

theorem refl (l : Ledger) : l.Extends l := ⟨List.prefix_refl _, List.prefix_refl _⟩

theorem trans (h : l.Extends l') (h' : l'.Extends l'') : l.Extends l'' :=
  ⟨h.accounts.trans h'.accounts, h.journal.trans h'.journal⟩

theorem exists_account (h : l.Extends l') {a : Account} (there : a ∈ l.accounts) :
    ∃ b ∈ l'.accounts, b.key = a.key :=
  List.mem_map.1 (h.accounts.subset (List.mem_map_of_mem there))

end Ledger.Extends

namespace Day

variable {d : Desk} {day : Day}

theorem extends_next (sound : day.world.Sound) (event : Event) :
    day.world.ledger.Extends (day.next d event).world.ledger := by
  have grows := grows_next (d := d) sound event
  exact ⟨grows.accounts, grows.journal ▸ List.prefix_append _ _⟩

theorem extends_foldl (sound : day.world.Sound) (events : List Event) :
    day.world.ledger.Extends (events.foldl (Day.next d) day).world.ledger := by
  induction events generalizing day with
  | nil => exact .refl _
  | cons event rest ih => exact (extends_next sound event).trans (ih (sound_next sound event))

end Day

/-! ### A day and its receipts -/

/-- A day at the desk, and all receipts that have been given, in their order. -/
structure Archive where
  day : Day
  receipts : List Receipt := []

namespace Archive

/-- The archive after an event. -/
def next (d : Desk) (s : Archive) (event : Event) : Archive where
  day := s.day.next d event
  receipts := s.receipts ++ event.receipts d s.day.world

variable {d : Desk} {s : Archive}

theorem day_foldl (events : List Event) :
    (events.foldl (Archive.next d) s).day = events.foldl (Day.next d) s.day := by
  induction events generalizing s with
  | nil => rfl
  | cons event rest ih => exact ih

/-- Receipts are only added. -/
theorem receipts_foldl (events : List Event) :
    s.receipts <+: (events.foldl (Archive.next d) s).receipts := by
  induction events generalizing s with
  | nil => exact List.prefix_refl _
  | cons event rest ih => exact (List.prefix_append _ _).trans (ih (s := s.next d event))

/-- The journal consists of the rows of the receipts, whatever happens. -/
theorem records_foldl (sound : s.day.world.Sound) (records : s.day.world.ledger.Records s.receipts)
    (events : List Event) :
    let t := events.foldl (Archive.next d) s
    t.day.world.ledger.Records t.receipts := by
  induction events generalizing s with
  | nil => exact records
  | cons event rest ih =>
    exact ih (Day.sound_next sound event) ((Day.grows_next sound event).records records)

end Archive

/-! ### Times of day -/

/-- The time of day and the moments of all rows lie in the calendar. -/
structure World.Dated (w : World) : Prop where
  now : w.now.Valid
  rows : ∀ e ∈ w.ledger.journal, e.transactedAt.Valid

/-- The time of day stays in the calendar. -/
def Event.Timely (event : Event) : Prop :=
  ∀ moment, event = .incident (.now moment) → moment.Valid

namespace Day

variable {d : Desk} {day : Day}

theorem dated_next (sound : day.world.Sound) (dated : day.world.Dated) {event : Event}
    (timely : event.Timely) : (day.next d event).world.Dated where
  now := by
    cases event with
    | errand deadline errand =>
      rw [next, (apart_serve sound deadline errand).now]
      exact dated.now
    | incident incident =>
      cases incident with
      | now moment => exact timely moment rfl
      | _ => exact dated.now
  rows := by
    have grows := grows_next (d := d) sound event
    intro e he
    rw [grows.journal] at he
    rcases List.mem_append.1 he with he | he
    · exact dated.rows e he
    · obtain ⟨r, hr, he⟩ := List.mem_flatMap.1 he
      rw [(grows.genuine r hr).dated e he]
      exact dated.now.toMicros

theorem dated_foldl (sound : day.world.Sound) (dated : day.world.Dated) {events : List Event}
    (timely : ∀ event ∈ events, event.Timely) : (events.foldl (Day.next d) day).world.Dated := by
  induction events generalizing day with
  | nil => exact dated
  | cons event rest ih =>
    exact ih (sound_next sound event) (dated_next sound dated (timely event List.mem_cons_self))
      fun e he => timely e (List.mem_cons_of_mem _ he)

end Day

/-! ### Receipts are found again

When the transactions of the journal are distinct, the rows under the identifier of a receipt are
those of the receipt. -/

namespace Desk

variable {d : Desk} {w : World} {receipts : List Receipt} {r : Receipt}

/-- An audit that nothing befalls checks the rows that are there under the identifier. -/
theorem audit_calm (calm : w.Calm .journalFor) (txId : TxId) (deadline : Option Nat) :
    audit txId deadline w = (some (match checkConsistency (w.ledger.journalFor txId) with
      | .error e => .error (.inconsistent e.message)
      | .ok kind => .ok kind), w) := by
  rw [audit, bind_apply, Ledger.query_calm calm]
  dsimp only
  cases checkConsistency (w.ledger.journalFor txId) <;> rfl

/-- An audit that nothing befalls names the kind that the receipt names. -/
theorem verify_eq (records : w.ledger.Records receipts) (distinct : w.ledger.postings.Nodup)
    (calm : w.Calm .journalFor) (there : r ∈ receipts) (deadline : Option Nat) :
    verify r.txId deadline w = (some (.ok r.kind), w) := by
  rw [verify, bind_apply, audit_calm calm, records.journalFor_eq distinct there,
    (records.consistent r there).consistent]
  rfl

/-- A client is shown those rows of a receipt that are its own, if there are any. -/
theorem transaction_eq (records : w.ledger.Records receipts) (distinct : w.ledger.postings.Nodup)
    (calm : w.Calm .journalFor) (there : r ∈ receipts) (client : ClientId)
    (deadline : Option Nat) :
    d.transaction client r.txId deadline w =
      (some (if (r.entries.filter (·.client = client)).isEmpty then
        .error (.invalid "tx_id" "unknown transaction")
      else .ok (r.entries.filter (·.client = client))), w) := by
  rw [transaction, bind_apply, d.ledgerRead_calm calm]
  simp only [records.journalFor_eq distinct there]
  split <;> rfl

end Desk

end Bureau
