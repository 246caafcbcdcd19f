import Bureau.Proofs.Calendar.Month
import Bureau.Proofs.Desk.Accounts
import Bureau.Proofs.Desk.Undisturbed
import Bureau.Proofs.Ledger.LockOrder
import Bureau.Proofs.Token
import Bureau.Proofs.Wire

/-!
# Pages

A page is made of the first of some rows and of the sealed place of the row behind them
(`Desk.ensures_page`), and both listings make one of the rows that they ask the ledger for. The
cursor that a page carries opens to that place (`Desk.openCursor_sealAs`). So a page shows the rows
from a place on, as many as were asked for and at least one, and tells where to go on
(`Page.Shows`). A listing that nothing befalls is answered at once.
-/

namespace Bureau

open Timed World

/-! ### Cursors -/

namespace Wire

open Json (record?)

theorem encode_accountCursor (c : AccountCursor) :
    encode c = .record [("from", encode c.start)] := rfl

theorem decode_accountCursor : decode (α := AccountCursor) =
    record? ((field "from").map AccountCursor.mk) := rfl

theorem faithful_accountCursor (c : AccountCursor) : Faithful c where
  reads := by
    rw [encode_accountCursor]
    exact reads_field (faithful_currency c.start).reads
  decodes := by
    rw [encode_accountCursor, decode_accountCursor]
    exact decodes_field (faithful_currency c.start) _

theorem encode_journalCursor (c : JournalCursor) :
    encode c = .record [("window", encode c.window), ("from", encode c.start)] := rfl

theorem decode_journalCursor : decode (α := JournalCursor) =
    record? (((field "window").pair (field "from")).map fun (window, start) => ⟨window, start⟩) :=
  rfl

theorem reads_journalCursor (c : JournalCursor) : (encode c).Reads := by
  rw [encode_journalCursor]
  exact reads_pair (reads_window c.window) (reads_journalKey c.start)

theorem faithful_journalCursor {c : JournalCursor} (start : c.window.start.Valid)
    (stop : c.window.stop.Valid) (moment : c.start.transactedAt.Valid) : Faithful c where
  reads := reads_journalCursor c
  decodes := by
    rw [encode_journalCursor, decode_journalCursor]
    exact decodes_pair (by decide) (faithful_window start stop) (faithful_journalKey moment) _

end Wire

namespace Desk

variable {d : Desk} {κ : Type} [Wire κ]

/-- A sealed cursor opens to what was sealed. -/
theorem openCursor_sealAs {cursor : κ} (faithful : Wire.Faithful cursor) {nonce : Bytes}
    (length : nonce.length = Gcm.nonceLength) :
    d.openCursor κ (d.codec.sealAs .cursor nonce
      (Bytes.ofString (Wire.encode cursor).compress)) = .ok cursor := by
  unfold openCursor
  rw [TokenCodec.openAs_sealAs length]
  simp only [Bytes.toString?_ofString, faithful.decode_compress]

/-- A query that is accepted names a year and a month, and the window is that of this month. -/
theorem monthWindow_eq_ok_iff {query : JournalQuery} {window : Window} :
    d.monthWindow query = .ok window ↔ ∃ year month, query.year = some year ∧
      query.month = some month ∧
      Window.ofMonth? year month (query.utcOffset.getD d.settings.utcOffset) = some window := by
  constructor
  · intro h
    unfold monthWindow at h
    split at h
    · rename_i year month named named'
      dsimp only at h
      split at h
      · cases h
      · split at h
        · cases h
        · rename_i found
          cases h
          exact ⟨year, month, named, named', found⟩
    · cases h
  · rintro ⟨year, month, named, named', found⟩
    -- A month has no window where the clocks are a day apart or more.
    have small := (Window.ofMonth?_eq_some_iff.1 found).1.lessThanADay
    simp only [monthWindow, named, named']
    rw [if_neg (by omega), found]

/-! ### Sizes -/

/-- In settings that are accepted, the default page has a row and is no longer than any may be. -/
theorem defaultPageSize_bounds (accepted : d.settings.fault? = none) :
    1 ≤ d.settings.defaultPageSize ∧ d.settings.defaultPageSize ≤ d.settings.maxPageSize := by
  unfold Settings.fault? at accepted
  repeat'
    split at accepted
    · cases accepted
  omega

/-- Whatever is asked for, a page has room for at least one row and for no more than may be. -/
theorem pageSize_bounds (accepted : d.settings.fault? = none) (asked : Int) :
    1 ≤ d.pageSize asked ∧ d.pageSize asked ≤ d.settings.maxPageSize := by
  have := defaultPageSize_bounds accepted
  unfold pageSize
  split <;> omega

/-- As long as one row more can be counted, that many are asked for. -/
theorem rowsToAsk_eq {size : Nat} (room : size + 1 < twoTo 64) : rowsToAsk size = .ok (size + 1) :=
  if_pos room

/-- Otherwise there is no such number. -/
theorem rowsToAsk_overflow {size : Nat} (full : twoTo 64 ≤ size + 1) :
    rowsToAsk size = .error .count :=
  if_neg (Nat.not_lt.2 full)

theorem eq_of_rowsToAsk {size limit : Nat} (h : rowsToAsk size = .ok limit) : limit = size + 1 := by
  unfold rowsToAsk addWords at h
  split at h
  · cases h
    rfl
  · cases h

/-- The settings are accepted, and a page of any size leaves room in 64 bits for one row more. -/
structure Pages (d : Desk) : Prop where
  accepted : d.settings.fault? = none
  small : d.settings.maxPageSize < twoTo 64 - 1

namespace Pages

variable (pages : d.Pages) (asked : Int)

include pages

theorem pageSize_pos : 1 ≤ d.pageSize asked := (pageSize_bounds pages.accepted asked).1

theorem room : d.pageSize asked + 1 < twoTo 64 := by
  have := (pageSize_bounds pages.accepted asked).2
  have := pages.small
  omega

end Pages

end Desk

/-! ### Pages -/

namespace Page

variable {α κ : Type} [Wire κ]

/-- The page has been made of some rows: it has the first of them, as many as fit, and its cursor is
the sealed place of the row behind them. -/
structure Made (d : Desk) (size : Nat) (rows : List α) (place : α → κ) (p : Page α) : Prop where
  items : p.items = rows.take size
  sized : p.size = size
  last : rows[size]? = none → p.nextCursor = none
  more : ∀ row, rows[size]? = some row →
    ∃ nonce : Bytes, nonce.length = Gcm.nonceLength ∧ p.nextCursor = some
      (d.codec.sealAs .cursor nonce (Bytes.ofString (Wire.encode (place row)).compress))

/-- The page shows the first of some rows, as many as fit, and its cursor is that of the row behind
them. -/
structure Shows (d : Desk) (size : Nat) (rows : List α) (place : α → κ) (p : Page α) : Prop where
  items : p.items = rows.take size
  last : rows[size]? = none → p.nextCursor = none
  more : ∀ row, rows[size]? = some row →
    ∃ token, p.nextCursor = some token ∧ d.openCursor κ token = .ok (place row)

theorem Made.shows {d : Desk} {size : Nat} {rows : List α} {place : α → κ} {p : Page α}
    (h : p.Made d size rows place) (faithful : ∀ row ∈ rows, Wire.Faithful (place row)) :
    p.Shows d size rows place where
  items := h.items
  last := h.last
  more row next := by
    obtain ⟨nonce, length, cursor⟩ := h.more row next
    exact ⟨_, cursor, Desk.openCursor_sealAs (faithful row (List.mem_of_getElem? next)) length⟩

/-- A page does not depend on rows that are not even looked at. -/
theorem Shows.of_take {d : Desk} {size : Nat} {rows : List α} {place : α → κ} {p : Page α}
    (h : p.Shows d size (rows.take (size + 1)) place) : p.Shows d size rows place := by
  have next : (rows.take (size + 1))[size]? = rows[size]? :=
    List.getElem?_take_of_lt (Nat.lt_succ_self size)
  refine ⟨?_, next ▸ h.last, next ▸ h.more⟩
  rw [h.items, List.take_take, Nat.min_eq_left (Nat.le_succ size)]

end Page

namespace Desk

variable {d : Desk} {w : World} {α κ : Type} [Wire κ]

theorem ensures_page (size : Nat) (rows : List α) (place : α → κ) {cut : World → Prop} :
    (d.page size rows place).Ensures w (fun p _ => p.Made d size rows place) cut := by
  unfold page Page.split
  dsimp only
  cases next : rows[size]? with
  | none =>
    refine ensures_pure ⟨rfl, rfl, fun _ => rfl, fun row h => ?_⟩
    rw [next] at h
    cases h
  | some row =>
    have cursor : (d.sealCursor (place row)).Ensures w
        (fun token _ => ∃ nonce : Bytes, nonce.length = Gcm.nonceLength ∧ token =
          d.codec.sealAs .cursor nonce (Bytes.ofString (Wire.encode (place row)).compress)) cut :=
      Ensures.bind (ensures_freshNonce (Q := fun nonce _ => nonce.length = Gcm.nonceLength)
        fun n => Bytes.length_ofNat _ _) fun nonce w' length => ensures_pure ⟨nonce, length, rfl⟩
    refine Ensures.bind cursor fun token w' sealed => ?_
    obtain ⟨nonce, length, rfl⟩ := sealed
    refine ensures_pure ⟨rfl, rfl, fun h => ?_, fun row' h => ?_⟩
    · rw [next] at h
      cases h
    · rw [next] at h
      cases h
      exact ⟨nonce, length, rfl⟩

end Desk

/-! ### Reads that nothing befalls -/

/-- No mishap waits for a call. -/
def World.Calm (w : World) (name : LedgerCall) : Prop := ∀ c ∈ w.mishaps.ledger, c.1 ≠ name

namespace Ledger

variable {α : Type} {w : World} {name : LedgerCall}

theorem pop_calm (calm : w.Calm name) : pop name w = (none, w) := by
  have nothing : ∀ waiting : List (LedgerCall × Mishap LedgerError),
      (∀ c ∈ waiting, c.1 ≠ name) → popFor name waiting = (none, waiting) := by
    intro waiting other
    induction waiting with
    | nil => rfl
    | cons first rest ih =>
      rw [popFor, if_neg (other first List.mem_cons_self),
        ih fun c hc => other c (List.mem_cons_of_mem _ hc)]
  rw [pop, nothing _ calm]

theorem query_calm (calm : w.Calm name) (f : Ledger → α) (deadline : Option Nat) :
    query name f deadline w = (some (.ok (f w.ledger)), w) := by
  have suffered : suffer (pop name) deadline w = (some none, w) := by
    rw [suffer, bind_apply, act, pop_calm calm]
    rfl
  rw [query, call, bind_apply, suffered]
  rfl

end Ledger

namespace Desk

variable {d : Desk} {w : World} {α : Type} {name : LedgerCall}

theorem ledgerRead_calm (calm : w.Calm name) (f : Ledger → α) (deadline : Option Nat) :
    d.ledgerRead (Ledger.query name f) deadline w = (some (.ok (f w.ledger)), w) := by
  rw [ledgerRead, bind_apply, within_eq (Ledger.query_calm calm f)]
  rfl

/-- Otherwise what is read is what the ledger holds, or there is an error. -/
theorem ensures_ledgerRead (name : LedgerCall) (f : Ledger → α) :
    (d.ledgerRead (Ledger.query name f)).Yields w
      (fun found w' => found = f w.ledger ∧ w.Still w') w.Still := by
  refine yields_ledgerRead ?_
  refine Ensures.bind (still_suffer (Still.refl w) (w.still_pop name)) fun error w' hw' => ?_
  cases error with
  | some e => exact ensures_pure hw'
  | none => exact ensures_act ⟨congrArg f hw'.ledger, hw'⟩

/-- Reading rows of the ledger and making a page of them. -/
theorem ensures_page_of_read {κ : Type} [Wire κ] (name : LedgerCall) (f : Ledger → List α)
    (size : Nat) (place : α → κ) {go : Except DeskError (List α) →
      Timed (Except DeskError (Page α))} (failed : ∀ e, go (.error e) = pure (.error e))
    (found : ∀ rows, go (.ok rows) = do return .ok (← d.page size rows place)) :
    (d.ledgerRead (Ledger.query name f) >>= go).Ensures w
      (fun answer _ => ∀ p, answer = .ok p → p.Made d size (f w.ledger) place) fun _ => True := by
  have read := d.ensures_ledgerRead (w := w) name f
  refine Ensures.bind (read.mono (fun _ _ h => h.1) fun _ _ => trivial) fun answer w' h => ?_
  cases answer with
  | error e =>
    rw [failed]
    exact ensures_pure fun p hp => by cases hp
  | ok rows =>
    cases h
    rw [found]
    refine Ensures.bind (d.ensures_page _ _ _) fun p w'' made => ensures_pure fun q hq => ?_
    cases hq
    exact made

theorem listAccounts_of_refused {cursor : Option String} {e : DeskError}
    (refused : d.accountStart cursor = .error e) (client : ClientId) (asked : Int) :
    d.listAccounts client cursor asked = pure (.error e) := by
  unfold listAccounts
  simp only [refused]

theorem listJournal_of_refused {query : JournalQuery} {e : DeskError}
    (refused : d.journalStart query = .error e) (client : ClientId) (currency : Currency)
    (asked : Int) : d.listJournal client currency query asked = pure (.error e) := by
  unfold listJournal
  simp only [refused]

/-- A page of accounts is made of what the ledger has been asked for. -/
theorem ensures_accountsPage {cursor : Option String} {start : Option Currency}
    (opens : d.accountStart cursor = .ok start) (client : ClientId) (asked : Int) :
    (d.listAccounts client cursor asked).Ensures w
      (fun answer _ => ∀ p, answer = .ok p → p.Made d (d.pageSize asked)
        (w.ledger.accountsPage client start (d.pageSize asked + 1))
        (AccountCursor.mk ·.currency)) fun _ => True := by
  unfold listAccounts
  simp only [opens]
  cases asking : rowsToAsk (d.pageSize asked) with
  | error overflow => exact ensures_crash trivial
  | ok limit =>
    obtain rfl := eq_of_rowsToAsk asking
    exact ensures_page_of_read .accountsPage
      (·.accountsPage client start (d.pageSize asked + 1)) (d.pageSize asked)
      (AccountCursor.mk ·.currency) (fun _ => rfl) fun _ => rfl

/-- A page of journal rows is made of what the ledger has been asked for. -/
theorem ensures_journalPage {query : JournalQuery} {window : Window} {start : Option JournalKey}
    (opens : d.journalStart query = .ok (window, start)) (client : ClientId) (currency : Currency)
    (asked : Int) :
    (d.listJournal client currency query asked).Ensures w
      (fun answer _ => ∀ p, answer = .ok p → p.Made d (d.pageSize asked)
        (w.ledger.journalPage ⟨client, currency⟩ window start (d.pageSize asked + 1))
        fun e => JournalCursor.mk window (.ofEntry e)) fun _ => True := by
  unfold listJournal
  simp only [opens]
  cases asking : rowsToAsk (d.pageSize asked) with
  | error overflow => exact ensures_crash trivial
  | ok limit =>
    obtain rfl := eq_of_rowsToAsk asking
    exact ensures_page_of_read .journalPage
      (·.journalPage ⟨client, currency⟩ window start (d.pageSize asked + 1)) (d.pageSize asked)
      (fun e => JournalCursor.mk window (.ofEntry e)) (fun _ => rfl) fun _ => rfl

theorem page_isSome {κ : Type} [Wire κ] (size : Nat) (rows : List α) (place : α → κ)
    (deadline : Option Nat) (w : World) :
    ∃ p w', d.page size rows place deadline w = (some p, w') := by
  unfold page Page.split
  dsimp only
  cases rows[size]? with
  | none => exact ⟨_, _, rfl⟩
  | some row => exact ⟨_, _, rfl⟩

end Desk

end Bureau
