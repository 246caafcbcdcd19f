import Bureau.Desk.Basic
import Bureau.Wire.Ledger

/-!
# Listings

Accounts and journal rows are listed page by page. Every page asks for one row more than it shows;
if that row comes, its place goes into the cursor for the next page, which the client carries as a
token. The number of rows is a word, and a listing whose word has no room for the further row
crashes. A cursor is taken wherever it opens and has the right form, so it is the client's own
identity that decides whose rows are shown.
-/

namespace Bureau

/-- Where a listing of accounts goes on. -/
structure AccountCursor where
  start : Currency

/-- Where a listing of journal rows goes on. -/
structure JournalCursor where
  window : Window
  start : JournalKey

namespace Wire

instance : Wire AccountCursor where
  encode c := .record [("from", encode c.start)]
  decode := Json.record? ((field "from").map AccountCursor.mk)

instance : Wire JournalCursor where
  encode c := .record [("window", encode c.window), ("from", encode c.start)]
  decode := Json.record? <|
    ((field "window").pair (field "from")).map fun (window, start) => ⟨window, start⟩

end Wire

/-- One page of a listing. -/
structure Page (α : Type) where
  items : List α
  /-- The token for the next page, unless this is the last. -/
  nextCursor : Option String
  /-- Number of rows that a full page has. -/
  size : Nat

namespace Page

variable {α : Type}

/-- There are rows behind the page; a cursor says where. -/
def hasMore (p : Page α) : Bool := p.nextCursor.isSome

/-- The link to the next page of a path. -/
def link? (p : Page α) (path : String) : Option String :=
  p.nextCursor.map fun cursor =>
    path ++ "?pageCursor=" ++ cursor ++ "&pageSize=" ++ Nat.repr p.size

/-- The JSON form of a page. -/
def json (item : α → Json) (p : Page α) : Json :=
  .record [("items", .list (p.items.map item)),
    ("next_cursor", p.nextCursor.elim .null .string), ("page_size", .nat p.size)]

/-- The rows of a page, and the first row after it. -/
def split (size : Nat) (rows : List α) : List α × Option α :=
  (rows.take size, rows[size]?)

end Page

/-- Which rows of an account to list: those behind a cursor, or else those of a month. -/
structure JournalQuery where
  cursor : Option String := none
  year : Option Int := none
  month : Option Nat := none
  /-- Seconds ahead of UTC at which the month is taken. -/
  utcOffset : Option Int := none

namespace Desk

open Timed

/-- The size of a page: at least one row and at most as many as the settings allow. -/
def pageSize (d : Desk) (asked : Int) : Nat :=
  if asked < 1 then d.settings.defaultPageSize else min asked.toNat d.settings.maxPageSize

/-- How many rows to ask the ledger for: one more than the page shows. -/
def rowsToAsk (size : Nat) : Except SumOverflow Nat := addWords size 1

/-- The one answer to cursors of every kind that cannot be used. -/
def cursorFault : DeskError := .invalid "pageCursor" "invalid page cursor or page size"

/-- What a cursor token holds. -/
def openCursor (α : Type) [Wire α] (d : Desk) (token : String) : Except DeskError α :=
  match d.codec.openAs .cursor token with
  | .error _ => .error cursorFault
  | .ok bytes =>
    match Bytes.toString? bytes with
    | none => .error cursorFault
    | some text =>
      match Json.decode (Wire.decode (α := α)) text with
      | .error _ => .error cursorFault
      | .ok cursor => .ok cursor

/-- The token of a cursor. -/
def sealCursor {α : Type} [Wire α] (d : Desk) (cursor : α) : Timed String := do
  return d.codec.sealAs .cursor (← freshNonce) (Bytes.ofString (Wire.encode cursor).compress)

/-- The page of some rows, with the cursor of the row after them. -/
def page {α κ : Type} [Wire κ] (d : Desk) (size : Nat) (rows : List α) (cursor : α → κ) :
    Timed (Page α) := do
  let (items, next) := Page.split size rows
  match next with
  | none => return ⟨items, none, size⟩
  | some row => return ⟨items, some (← d.sealCursor (cursor row)), size⟩

/-- The currency at which a listing of accounts starts. -/
def accountStart (d : Desk) (cursor : Option String) : Except DeskError (Option Currency) :=
  match cursor with
  | none => .ok none
  | some token => (d.openCursor AccountCursor token).map (some ·.start)

/-- A page of a client's accounts, in the order of currency codes. -/
def listAccounts (d : Desk) (client : ClientId) (cursor : Option String) (asked : Int) :
    Timed (Except DeskError (Page Account)) := do
  let size := d.pageSize asked
  match d.accountStart cursor with
  | .error e => return .error e
  | .ok start =>
    match rowsToAsk size with
    | .error overflow => crash overflow
    | .ok limit =>
      match ← d.ledgerRead (Ledger.query .accountsPage (·.accountsPage client start limit)) with
      | .error e => return .error e
      | .ok rows => return .ok (← d.page size rows fun a => AccountCursor.mk a.currency)

/-- The window of the month that a query names. -/
def monthWindow (d : Desk) (q : JournalQuery) : Except DeskError Window :=
  match q.year, q.month with
  | some year, some month =>
    let ahead := q.utcOffset.getD d.settings.utcOffset
    if q.utcOffset.isSome ∧ (ahead ≤ -86400 ∨ 86400 ≤ ahead) then
      .error (.invalid "offset" "UTC offset out of range")
    else
      match Window.ofMonth? year month ahead with
      | none => .error (.invalid "month" "invalid year or month")
      | some window => .ok window
  | _, _ => .error (.invalid "month" "a page cursor or both year and month are required")

/-- The window of a listing of journal rows, and where in it the listing starts. -/
def journalStart (d : Desk) (q : JournalQuery) :
    Except DeskError (Window × Option JournalKey) :=
  match q.cursor with
  | some token => (d.openCursor JournalCursor token).map fun c => (c.window, some c.start)
  | none => (d.monthWindow q).map fun window => (window, none)

/-- A page of the rows of an account, in the order of posting. -/
def listJournal (d : Desk) (client : ClientId) (currency : Currency) (q : JournalQuery)
    (asked : Int) : Timed (Except DeskError (Page JournalEntry)) := do
  let size := d.pageSize asked
  match d.journalStart q with
  | .error e => return .error e
  | .ok (window, start) =>
    match rowsToAsk size with
    | .error overflow => crash overflow
    | .ok limit =>
      let rows := Ledger.query .journalPage (·.journalPage ⟨client, currency⟩ window start limit)
      match ← d.ledgerRead rows with
      | .error e => return .error e
      | .ok rows =>
        return .ok (← d.page size rows fun e => JournalCursor.mk window (.ofEntry e))

end Desk

end Bureau
