import Bureau.Proofs.Calendar.Instant
import Bureau.Proofs.Desk.Walk

/-!
# Walking through the rows of an account

The cursor of a page of journal rows carries the window of the first page and the place of the next
row, so whatever month is named along with a cursor, the walk goes on where it stood. Rows that are
posted between the pages may be shown or not, but no row is shown twice, and every row that was
there at the start is shown before the walk is over (`Walk.journal_listed_once`).
-/

namespace Bureau

open Timed World

/-- The window of a month that has both its ends in the calendar. -/
structure Window.Valid (window : Window) : Prop where
  start : window.start.Valid
  stop : window.stop.Valid

theorem Window.valid_of_ofMonth? {year : Int} {month : Nat} {ahead : Int} {window : Window}
    (h : ofMonth? year month ahead = some window) : window.Valid := by
  obtain ⟨begins, ends, rfl⟩ := ofMonth?_eq_some_iff.1 h
  exact ⟨Instant.valid_whole begins.seconds, Instant.valid_whole ends.seconds⟩

namespace Desk

variable {d : Desk} {w : World} {query : JournalQuery} {window : Window}
  {start : Option JournalKey}

theorem valid_of_monthWindow (h : d.monthWindow query = .ok window) : window.Valid := by
  obtain ⟨year, month, -, -, found⟩ := monthWindow_eq_ok_iff.1 h
  exact Window.valid_of_ofMonth? found

/-- The rows on a page, and where the next begins. -/
theorem ensures_listJournal (opens : d.journalStart query = .ok (window, start))
    (valid : window.Valid) (dated : w.Dated) (client : ClientId) (currency : Currency)
    (asked : Int) :
    (d.listJournal client currency query asked).Ensures w
      (fun answer _ => ∀ p, answer = .ok p →
        p.Shows d (d.pageSize asked) (w.ledger.rowsFrom ⟨client, currency⟩ window start)
          fun e => JournalCursor.mk window (.ofEntry e))
      fun _ => True := by
  refine (ensures_journalPage opens client currency asked).mono (fun answer _ h p hp => ?_)
    fun _ h => h
  have made := h p hp
  rw [Ledger.journalPage_eq] at made
  refine (made.shows fun e he => ?_).of_take
  obtain ⟨⟨posted, -⟩, -⟩ := Ledger.mem_rowsFrom.1 (List.mem_of_mem_take he)
  exact Wire.faithful_journalCursor valid.start valid.stop (dated.rows e posted)

/-- Nothing but a mishap keeps a page from being answered that leaves room for one row more. -/
theorem listJournal_calm (opens : d.journalStart query = .ok (window, start))
    (calm : w.Calm .journalPage) (client : ClientId) (currency : Currency) {asked : Int}
    (room : d.pageSize asked + 1 < twoTo 64) (deadline : Option Nat) :
    ∃ p w', d.listJournal client currency query asked deadline w = (some (.ok p), w') := by
  unfold listJournal
  simp only [opens, rowsToAsk_eq room, bind_apply, d.ledgerRead_calm calm]
  obtain ⟨p, w', page⟩ := d.page_isSome (d.pageSize asked)
    (w.ledger.journalPage ⟨client, currency⟩ window start (d.pageSize asked + 1))
    (fun e => JournalCursor.mk window (.ofEntry e)) deadline w
  rw [page]
  exact ⟨p, w', rfl⟩

end Desk

namespace Ledger

variable {l l' : Ledger}

theorem Extends.postings (h : l.Extends l') (distinct : l'.postings.Nodup) : l.postings.Nodup :=
  distinct.sublist ((h.journal.sublist.filter _).map _)

/-- A row of an account is told from the others by its place. -/
theorem Separate.eq_of_ofEntry_eq {key : AccountKey} (separate : l.Separate key)
    {a b : JournalEntry} (ha : a ∈ l.journal) (hb : b ∈ l.journal) (ownA : a.key = key)
    (ownB : b.key = key) (same : JournalKey.ofEntry a = JournalKey.ofEntry b) : a = b :=
  List.inj_on_of_nodup_map (List.pairwise_map.2 separate)
    (List.mem_filter.2 ⟨ha, by simpa using ownA⟩) (List.mem_filter.2 ⟨hb, by simpa using ownB⟩)
    same

/-- The rows of an account within a window, in the order of posting. -/
def rowsIn (l : Ledger) (key : AccountKey) (window : Window) : List JournalEntry :=
  l.journal.filter fun e => e.key = key && window.contains e.transactedAt

theorem mem_rowsIn {key : AccountKey} {window : Window} {e : JournalEntry} :
    e ∈ l.rowsIn key window ↔ e ∈ l.journal ∧ e.key = key ∧ window.contains e.transactedAt := by
  simp [rowsIn]

theorem Separate.nodup_rowsIn {key : AccountKey} (separate : l.Separate key) (window : Window) :
    (l.rowsIn key window).Nodup := by
  have fewer : l.rowsIn key window =
      (l.journal.filter (·.key = key)).filter fun e => window.contains e.transactedAt := by
    rw [rowsIn, List.filter_filter]
    exact List.filter_congr fun e _ => Bool.and_comm _ _
  rw [fewer]
  exact (separate.imp fun different same => different (congrArg _ same)).filter _

theorem Extends.rowsIn (h : l.Extends l') {key : AccountKey} {window : Window} {e : JournalEntry}
    (there : e ∈ l.rowsIn key window) : e ∈ l'.rowsIn key window :=
  mem_rowsIn.2 ((mem_rowsIn.1 there).imp_left fun posted => h.journal.subset posted)

end Ledger

/-- A leg of a walk through the rows of an account, and the query that goes along with the
cursor. -/
structure JournalLeg extends Leg where
  query : JournalQuery := {}

/-- The events of the leg keep the time of day in the calendar. -/
def JournalLeg.Timely (leg : JournalLeg) : Prop := ∀ event ∈ leg.before, event.Timely

namespace Walk

/-- What is asked for: the first query, or another one along with a cursor. -/
def asks (first query : JournalQuery) (cursor : Option String) : JournalQuery :=
  { (if cursor.isNone then first else query) with cursor }

/-- A leg of a walk through the rows of an account. -/
def journal (d : Desk) (client : ClientId) (currency : Currency) (first : JournalQuery)
    (walk : Walk JournalEntry) (leg : JournalLeg) : Walk JournalEntry :=
  walk.step d (fun cursor => d.listJournal client currency (asks first leg.query cursor) leg.asked)
    leg.toLeg

variable {d : Desk} {client : ClientId} {currency : Currency} {first : JournalQuery}
  {window : Window} {w : World} {walk : Walk JournalEntry} {leg : JournalLeg}
  {receipts : List Receipt}

/-- What every leg keeps of a walk that began in a world, however the rows are posted. -/
structure JournalInv (d : Desk) (key : AccountKey) (first : JournalQuery) (window : Window)
    (w : World) (walk : Walk JournalEntry) : Prop where
  sound : walk.world.Sound
  dated : walk.world.Dated
  records : ∃ receipts, walk.world.ledger.Records receipts
  kept : w.ledger.Extends walk.world.ledger
  rows : ∀ e ∈ walk.shown, e ∈ walk.world.ledger.rowsIn key window
  stands : walk.Stands
    (fun cursor place => ∀ query, d.journalStart (asks first query cursor) = .ok (window, place))
    JournalKey.ofEntry (· ∈ w.ledger.rowsIn key window)

theorem journalInv_start (sound : w.Sound) (dated : w.Dated)
    (records : ∃ receipts, w.ledger.Records receipts) (month : d.monthWindow first = .ok window)
    (key : AccountKey) : JournalInv d key first window w { world := w } where
  sound
  dated
  records
  kept := .refl _
  rows := fun _ h => by cases h
  stands := by
    refine ⟨fun _ => ⟨none, fun query => ?_, progress_start⟩, fun h => by cases h⟩
    change (d.monthWindow first).map (fun window => (window, none)) = _
    rw [month]
    rfl

/-- The rows that a page is taken from. -/
theorem behind_rowsFrom {w' : World} {key : AccountKey} (separate : w'.ledger.Separate key)
    (kept : w.ledger.Extends w'.ledger) (place : Option JournalKey) :
    Behind JournalKey.ofEntry (· ∈ w.ledger.rowsIn key window) (w'.ledger.rowsFrom key window place)
      place where
  ascending := Ledger.ascending_rowsFrom separate window place
  behind := fun _ he => (Ledger.mem_rowsFrom.1 he).2
  all := fun e due after =>
    ⟨e, Ledger.mem_rowsFrom.2 ⟨Ledger.mem_rowsIn.1 (kept.rowsIn due), after⟩, rfl⟩

theorem went_journal (walk : Walk JournalEntry) (leg : JournalLeg) :
    Went d (fun cursor => d.listJournal client currency (asks first leg.query cursor) leg.asked)
      walk leg.toLeg (walk.journal d client currency first leg) :=
  went_step (fun cursor =>
    d.looks_listJournal client currency (asks first leg.query cursor) leg.asked) walk leg.toLeg

theorem journalShows_of_answer (valid : window.Valid) {w w' : World}
    (dated : w.Dated) {query : JournalQuery} {place : Option JournalKey}
    (opens : d.journalStart query = .ok (window, place)) {asked : Int} {deadline : Option Nat}
    {page : Page JournalEntry}
    (answer : d.listJournal client currency query asked deadline w = (some (.ok page), w')) :
    page.Shows d (d.pageSize asked) (w.ledger.rowsFrom ⟨client, currency⟩ window place)
      fun e => JournalCursor.mk window (.ofEntry e) := by
  have ensured := d.ensures_listJournal (w := w) opens valid dated client currency asked deadline
  rw [answer] at ensured
  exact ensured page rfl

theorem like_journal (d : Desk) (client : ClientId) (currency : Currency) (first : JournalQuery)
    (walk : Walk JournalEntry) (leg : JournalLeg) :
    (walk.ahead d leg.toLeg).Like (walk.journal d client currency first leg).world :=
  like_step (fun cursor =>
    d.looks_listJournal client currency (asks first leg.query cursor) leg.asked) walk leg.toLeg

theorem JournalInv.step (valid : window.Valid)
    (inv : JournalInv d ⟨client, currency⟩ first window w walk) (timely : leg.Timely)
    (distinct : (walk.ahead d leg.toLeg).ledger.postings.Nodup) :
    JournalInv d ⟨client, currency⟩ first window w
      (walk.journal d client currency first leg) := by
  have sound := sound_ahead (d := d) inv.sound leg.toLeg
  have dated : (walk.ahead d leg.toLeg).Dated :=
    @Day.dated_foldl d { world := walk.world } inv.sound inv.dated leg.before timely
  obtain ⟨receipts, records⟩ := records_ahead (d := d) inv.sound inv.records leg.toLeg
  have grown := extends_ahead (d := d) inv.sound leg.toLeg
  have kept := inv.kept.trans grown
  have rows : ∀ e ∈ walk.shown,
      e ∈ (walk.ahead d leg.toLeg).ledger.rowsIn ⟨client, currency⟩ window :=
    fun e he => grown.rowsIn (inv.rows e he)
  have went : Went d _ walk leg.toLeg (walk.journal d client currency first leg) :=
    went_journal walk leg
  generalize walk.journal d client currency first leg = next at went
  cases went with
  | stayed like =>
    exact ⟨sound.like like, dated.like like, ⟨receipts, like.ledger ▸ records⟩,
      like.ledger ▸ kept, like.ledger ▸ rows, inv.stands.under, inv.stands.finished⟩
  | went like under answer =>
    obtain ⟨place, opens, progress⟩ := inv.stands.under under
    have shows := journalShows_of_answer valid dated (opens leg.query) answer
    have separate := records.separate distinct ⟨client, currency⟩
    refine {
      sound := sound.like like
      dated := dated.like like
      records := ⟨receipts, like.ledger ▸ records⟩
      kept := like.ledger ▸ kept
      rows := like.ledger ▸ fun e he => ?_
      stands := stands_went progress (behind_rowsFrom separate kept place) shows
        (fun row token opened query => ?_) _ }
    · rcases List.mem_append.1 he with he | he
      · exact rows e he
      · rw [shows.items] at he
        exact Ledger.mem_rowsIn.2 (Ledger.mem_rowsFrom.1 (List.mem_of_mem_take he)).1
    · change (d.openCursor JournalCursor token).map _ = _
      rw [opened]
      rfl

/-! ### All legs of a walk -/

theorem extends_journal (sound : walk.world.Sound) (legs : List JournalLeg) :
    walk.world.ledger.Extends
      (legs.foldl (Walk.journal d client currency first) walk).world.ledger := by
  induction legs generalizing walk with
  | nil => exact .refl _
  | cons leg rest ih =>
    have like := like_journal d client currency first walk leg
    have sound' := sound_ahead (d := d) sound leg.toLeg
    have grown := ih (sound'.like like)
    rw [like.ledger] at grown
    exact (extends_ahead sound leg.toLeg).trans grown

/-- Transactions that differ at the end of a walk differ at every page. -/
theorem distinct_ahead (sound : walk.world.Sound) {rest : List JournalLeg}
    (distinct : ((leg :: rest).foldl (Walk.journal d client currency first) walk).world.ledger
      |>.postings.Nodup) : (walk.ahead d leg.toLeg).ledger.postings.Nodup := by
  have like := like_journal d client currency first walk leg
  rw [← like.ledger]
  exact (extends_journal ((sound_ahead sound leg.toLeg).like like) rest).postings distinct

theorem JournalInv.foldl (valid : window.Valid)
    (inv : JournalInv d ⟨client, currency⟩ first window w walk) {legs : List JournalLeg}
    (timely : ∀ leg ∈ legs, leg.Timely)
    (distinct : (legs.foldl (Walk.journal d client currency first) walk).world.ledger
      |>.postings.Nodup) :
    JournalInv d ⟨client, currency⟩ first window w
      (legs.foldl (Walk.journal d client currency first) walk) := by
  induction legs generalizing walk with
  | nil => exact inv
  | cons leg rest ih =>
    exact ih (inv.step valid (timely leg List.mem_cons_self)
      (distinct_ahead inv.sound distinct)) (fun l hl => timely l (List.mem_cons_of_mem _ hl))
      distinct

/-! ### How long a walk is -/

/-- A page that nothing befalls is the last or shows at least one row. -/
theorem JournalInv.on (pages : d.Pages) (valid : window.Valid)
    (inv : JournalInv d ⟨client, currency⟩ first window w walk) (timely : leg.Timely)
    (calm : (walk.ahead d leg.toLeg).Calm .journalPage) :
    (walk.journal d client currency first leg).finished = true ∨
      walk.shown.length < (walk.journal d client currency first leg).shown.length := by
  cases finished : walk.finished with
  | true => exact .inl (finished_step finished leg.toLeg)
  | false =>
    have dated : (walk.ahead d leg.toLeg).Dated :=
      @Day.dated_foldl d { world := walk.world } inv.sound inv.dated leg.before timely
    obtain ⟨place, opens, -⟩ := inv.stands.under finished
    obtain ⟨page, w', answer⟩ := d.listJournal_calm (opens leg.query) calm client currency
      (pages.room leg.asked) leg.deadline
    have shows := journalShows_of_answer valid dated (opens leg.query) answer
    have size := pages.pageSize_pos leg.asked
    unfold journal Walk.step
    simp only [finished, answer, if_false, Bool.false_eq_true, List.length_append]
    exact (last_or_full shows).imp_right fun full => by omega

/-- No row is shown twice, so there are at most as many as the account has in the window. -/
theorem JournalInv.length_le {key : AccountKey} (inv : JournalInv d key first window w walk) :
    walk.shown.length ≤ (walk.world.ledger.rowsIn key window).length :=
  (List.subperm_of_subset inv.stands.ascending.nodup inv.rows).length_le

theorem JournalInv.ends (pages : d.Pages) (valid : window.Valid)
    (inv : JournalInv d ⟨client, currency⟩ first window w walk)
    (calm : walk.world.Calm .journalPage) {legs : List JournalLeg}
    (timely : ∀ leg ∈ legs, leg.Timely)
    (spares : ∀ leg ∈ legs, ∀ event ∈ leg.before, event.Spares .journalPage)
    (distinct : (legs.foldl (Walk.journal d client currency first) walk).world.ledger
      |>.postings.Nodup)
    (enough : ((legs.foldl (Walk.journal d client currency first) walk).world.ledger.rowsIn
      ⟨client, currency⟩ window).length < legs.length) :
    (legs.foldl (Walk.journal d client currency first) walk).finished = true := by
  have long := finished_or_long
    (fun legs walk => JournalInv d ⟨client, currency⟩ first window w walk ∧
      walk.world.Calm .journalPage ∧
      (∀ leg ∈ legs, leg.Timely ∧ ∀ event ∈ leg.before, event.Spares .journalPage) ∧
      (legs.foldl (Walk.journal d client currency first) walk).world.ledger.postings.Nodup)
    (Walk.journal d client currency first)
    (fun leg rest walk ⟨inv, calm, fine, distinct⟩ => ?_) legs walk
    ⟨inv, calm, fun leg hl => ⟨timely leg hl, spares leg hl⟩, distinct⟩
  · refine long.2.resolve_right fun long => ?_
    have := (inv.foldl valid timely distinct).length_le
    omega
  · obtain ⟨timely, spares⟩ := fine leg List.mem_cons_self
    have ahead : (walk.ahead d leg.toLeg).Calm .journalPage :=
      @Day.calm_foldl d { world := walk.world } _ inv.sound calm _ spares
    exact ⟨⟨inv.step valid timely (distinct_ahead inv.sound distinct),
        ahead.like (like_journal d client currency first walk leg),
        fun l hl => fine l (List.mem_cons_of_mem _ hl), distinct⟩,
      fun finished => finished_step finished leg.toLeg, inv.on pages valid timely ahead⟩

/-! ### The walk as a whole -/

/-- A walk through the rows of an account within a month, whatever is asked for on each page, which
query goes along with the cursor and what happens before it. The rows ascend strictly by moment and
transaction, and all are rows of the account within the month. When the walk is over it has shown
every such row that there was at its start; when no row has come since, it has shown these and no
others. When no page fails it is over at the latest after one leg more than there are rows. -/
theorem journal_listed_once (d : Desk) (accepted : d.settings.fault? = none)
    (small : d.settings.maxPageSize < twoTo 64 - 1) {w : World} (atRest : w.ledger.AtRest)
    (fresh : w.ledger.journal = []) (empty : w.cache.entries = []) (now : w.now.Valid)
    (history : List Event) (timely : ∀ event ∈ history, event.Timely) (client : ClientId)
    (currency : Currency) (first : JournalQuery) (window : Window)
    (month : d.monthWindow first = .ok window) (legs : List JournalLeg)
    (punctual : ∀ leg ∈ legs, leg.Timely) :
    let start := (history.foldl (Day.next d) { world := w }).world
    let walk := legs.foldl (Walk.journal d client currency first) { world := start }
    let rows := fun (w : World) => w.ledger.rowsIn ⟨client, currency⟩ window
    walk.world.ledger.postings.Nodup →
    (walk.shown.Pairwise fun a b =>
      compare (JournalKey.ofEntry a) (JournalKey.ofEntry b) = .lt) ∧
    (∀ e ∈ walk.shown, e ∈ rows walk.world) ∧
    (walk.finished = true → ∀ e ∈ rows start, e ∈ walk.shown) ∧
    (walk.finished = true → rows walk.world = rows start → walk.shown.Perm (rows start)) ∧
    (start.Calm .journalPage →
      (∀ leg ∈ legs, ∀ event ∈ leg.before, event.Spares .journalPage) →
      (rows walk.world).length < legs.length → walk.finished = true) := by
  intro start walk rows distinct
  have pages : d.Pages := ⟨accepted, small⟩
  have valid := d.valid_of_monthWindow month
  have soundFirst : w.Sound := sound_of_empty atRest empty
  have sound : start.Sound := @Day.sound_foldl d { world := w } soundFirst history
  have dated : start.Dated := @Day.dated_foldl d { world := w } soundFirst
    ⟨now, fun e he => by rw [fresh] at he; cases he⟩ history timely
  have records : ∃ receipts, start.ledger.Records receipts := by
    exact @records_ahead JournalEntry d { world := w } soundFirst
      ⟨[], fresh, fun r hr => by cases hr⟩ { before := history, asked := 0 }
  have begun := journalInv_start sound dated records month ⟨client, currency⟩
  have inv : JournalInv d ⟨client, currency⟩ first window start walk :=
    begun.foldl valid punctual distinct
  obtain ⟨receipts, recorded⟩ := inv.records
  -- Places tell rows apart, so what was shown in the place of a row is that row.
  have all : walk.finished = true → ∀ e ∈ rows start, e ∈ walk.shown := by
    intro finished e due
    obtain ⟨b, shown, same⟩ := (inv.stands.finished finished).met e due
    obtain ⟨thereB, ownB, -⟩ := Ledger.mem_rowsIn.1 (inv.rows b shown)
    obtain ⟨there, own, -⟩ := Ledger.mem_rowsIn.1 (inv.kept.rowsIn due)
    have separate := recorded.separate distinct ⟨client, currency⟩
    rwa [separate.eq_of_ofEntry_eq there thereB own ownB same.symm]
  refine ⟨inv.stands.ascending, inv.rows, all, fun finished same => ?_,
    fun calm spares enough => begun.ends pages valid calm punctual spares distinct enough⟩
  have separate : start.ledger.Separate ⟨client, currency⟩ :=
    records.choose_spec.separate (inv.kept.postings distinct) ⟨client, currency⟩
  refine (List.perm_ext_iff_of_nodup inv.stands.ascending.nodup
    (separate.nodup_rowsIn window)).2 fun e => ⟨fun shown => ?_, all finished e⟩
  have there := inv.rows e shown
  change e ∈ rows walk.world at there
  rwa [same] at there

/-- When nothing happens between the pages, the ledger stays as it is. -/
theorem ledger_journal_quiet (legs : List JournalLeg) (quiet : ∀ leg ∈ legs, leg.before = []) :
    (legs.foldl (Walk.journal d client currency first) walk).world.ledger = walk.world.ledger := by
  induction legs generalizing walk with
  | nil => rfl
  | cons leg rest ih =>
    have like := like_journal d client currency first walk leg
    rw [List.foldl_cons, ih fun l hl => quiet l (List.mem_cons_of_mem _ hl), like.ledger, ahead,
      quiet leg List.mem_cons_self]
    rfl

/-- Two deposits, and one row of the account on each page: the walk is over after three legs at
most, and it has shown the two rows that the account has in the month. -/
theorem journal_listed_once_simple :
    let d : Desk := { Desk.simple with settings := { secret := "secret" } }
    let history := [Event.errand none (.openAccount default Currency.usd),
      .errand none (.deposit default Currency.usd (.hundredths 10000)),
      .errand none (.deposit default Currency.usd (.hundredths 2500))]
    let start := (history.foldl (Day.next d) { world := World.simple }).world
    let january : Window := ⟨⟨0, 0⟩, ⟨2678400, 0⟩⟩
    let first : JournalQuery := { year := some 1970, month := some 1 }
    let legs : List JournalLeg := List.replicate 3 { asked := 1 }
    let walk := legs.foldl (Walk.journal d default Currency.usd first) { world := start }
    d.monthWindow first = .ok january ∧
      (start.ledger.rowsIn ⟨default, Currency.usd⟩ january).length = 2 ∧ walk.finished = true ∧
      walk.shown.Perm (start.ledger.rowsIn ⟨default, Currency.usd⟩ january) := by
  intro d history start january first legs walk
  have month : d.monthWindow first = .ok january := by rfl
  have two : (start.ledger.rowsIn ⟨default, Currency.usd⟩ january).length = 2 := by decide +kernel
  have distinct : start.ledger.postings.Nodup := by decide +kernel
  have calm : start.mishaps.ledger = [] := by decide +kernel
  have nothing : ∀ leg ∈ legs, leg.before = [] := fun leg hl => by
    rw [(List.mem_replicate.1 hl).2]
  have same : walk.world.ledger = start.ledger := ledger_journal_quiet legs nothing
  have timely : ∀ event ∈ history, event.Timely := fun event he moment now => by
    rw [now] at he
    simp [history] at he
  have midnight : World.simple.now.Valid := ⟨by decide, by decide, by decide, by decide⟩
  have punctual : ∀ leg ∈ legs, leg.Timely := fun leg hl event he => by
    rw [nothing leg hl] at he
    cases he
  obtain ⟨-, -, -, whole, ends⟩ := journal_listed_once d (by decide) (by decide)
    (w := World.simple) Ledger.atRest_empty rfl rfl midnight history timely default Currency.usd
    first january month legs punctual (by rw [same]; exact distinct)
  have rows : walk.world.ledger.rowsIn ⟨default, Currency.usd⟩ january =
      start.ledger.rowsIn ⟨default, Currency.usd⟩ january := by rw [same]
  have enough :
      (walk.world.ledger.rowsIn ⟨default, Currency.usd⟩ january).length < legs.length := by
    rw [rows, two]
    exact Nat.lt_succ_self 2
  have finished : walk.finished = true := by
    refine ends (fun c hc => ?_) (fun leg hl event he => ?_) enough
    · rw [calm] at hc
      cases hc
    · rw [nothing leg hl] at he
      cases he
  exact ⟨month, two, finished, whole finished rows⟩

end Walk

end Bureau
