import Bureau.Proofs.Desk.Walk

/-!
# Walking through the accounts of a client

Whatever happens between the pages, a walk shows accounts of the client in strictly ascending order
of codes, and when it is over it has shown every account that there was at its start. It is over
after finitely many pages, since there are finitely many currencies; and when nothing happens
between the pages it shows the client's accounts and nothing else (`Walk.accounts_listed_once`).
-/

namespace Bureau

open Timed World

namespace Desk

variable {d : Desk} {w : World} {cursor : Option String} {start : Option Currency}

/-- The rows on a page, and where the next begins. -/
theorem ensures_listAccounts (opens : d.accountStart cursor = .ok start)
    (client : ClientId) (asked : Int) :
    (d.listAccounts client cursor asked).Ensures w
      (fun answer _ => ∀ p, answer = .ok p →
        p.Shows d (d.pageSize asked) (w.ledger.accountsFrom client start)
          (AccountCursor.mk ·.currency))
      fun _ => True := by
  refine (ensures_accountsPage opens client asked).mono (fun answer _ h p hp => ?_) fun _ h => h
  have made := h p hp
  rw [Ledger.accountsPage_eq] at made
  exact (made.shows fun a _ => Wire.faithful_accountCursor _).of_take

/-- Nothing but a mishap keeps a page from being answered that leaves room for one row more. -/
theorem listAccounts_calm (opens : d.accountStart cursor = .ok start)
    (calm : w.Calm .accountsPage) (client : ClientId) {asked : Int}
    (room : d.pageSize asked + 1 < twoTo 64) (deadline : Option Nat) :
    ∃ p w', d.listAccounts client cursor asked deadline w = (some (.ok p), w') := by
  unfold listAccounts
  simp only [opens, rowsToAsk_eq room, bind_apply, d.ledgerRead_calm calm]
  obtain ⟨p, w', page⟩ := d.page_isSome (d.pageSize asked)
    (w.ledger.accountsPage client start (d.pageSize asked + 1))
    (fun a => AccountCursor.mk a.currency) deadline w
  rw [page]
  exact ⟨p, w', rfl⟩

end Desk

namespace Walk

/-- A leg of a walk through the accounts of a client. -/
def accounts (d : Desk) (client : ClientId) (walk : Walk Account) (leg : Leg) : Walk Account :=
  walk.step d (fun cursor => d.listAccounts client cursor leg.asked) leg

variable {d : Desk} {client : ClientId} {w : World} {walk : Walk Account} {leg : Leg}

/-- The accounts that the client had at the start. -/
def DueAccount (w : World) (client : ClientId) (a : Account) : Prop :=
  a ∈ w.ledger.accounts ∧ a.client = client

/-- What every leg keeps of a walk that began in a world. -/
structure AccountInv (d : Desk) (client : ClientId) (w : World) (walk : Walk Account) :
    Prop where
  sound : walk.world.Sound
  kept : w.ledger.Extends walk.world.ledger
  own : ∀ a ∈ walk.shown, a.client = client
  stands : walk.Stands (fun cursor place => d.accountStart cursor = .ok place) Account.currency
    (DueAccount w client)

theorem accountInv_start (sound : w.Sound) : AccountInv d client w { world := w } where
  sound
  kept := .refl _
  own := fun _ h => by cases h
  stands := ⟨fun _ => ⟨none, rfl, progress_start⟩, fun h => by cases h⟩

/-- The accounts that a page is taken from. -/
theorem behind_accountsFrom {w' : World} (sound : w'.Sound) (kept : w.ledger.Extends w'.ledger)
    (place : Option Currency) :
    Behind Account.currency (DueAccount w client) (w'.ledger.accountsFrom client place) place where
  ascending := Ledger.ascending_accountsFrom sound.ledger.keys client place
  behind := fun a ha => (Ledger.mem_accountsFrom.1 ha).2
  all := fun a ⟨there, own⟩ after => by
    obtain ⟨b, hb, same⟩ := kept.exists_account there
    have client_ : b.client = a.client := congrArg AccountKey.client same
    have currency : b.currency = a.currency := congrArg AccountKey.currency same
    refine ⟨b, Ledger.mem_accountsFrom.2 ⟨⟨hb, client_.trans own⟩, ?_⟩, currency⟩
    rw [currency]
    exact after

theorem shows_of_answer {w w' : World} {cursor : Option String} {place : Option Currency}
    (opens : d.accountStart cursor = .ok place) {asked : Int} {deadline : Option Nat}
    {page : Page Account}
    (answer : d.listAccounts client cursor asked deadline w = (some (.ok page), w')) :
    page.Shows d (d.pageSize asked) (w.ledger.accountsFrom client place)
      (AccountCursor.mk ·.currency) := by
  have ensured := d.ensures_listAccounts (w := w) opens client asked deadline
  rw [answer] at ensured
  exact ensured page rfl

theorem went_accounts (walk : Walk Account) (leg : Leg) :
    Went d (fun cursor => d.listAccounts client cursor leg.asked) walk leg
      (walk.accounts d client leg) :=
  went_step (fun cursor => d.looks_listAccounts client cursor leg.asked) walk leg

theorem like_accounts (walk : Walk Account) (leg : Leg) :
    (walk.ahead d leg).Like (walk.accounts d client leg).world :=
  like_step (fun cursor => d.looks_listAccounts client cursor leg.asked) walk leg

theorem AccountInv.step (inv : AccountInv d client w walk) (leg : Leg) :
    AccountInv d client w (walk.accounts d client leg) := by
  have sound := sound_ahead (d := d) inv.sound leg
  have kept := inv.kept.trans (extends_ahead (d := d) inv.sound leg)
  have went : Went d _ walk leg (walk.accounts d client leg) := went_accounts walk leg
  generalize walk.accounts d client leg = next at went
  cases went with
  | stayed like =>
    exact ⟨sound.like like, like.ledger ▸ kept, inv.own, inv.stands.under, inv.stands.finished⟩
  | went like under answer =>
    obtain ⟨place, opens, progress⟩ := inv.stands.under under
    have shows := shows_of_answer opens answer
    refine {
      sound := sound.like like
      kept := like.ledger ▸ kept
      own := fun a ha => ?_
      stands := stands_went progress (behind_accountsFrom sound kept place) shows
        (fun row token opened => ?_) _ }
    · rcases List.mem_append.1 ha with ha | ha
      · exact inv.own a ha
      · rw [shows.items] at ha
        exact (Ledger.mem_accountsFrom.1 (List.mem_of_mem_take ha)).1.2
    · rw [Desk.accountStart, opened]
      rfl

theorem AccountInv.foldl (inv : AccountInv d client w walk) (legs : List Leg) :
    AccountInv d client w (legs.foldl (Walk.accounts d client) walk) := by
  induction legs generalizing walk with
  | nil => exact inv
  | cons leg rest ih => exact ih (inv.step leg)

/-! ### How long a walk is -/

/-- A page that nothing befalls is the last or shows at least one account. -/
theorem AccountInv.on (pages : d.Pages) (inv : AccountInv d client w walk)
    (calm : (walk.ahead d leg).Calm .accountsPage) :
    (walk.accounts d client leg).finished = true ∨
      walk.shown.length < (walk.accounts d client leg).shown.length := by
  cases finished : walk.finished with
  | true => exact .inl (finished_step finished leg)
  | false =>
    obtain ⟨place, opens, -⟩ := inv.stands.under finished
    obtain ⟨page, w', answer⟩ :=
      d.listAccounts_calm opens calm client (pages.room leg.asked) leg.deadline
    have shows := shows_of_answer opens answer
    have size := pages.pageSize_pos leg.asked
    unfold accounts Walk.step
    simp only [finished, answer, if_false, Bool.false_eq_true, List.length_append]
    exact (last_or_full shows).imp_right fun full => by omega

/-- A client has at most one account in each currency that there is. -/
theorem length_le_of_ascending {shown : List Account}
    (ascending : Ascending Account.currency shown) : shown.length ≤ currencyCodes.length := by
  have codes : (shown.map fun a => a.currency.code).Nodup := by
    refine List.pairwise_map.2 (ascending.imp fun {a b} before same => ?_)
    have : compare a.currency b.currency = .eq :=
      (congrArg (compare a.currency.code) same).symm.trans Std.ReflOrd.compare_self
    rw [this] at before
    cases before
  have listed : shown.map (fun a => a.currency.code) ⊆ currencyCodes := by
    intro code h
    obtain ⟨a, -, rfl⟩ := List.mem_map.1 h
    exact a.currency.listed
  have := (List.subperm_of_subset codes listed).length_le
  rwa [List.length_map] at this

theorem AccountInv.ends (pages : d.Pages) (inv : AccountInv d client w walk)
    (calm : walk.world.Calm .accountsPage) {legs : List Leg}
    (spares : ∀ leg ∈ legs, ∀ event ∈ leg.before, event.Spares .accountsPage)
    (enough : currencyCodes.length < legs.length) :
    (legs.foldl (Walk.accounts d client) walk).finished = true := by
  have long := finished_or_long
    (fun legs walk => AccountInv d client w walk ∧ walk.world.Calm .accountsPage ∧
      ∀ leg ∈ legs, ∀ event ∈ leg.before, event.Spares .accountsPage)
    (Walk.accounts d client) (fun leg rest walk ⟨inv, calm, spares⟩ => ?_) legs walk
    ⟨inv, calm, spares⟩
  · refine long.2.resolve_right fun long => ?_
    have := length_le_of_ascending (inv.foldl legs).stands.ascending
    omega
  · have ahead : (walk.ahead d leg).Calm .accountsPage :=
      @Day.calm_foldl d { world := walk.world } _ inv.sound calm _
        (spares leg List.mem_cons_self)
    exact ⟨⟨inv.step leg, ahead.like (like_accounts walk leg),
        fun l hl => spares l (List.mem_cons_of_mem _ hl)⟩,
      fun finished => finished_step finished leg, inv.on pages ahead⟩

/-! ### Walks that nothing disturbs -/

/-- When nothing happens between the pages, the accounts are those of the start. -/
theorem quiet_accounts {legs : List Leg} (inv : AccountInv d client w walk)
    (same : walk.world.ledger = w.ledger)
    (there : ∀ a ∈ walk.shown, a ∈ w.ledger.accounts)
    (quiet : ∀ leg ∈ legs, leg.before = []) :
    ∀ a ∈ (legs.foldl (Walk.accounts d client) walk).shown, a ∈ w.ledger.accounts := by
  induction legs generalizing walk with
  | nil => exact there
  | cons leg rest ih =>
    have ahead : (walk.ahead d leg).ledger = w.ledger := by
      rw [Walk.ahead, quiet leg List.mem_cons_self]
      exact same
    refine ih (inv.step leg) ((like_accounts walk leg).ledger.trans ahead) ?_
      fun l hl => quiet l (List.mem_cons_of_mem _ hl)
    have went : Went d _ walk leg (walk.accounts d client leg) := went_accounts walk leg
    generalize walk.accounts d client leg = next at went
    cases went with
    | stayed like => exact there
    | went like under answer =>
      obtain ⟨place, opens, -⟩ := inv.stands.under under
      have shows := shows_of_answer opens answer
      intro a ha
      rcases List.mem_append.1 ha with ha | ha
      · exact there a ha
      · rw [shows.items, ahead] at ha
        exact (Ledger.mem_accountsFrom.1 (List.mem_of_mem_take ha)).1.1

/-- A walk through the accounts of a client, whatever is asked for on each page and whatever
happens before it. The currencies ascend strictly, and the accounts are the client's own. When the
walk is over it has shown every account that there was at its start; when nothing happened between
the pages it has shown these and no others. When no page fails it is over at the latest after one
leg more than there are currencies. -/
theorem accounts_listed_once (d : Desk) (accepted : d.settings.fault? = none)
    (small : d.settings.maxPageSize < twoTo 64 - 1) {w : World} (atRest : w.ledger.AtRest)
    (empty : w.cache.entries = []) (history : List Event) (client : ClientId)
    (legs : List Leg) :
    let start := (history.foldl (Day.next d) { world := w }).world
    let walk := legs.foldl (Walk.accounts d client) { world := start }
    (walk.shown.Pairwise fun a b => a.currency.code < b.currency.code) ∧
    (∀ a ∈ walk.shown, a.client = client) ∧
    (walk.finished = true → ∀ a ∈ start.ledger.accounts, a.client = client →
      ∃ b ∈ walk.shown, b.key = a.key) ∧
    (walk.finished = true → (∀ leg ∈ legs, leg.before = []) →
      walk.shown.Perm (start.ledger.accounts.filter (·.client = client))) ∧
    (start.Calm .accountsPage →
      (∀ leg ∈ legs, ∀ event ∈ leg.before, event.Spares .accountsPage) →
      currencyCodes.length < legs.length → walk.finished = true) := by
  intro start walk
  have pages : d.Pages := ⟨accepted, small⟩
  have sound : start.Sound :=
    @Day.sound_foldl d { world := w } (sound_of_empty atRest empty) history
  have first : AccountInv d client start { world := start } := accountInv_start sound
  have inv : AccountInv d client start walk := first.foldl legs
  have ascending := inv.stands.ascending
  refine ⟨?_, inv.own, fun finished a there own => ?_, fun finished quiet => ?_,
    fun calm spares enough => ?_⟩
  · exact List.Pairwise.imp (fun {a b} before =>
      (compareOfLessAndEq_eq_lt (x := a.currency.code)).1 before) ascending
  · obtain ⟨b, shown, same⟩ := (inv.stands.finished finished).met a ⟨there, own⟩
    refine ⟨b, shown, ?_⟩
    rw [Account.key, Account.key, inv.own b shown, own, same]
  · have there := quiet_accounts first rfl (fun _ h => by cases h) quiet
    have keys := sound.ledger.keys
    refine (List.perm_ext_iff_of_nodup ascending.nodup ?_).2 fun a => ?_
    · exact (List.Nodup.of_map _ keys).filter _
    · rw [List.mem_filter, decide_eq_true_iff]
      refine ⟨fun shown => ⟨there a shown, inv.own a shown⟩, fun both => ?_⟩
      obtain ⟨present, own⟩ := both
      obtain ⟨b, shown, same⟩ := (inv.stands.finished finished).met a ⟨present, own⟩
      have key : b.key = a.key := by
        rw [Account.key, Account.key, inv.own b shown, own, same]
      rwa [List.inj_on_of_nodup_map keys present (there b shown) key.symm]
  · exact first.ends pages calm spares enough

/-- Two accounts, and a third that is opened before the first page. The walk is over after as many
legs as are needed at most, and it has shown the three accounts that there are then. -/
theorem accounts_listed_once_simple :
    let d : Desk := { Desk.simple with settings := { secret := "secret" } }
    let opening := fun currency => Event.errand none (.openAccount default currency)
    let history := [opening Currency.usd, opening Currency.eur]
    let start := (history.foldl (Day.next d) { world := World.simple }).world
    let legs : List Leg := { before := [opening Currency.gbp], asked := 1 } ::
      List.replicate currencyCodes.length { asked := -1 }
    let walk := legs.foldl (Walk.accounts d default) { world := start }
    start.ledger.accounts.map (·.currency) = [Currency.usd, Currency.eur] ∧
      (walk.shown.Pairwise fun a b => a.currency.code < b.currency.code) ∧
      walk.finished = true ∧ ∀ a ∈ start.ledger.accounts, ∃ b ∈ walk.shown, b.key = a.key := by
  intro d opening history start legs walk
  have accounts : start.ledger.accounts.map (·.key) =
      [⟨default, Currency.usd⟩, ⟨default, Currency.eur⟩] := by decide +kernel
  have calm : start.mishaps.ledger = [] := by decide +kernel
  obtain ⟨ascending, -, complete, -, ends⟩ := accounts_listed_once d (by decide) (by decide)
    Ledger.atRest_empty (rfl : World.simple.cache.entries = []) history default legs
  have finished : walk.finished = true := by
    refine ends (fun c hc => ?_) (fun leg hl event he => ?_) ?_
    · rw [calm] at hc
      cases hc
    · rcases List.mem_cons.1 hl with rfl | hl
      · rw [List.mem_singleton.1 he]
        exact fun mishap h => by cases h
      · rw [(List.mem_replicate.1 hl).2] at he
        cases he
    · simp only [legs, List.length_cons, List.length_replicate, Nat.lt_succ_self]
  refine ⟨?_, ascending, finished, fun a there => complete finished a there ?_⟩
  · have := congrArg (List.map AccountKey.currency) accounts
    rwa [List.map_map] at this
  · have : a.key ∈ start.ledger.accounts.map (·.key) := List.mem_map_of_mem there
    rw [accounts] at this
    simp only [List.mem_cons, List.not_mem_nil, or_false] at this
    rcases this with same | same <;> exact congrArg AccountKey.client same

end Walk

end Bureau
