import Bureau.Proofs.Simulation.Plays

/-!
# Receipts stay auditable

Every step of a simulation notes what it posts, so every part of a simulation keeps the books in
order and no audit breaks it off (`Simulation.Part.keeps`). `Archive.receipts_auditable` puts this
together with what holds of the journal whatever happens at the desk.
-/

namespace Bureau

open Timed World

namespace SimulatedClient

variable (desk : Desk) (c : SimulatedClient)

theorem quiet_openAccounts (currencies : List Currency) :
    (openAccounts desk c currencies).Quiet := by
  induction currencies with
  | nil => exact quiet_pure _
  | cons currency rest ih =>
    refine (desk.quiet_openAccount c.id currency).bind fun answer => ?_
    cases answer with
    | error e => exact quiet_pure _
    | ok a => exact ih

theorem quiet_fund (funding : List (Currency × Decimal)) : (fund desk c funding).Quiet := by
  induction funding with
  | nil => exact quiet_pure _
  | cons first rest ih =>
    obtain ⟨currency, amount⟩ := first
    unfold fund
    split
    · exact ih
    · refine (desk.posts_deposit c.id currency amount).quiet.bind fun answer => ?_
      cases answer with
      | error e => exact quiet_pure _
      | ok receipt => exact ih

theorem quiet_onboard (funding : List (Currency × Decimal)) : (c.onboard desk funding).Quiet := by
  refine (quiet_openAccounts desk c _).bind fun answer => ?_
  cases answer with
  | error e => exact quiet_pure _
  | ok _ => exact quiet_fund desk c funding

/-- A client that cannot be made ready is not blamed on an audit. -/
theorem openAccounts_unblamed (currencies : List Currency) (deadline : Option Nat) (w : World)
    (txId : TxId) (fault : DeskError) :
    (openAccounts desk c currencies deadline w).1 ≠ some (.error (.audit txId fault)) := by
  induction currencies generalizing w with
  | nil => simp [openAccounts, pure]
  | cons currency rest ih =>
    rw [openAccounts, bind_apply]
    rcases desk.openAccount c.id currency deadline w with ⟨_ | _ | _, w'⟩
    · simp
    · simp [pure]
    · exact ih w'

theorem fund_unblamed (funding : List (Currency × Decimal)) (deadline : Option Nat) (w : World)
    (txId : TxId) (fault : DeskError) :
    (fund desk c funding deadline w).1 ≠ some (.error (.audit txId fault)) := by
  induction funding generalizing w with
  | nil => simp [fund, pure]
  | cons first rest ih =>
    obtain ⟨currency, amount⟩ := first
    unfold fund
    split
    · exact ih w
    · rw [bind_apply]
      rcases desk.deposit c.id currency amount deadline w with ⟨_ | _ | _, w'⟩
      · simp
      · simp [pure]
      · exact ih w'

theorem onboard_unblamed (funding : List (Currency × Decimal)) (deadline : Option Nat) (w : World)
    (answer : Except SimulationError Unit)
    (h : (c.onboard desk funding deadline w).1 = some answer) (txId : TxId) (fault : DeskError) :
    answer ≠ .error (.audit txId fault) := by
  rintro rfl
  have opened := openAccounts_unblamed desk c c.currencies deadline w txId fault
  rw [onboard, bind_apply] at h
  rcases result : openAccounts desk c c.currencies deadline w with ⟨_ | e | _, w'⟩ <;>
    rw [result] at h opened
  · cases h
  · exact opened h
  · exact fund_unblamed desk c funding deadline w' txId fault h

theorem quiet_balance (currency : Currency) : (c.balance desk currency).Quiet := by
  refine (desk.looks_balance c.id currency).quiet.bind fun answer => ?_
  cases answer <;> exact quiet_pure _

theorem quiet_crowd (count : Nat) : (crowd count).Quiet :=
  quiet_mapM fun _ => quiet_freshUuid.bind fun _ => quiet_pure _

end SimulatedClient

namespace Simulation

open Receipt (txIds)
open Scenario (Condition Fault Order Step)

/-! ### Reading steps -/

theorem keeps_findClient (name : String) : Keeps (findClient name) := by
  refine keeps_get.bind fun s => ?_
  split
  · exact keeps_pure _
  · exact keeps_throw nofun

theorem keeps_readAmount (text : String) : Keeps (readAmount text) := by
  unfold readAmount
  split
  · exact keeps_pure _
  · exact keeps_throw nofun

theorem keeps_readCurrency (text : String) : Keeps (readCurrency text) := by
  unfold readCurrency
  split
  · exact keeps_pure _
  · exact keeps_throw nofun

theorem keeps_readOrder (client : ClientId) (o : Order) : Keeps (readOrder client o) :=
  (keeps_readCurrency _).bind fun _ => (keeps_readCurrency _).bind fun _ =>
    (keeps_readAmount _).bind fun _ => keeps_pure _

/-! ### Single steps -/

theorem keeps_makeOffer (r : OfferRequest) : Keeps (makeOffer r) :=
  keeps_get.bind fun s => keeps_ask (s.desk.quiet_createOffer r) nofun

theorem keeps_note (outcome : Except DeskError Receipt) (nanos : Nat) :
    Keeps (note outcome nanos) (txIds outcome) := by
  refine keeps_modify fun s => ?_
  cases outcome with
  | ok receipt => rfl
  | error e => exact (List.append_nil _).symm

/-- What has been given at once is noted one after the other. -/
theorem keeps_notes (outcomes : List (Except DeskError Receipt × Nat)) :
    Keeps (outcomes.forM fun (outcome, nanos) => note outcome nanos)
      (outcomes.flatMap fun a => txIds a.1) := by
  suffices h : ∀ s, ∃ s', s'.posted = s.posted ++ (outcomes.flatMap fun a => txIds a.1) ∧
      (outcomes.forM fun (outcome, nanos) => note outcome nanos).run.run s =
        pure (.ok (), s') from by
    choose out noted run using h
    exact keeps_of_run run noted fun _ _ _ => by simp
  induction outcomes with
  | nil => exact fun s => ⟨s, (List.append_nil _).symm, rfl⟩
  | cons first rest ih =>
    intro s
    obtain ⟨outcome, nanos⟩ := first
    obtain ⟨s₁, noted₁, run₁⟩ : ∃ s₁, s₁.posted = s.posted ++ txIds outcome ∧
        (note outcome nanos).run.run s = pure (.ok (), s₁) := by
      cases outcome with
      | ok receipt => exact ⟨_, rfl, rfl⟩
      | error e =>
        exact ⟨{ s with statistics := s.statistics.addError e }, (List.append_nil _).symm, rfl⟩
    obtain ⟨s₂, noted₂, run₂⟩ := ih s₁
    refine ⟨s₂, ?_, ?_⟩
    · rw [noted₂, noted₁, List.flatMap_cons, List.append_assoc]
    · change (note outcome nanos >>= fun _ => rest.forM _).run.run s = _
      rw [run_bind, run₁]
      exact run₂

theorem keeps_race (client : ClientId) (tokens : List String) : Keeps (race client tokens) := by
  refine keeps_get.bind fun s => ?_
  have posts : (together (tokens.map fun t => timing (s.desk.redeem client t))).Posts _ :=
    posts_together fun x hx => by
      obtain ⟨token, -, rfl⟩ := List.mem_map.1 hx
      exact (s.desk.posts_redeem client token).timing
  refine keeps_posts_bind (posts.within batchDeadline) fun outcomes => ?_
  cases outcomes with
  | none => exact keeps_throw nofun
  | some outcomes => exact (keeps_notes outcomes).bind fun _ => keeps_pure _

theorem keeps_opposingOffers (client : ClientId) (amount first second : String) (pairs : Nat) :
    Keeps (opposingOffers client amount first second pairs) := by
  induction pairs with
  | zero => exact keeps_pure _
  | succ pairs ih =>
    unfold opposingOffers
    refine Keeps.bind (keeps_readOrder client _) fun r => ?_
    refine Keeps.bind (keeps_makeOffer r) fun there => ?_
    refine Keeps.bind (keeps_readOrder client _) fun r => ?_
    refine Keeps.bind (keeps_makeOffer r) fun back => ?_
    exact ih.bind fun _ => keeps_pure _

theorem keeps_walk (client : ClientId) (size : Int) (pages : Nat) (cursor : Option String) :
    Keeps (walk client size pages cursor) := by
  induction pages generalizing cursor with
  | zero => exact keeps_pure _
  | succ pages ih =>
    unfold walk
    refine keeps_get.bind fun s => ?_
    refine (keeps_ask (s.desk.looks_listAccounts client cursor size).quiet
      fun _ _ _ => by simp).bind fun page => ?_
    dsimp only
    split
    · exact keeps_pure _
    · exact (ih _).bind fun _ => keeps_pure _

theorem quiet_setAvailable (available : Bool) : (Market.setAvailable available).Quiet :=
  quiet_incident (.market available) (fun _ _ => rfl) fun _ h => by cases h

theorem quiet_setLatency (nanos : Nat) : (Market.setLatency nanos).Quiet :=
  quiet_incident (.marketLatency nanos) (fun _ _ => rfl) fun _ h => by cases h

theorem quiet_setCacheAvailable (available : Bool) : (OfferCache.setAvailable available).Quiet :=
  quiet_incident (.cache available) (fun _ _ => rfl) fun _ h => by cases h

theorem quiet_setRate (pair : CurrencyPair) (rate : Decimal) : (Market.setRate pair rate).Quiet :=
  quiet_incident (.rate pair rate) (fun _ _ => rfl) fun _ h => by cases h

theorem quiet_inject (fault : Fault) : (inject fault).Quiet := by
  cases fault with
  | quoteOutage => exact quiet_setAvailable false
  | quoteLatency delay => exact quiet_setLatency (Desk.ms delay)
  | cacheOutage => exact quiet_setCacheAvailable false

theorem quiet_clear : clear.Quiet :=
  (quiet_setAvailable true).bind fun _ => (quiet_setLatency 0).bind fun _ =>
    quiet_setCacheAvailable true

theorem run_ledgerConsistent (s : Simulation) :
    (check .ledgerConsistent).run.run s = (s.posted.forM fun txId =>
      discard (ask (Desk.verify txId) (.audit txId)) : Play Unit).run.run s :=
  rfl

theorem keeps_check (condition : Condition) : Keeps (check condition) := by
  cases condition with
  | balanceEquals client currency amount =>
    refine Keeps.bind (keeps_findClient client) fun c => ?_
    refine Keeps.bind (keeps_readAmount amount) fun expected => ?_
    refine Keeps.bind keeps_get fun s => ?_
    refine Keeps.bind (keeps_readCurrency currency) fun known => ?_
    refine Keeps.bind (keeps_lift (c.quiet_balance s.desk known)) fun actual => ?_
    split
    · exact keeps_throw nofun
    · exact keeps_pure _
  | ledgerConsistent =>
    refine ⟨fun ids s w sub audited => ?_⟩
    rw [List.append_nil] at audited
    rw [run_ledgerConsistent]
    intro deadline
    have looks := ensures_audits s s.posted w deadline
    have fine := fun distinct => audits_eq audited distinct s (List.Subset.refl _) deadline
    rcases result : (s.posted.forM fun txId =>
      discard (ask (Desk.verify txId) (.audit txId)) : Play Unit).run.run s deadline w with
      ⟨_ | out, w'⟩ <;> rw [result] at looks fine
    · exact (audited.like looks).mono sub
    · obtain ⟨same, like⟩ := looks
      refine ⟨same ▸ sub, same ▸ audited.like like, fun distinct txId e blamed => ?_⟩
      rw [like.ledger] at distinct
      cases fine distinct
      cases blamed

theorem keeps_outlive (c : SimulatedClient) (o : Order) : Keeps (outlive c o) := by
  refine Keeps.bind (keeps_readOrder c.id o) fun r => ?_
  refine Keeps.bind (keeps_makeOffer r) fun ticket => ?_
  refine Keeps.bind keeps_get fun s => ?_
  refine Keeps.bind (keeps_lift (quiet_wait _)) fun _ => ?_
  refine Keeps.bind (keeps_lift (s.desk.posts_redeem c.id ticket.token).quiet) fun answer => ?_
  split
  · exact keeps_throw nofun
  · exact keeps_modify fun _ => (List.append_nil _).symm
  · exact keeps_throw nofun

/-- Every step notes what it posts. -/
theorem keeps_step (step : Step) : Keeps (Simulation.step step) := by
  cases step with
  | wait seconds =>
    refine Keeps.bind (keeps_lift (quiet_read _)) fun clock => ?_
    refine Keeps.bind keeps_get fun s => ?_
    exact keeps_lift (quiet_wait _)
  | deposit client amount currency =>
    refine Keeps.bind (keeps_findClient client) fun c => ?_
    refine Keeps.bind (keeps_readCurrency currency) fun known => ?_
    refine Keeps.bind keeps_get fun s => ?_
    refine Keeps.bind (keeps_readAmount amount) fun paid => ?_
    exact keeps_ask_bind (s.desk.posts_deposit c.id known paid) nofun fun receipt =>
      keeps_modify fun _ => rfl
  | exchange order =>
    refine Keeps.bind (keeps_findClient order.client) fun c => ?_
    refine Keeps.bind (keeps_readOrder c.id order) fun r => ?_
    refine Keeps.bind keeps_get fun s => ?_
    exact keeps_posts_bind (posts_convert s.desk r).timing fun out => keeps_note out.1 out.2
  | redemptionRace order attempts =>
    refine Keeps.bind (keeps_findClient order.client) fun c => ?_
    refine Keeps.bind (keeps_readOrder c.id order) fun r => ?_
    refine Keeps.bind (keeps_makeOffer r) fun ticket => ?_
    refine Keeps.bind (keeps_race c.id _) fun settled => ?_
    split
    · exact keeps_throw nofun
    · exact keeps_pure _
  | opposingExchanges client amount first second pairs =>
    refine Keeps.bind (keeps_findClient client) fun c => ?_
    refine Keeps.bind (keeps_opposingOffers c.id amount first second pairs) fun tokens => ?_
    exact keeps_discard (keeps_race c.id tokens)
  | expiry order =>
    refine Keeps.bind (keeps_findClient order.client) fun c => ?_
    exact keeps_outlive c order
  | paginationWalk client size =>
    refine Keeps.bind (keeps_findClient client) fun c => ?_
    refine Keeps.bind (keeps_lift (quiet_read _)) fun pages => ?_
    refine Keeps.bind (keeps_walk c.id size _ none) fun seen => ?_
    dsimp only
    split
    · exact keeps_throw nofun
    · exact keeps_pure _
  | injectFault fault => exact keeps_lift (quiet_inject fault)
  | clearFaults => exact keeps_lift quiet_clear
  | require condition => exact keeps_check condition

/-! ### Whole simulations -/

theorem keeps_populate (count : Nat) : Keeps (populate count) := by
  refine Keeps.bind (keeps_lift (quiet_forM fun (pair, rate) => quiet_setRate pair rate))
    fun _ => ?_
  refine Keeps.bind (keeps_lift (SimulatedClient.quiet_crowd count)) fun clients => ?_
  refine Keeps.bind keeps_get fun s => ?_
  refine Keeps.bind (keeps_forM fun c => ?_) fun _ => keeps_modify fun _ => (List.append_nil _).symm
  refine keeps_lift_bind (c.quiet_onboard s.desk _) (c.onboard_unblamed s.desk _)
    fun answer other => ?_
  cases answer with
  | error e => exact keeps_throw fun txId fault same => other txId fault (same ▸ rfl)
  | ok _ => exact keeps_pure ()

theorem keeps_choose (bound : Nat) : Keeps (choose bound) :=
  keeps_of_run (fun _ => rfl) (fun _ => (List.append_nil _).symm) fun _ _ _ => by simp

theorem keeps_exchangeAtRandom : Keeps exchangeAtRandom := by
  refine Keeps.bind keeps_get fun s => ?_
  refine Keeps.bind (keeps_choose _) fun place => ?_
  split
  · exact keeps_pure ()
  · refine Keeps.bind (keeps_choose _) fun source => ?_
    refine Keeps.bind (keeps_choose _) fun destination => ?_
    refine Keeps.bind (keeps_choose _) fun cents => ?_
    exact keeps_posts_bind (posts_convert s.desk _).timing fun out => keeps_note out.1 out.2

theorem keeps_tradeUntil (stop attempts : Nat) : Keeps (tradeUntil stop attempts) := by
  induction attempts with
  | zero => exact keeps_pure ()
  | succ attempts ih =>
    unfold tradeUntil
    refine Keeps.bind (keeps_lift (quiet_read _)) fun clock => ?_
    split
    · refine Keeps.bind keeps_exchangeAtRandom fun _ => ?_
      refine Keeps.bind keeps_get fun s => ?_
      exact Keeps.bind (keeps_lift (quiet_wait _)) fun _ => ih
    · exact keeps_pure ()

theorem keeps_trade (span : Nat) : Keeps (trade span) := by
  refine Keeps.bind keeps_get fun s => ?_
  split
  · exact keeps_lift (quiet_wait _)
  · refine Keeps.bind (keeps_lift (quiet_read _)) fun start => ?_
    exact keeps_tradeUntil _ _

theorem keeps_perform (scenario : Scenario) : Keeps (perform scenario) :=
  keeps_forM keeps_step

/-- What a simulation is made of. -/
inductive Part where
  | populate (count : Nat)
  | perform (scenario : Scenario)
  | trade (span : Nat)

/-- What is played in a part. -/
def Part.play : Part → Play Unit
  | .populate count => Simulation.populate count
  | .perform scenario => Simulation.perform scenario
  | .trade span => Simulation.trade span

theorem Part.keeps (part : Part) : Keeps part.play := by
  cases part with
  | populate count => exact keeps_populate count
  | perform scenario => exact keeps_perform scenario
  | trade span => exact keeps_trade span

/-- A simulation and its world after a part, also if that has been broken off. -/
def after (state : Simulation × World) (part : Part) : Simulation × World :=
  (play part.play state.1 state.2).2

/-- A part that is played keeps the books in order, and no audit breaks it off. -/
theorem kept_play {x : Play Unit} (h : Keeps x) {s : Simulation} {w : World}
    (audited : w.Audited s.posted) :
    (play x s w).2.2.Audited (play x s w).2.1.posted ∧
      ((play x s w).2.2.ledger.postings.Nodup →
        ∀ txId e, (play x s w).1 ≠ .error (.audit txId e)) := by
  have kept := h.ensures s.posted s w (List.Subset.refl _) ((List.append_nil _).symm ▸ audited) none
  unfold play Timed.run
  rcases result : x.run.run s none w with ⟨_ | ⟨answer, s'⟩, w'⟩ <;> rw [result] at kept
  · exact ⟨kept, fun _ _ _ => by dsimp only; cases w'.lastCrash <;> simp⟩
  · exact ⟨kept.audited, kept.unblamed⟩

/-- While transactions are distinct, the audit of all that has been noted succeeds. -/
theorem play_ledgerConsistent {s : Simulation} {w : World} (audited : w.Audited s.posted)
    (distinct : w.ledger.postings.Nodup) : (play (check .ledgerConsistent) s w).1 = .ok () := by
  have audits := audits_eq audited distinct s (List.Subset.refl _) none
  unfold play Timed.run
  rw [run_ledgerConsistent, audits]

/-- A simulation and its world come to be so after some parts. -/
def Reaches (start last : Simulation × World) : Prop :=
  ∃ parts : List Part, parts.foldl after start = last

theorem Reaches.audited {start last : Simulation × World} (h : Reaches start last)
    (audited : start.2.Audited start.1.posted) : last.2.Audited last.1.posted := by
  obtain ⟨parts, rfl⟩ := h
  induction parts generalizing start with
  | nil => exact audited
  | cons part rest ih => exact ih (kept_play part.keeps audited).1

end Simulation

/-! ### The books as a whole -/

namespace Archive

open Simulation (Part)

/-- Whatever happens at the desk, the journal consists of the rows of the receipts that have been
given, two of each, and only grows at its end. While transactions are distinct, every receipt can be
audited at any later time: the ledger has its rows under its identifier, the audit names its kind,
and every client is shown those of its rows that are the client's own. So no audit that a simulation
asks for fails. -/
theorem receipts_auditable (d : Desk) {w : World} (atRest : w.ledger.AtRest)
    (fresh : w.ledger.journal = []) (empty : w.cache.entries = []) (events more : List Event) :
    let s := events.foldl (Archive.next d) { day := { world := w } }
    let ledger := s.day.world.ledger
    ledger.journal = s.receipts.flatMap Receipt.entries ∧
    (∀ r ∈ s.receipts, r.entries.length = 2 ∧ ∀ e ∈ r.entries, e.txId = r.txId) ∧
    ledger.journal <+: (more.foldl (Archive.next d) s).day.world.ledger.journal ∧
    s.receipts <+: (more.foldl (Archive.next d) s).receipts ∧
    (ledger.postings.Nodup → (s.receipts.map (·.txId)).Nodup ∧ ∀ r ∈ s.receipts,
      ledger.journalFor r.txId = r.entries ∧
      (s.day.world.Calm .journalFor → ∀ deadline,
        (Desk.verify r.txId deadline s.day.world).1 = some (.ok r.kind) ∧
        ∀ client, (d.transaction client r.txId deadline s.day.world).1 = some
          (if (r.entries.filter (·.client = client)).isEmpty then
            .error (.invalid "tx_id" "unknown transaction")
          else .ok (r.entries.filter (·.client = client))))) ∧
    (w.Calm .journalFor → ∀ simulation state, simulation.posted = [] →
      Simulation.Reaches (simulation, w) state →
      (state.2.ledger.postings.Nodup →
        (Simulation.play (Simulation.check .ledgerConsistent) state.1 state.2).1 = .ok ()) ∧
      ∀ (part : Part) result last, Simulation.play part.play state.1 state.2 = (result, last) →
        last.2.ledger.postings.Nodup → ∀ txId e, result ≠ .error (.audit txId e)) := by
  intro s ledger
  have soundFirst : w.Sound := sound_of_empty atRest empty
  have nothing : w.ledger.Records [] := ⟨fresh, fun r hr => by cases hr⟩
  have records : ledger.Records s.receipts :=
    records_foldl (d := d) (s := { day := { world := w } }) soundFirst nothing events
  have sound : s.day.world.Sound := by
    rw [day_foldl]
    exact Day.sound_foldl soundFirst events
  refine ⟨records.journal, fun r hr => ?_, ?_, receipts_foldl more, fun distinct => ?_,
    fun calm simulation state new reached => ?_⟩
  · exact ⟨(records.consistent r hr).length_eq, (records.consistent r hr).own⟩
  · rw [day_foldl]
    exact (Day.extends_foldl sound more).journal
  · refine ⟨records.postings_eq ▸ distinct, fun r hr => ?_⟩
    refine ⟨records.journalFor_eq distinct hr, fun calm deadline => ⟨?_, fun client => ?_⟩⟩
    · rw [Desk.verify_eq records distinct calm hr]
    · rw [Desk.transaction_eq records distinct calm hr]
  · have begun : w.Audited simulation.posted :=
      ⟨soundFirst, calm, [], nothing, new ▸ List.nil_subset _⟩
    have audited := reached.audited begun
    refine ⟨Simulation.play_ledgerConsistent audited, fun part result last played distinct => ?_⟩
    have kept := (Simulation.kept_play part.keeps audited).2
    rw [played] at kept
    exact kept distinct

/-- Two deposits, both of which can be audited afterwards; and a simulation that pays in once and
then audits what it has posted. -/
theorem receipts_auditable_simple :
    let d := Desk.simple
    let events := [Event.errand none (.openAccount default Currency.usd),
      .errand none (.deposit default Currency.usd (.hundredths 10000)),
      .errand none (.deposit default Currency.usd (.hundredths 2500))]
    let s := events.foldl (Archive.next d) { day := { world := World.simple } }
    let simulation : Simulation := { desk := d, speed := 1.0, choices := mkStdGen 0 }
    let state := [Part.populate 1].foldl Simulation.after (simulation, World.simple)
    let part := Part.perform ⟨"audit", "One deposit that is audited",
      [.deposit "ALICE" "100.00" "USD", .require .ledgerConsistent]⟩
    let played := Simulation.play part.play state.1 state.2
    s.receipts.length = 2 ∧
      (∀ r ∈ s.receipts, (Desk.verify r.txId none s.day.world).1 = some (.ok r.kind)) ∧
      played.2.1.posted.length = 1 ∧ ∀ txId e, played.1 ≠ .error (.audit txId e) := by
  intro d events s simulation state part played
  have two : s.receipts.length = 2 ∧ s.day.world.ledger.postings.Nodup ∧
      s.day.world.mishaps.ledger = [] := by decide +kernel
  have one : played.2.1.posted.length = 1 ∧ played.2.2.ledger.postings.Nodup := by decide +kernel
  have calm : s.day.world.Calm .journalFor := fun c hc => by
    rw [two.2.2] at hc
    cases hc
  obtain ⟨-, -, -, -, audits, plays⟩ := receipts_auditable d (w := World.simple)
    Ledger.atRest_empty rfl rfl events []
  have verified : ∀ r ∈ s.receipts, (Desk.verify r.txId none s.day.world).1 = some (.ok r.kind) :=
    fun r hr => (((audits two.2.1).2 r hr).2 calm none).1
  have unblamed := (plays (fun _ h => by cases h) simulation state rfl ⟨[.populate 1], rfl⟩).2
  exact ⟨two.1, verified, one.1, unblamed part played.1 played.2 (Prod.eta played).symm one.2⟩

end Archive

end Bureau
