import Bureau.Proofs.Desk.Mirrors

/-!
# A client's own errands in two worlds

In two worlds of one scene between which a client cannot tell, each of the client's own errands is
answered alike, whatever befalls its calls, and afterwards the client still cannot tell the worlds
apart (`Desk.mirrored_own`).
-/

namespace Bureau

open Timed World

variable {client : ClientId} {made : List (ClientId × OfferId)} {floor : Nat} {w w' v v' : World}

/-- In both worlds the operation has the same result, and the client still cannot tell them
apart. -/
abbrev Timed.Mirrored {α : Type} (client : ClientId) (made : List (ClientId × OfferId))
    (x : Timed α) (w w' : World) : Prop :=
  x.Abreast x w w' (fun a b v v' => a = b ∧ v.Mirrors client made v.clock v')
    fun v v' => v.Mirrors client made v.clock v'

theorem Timed.Mirrored.telling {α β : Type} {x : Timed (Except DeskError α)} {f : α → β}
    (h : x.Mirrored client made w w') : (x.telling f).Mirrored client made w w' := by
  refine h.bind fun answer _ v v' scene ⟨same, mirrors⟩ => ?_
  subst same
  cases answer <;> exact abreast_pure scene ⟨rfl, mirrors⟩

/-- The worlds after two operations that leave the cache alone. -/
theorem World.Mirrors.beside (mirrors : w.Mirrors client made floor w') (le : floor ≤ w.clock)
    (beside : w.Beside v) (beside' : w'.Beside v') (atRest : v.ledger.AtRest)
    (atRest' : v'.ledger.AtRest) (alike : v.ledger.Alike client v'.ledger) :
    v.Mirrors client made v.clock v' := by
  refine ⟨mirrors.left.of_cache atRest beside.cache, mirrors.right.of_cache atRest' beside'.cache,
    alike, ?_⟩
  rw [beside.cache, beside'.cache]
  exact mirrors.cache.mono (List.Subset.refl _) (le.trans beside.clock)

/-- The worlds after two operations that leave the cache and the ledger alone. -/
theorem World.Mirrors.unchanged (mirrors : w.Mirrors client made floor w') (le : floor ≤ w.clock)
    (beside : w.Beside v) (beside' : w'.Beside v') (same : v.ledger = w.ledger)
    (same' : v'.ledger = w'.ledger) : v.Mirrors client made v.clock v' := by
  refine mirrors.beside le beside beside' (same ▸ mirrors.left.atRest)
    (same' ▸ mirrors.right.atRest) ?_
  rw [same, same']
  exact mirrors.ledger

/-- The same batch is computed from the client's accounts in both ledgers. -/
theorem Ledger.RowsFor.matched {treasury : ClientId} {l l' : Ledger} {batch : JournalBatch}
    (rows : RowsFor treasury client batch) (alike : l.Alike client l') (atRest : l.AtRest)
    (atRest' : l'.AtRest) (p : Posting) (genuine : Posting.ofBatch batch = .ok p) :
    p.Matched l l' where
  left := Posting.unhindered_of_atRest atRest p
  right := Posting.unhindered_of_atRest atRest' p
  same := fun _ hkey => alike.account? (rows.keys genuine _ hkey)

namespace Desk

variable {d : Desk}

/-! ### Looking -/

/-- A look that has the same result in both worlds. -/
theorem mirrored_looks {α : Type} {x : Timed α} (mirrors : w.Mirrors client made floor w')
    (le : floor ≤ w.clock) (agree : x.Agree x w w') (looks : x.Looks) :
    x.Mirrored client made w w' := by
  have kept {v v' : World} (like : w.Like v) (like' : w'.Like v') :
      v.Mirrors client made v.clock v' :=
    mirrors.unchanged le like.toBeside like'.toBeside like.ledger like'.ledger
  exact (agree.and (looks w) (looks w')).mono (fun _ _ _ _ _ h => ⟨h.1, kept h.2.1 h.2.2⟩)
    fun _ _ _ h => kept h.2.1 h.2.2

section Looks

variable (mirrors : w.Mirrors client made floor w') (scene : w.scene = w'.scene)

include mirrors scene

theorem agree_balance (currency : Currency) :
    (d.balance client currency).Agree (d.balance client currency) w w' := by
  refine Agree.then_blind (agree_read scene (mirrors.ledger.account? rfl).symm _) fun answer => ?_
  rcases answer with e | _ | a <;> exact blind_pure _

theorem agree_transaction (txId : TxId) :
    (d.transaction client txId).Agree (d.transaction client txId) w w' := by
  have read : (d.ledgerRead (Ledger.query .journalFor (·.journalFor txId))).Abreast
      (d.ledgerRead (Ledger.query .journalFor (·.journalFor txId))) w w'
      (fun a b _ _ => Matches (fun rows rows' =>
        rows'.filter (·.client = client) = rows.filter (·.client = client)) a b) fun _ _ => True :=
    abreast_ledgerRead scene (Ledger.abreast_query scene (mirrors.ledger.journalFor txId))
  refine read.bind fun a b v v' scene alike => ?_
  cases alike with
  | error e => exact abreast_pure scene rfl
  | ok same =>
    dsimp only
    rw [same]
    split <;> exact abreast_pure scene rfl

theorem agree_listAccounts (cursor : Option String) (asked : Int) :
    (d.listAccounts client cursor asked).Agree (d.listAccounts client cursor asked) w w' := by
  unfold listAccounts
  dsimp only
  split
  · exact abreast_pure scene rfl
  · split
    · exact blind_crash _ _ _ scene
    · refine Agree.then_blind (agree_read scene (mirrors.ledger.accountsPage _ _).symm _)
        fun answer => ?_
      cases answer with
      | error e => exact blind_pure _
      | ok rows => exact (blind_page _ rows _).bind fun _ => blind_pure _

theorem agree_listJournal (currency : Currency) (query : JournalQuery) (asked : Int) :
    (d.listJournal client currency query asked).Agree
      (d.listJournal client currency query asked) w w' := by
  unfold listJournal
  dsimp only
  split
  · exact abreast_pure scene rfl
  · split
    · exact blind_crash _ _ _ scene
    · refine Agree.then_blind (agree_read scene (mirrors.ledger.journalPage rfl _ _ _).symm _)
        fun answer => ?_
      cases answer with
      | error e => exact blind_pure _
      | ok rows => exact (blind_page _ rows _).bind fun _ => blind_pure _

end Looks

/-! ### Opening an account -/

theorem mirrored_openAccount (mirrors : w.Mirrors client made floor w') (le : floor ≤ w.clock)
    (scene : w.scene = w'.scene) (currency : Currency) :
    (d.openAccount client currency).Mirrored client made w w' := by
  have agree : (d.openAccount client currency).Agree (d.openAccount client currency) w w' := by
    unfold openAccount
    split
    · exact abreast_pure scene rfl
    · exact (abreast_ledgerRead scene (Ledger.abreast_callCreateAccount scene
        (mirrors.ledger.account? rfl).symm)).mono (fun _ _ _ _ _ alike => matches_eq alike)
        fun _ _ _ h => h
  have now : w'.now = w.now := (congrArg Scene.now scene).symm
  have same {v v' : World} (h : w.Beside v ∧ v.ledger = w.ledger)
      (h' : w'.Beside v' ∧ v'.ledger = w'.ledger) : v.Mirrors client made v.clock v' :=
    mirrors.unchanged le h.1 h'.1 h.2 h'.2
  refine (agree.and (d.yields_openAccount client currency w)
    (d.yields_openAccount client currency w')).mono (fun a b v v' _ h => ?_) fun v v' _ h =>
    same h.2.1 h.2.2
  obtain ⟨rfl, left, right⟩ := h
  refine ⟨rfl, ?_⟩
  cases a with
  | error e => exact same left right
  | ok account =>
    obtain ⟨beside, -, created⟩ := left
    obtain ⟨beside', -, created'⟩ := right
    refine mirrors.beside le beside beside' ?_ ?_ ?_
    · exact created ▸ mirrors.left.atRest.createAccount _ _
    · exact created' ▸ mirrors.right.atRest.createAccount _ _
    · rw [created, created', now]
      exact mirrors.ledger.createAccount rfl _

/-! ### Posting -/

/-- A posting of the client's that is answered alike. -/
theorem mirrored_posting {x : Timed (Except DeskError Receipt)} {treasury : ClientId}
    (mirrors : w.Mirrors client made floor w') (le : floor ≤ w.clock) (agree : x.Agree x w w')
    (replies : ∀ u : World, u.ledger.AtRest → x.Ensures u
      (fun answer u' => u.Beside u' ∧ u.ledger.Replies treasury client answer u'.ledger)
      fun u' => u.Beside u' ∧ u.ledger.Unchanged u'.ledger) : x.Mirrored client made w w' := by
  have left := mirrors.left.atRest
  have right := mirrors.right.atRest
  refine (agree.and (replies w left) (replies w' right)).mono (fun a b v v' _ h => ?_)
    fun v v' _ h => ?_
  · obtain ⟨rfl, ⟨beside, done⟩, beside', done'⟩ := h
    exact ⟨rfl, mirrors.beside le beside beside' (done.atRest left) (done'.atRest right)
      (done.alike mirrors.ledger done')⟩
  · obtain ⟨-, ⟨beside, same⟩, beside', same'⟩ := h
    exact mirrors.beside le beside beside' (same.atRest left) (same'.atRest right)
      ((Ledger.Alike.of_eq same.accounts same.journal).symm.trans
        (mirrors.ledger.trans (.of_eq same'.accounts same'.journal)))

/-- Drawing an identifier and looking at the time of day. -/
theorem agree_stamped {α : Type} {f : Uuid → Instant → Timed α} (scene : w.scene = w'.scene)
    (h : ∀ uuid v v', v.scene = v'.scene → v.ledger = w.ledger → v'.ledger = w'.ledger →
      (f uuid w.now).Agree (f uuid w.now) v v') :
    Agree (do let uuid ← freshUuid; let now ← read (·.now); f uuid now)
      (do let uuid ← freshUuid; let now ← read (·.now); f uuid now) w w' := by
  have now : w'.now = w.now := (congrArg Scene.now scene).symm
  have drew (u : World) : freshUuid.Ensures u (fun _ => u.Like) fun _ => True :=
    ensures_freshUuid (u.like_drawn _)
  refine ((blind_freshUuid w w' scene).also (drew w) (drew w')).bind
    fun uuid _ v v' scene ⟨same, like, like'⟩ => ?_
  subst same
  refine (abreast_read (Q := fun a b u u' => a = w.now ∧ b = w.now ∧ w.Like u ∧ w'.Like u') scene
    ⟨like.now, like'.now.trans now, like, like'⟩).bind fun a b u u' scene h' => ?_
  obtain ⟨rfl, rfl, like, like'⟩ := h'
  exact h uuid u u' scene like.ledger like'.ledger

theorem agree_deposit (mirrors : w.Mirrors client made floor w') (scene : w.scene = w'.scene)
    (currency : Currency) (amount : Decimal) :
    (d.deposit client currency amount).Agree (d.deposit client currency amount) w w' := by
  unfold deposit
  split
  · exact abreast_pure scene rfl
  · dsimp only
    split
    · exact abreast_pure scene rfl
    · refine agree_stamped scene fun uuid v v' scene h h' => ?_
      refine Agree.then_blind (Posting.agree_post ?_ ?_ scene ?_ _) fun answer => ?_
      · exact h ▸ mirrors.left.atRest.sound
      · exact h' ▸ mirrors.right.atRest.sound
      · rw [h, h']
        exact (rowsFor_externalDeposit _ _ _ _).matched mirrors.ledger mirrors.left.atRest
          mirrors.right.atRest
      · cases answer with
        | ok posted => exact (blind_count _).bind fun _ => blind_pure _
        | error e =>
          dsimp only
          split
          · exact blind_failing _ _
          · exact blind_pure _

theorem mirrored_deposit (mirrors : w.Mirrors client made floor w') (le : floor ≤ w.clock)
    (scene : w.scene = w'.scene) (currency : Currency) (amount : Decimal) :
    (d.deposit client currency amount).Mirrored client made w w' :=
  mirrored_posting mirrors le (agree_deposit mirrors scene currency amount) fun _ atRest =>
    (ensures_deposit atRest.sound client currency amount).mono
      (fun _ _ h => ⟨h.1, h.2.replies⟩) fun _ h => h

/-! ### Redeeming -/

/-- A token that names no offer of another client's gets hold of the same in both worlds. -/
theorem agree_reach (mirrors : w.Mirrors client made floor w') (le : floor ≤ w.clock)
    (scene : w.scene = w'.scene) {token : String}
    (own : ∀ m ∈ made, d.offerOf? token = some m.2 → m.1 = client) :
    (d.reach token).Agree (d.reach token) w w' := by
  unfold reach
  cases names : d.offerOf? token with
  | none => exact blind_failing _ _ w w' scene
  | some id =>
    have same (now : Nat) (later : w.clock ≤ now) :
        ((w.cache.lookup id.cacheKey).filter (·.isLive now)).map (·.offer) =
          ((w'.cache.lookup id.cacheKey).filter (·.isLive now)).map (·.offer) :=
      congrArg (Option.map (·.offer)) (mirrors.cache.found mirrors.left.keyed mirrors.right.keyed
        mirrors.left.known mirrors.right.known
        (fun m hm named => own m hm (named ▸ names)) (le.trans later))
    refine Agree.then_blind (Agree.within (OfferCache.abreast_callTake scene _ same) scene _)
      fun answer => ?_
    rcases answer with _ | e | _ | offer
    · exact blind_failing _ _
    · exact blind_failing _ _
    · exact blind_failing _ _
    · exact blind_pure _

/-- Two caches that answer alike have both lost the same key, or both are as they were. -/
theorem erased_or_kept {token : String} {answer : Except DeskError Offer} {now now' : Nat}
    {c c₁ c' c₁' : OfferCache}
    (h : (∃ id, d.offerOf? token = some id ∧ Takes id now c answer c₁) ∨
      d.offerOf? token = none ∧ answer = .error .notFoundOrExpired ∧ c₁ = c)
    (h' : (∃ id, d.offerOf? token = some id ∧ Takes id now' c' answer c₁') ∨
      d.offerOf? token = none ∧ answer = .error .notFoundOrExpired ∧ c₁' = c') :
    (∃ key, c₁ = c.erase key ∧ c₁' = c'.erase key) ∨ c₁ = c ∧ c₁' = c' := by
  rcases h with ⟨id, names, takes⟩ | ⟨unnamed, -, same⟩
  · obtain ⟨id', names', takes'⟩ | ⟨unnamed, -⟩ := h'
    · obtain rfl : id = id' := Option.some.inj (names.symm.trans names')
      by_cases answered : ∀ e, answer = .error e → e = .notFoundOrExpired
      · exact .inl ⟨id.cacheKey, takes.erased answered, takes'.erased answered⟩
      · push Not at answered
        obtain ⟨e, rfl, other⟩ := answered
        exact .inr ⟨takes.kept other, takes'.kept other⟩
    · rw [names] at unnamed
      cases unnamed
  · obtain ⟨id', names', -⟩ | ⟨-, -, same'⟩ := h'
    · rw [names'] at unnamed
      cases unnamed
    · exact .inr ⟨same, same'⟩

theorem mirrored_reach (mirrors : w.Mirrors client made floor w') (le : floor ≤ w.clock)
    (scene : w.scene = w'.scene) {token : String}
    (own : ∀ m ∈ made, d.offerOf? token = some m.2 → m.1 = client) :
    (d.reach token).Mirrored client made w w' := by
  refine ((agree_reach mirrors le scene own).and (d.ensures_reach token)
    (d.ensures_reach token)).mono (fun answer _ v v' _ h => ?_) fun v v' _ h =>
      mirrors.unchanged le h.2.1.toBeside h.2.2.toBeside h.2.1.ledger h.2.2.ledger
  obtain ⟨rfl, ⟨aside, reached⟩, aside', reached'⟩ := h
  refine ⟨rfl, ?_⟩
  rcases erased_or_kept reached reached' with ⟨key, gone, gone'⟩ | ⟨same, same'⟩
  · refine ⟨mirrors.left.of_sublist ?_ (gone ▸ w.cache.sublist_erase _),
      mirrors.right.of_sublist ?_ (gone' ▸ w'.cache.sublist_erase _), ?_, ?_⟩
    · exact aside.ledger ▸ mirrors.left.atRest
    · exact aside'.ledger ▸ mirrors.right.atRest
    · rw [aside.ledger, aside'.ledger]
      exact mirrors.ledger
    · rw [gone, gone']
      exact (mirrors.cache.mono (List.Subset.refl _) (le.trans aside.clock)).erase_both _
  · exact mirrors.unchanged le ⟨aside.toApart, same⟩ ⟨aside'.toApart, same'⟩ aside.ledger
      aside'.ledger

theorem agree_settle (mirrors : w.Mirrors client made floor w') (scene : w.scene = w'.scene)
    (offer : Offer) (kind : SettlementKind) :
    (d.settle client offer kind).Agree (d.settle client offer kind) w w' := by
  refine agree_stamped scene fun uuid v v' scene h h' => ?_
  refine Agree.then_blind (Posting.agree_post ?_ ?_ scene ?_ _) fun answer => ?_
  · exact h ▸ mirrors.left.atRest.sound
  · exact h' ▸ mirrors.right.atRest.sound
  · rw [h, h']
    exact (rowsFor_conversion d.settings.treasury _ _ _ _ _).matched mirrors.ledger
      mirrors.left.atRest mirrors.right.atRest
  · cases answer with
    | ok posted => exact (blind_count _).bind fun _ => blind_pure _
    | error e =>
      refine (blind_count _).bind fun _ => ?_
      split
      · exact blind_failing _ _
      · exact blind_pure _

/-- The second step of a redemption. -/
theorem mirrored_conclude (mirrors : w.Mirrors client made floor w') (le : floor ≤ w.clock)
    (scene : w.scene = w'.scene) (offer : Offer) :
    (d.conclude client offer).Mirrored client made w w' := by
  have agree : (d.conclude client offer).Agree (d.conclude client offer) w w' := by
    have now : w'.now = w.now := (congrArg Scene.now scene).symm
    refine (abreast_read (Q := fun a b v v' => a = w.now ∧ b = w.now ∧ v = w ∧ v' = w') scene
      ⟨rfl, now, rfl, rfl⟩).bind fun a b v v' scene h => ?_
    obtain ⟨rfl, rfl, rfl, rfl⟩ := h
    cases offer.claim client v.now with
    | error refused => exact blind_failing _ _ v v' scene
    | ok kind => exact agree_settle mirrors scene offer kind
  exact mirrored_posting mirrors le agree fun u atRest =>
    (ensures_conclude atRest.sound client offer).mono
      (fun _ _ h => ⟨h.1, h.2.replies d.settings.treasury⟩) fun _ h => h

theorem mirrored_redeem (mirrors : w.Mirrors client made floor w') (le : floor ≤ w.clock)
    (scene : w.scene = w'.scene) {token : String}
    (own : ∀ m ∈ made, d.offerOf? token = some m.2 → m.1 = client) :
    (d.redeem client token).Mirrored client made w w' := by
  rw [redeem_eq]
  refine (mirrored_reach mirrors le scene own).bind fun answer _ v v' scene ⟨same, reached⟩ => ?_
  subst same
  cases answer with
  | error e => exact abreast_pure scene ⟨rfl, reached⟩
  | ok offer => exact mirrored_conclude reached (Nat.le_refl _) scene offer

/-! ### Any errand -/

/-- A client's own errand is answered alike, and the client still cannot tell the worlds apart. -/
theorem mirrored_own (mirrors : w.Mirrors client made floor w') (le : floor ≤ w.clock)
    (scene : w.scene = w'.scene) {errand : Errand} (mine : errand.client? = some client)
    (notMaking : ∀ r, errand ≠ .createOffer r) (own : errand.PresentsOwn d made) :
    (d.answer errand).Mirrored client made w w' := by
  cases errand with
  | openAccount _ currency =>
    cases mine
    exact (mirrored_openAccount mirrors le scene currency).telling
  | deposit _ currency amount =>
    cases mine
    exact (mirrored_deposit mirrors le scene currency amount).telling
  | createOffer r => exact absurd rfl (notMaking r)
  | redeem _ token =>
    cases mine
    exact (mirrored_redeem mirrors le scene own).telling
  | balance _ currency =>
    cases mine
    exact (mirrored_looks mirrors le (agree_balance mirrors scene currency)
      (d.looks_balance client currency)).telling
  | transaction _ txId =>
    cases mine
    exact (mirrored_looks mirrors le (agree_transaction mirrors scene txId)
      (d.looks_transaction client txId)).telling
  | listAccounts _ cursor asked =>
    cases mine
    exact (mirrored_looks mirrors le (agree_listAccounts mirrors scene cursor asked)
      (d.looks_listAccounts client cursor asked)).telling
  | listJournal _ currency query asked =>
    cases mine
    exact (mirrored_looks mirrors le (agree_listJournal mirrors scene currency query asked)
      (d.looks_listJournal client currency query asked)).telling
  | verify txId => cases mine

end Desk

end Bureau
