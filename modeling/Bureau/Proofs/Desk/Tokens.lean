import Bureau.Proofs.Desk.AccountWalk
import Bureau.Proofs.Desk.Visits

/-!
# What tokens are good for

The desk hands out tokens for three uses: to redeem an offer, to go on with a listing of accounts,
and to go on with a listing of journal rows. The first is told from the others by the byte of its
kind, and the two cursors by the shape of what they hold, whatever that is. A token that is
presented for another use than its own is refused like a text that is no token at all, and nothing
happens but that a redemption is counted (`Desk.tokens_confined`).
-/

namespace Bureau

open Timed World

/-! ### Uses -/

/-- What a token is handed out for. -/
inductive Usage where
  | redemption
  | accounts
  | journal
deriving DecidableEq

namespace Usage

/-- The answer to a token that is not good for the use. -/
def refusal : Usage → DeskError
  | redemption => .notFoundOrExpired
  | accounts | journal => Desk.cursorFault

/-- The world after such a token has been presented. -/
def turnedAway (w : World) : Usage → World
  | redemption => { w with counters := w.counters.add .offerMissed }
  | accounts | journal => w

end Usage

/-- The token that an errand presents, and what for. -/
def Errand.presents : Errand → Option (Usage × String)
  | .redeem _ token => some (.redemption, token)
  | .listAccounts _ cursor _ => cursor.map (.accounts, ·)
  | .listJournal _ _ query _ => query.cursor.map (.journal, ·)
  | _ => none

/-- The token that a client is handed out, and what for. -/
def Content.handsOut : Content → Option (Usage × String)
  | .ticket t => some (.redemption, t.token)
  | .accounts page => page.nextCursor.map (.accounts, ·)
  | .journal page => page.nextCursor.map (.journal, ·)
  | _ => none

/-! ### Refusals -/

namespace Desk

variable {d : Desk} {use other : Usage} {token : String}

/-- The token cannot be opened for a use. -/
def Refuses (d : Desk) : Usage → String → Prop
  | .redemption, token => d.offerOf? token = none
  | .accounts, token => d.openCursor AccountCursor token = .error cursorFault
  | .journal, token => d.openCursor JournalCursor token = .error cursorFault

/-- Whoever presents a token that cannot be opened is turned away. -/
theorem answer_of_refuses {errand : Errand} (presented : errand.presents = some (use, token))
    (refuses : d.Refuses use token) (deadline : Option Nat) (w : World) :
    d.answer errand deadline w = (some (.error use.refusal), use.turnedAway w) := by
  cases errand with
  | redeem client token' =>
    cases presented
    have closed : d.offerOf? token = none := refuses
    rw [answer, telling_apply, redeem, closed]
    rfl
  | listAccounts client cursor asked =>
    obtain ⟨token', rfl, same⟩ := Option.map_eq_some_iff.1 presented
    cases same
    have closed : d.openCursor AccountCursor token = .error cursorFault := refuses
    rw [answer, telling_apply, listAccounts, accountStart, closed]
    rfl
  | listJournal client currency query asked =>
    obtain ⟨token', cursor, same⟩ := Option.map_eq_some_iff.1 presented
    cases same
    have closed : d.openCursor JournalCursor token = .error cursorFault := refuses
    rw [answer, telling_apply, listJournal, journalStart, cursor]
    dsimp only
    rw [closed]
    rfl
  | _ => cases presented

/-- A text that is no token of the desk is refused for every use. -/
theorem refuses_of_decode {text : String} (h : d.codec.decode text = .error .refused)
    (use : Usage) : d.Refuses use text := by
  have unopened (kind : TokenKind) : d.codec.openAs kind text = .error .refused := by
    rw [TokenCodec.openAs, h]
  cases use with
  | redemption =>
    change d.offerOf? text = none
    rw [offerOf?, unopened]
  | accounts =>
    change d.openCursor AccountCursor text = .error cursorFault
    rw [openCursor, unopened]
  | journal =>
    change d.openCursor JournalCursor text = .error cursorFault
    rw [openCursor, unopened]

end Desk

/-! ### Cursors of one listing in the other -/

namespace Wire

open Json (Fields record?)

/-- A cursor of accounts goes on at a currency, which is no place in the journal. -/
theorem decode_accountCursor_as_journal (c : AccountCursor) :
    ∃ e, Json.decode (decode (α := JournalCursor)) (encode c).compress = .error e := by
  have notRow : decode (α := JournalKey) (encode c.start) = .error .mismatch := rfl
  refine ⟨.mismatch, ?_⟩
  simp only [Json.decode, Json.read_compress (faithful_accountCursor c).reads]
  rw [encode_accountCursor, decode_journalCursor]
  simp [Json.record, record?, Json.fillMembers, Fields.map, Fields.pair, field, Fields.required,
    notRow, Except.map, Except.bind, bind]

/-- A cursor of rows goes on at a row, which is no currency. -/
theorem decode_journalCursor_as_account (c : JournalCursor) :
    ∃ e, Json.decode (decode (α := AccountCursor)) (encode c).compress = .error e := by
  have notCurrency : decode (α := Currency) (encode c.start) = .error .mismatch := rfl
  -- The window is skipped.
  have skipped : Json.ignored (encode c.window) = .ok () := rfl
  refine ⟨.mismatch, ?_⟩
  simp only [Json.decode, Json.read_compress (reads_journalCursor c)]
  rw [encode_journalCursor, decode_accountCursor]
  simp [Json.record, record?, Json.fillMembers, Fields.map, field, Fields.required, skipped,
    notCurrency, Except.map, Except.bind, bind]

end Wire

/-! ### Tokens that are handed out -/

namespace Desk

variable {d : Desk} {w : World} {use other : Usage} {token : String}

/-- The token has been sealed for a use. -/
inductive SealedFor (d : Desk) : Usage → String → Prop
  | offer {nonce : Bytes} (length : nonce.length = Gcm.nonceLength) (id : OfferId) :
    SealedFor d .redemption (d.codec.sealAs .offer nonce id.toBytes)
  | accounts {nonce : Bytes} (length : nonce.length = Gcm.nonceLength) (c : AccountCursor) :
    SealedFor d .accounts
      (d.codec.sealAs .cursor nonce (Bytes.ofString (Wire.encode c).compress))
  | journal {nonce : Bytes} (length : nonce.length = Gcm.nonceLength) (c : JournalCursor) :
    SealedFor d .journal
      (d.codec.sealAs .cursor nonce (Bytes.ofString (Wire.encode c).compress))

/-- No cursor is a token of an offer. -/
theorem offerOf?_sealAs_cursor {nonce bytes : Bytes} (length : nonce.length = Gcm.nonceLength) :
    d.offerOf? (d.codec.sealAs .cursor nonce bytes) = none := by
  rw [offerOf?, TokenCodec.openAs_sealAs_of_ne (by decide) length]

/-- No token of an offer is a cursor. -/
theorem openCursor_sealAs_offer {κ : Type} [Wire κ] {nonce bytes : Bytes}
    (length : nonce.length = Gcm.nonceLength) :
    d.openCursor κ (d.codec.sealAs .offer nonce bytes) = .error cursorFault := by
  rw [openCursor, TokenCodec.openAs_sealAs_of_ne (by decide) length]

/-- A cursor whose text is not of the wanted form is refused. -/
theorem openCursor_sealAs_of_error {κ : Type} [Wire κ] {nonce : Bytes} {text : String}
    (length : nonce.length = Gcm.nonceLength)
    (h : ∃ e, Json.decode (Wire.decode (α := κ)) text = .error e) :
    d.openCursor κ (d.codec.sealAs .cursor nonce (Bytes.ofString text)) = .error cursorFault := by
  obtain ⟨e, misread⟩ := h
  rw [openCursor, TokenCodec.openAs_sealAs length]
  simp only [Bytes.toString?_ofString, misread]

/-- A token is refused for every use but its own. -/
theorem SealedFor.refuses (h : d.SealedFor use token) (different : other ≠ use) :
    d.Refuses other token := by
  cases h with
  | offer length id =>
    cases other with
    | redemption => exact absurd rfl different
    | accounts | journal => exact openCursor_sealAs_offer length
  | accounts length c =>
    cases other with
    | redemption => exact offerOf?_sealAs_cursor length
    | accounts => exact absurd rfl different
    | journal =>
      exact openCursor_sealAs_of_error length (Wire.decode_accountCursor_as_journal c)
  | journal length c =>
    cases other with
    | redemption => exact offerOf?_sealAs_cursor length
    | accounts =>
      exact openCursor_sealAs_of_error length (Wire.decode_journalCursor_as_account c)
    | journal => exact absurd rfl different

/-- The cursor of a page is a sealed one. -/
theorem sealed_of_made {α κ : Type} [Wire κ] {size : Nat} {rows : List α} {place : α → κ}
    {p : Page α} (h : p.Made d size rows place) (next : p.nextCursor = some token) :
    ∃ (nonce : Bytes) (c : κ), nonce.length = Gcm.nonceLength ∧
      token = d.codec.sealAs .cursor nonce (Bytes.ofString (Wire.encode c).compress) := by
  cases row : rows[size]? with
  | none =>
    rw [h.last row] at next
    cases next
  | some row' =>
    obtain ⟨nonce, length, cursor⟩ := h.more row' row
    rw [cursor] at next
    cases next
    exact ⟨nonce, place row', length, rfl⟩

theorem ensures_sealed_listAccounts (client : ClientId) (cursor : Option String) (asked : Int)
    (w : World) :
    (d.listAccounts client cursor asked).Ensures w
      (fun answer _ => ∀ p, answer = .ok p → ∀ token, p.nextCursor = some token →
        d.SealedFor .accounts token) fun _ => True := by
  cases opens : d.accountStart cursor with
  | error e =>
    rw [listAccounts_of_refused opens]
    exact ensures_pure fun p hp => by cases hp
  | ok start =>
    refine (ensures_accountsPage opens client asked).mono (fun answer _ h p hp token next => ?_)
      fun _ h => h
    obtain ⟨nonce, c, length, rfl⟩ := sealed_of_made (h p hp) next
    exact .accounts length c

theorem ensures_sealed_listJournal (client : ClientId) (currency : Currency)
    (query : JournalQuery) (asked : Int) (w : World) :
    (d.listJournal client currency query asked).Ensures w
      (fun answer _ => ∀ p, answer = .ok p → ∀ token, p.nextCursor = some token →
        d.SealedFor .journal token) fun _ => True := by
  cases opens : d.journalStart query with
  | error e =>
    rw [listJournal_of_refused opens]
    exact ensures_pure fun p hp => by cases hp
  | ok found =>
    refine (ensures_journalPage opens client currency asked).mono
      (fun answer _ h p hp token next => ?_) fun _ h => h
    obtain ⟨nonce, c, length, rfl⟩ := sealed_of_made (h p hp) next
    exact .journal length c

/-- Every token that an operation hands out is sealed for the use that it is handed out for. -/
def Seals (d : Desk) (x : Timed (Except DeskError Content)) (w : World) : Prop :=
  x.Ensures w (fun answer _ => ∀ content, answer = .ok content → ∀ use token,
    content.handsOut = some (use, token) → d.SealedFor use token) fun _ => True

theorem seals_telling {α : Type} {x : Timed (Except DeskError α)} {f : α → Content}
    (h : x.Ensures w (fun answer _ => ∀ a, answer = .ok a → ∀ use token,
      (f a).handsOut = some (use, token) → d.SealedFor use token) fun _ => True) :
    d.Seals (x.telling f) w := by
  refine Ensures.telling (h.mono (fun answer w' h => ?_) fun _ h => h)
  rintro content told
  cases answer with
  | error e => cases told
  | ok a =>
    cases told
    exact h a rfl

/-- An answer that is told in a form without a token hands out none. -/
theorem seals_nothing {α : Type} (x : Timed (Except DeskError α)) {f : α → Content}
    (nothing : ∀ a, (f a).handsOut = none) (w : World) : d.Seals (x.telling f) w := by
  refine seals_telling fun deadline => ?_
  split
  · rintro a - use token out
    rw [nothing] at out
    cases out
  · trivial

theorem sealedFor_of_map {next : Option String}
    (h : ∀ token, next = some token → d.SealedFor use token) {use' : Usage}
    (out : next.map (use, ·) = some (use', token)) : d.SealedFor use' token := by
  obtain ⟨_, there, same⟩ := Option.map_eq_some_iff.1 out
  cases same
  exact h token there

theorem seals_answer (d : Desk) (errand : Errand) (w : World) : d.Seals (d.answer errand) w := by
  cases errand with
  | createOffer request =>
    refine seals_telling ((d.ensures_createOffer request).mono (fun answer w' h => ?_)
      fun _ _ => trivial)
    rintro t rfl use token out
    obtain ⟨-, ⟨_, same, makes⟩ | ⟨⟨e, failed⟩, -⟩⟩ := h
    · cases same
      cases out
      obtain ⟨nonce, length, sealed⟩ := makes.token
      rw [sealed]
      exact .offer length _
    · cases failed
  | listAccounts client cursor asked =>
    exact seals_telling ((ensures_sealed_listAccounts client cursor asked w).mono
      (fun answer w' h p hp use token => sealedFor_of_map (h p hp)) fun _ h => h)
  | listJournal client currency query asked =>
    exact seals_telling ((ensures_sealed_listJournal client currency query asked w).mono
      (fun answer w' h p hp use token => sealedFor_of_map (h p hp)) fun _ h => h)
  | openAccount | deposit | redeem | balance | transaction | verify =>
    exact seals_nothing _ (fun _ => rfl) w

/-- Tokens are good for one use. Whatever has happened before a client is handed a token, and
whatever happens after: when anybody presents it for another use than its own, the answer is the
refusal of that use, and the world stays as it is but that a redemption is counted as missed; so no
offer leaves the cache. A text that is no token at all gets the same answer, whoever presents it
for that use. -/
theorem tokens_confined (d : Desk) (w : World) (history later : List Event)
    {errand presentation : Errand} {deadline : Option Nat} {content : Content}
    {use other : Usage} {token : String}
    (handed : (d.answer errand deadline (history.foldl (Day.next d) { world := w }).world).1 =
      some (.ok content))
    (out : content.handsOut = some (use, token))
    (presented : presentation.presents = some (other, token)) (different : other ≠ use)
    (deadline' : Option Nat) :
    let now := ((history ++ .errand deadline errand :: later).foldl (Day.next d)
      { world := w }).world
    d.answer presentation deadline' now = (some (.error other.refusal), other.turnedAway now) ∧
    (other.turnedAway now).cache = now.cache ∧ (other.turnedAway now).ledger = now.ledger ∧
    ∀ imposter garbage deadline'', imposter.presents = some (other, garbage) →
      d.codec.decode garbage = .error .refused →
      d.answer imposter deadline'' now = (some (.error other.refusal), other.turnedAway now) := by
  intro now
  have sealed : d.SealedFor use token :=
    (d.seals_answer errand _).result handed content rfl use token out
  refine ⟨answer_of_refuses presented (sealed.refuses different) deadline' now, ?_, ?_, ?_⟩
  · cases other <;> rfl
  · cases other <;> rfl
  · intro imposter garbage deadline'' shown unread
    exact answer_of_refuses shown (refuses_of_decode unread other) deadline'' now

/-- A listing only looks at the world. -/
theorem cache_of_listing (d : Desk) (w : World) (history : List Event) (client : ClientId)
    (cursor : Option String) (asked : Int) (deadline : Option Nat) :
    ((history ++ [Event.errand deadline (.listAccounts client cursor asked)]).foldl (Day.next d)
      { world := w }).world.cache =
      (history.foldl (Day.next d) { world := w }).world.cache := by
  rw [List.foldl_append]
  exact ((d.looks_listAccounts client cursor asked _).world deadline).cache

/-- A client with two accounts and an offer lists the first account and is handed a cursor.
Presented as the token of an offer or as a cursor of rows it is refused, and the offer stays in the
cache. -/
theorem tokens_confined_simple :
    let d : Desk := { Desk.simple with settings := { secret := "secret" } }
    let history := [Event.errand none (.openAccount default Currency.usd),
      .errand none (.openAccount default Currency.eur), .errand none (.createOffer .simple)]
    let listing := Errand.listAccounts default none 1
    let now := ((history ++ [Event.errand none listing]).foldl (Day.next d)
      { world := World.simple }).world
    now.cache.entries.length = 1 ∧ ∃ page token,
      (d.answer listing none (history.foldl (Day.next d) { world := World.simple }).world).1 =
        some (.ok (.accounts page)) ∧ page.nextCursor = some token ∧
      d.answer (.redeem default token) none now =
        (some (.error .notFoundOrExpired), Usage.redemption.turnedAway now) ∧
      d.answer (.listJournal default Currency.usd { cursor := some token } 1) none now =
        (some (.error (.invalid "pageCursor" "invalid page cursor or page size")), now) := by
  intro d history listing now
  let start := (history.foldl (Day.next d) { world := World.simple }).world
  have two : (start.ledger.accountsFrom default none).length = 2 := by
    rw [Ledger.accountsFrom, List.length_mergeSort]
    decide +kernel
  have calm : start.Calm .accountsPage := fun c hc => by
    rw [show start.mishaps.ledger = [] by decide +kernel] at hc
    cases hc
  have opens : d.accountStart none = .ok none := rfl
  obtain ⟨page, w', answer⟩ := listAccounts_calm opens calm default
    (show d.pageSize 1 + 1 < twoTo 64 by decide) none
  have shows := Walk.shows_of_answer opens answer
  obtain ⟨token, next, -⟩ := shows.more _ (List.getElem?_eq_getElem (by rw [two]; decide))
  have handed : (d.answer listing none start).1 = some (.ok (.accounts page)) := by
    rw [Desk.answer, telling_apply, answer]
    rfl
  have out : (Content.accounts page).handsOut = some (.accounts, token) := by
    rw [Content.handsOut, next]
    rfl
  refine ⟨?_, page, token, handed, next, ?_, ?_⟩
  · rw [d.cache_of_listing World.simple history]
    decide +kernel
  · exact (tokens_confined d World.simple history [] handed out
      (show (Errand.redeem default token).presents = _ from rfl) (by decide) none).1
  · exact (tokens_confined d World.simple history [] handed out
      (show (Errand.listJournal default Currency.usd { cursor := some token } 1).presents = _
        from rfl) (by decide) none).1

end Desk

end Bureau
