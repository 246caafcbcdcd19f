import Bureau.Desk.Settlement
import Bureau.Proofs.Desk.Accounts
import Bureau.Proofs.Desk.Offers

/-!
# Operations that come to an answer

Only a deadline around it or a crash can keep an operation from its answer, for every wait ends and
a deadline of its own is part of the answer (`Timed.returns_within`). So a client that waits long
enough is answered, unless it asks for an offer that would outlive the calendar
(`Desk.createOffer_ends`).
-/

namespace Bureau

namespace Timed

variable {α β ε : Type}

/-- Without a deadline the operation comes to an answer. -/
def Returns (x : Timed α) : Prop := ∀ w, ∃ a w', x.run w = (some a, w')

theorem returns_pure (a : α) : (pure a : Timed α).Returns := fun w => ⟨a, w, rfl⟩

theorem returns_read (f : World → α) : (read f).Returns := fun w => ⟨f w, w, rfl⟩

theorem returns_act (f : World → α × World) : (act f).Returns := fun w => ⟨(f w).1, (f w).2, rfl⟩

theorem returns_wait (span : Nat) : (wait span).Returns := fun _ => ⟨(), _, rfl⟩

theorem Returns.bind {x : Timed α} {f : α → Timed β} (hx : x.Returns)
    (hf : ∀ a, (f a).Returns) : (x >>= f).Returns := by
  intro w
  obtain ⟨a, w', first⟩ := hx w
  obtain ⟨b, w'', second⟩ := hf a w'
  refine ⟨b, w'', ?_⟩
  rw [run] at first second ⊢
  rw [bind_apply, first]
  exact second

/-- An operation that its own span cuts off is answered by its absence. -/
theorem returns_within (span : Nat) (x : Timed α) : (within span x).Returns := fun w =>
  ⟨(x (some (w.clock + span)) w).1, (x (some (w.clock + span)) w).2, rfl⟩

theorem closed_returns : Closed @Returns where
  pure := returns_pure
  bind := Returns.bind
  within span x _ := returns_within span x

theorem returns_count (event : Countable) : (count event).Returns := returns_act _

theorem returns_freshUuid : freshUuid.Returns :=
  (returns_act _).bind fun _ => returns_pure _

theorem returns_freshNonce : freshNonce.Returns :=
  (returns_act _).bind fun _ => returns_pure _

theorem returns_suffer (pop : World → Option (Mishap ε) × World) : (suffer pop).Returns := by
  refine (returns_act pop).bind fun mishap => ?_
  cases mishap with
  | none => exact returns_pure none
  | some mishap => exact (returns_wait _).bind fun _ => returns_pure _

end Timed

open Timed

theorem Ledger.returns_query {α : Type} (name : LedgerCall) (f : Ledger → α) :
    (query name f).Returns := by
  refine (returns_suffer _).bind fun error => ?_
  cases error with
  | some e => exact returns_pure _
  | none => exact returns_act _

theorem Posting.returns_post (deadline : Nat) (batch : JournalBatch) :
    (post deadline batch).Returns := by
  unfold post
  cases ofBatch batch with
  | error e => exact returns_pure _
  | ok p =>
    refine (returns_within _ _).bind fun found => ?_
    cases found with
    | none => exact returns_pure _
    | some p' =>
      dsimp only
      split
      · exact returns_pure _
      · exact returns_pure _
      · exact returns_pure _

namespace Desk

variable {α : Type} (d : Desk)

theorem returns_failing (event : Countable) (e : DeskError) :
    (failing event e : Timed (Except DeskError α)).Returns :=
  (returns_count event).bind fun _ => returns_pure _

/-- A failure that is counted when it may pass. -/
theorem returns_refusal (passing : Bool) (event : Countable) (e : DeskError) :
    (if passing then failing event e else return .error e :
      Timed (Except DeskError α)).Returns := by
  split
  · exact returns_failing event e
  · exact returns_pure _

theorem returns_deposit (client : ClientId) (currency : Currency) (amount : Decimal) :
    (d.deposit client currency amount).Returns := by
  unfold deposit
  split
  · exact returns_pure _
  · dsimp only
    split
    · exact returns_pure _
    · refine returns_freshUuid.bind fun uuid => (returns_read _).bind fun now => ?_
      refine (Posting.returns_post _ _).bind fun answer => ?_
      cases answer with
      | ok posted => exact (returns_count _).bind fun _ => returns_pure _
      | error e => exact returns_refusal _ _ _

theorem returns_taken (id : OfferId) : (d.taken id).Returns := by
  refine (returns_within _ _).bind fun answer => ?_
  rcases answer with _ | _ | _ | offer
  · exact returns_failing _ _
  · exact returns_failing _ _
  · exact returns_failing _ _
  · exact returns_pure _

theorem returns_settle (client : ClientId) (offer : Offer) (kind : SettlementKind) :
    (d.settle client offer kind).Returns := by
  refine returns_freshUuid.bind fun uuid => (returns_read _).bind fun now => ?_
  refine (Posting.returns_post _ _).bind fun answer => ?_
  cases answer with
  | ok posted => exact (returns_count _).bind fun _ => returns_pure _
  | error e => exact (returns_count _).bind fun _ => returns_refusal _ _ _

theorem returns_redeem (client : ClientId) (token : String) : (d.redeem client token).Returns := by
  unfold redeem
  cases d.offerOf? token with
  | none => exact returns_failing _ _
  | some id =>
    refine (d.returns_taken id).bind fun answer => ?_
    cases answer with
    | error e => exact returns_pure _
    | ok offer =>
      refine (returns_read _).bind fun now => ?_
      split
      · exact returns_failing _ _
      · exact d.returns_settle client offer _

theorem returns_priced (r : OfferRequest) (kind : SettlementKind) :
    (d.priced r kind).Returns := by
  refine (returns_within _ _).bind fun answer => ?_
  rcases answer with _ | e | quote
  · exact returns_failing _ _
  · exact returns_refusal _ _ _
  · dsimp only
    split
    · exact returns_pure _
    · exact returns_failing _ _

theorem returns_drawn (r : OfferRequest) (quote : Quote) (lifetime : Nat) :
    (d.drawn r quote lifetime).Returns :=
  returns_freshUuid.bind fun _ => returns_freshNonce.bind fun _ => returns_read _

theorem returns_stored (offer : Offer) (lifetime : Nat) : (d.stored offer lifetime).Returns := by
  refine (returns_within _ _).bind fun answer => ?_
  rcases answer with _ | _ | ⟨⟩
  · exact returns_failing _ _
  · exact returns_failing _ _
  · exact returns_pure _

/-- No offer is drawn up only when its lifetime passes the end of the calendar. -/
theorem late_of_drawn {r : OfferRequest} {quote : Quote} {lifetime : Nat} {w w' : World}
    (drawn : (d.drawn r quote lifetime).run w = (some none, w')) :
    w.now.addMillis? lifetime = none := by
  have found := Option.some.inj (congrArg Prod.fst drawn)
  exact Option.map_eq_none_iff.1 (Option.map_eq_none_iff.1 found)

/-- A request for an offer is answered, or it crashes because the offer would outlive the
calendar. -/
theorem createOffer_ends (r : OfferRequest) (w : World) :
    (∃ answer w', (d.createOffer r).run w = (some answer, w')) ∨
      ∃ kind w', r.validate = .ok kind ∧ w.now.addMillis? (d.lifetime kind) = none ∧
        (d.createOffer r).run w = (none, w') ∧ w'.lastCrash = some .moment := by
  unfold createOffer
  cases valid : r.validate with
  | error e => exact .inl ⟨_, _, rfl⟩
  | ok kind =>
    obtain ⟨quoted, w₁, priced⟩ := d.returns_priced r kind w
    have now : w₁.now = w.now := by
      have ensured := ensures_priced (w := w) d r kind none
      rw [run] at priced
      rw [priced] at ensured
      exact ensured.1.now
    simp only [run, bind_apply] at priced ⊢
    rw [priced]
    cases quoted with
    | error e => exact .inl ⟨_, _, rfl⟩
    | ok quote =>
      obtain ⟨found, w₂, drawn⟩ := d.returns_drawn r quote (d.lifetime kind) w₁
      have late := fun h : found = none => d.late_of_drawn (h ▸ drawn)
      rw [run] at drawn
      dsimp only
      rw [bind_apply, drawn]
      rcases found with _ | ⟨offer, token⟩
      · exact .inr ⟨kind, _, rfl, now ▸ late rfl, rfl, rfl⟩
      · obtain ⟨stored, w₃, stores⟩ := d.returns_stored offer (d.lifetime kind) w₂
        rw [run] at stores
        dsimp only
        rw [bind_apply, stores]
        cases stored with
        | error e => exact .inl ⟨_, _, rfl⟩
        | ok _ => exact .inl ⟨_, _, rfl⟩

theorem returns_audit (txId : TxId) : (audit txId).Returns :=
  closed_audit closed_returns Ledger.returns_query txId

end Desk

end Bureau
