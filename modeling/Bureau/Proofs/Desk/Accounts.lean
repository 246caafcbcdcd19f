import Bureau.Desk.Accounts
import Bureau.Desk.Listing
import Bureau.Proofs.Desk.Calls

/-!
# Opening accounts and looking at them

Opening an account asks the ledger to create it. Balances, transactions and listings are queries
that follow one another, so they have every property that queries have and that is closed under
this (`Timed.Closed`). Above all they only look: whatever they answer, the ledger and the cache stay
as they are.
-/

namespace Bureau

open Timed World

/-- A property of operations that every result has, and that is kept when operations follow one
another and when they are given a deadline. -/
structure Timed.Closed (P : (α : Type) → Timed α → Prop) : Prop where
  pure {α : Type} (a : α) : P α (pure a)
  bind {α β : Type} {x : Timed α} {f : α → Timed β} (hx : P α x) (hf : ∀ a, P β (f a)) :
    P β (x >>= f)
  within {α : Type} (span : Nat) {x : Timed α} (h : P α x) : P (Option α) (within span x)

/-- The operation leaves the ledger and the cache as they are. -/
def Timed.Looks {α : Type} (x : Timed α) : Prop :=
  ∀ w, x.Ensures w (fun _ => w.Like) w.Like

namespace Timed

variable {α : Type}

theorem closed_looks : Closed @Looks where
  pure _ w := ensures_pure (Still.refl w).toLike
  bind hx hf w := Ensures.bind (hx w) fun a w' hw' =>
    (hf a w').mono (fun _ _ h => hw'.trans h) fun _ h => hw'.trans h
  within _ _ h w := Ensures.within ((h w).mono (fun _ _ like => like) fun _ like => ⟨like, like⟩)

theorem looks_query (name : LedgerCall) (f : Ledger → α) : (Ledger.query name f).Looks :=
  fun _ => (Ledger.ensures_query name f).mono (fun _ _ h => h.toLike) fun _ h => h.toLike

theorem looks_freshNonce : freshNonce.Looks :=
  fun w => ensures_freshNonce fun _ => w.like_drawn _

theorem looks_crash (overflow : SumOverflow) : (crash overflow : Timed α).Looks :=
  fun w => ensures_crash (w.still_crash overflow).toLike

end Timed

namespace Desk

variable {α : Type}

/-- An answer that comes too late is an error. -/
theorem yields_ledgerRead {d : Desk} {x : Timed (Except LedgerError α)} {w : World}
    {done : α → World → Prop} {failed : World → Prop} (h : x.Yields w done failed) :
    (d.ledgerRead x).Yields w done failed := by
  refine Ensures.bind (Ensures.within (Q := fun answer w' =>
    (∀ a, answer = some (.ok a) → done a w') ∧
      ((∀ a, answer ≠ some (.ok a)) → failed w')) (Ensures.mono h (fun answer w' h => ?_)
    fun w' h => ⟨⟨by simp, fun _ => h⟩, h⟩)) fun answer w' hw' => ?_
  · cases answer with
    | ok a => exact ⟨fun b same => by cases same; exact h, fun other => absurd rfl (other a)⟩
    | error e => exact ⟨by simp, fun _ => h⟩
  · rcases answer with _ | e | a
    · exact ensures_pure (hw'.2 (by simp))
    · exact ensures_pure (hw'.2 (by simp))
    · exact ensures_pure (hw'.1 a rfl)

/-- Only accounts in currencies that clients may hold are opened. -/
theorem yields_openAccount (d : Desk) (client : ClientId) (currency : Currency) (w : World) :
    (d.openAccount client currency).Yields w
      (fun _ w' => w.Beside w' ∧ currency.isClearing = false ∧
        w'.ledger = (w.ledger.createAccount ⟨client, currency⟩ w.now).2)
      (fun w' => w.Beside w' ∧ w'.ledger = w.ledger) := by
  unfold openAccount
  by_cases clearing : currency.isClearing = true
  · rw [if_pos clearing]
    exact ensures_pure ⟨(Still.refl w).toBeside, rfl⟩
  · rw [if_neg clearing]
    refine yields_ledgerRead ((Ledger.yields_callCreateAccount ⟨client, currency⟩).mono
      (fun _ _ h => ?_) fun _ h => h)
    exact ⟨h.1, by simpa using clearing, h.2⟩

/-- Whatever the answer, the ledger is as it was or the account is opened. -/
theorem openAccount_cases (d : Desk) (client : ClientId) (currency : Currency) (w : World)
    (deadline : Option Nat) :
    let w' := (d.openAccount client currency deadline w).2
    w.Beside w' ∧ (w'.ledger = w.ledger ∨ currency.isClearing = false ∧
      ∃ now, w'.ledger = (w.ledger.createAccount ⟨client, currency⟩ now).2) :=
  (d.yields_openAccount client currency w).world (P := fun w' => w.Beside w' ∧
      (w'.ledger = w.ledger ∨ currency.isClearing = false ∧
        ∃ now, w'.ledger = (w.ledger.createAccount ⟨client, currency⟩ now).2))
    (fun _ _ h => ⟨h.1, .inr ⟨h.2.1, w.now, h.2.2⟩⟩) (fun _ h => ⟨h.1, .inl h.2⟩) deadline

/-! ### Looking -/

section Closed

variable {P : (α : Type) → Timed α → Prop} (closed : Closed P)
  (query : ∀ {α : Type} (name : LedgerCall) (f : Ledger → α), P _ (Ledger.query name f))

include closed in
theorem closed_ledgerRead (d : Desk) {x : Timed (Except LedgerError α)} (h : P _ x) :
    P _ (d.ledgerRead x) := by
  refine closed.bind (closed.within _ h) fun answer => ?_
  rcases answer with _ | _ | _ <;> exact closed.pure _

include closed query

theorem closed_balance (d : Desk) (client : ClientId) (currency : Currency) :
    P _ (d.balance client currency) := by
  refine closed.bind (closed_ledgerRead closed d (query _ _)) fun answer => ?_
  rcases answer with e | _ | a <;> exact closed.pure _

theorem closed_transaction (d : Desk) (client : ClientId) (txId : TxId) :
    P _ (d.transaction client txId) := by
  refine closed.bind (closed_ledgerRead closed d (query _ _)) fun answer => ?_
  cases answer with
  | error e => exact closed.pure _
  | ok rows =>
    dsimp only
    split <;> exact closed.pure _

theorem closed_audit (txId : TxId) : P _ (audit txId) := by
  refine closed.bind (query _ _) fun answer => ?_
  cases answer with
  | error e => exact closed.pure _
  | ok rows =>
    dsimp only
    split <;> exact closed.pure _

theorem closed_verify (txId : TxId) : P _ (verify txId) := by
  refine closed.bind (closed_audit closed query txId) fun answer => ?_
  cases answer <;> exact closed.pure _

omit query in
theorem closed_page {κ : Type} [Wire κ] (nonce : P _ freshNonce) (d : Desk) (size : Nat)
    (rows : List α) (cursor : α → κ) : P _ (d.page size rows cursor) := by
  unfold page
  dsimp only
  split
  · exact closed.pure _
  · refine closed.bind ?_ fun _ => closed.pure _
    exact closed.bind nonce fun _ => closed.pure _

variable (nonce : P _ freshNonce) (crash : ∀ {α : Type} overflow, P α (crash overflow))
include nonce crash

theorem closed_listAccounts (d : Desk) (client : ClientId) (cursor : Option String)
    (asked : Int) : P _ (d.listAccounts client cursor asked) := by
  unfold listAccounts
  dsimp only
  split
  · exact closed.pure _
  · split
    · exact crash _
    · refine closed.bind (closed_ledgerRead closed d (query _ _)) fun answer => ?_
      cases answer with
      | error e => exact closed.pure _
      | ok rows => exact closed.bind (closed_page closed nonce d _ _ _) fun _ => closed.pure _

theorem closed_listJournal (d : Desk) (client : ClientId) (currency : Currency) (q : JournalQuery)
    (asked : Int) : P _ (d.listJournal client currency q asked) := by
  unfold listJournal
  dsimp only
  split
  · exact closed.pure _
  · split
    · exact crash _
    · refine closed.bind (closed_ledgerRead closed d (query _ _)) fun answer => ?_
      cases answer with
      | error e => exact closed.pure _
      | ok rows => exact closed.bind (closed_page closed nonce d _ _ _) fun _ => closed.pure _

end Closed

theorem looks_balance (d : Desk) (client : ClientId) (currency : Currency) :
    (d.balance client currency).Looks :=
  closed_balance closed_looks looks_query d client currency

theorem looks_transaction (d : Desk) (client : ClientId) (txId : TxId) :
    (d.transaction client txId).Looks :=
  closed_transaction closed_looks looks_query d client txId

theorem looks_verify (txId : TxId) : (verify txId).Looks :=
  closed_verify closed_looks looks_query txId

theorem looks_listAccounts (d : Desk) (client : ClientId) (cursor : Option String) (asked : Int) :
    (d.listAccounts client cursor asked).Looks :=
  closed_listAccounts closed_looks looks_query looks_freshNonce looks_crash d client cursor asked

theorem looks_listJournal (d : Desk) (client : ClientId) (currency : Currency) (q : JournalQuery)
    (asked : Int) : (d.listJournal client currency q asked).Looks :=
  closed_listJournal closed_looks looks_query looks_freshNonce looks_crash d client currency q
    asked

end Desk

end Bureau
