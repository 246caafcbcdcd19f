import Bureau.Proofs.Desk.Archive
import Bureau.Simulation.Basic
import Bureau.Proofs.Desk.Walk

/-!
# Plays and the books

Whatever a simulation plays, the journal consists of the rows of receipts, and the transactions that
it has noted are among them (`World.Audited`). `Timed.Posts` says this of operations at the desk,
which may give receipts, and `Simulation.Keeps` of plays, which note them.
-/

namespace Bureau

open Timed World

/-- The journal consists of the rows of receipts, among them those of some transactions, and nothing
befalls an audit. -/
structure World.Audited (w : World) (ids : List TxId) : Prop where
  sound : w.Sound
  calm : w.Calm .journalFor
  records : ∃ receipts : List Receipt, w.ledger.Records receipts ∧ ids ⊆ receipts.map (·.txId)

namespace World.Audited

variable {w w' : World} {ids fewer : List TxId}

theorem mono (h : w.Audited ids) (sub : fewer ⊆ ids) : w.Audited fewer where
  sound := h.sound
  calm := h.calm
  records := h.records.imp fun _ h => h.imp_right fun all _ member => all (sub member)

theorem like (h : w.Audited ids) (like : w.Like w') : w'.Audited ids where
  sound := h.sound.like like
  calm := h.calm.like like
  records := like.ledger ▸ h.records

/-- What happens around the desk does not matter, unless it is a mishap of an audit. -/
theorem change (h : w.Audited ids) (incident : Incident)
    (spares : (Event.incident incident).Spares .journalFor) : (incident.change w).Audited ids where
  sound := h.sound.change incident
  calm := h.calm.change spares
  records := (incident.ledger_change w).symm ▸ h.records

/-- An errand adds its receipts. -/
theorem attempt (h : w.Audited ids) (d : Desk) (deadline : Option Nat) (errand : Errand) :
    (d.attempt errand deadline w).2.Audited
      (ids ++ ((Event.errand deadline errand).receipts d w).map (·.txId)) := by
  have spares : (Event.errand deadline errand).Spares .journalFor := fun _ h => by cases h
  have sound := @Day.sound_next d { world := w } h.sound (.errand deadline errand)
  have calm := @Day.calm_next d { world := w } _ h.sound h.calm _ spares
  have grows := @Day.grows_next d { world := w } h.sound (.errand deadline errand)
  rw [Day.next, Day.world_serve] at sound calm grows
  obtain ⟨receipts, records, all⟩ := h.records
  refine ⟨sound, calm, _, grows.records records, ?_⟩
  rw [List.map_append]
  exact List.append_subset.2 ⟨fun _ member => List.mem_append_left _ (all member),
    fun _ member => List.mem_append_right _ member⟩

end World.Audited

/-! ### Operations at the desk -/

namespace Timed

variable {α β : Type}

/-- The operation keeps the books in order, and those transactions are in them that its result
shows. -/
def Posts (shown : α → List TxId) (x : Timed α) : Prop :=
  ∀ ids w, w.Audited ids →
    x.Ensures w (fun a w' => w'.Audited (ids ++ shown a)) (·.Audited ids)

/-- The operation keeps the books in order. -/
def Quiet (x : Timed α) : Prop :=
  ∀ ids w, w.Audited ids → x.Ensures w (fun _ w' => w'.Audited ids) (·.Audited ids)

variable {x : Timed α} {shown : α → List TxId}

theorem Posts.quiet (h : x.Posts shown) : x.Quiet := fun ids w audited =>
  (h ids w audited).mono (fun _ _ after => after.mono (List.subset_append_left _ _)) fun _ h => h

theorem Looks.quiet (h : x.Looks) : x.Quiet := fun _ w audited =>
  (h w).mono (fun _ _ like => audited.like like) fun _ like => audited.like like

/-- What is shown remains in the books, also when what comes next is cut off. -/
theorem Posts.ensures_bind {f : α → Timed β} {Q : β → World → Prop} {ids : List TxId} {w : World}
    (hx : x.Posts shown) (audited : w.Audited ids)
    (hf : ∀ a w', w'.Audited (ids ++ shown a) →
      (f a).Ensures w' Q (·.Audited (ids ++ shown a))) :
    (x >>= f).Ensures w Q (·.Audited ids) :=
  Ensures.bind (hx ids w audited) fun a w' audited =>
    (hf a w' audited).mono (fun _ _ h => h) fun _ h => h.mono (List.subset_append_left _ _)

theorem quiet_pure (a : α) : (pure a : Timed α).Quiet := (closed_looks.pure a).quiet

theorem Quiet.bind {f : α → Timed β} (hx : x.Quiet) (hf : ∀ a, (f a).Quiet) :
    (x >>= f).Quiet := fun ids w audited =>
  Ensures.bind (hx ids w audited) fun a w' audited => hf a ids w' audited

theorem Quiet.posts_bind {f : α → Timed β} {shown : β → List TxId} (hx : x.Quiet)
    (hf : ∀ a, (f a).Posts shown) : (x >>= f).Posts shown := fun ids w audited =>
  Ensures.bind (hx ids w audited) fun a w' audited => hf a ids w' audited

theorem quiet_read (f : World → α) : (read f).Quiet := fun _ _ audited => ensures_read audited

theorem quiet_wait (span : Nat) : (wait span).Quiet := fun _ w audited =>
  (still_wait (Still.refl w) span).mono (fun _ _ h => audited.like h.toLike)
    fun _ h => audited.like h.toLike

/-- The clock does not matter. -/
theorem quiet_setClock (clock : World → Nat) :
    (act fun w => ((), { w with clock := clock w })).Quiet := fun _ w audited =>
  ensures_act (audited.change (.clock (clock w)) fun _ h => by cases h)

/-- What happens around the desk is quiet, but for a mishap of an audit. -/
theorem quiet_incident {x : Timed Unit} (incident : Incident)
    (same : ∀ deadline w, x deadline w = (some (), incident.change w))
    (spares : (Event.incident incident).Spares .journalFor) : x.Quiet := by
  intro ids w audited deadline
  rw [same]
  exact audited.change incident spares

theorem quiet_forM {xs : List α} {f : α → Timed Unit} (h : ∀ a, (f a).Quiet) :
    (xs.forM f).Quiet := by
  induction xs with
  | nil => exact quiet_pure ()
  | cons a rest ih => exact (h a).bind fun _ => ih

theorem quiet_mapM {xs : List α} {f : α → Timed β} (h : ∀ a, (f a).Quiet) :
    (xs.mapM f).Quiet := by
  suffices all : ∀ done, (List.mapM.loop f xs done).Quiet from all []
  induction xs with
  | nil => exact fun _ => quiet_pure _
  | cons a rest ih => exact fun done => (h a).bind fun b => ih (b :: done)

theorem quiet_freshUuid : freshUuid.Quiet := fun _ w audited =>
  ensures_freshUuid (audited.like (w.like_drawn _))

theorem Posts.timing (h : x.Posts shown) : (timing x).Posts fun a => shown a.1 :=
  (quiet_read _).posts_bind fun _ _ _ audited =>
    h.ensures_bind audited fun _ w' audited =>
      Ensures.bind (quiet_read _ _ w' audited) fun _ _ audited => ensures_pure audited

theorem Posts.within (h : x.Posts shown) (span : Nat) :
    (within span x).Posts fun a => a.elim [] shown := fun ids w audited =>
  Ensures.within ((h ids w audited).mono (fun _ _ h => h) fun _ h => ⟨h.mono (by simp), h⟩)

theorem posts_together {xs : List (Timed α)} (h : ∀ x ∈ xs, x.Posts shown) :
    (together xs).Posts (List.flatMap shown) := by
  induction xs with
  | nil => exact fun ids w audited => ensures_pure (audited.mono (by simp))
  | cons x rest ih =>
    refine (quiet_read _).posts_bind fun start ids w audited => ?_
    refine (h x List.mem_cons_self).ensures_bind audited fun a w' audited => ?_
    refine Ensures.bind (quiet_read _ _ w' audited) fun stop w' audited => ?_
    refine Ensures.bind (quiet_setClock (fun _ => start) _ w' audited) fun _ w' audited => ?_
    have others := ih fun y hy => h y (List.mem_cons_of_mem _ hy)
    refine others.ensures_bind audited fun as w' audited => ?_
    refine Ensures.bind (quiet_setClock (fun w => max stop w.clock) _ w' audited)
      fun _ w' audited => ensures_pure ?_
    rwa [List.flatMap_cons, ← List.append_assoc]

end Timed

/-- The transaction of the receipt, if there is one. -/
def Receipt.txIds : Except DeskError Receipt → List TxId
  | .ok receipt => [receipt.txId]
  | .error _ => []

namespace Desk

open Receipt (txIds)

variable {α : Type} (d : Desk)

theorem quiet_of_attempt {x : Timed (Except DeskError α)} (errand : Errand)
    (same : ∀ deadline w, (d.attempt errand deadline w).2 = (x deadline w).2) : x.Quiet := by
  intro ids w audited deadline
  have after := (audited.attempt d deadline errand).mono (List.subset_append_left _ _)
  rw [same] at after
  rcases result : x deadline w with ⟨_ | _, w'⟩ <;> rwa [result] at after

theorem posts_of_attempt {x : Timed (Except DeskError Receipt)} (errand : Errand)
    (same : ∀ deadline w, (d.attempt errand deadline w).2 = (x deadline w).2)
    (given : ∀ deadline w, (Event.errand deadline errand).receipts d w =
      match x deadline w with
      | (some (.ok receipt), _) => [receipt]
      | _ => []) : x.Posts txIds := by
  intro ids w audited deadline
  have after := audited.attempt d deadline errand
  rw [same, given] at after
  rcases result : x deadline w with ⟨_ | _ | receipt, w'⟩ <;> rw [result] at after
  · exact after.mono (List.subset_append_left _ _)
  · exact after
  · exact after

theorem quiet_openAccount (client : ClientId) (currency : Currency) :
    (d.openAccount client currency).Quiet :=
  d.quiet_of_attempt (.openAccount client currency) fun _ _ => snd_outcome _ _ _

theorem quiet_createOffer (r : OfferRequest) : (d.createOffer r).Quiet :=
  d.quiet_of_attempt (.createOffer r) fun _ _ => snd_outcome _ _ _

theorem posts_deposit (client : ClientId) (currency : Currency) (amount : Decimal) :
    (d.deposit client currency amount).Posts txIds :=
  d.posts_of_attempt (.deposit client currency amount) (fun _ _ => snd_outcome _ _ _)
    fun _ _ => rfl

theorem posts_redeem (client : ClientId) (token : String) :
    (d.redeem client token).Posts txIds :=
  d.posts_of_attempt (.redeem client token) (fun _ _ => snd_outcome _ _ _) fun _ _ => rfl

end Desk

namespace Simulation

open Receipt (txIds)

theorem posts_convert (desk : Desk) (r : OfferRequest) : (convert desk r).Posts txIds := by
  refine (desk.quiet_createOffer r).posts_bind fun answer => ?_
  cases answer with
  | error e => exact fun ids w audited => ensures_pure (audited.mono (by simp [txIds]))
  | ok ticket => exact desk.posts_redeem r.client ticket.token

/-! ### Plays -/

variable {α β : Type} {s : Simulation} {w : World} {ids : List TxId}

/-- When a play is over, the books are in order and have the transactions that the simulation has
noted. While transactions are distinct, no audit breaks it off. -/
structure Kept (ids : List TxId) (out : Except SimulationError α × Simulation) (w : World) :
    Prop where
  noted : ids ⊆ out.2.posted
  audited : w.Audited out.2.posted
  unblamed : w.ledger.postings.Nodup → ∀ txId e, out.1 ≠ .error (.audit txId e)

/-- The play keeps the books in order; it may begin with transactions that are not yet noted. -/
structure Keeps (x : Play α) (owed : List TxId := []) : Prop where
  ensures : ∀ ids s w, ids ⊆ s.posted → w.Audited (s.posted ++ owed) →
    (x.run.run s).Ensures w (Kept ids) (·.Audited ids)

/-- What a play goes on with, unless it breaks off. -/
theorem run_bind (x : Play α) (f : α → Play β) (s : Simulation) :
    (x >>= f).run.run s = x.run.run s >>= fun out =>
      match out with
      | (.ok a, s') => (f a).run.run s'
      | (.error e, s') => pure (.error e, s') := by
  funext deadline w
  change (StateT.bind x.run (ExceptT.bindCont f) : StateT Simulation Timed _) s deadline w = _
  simp only [StateT.bind, bind_apply]
  split <;> rename_i out w' result
  · obtain ⟨answer, s'⟩ := out
    have : x.run.run s deadline w = (some (answer, s'), w') := result
    rw [this]
    cases answer <;> rfl
  · have : x.run.run s deadline w = (none, w') := result
    rw [this]

/-- An operation at the desk, in a play. -/
theorem run_lift (x : Timed α) (s : Simulation) :
    (liftM x : Play α).run.run s = x >>= fun a => pure (.ok a, s) := by
  funext deadline w
  change ((x >>= fun a => pure (a, s)) >>= fun out => pure (Except.ok out.1, out.2) :
    Timed (Except SimulationError α × Simulation)) deadline w = _
  simp only [bind_apply]
  cases x deadline w with
  | mk result w' => cases result <;> rfl

section Rules

variable {x : Play α} {f : α → Play β} {owed : List TxId} {y : Timed α}
  {shown : α → List TxId}

theorem Keeps.bind (hx : Keeps x owed) (hf : ∀ a, Keeps (f a)) : Keeps (x >>= f) owed := by
  refine ⟨fun ids s w sub audited => ?_⟩
  rw [run_bind]
  refine Ensures.bind (hx.ensures ids s w sub audited) fun out w' kept => ?_
  obtain ⟨e | a, s'⟩ := out
  · refine ensures_pure ⟨kept.noted, kept.audited, fun distinct txId fault same => ?_⟩
    cases same
    exact kept.unblamed distinct txId fault rfl
  · exact (hf a).ensures ids s' w' kept.noted ((List.append_nil _).symm ▸ kept.audited)

/-- A play that does nothing at the desk but note what is owed. -/
theorem keeps_of_run {out : Simulation → Except SimulationError α × Simulation}
    (run : ∀ s, x.run.run s = pure (out s)) (noted : ∀ s, (out s).2.posted = s.posted ++ owed)
    (unblamed : ∀ s txId e, (out s).1 ≠ .error (.audit txId e)) : Keeps x owed := by
  refine ⟨fun ids s w sub audited => ?_⟩
  rw [run]
  refine ensures_pure ⟨?_, ?_, fun _ => unblamed s⟩
  · rw [noted]
    exact List.subset_append_of_subset_left _ sub
  · rwa [noted]

theorem keeps_pure (a : α) : Keeps (pure a) :=
  keeps_of_run (fun _ => rfl) (fun _ => (List.append_nil _).symm) fun _ _ _ => by simp

theorem keeps_throw {e : SimulationError} (other : ∀ txId fault, e ≠ .audit txId fault) :
    Keeps (throw e : Play α) :=
  keeps_of_run (fun _ => rfl) (fun _ => (List.append_nil _).symm) fun _ txId fault same =>
    other txId fault (Except.error.inj same)

theorem keeps_get : Keeps get :=
  keeps_of_run (fun _ => rfl) (fun _ => (List.append_nil _).symm) fun _ _ _ => by simp

theorem keeps_modify {g : Simulation → Simulation} (noted : ∀ s, (g s).posted = s.posted ++ owed) :
    Keeps (modify g) owed :=
  keeps_of_run (fun _ => rfl) noted fun _ _ _ => by simp

/-- What an operation has given has to be noted afterwards. -/
theorem keeps_posts_bind (h : y.Posts shown) (hf : ∀ a, Keeps (f a) (shown a)) :
    Keeps (liftM y >>= f) := by
  refine ⟨fun ids s w sub audited => ?_⟩
  rw [run_bind, run_lift]
  rw [List.append_nil] at audited
  have posts := (h s.posted w audited).mono (fun _ _ h => h) fun _ h => h.mono sub
  have given :
      (y >>= fun a => (pure (Except.ok a, s) : Timed (Except SimulationError α × _))).Ensures w
      (fun out w' => ∃ a, out = (.ok a, s) ∧ w'.Audited (s.posted ++ shown a)) (·.Audited ids) :=
    Ensures.bind posts fun a w' audited => ensures_pure ⟨a, rfl, audited⟩
  refine Ensures.bind given fun out w' ⟨a, same, audited⟩ => ?_
  cases same
  exact (hf a).ensures ids s w' sub audited

theorem keeps_lift (h : y.Quiet) : Keeps (liftM y : Play α) := by
  refine ⟨fun ids s w sub audited => ?_⟩
  rw [run_lift]
  rw [List.append_nil] at audited
  exact Ensures.bind ((h s.posted w audited).mono (fun _ _ h => h) fun _ h => h.mono sub)
    fun a w' audited => ensures_pure ⟨sub, audited, fun _ _ _ => by simp⟩

/-- The play goes on with a result that the operation can have. -/
theorem keeps_lift_bind {P : α → Prop} (h : y.Quiet)
    (gives : ∀ deadline w a, (y deadline w).1 = some a → P a) (hf : ∀ a, P a → Keeps (f a)) :
    Keeps (liftM y >>= f) := by
  refine ⟨fun ids s w sub audited deadline => ?_⟩
  rw [run_bind, run_lift]
  rw [List.append_nil] at audited
  have quiet := h s.posted w audited deadline
  simp only [bind_apply]
  rcases result : y deadline w with ⟨_ | a, w'⟩ <;> rw [result] at quiet
  · exact quiet.mono sub
  · have possible : P a := gives deadline w a (by rw [result])
    exact (hf a possible).ensures ids s w' sub ((List.append_nil _).symm ▸ quiet) deadline

theorem keeps_forM {xs : List β} {g : β → Play Unit} (h : ∀ b, Keeps (g b)) :
    Keeps (xs.forM g) := by
  induction xs with
  | nil => exact keeps_pure ()
  | cons b rest ih => exact (h b).bind fun _ => ih

theorem keeps_discard (h : Keeps x) : Keeps (discard x) :=
  h.bind fun _ => keeps_pure ()

theorem keeps_ask {y : Timed (Except DeskError α)} (h : y.Quiet)
    {blame : DeskError → SimulationError} (other : ∀ e txId fault, blame e ≠ .audit txId fault) :
    Keeps (ask y blame) := by
  refine (keeps_lift h).bind fun answer => ?_
  cases answer with
  | ok a => exact keeps_pure a
  | error e => exact keeps_throw (other e)

/-- What a receipt is asked for has to be noted afterwards. -/
theorem keeps_ask_bind {y : Timed (Except DeskError Receipt)} {f : Receipt → Play β}
    (h : y.Posts txIds) {blame : DeskError → SimulationError}
    (other : ∀ e txId fault, blame e ≠ .audit txId fault)
    (hf : ∀ receipt, Keeps (f receipt) [receipt.txId]) : Keeps (ask y blame >>= f) := by
  have same (s : Simulation) : (ask y blame >>= f).run.run s =
      (liftM y >>= fun answer : Except DeskError Receipt =>
        match answer with
        | .ok receipt => f receipt
        | .error e => throw (blame e)).run.run s := by
    unfold ask
    simp only [run_bind, run_lift]
    funext deadline w
    simp only [bind_apply]
    cases y deadline w with
    | mk result w' => rcases result with _ | _ | _ <;> rfl
  refine ⟨fun ids s w sub audited => ?_⟩
  rw [same]
  refine (keeps_posts_bind h fun answer => ?_).ensures ids s w sub audited
  cases answer with
  | ok receipt => exact hf receipt
  | error e => exact keeps_throw (other e)

end Rules

/-! ### Audits -/

theorem run_audit (txId : TxId) (s : Simulation) :
    (discard (ask (Desk.verify txId) (.audit txId)) : Play Unit).run.run s =
      Desk.verify txId >>= fun answer =>
        pure ((answer.mapError (.audit txId)).map fun _ => (), s) := by
  funext deadline w
  rw [bind_apply]
  change (((ask (Desk.verify txId) (SimulationError.audit txId) : Play SettlementKind) >>=
    fun _ => pure ()).run.run s) deadline w = _
  rw [run_bind, ask, run_bind, run_lift]
  simp only [bind_apply]
  cases Desk.verify txId deadline w with
  | mk result w' => rcases result with _ | _ | _ <;> rfl

/-- While transactions are distinct, those that are in the books are audited with success. -/
theorem audits_eq (audited : w.Audited ids) (distinct : w.ledger.postings.Nodup) (s : Simulation)
    {asked : List TxId} (sub : asked ⊆ ids) (deadline : Option Nat) :
    (asked.forM fun txId => discard (ask (Desk.verify txId) (.audit txId)) : Play Unit).run.run s
      deadline w = (some (.ok (), s), w) := by
  induction asked with
  | nil => rfl
  | cons txId rest ih =>
    obtain ⟨receipts, records, all⟩ := audited.records
    obtain ⟨r, there, rfl⟩ := List.mem_map.1 (all (sub List.mem_cons_self))
    change (discard (ask (Desk.verify r.txId) (.audit r.txId)) >>= fun _ =>
      rest.forM _ : Play Unit).run.run s deadline w = _
    rw [run_bind, run_audit, bind_apply, bind_apply,
      Desk.verify_eq records distinct audited.calm there]
    exact ih fun _ h => sub (List.mem_cons_of_mem _ h)

/-- In any case audits change nothing. -/
theorem ensures_audits (s : Simulation) (asked : List TxId) (w : World) :
    ((asked.forM fun txId => discard (ask (Desk.verify txId) (.audit txId)) : Play Unit).run.run
      s).Ensures w (fun out w' => out.2 = s ∧ w.Like w') w.Like := by
  induction asked generalizing w with
  | nil => exact ensures_pure ⟨rfl, (Still.refl w).toLike⟩
  | cons txId rest ih =>
    change ((discard (ask (Desk.verify txId) (.audit txId)) >>= fun _ =>
      rest.forM _ : Play Unit).run.run s).Ensures w _ _
    rw [run_bind, run_audit]
    refine Ensures.bind (Q := fun (out : Except SimulationError Unit × Simulation) w' =>
      out.2 = s ∧ w.Like w') (Ensures.bind (Desk.looks_verify txId w)
        fun answer w' like => ensures_pure ⟨rfl, like⟩) fun out w' ⟨same, like⟩ => ?_
    obtain ⟨e | _, s'⟩ := out
    · exact ensures_pure ⟨same, like⟩
    · cases same
      exact (ih w').mono (fun _ _ h => ⟨h.1, like.trans h.2⟩) fun _ h => like.trans h

end Simulation

end Bureau
