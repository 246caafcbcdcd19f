import Bureau.Proofs.Desk.Mirrored

/-!
# Clients do not notice each other

A run and the same run without some visits that are not a client's lead through worlds between
which this client cannot tell. So all its own visits are answered alike in both, and what it is
shown is its own (`Desk.isolated`). This is so as long as nobody presents a token of an offer that
has been made for somebody else. The bureau's own client is left out: others pay in from its
clearing account, and the receipt of a deposit shows the row of that account
(`Desk.clearing_row_shown`).
-/

namespace Bureau

open Timed World

/-- Two outcomes of one kind with the same result. -/
theorem Timed.Alongside.same {α : Type} {M : Option α → World → World → Prop}
    {p q : Option α × World}
    (h : Alongside (fun a b v v' => a = b ∧ M (some a) v v') (M none) p q) :
    q.1 = p.1 ∧ M p.1 p.2 q.2 := by
  cases h with
  | result scene h =>
    obtain ⟨rfl, h⟩ := h
    exact ⟨rfl, h⟩
  | cut scene h => exact ⟨rfl, h⟩

theorem Errand.made_of_ne {d : Desk} {errand : Errand} (notMaking : ∀ r, errand ≠ .createOffer r)
    (answer : Option (Except DeskError Content)) : errand.made d answer = [] := by
  cases errand with
  | createOffer r => exact absurd rfl (notMaking r)
  | _ => rfl

namespace World

variable {client : ClientId} {made : List (ClientId × OfferId)} {floor : Nat} {w w' : World}

theorem Orderly.under (h : w.Orderly made) (s : Scene) : (w.under s).Orderly made :=
  ⟨h.atRest, h.keyed, h.known⟩

theorem Mirrors.under (h : w.Mirrors client made floor w') (s s' : Scene) :
    (w.under s).Mirrors client made floor (w'.under s') :=
  ⟨h.left.under s, h.right.under s', h.ledger, h.cache⟩

theorem Sound.under (h : w.Sound) (s : Scene) : (w.under s).Sound := ⟨h.ledger, h.cache⟩

theorem Orderly.sound (h : w.Orderly made) : w.Sound := ⟨h.atRest.sound, h.keyed⟩

end World

namespace Desk

variable {d : Desk} {client : ClientId} {made : List (ClientId × OfferId)} {w w' : World}
  {v : Visit} {visits kept : List Visit}

/-! ### One visit -/

/-- An answer is given by the errand that is attempted. -/
theorem snd_answer (errand : Errand) (deadline : Option Nat) (w : World) :
    (d.answer errand deadline w).2 = (d.attempt errand deadline w).2 := by
  cases errand <;> rw [answer, attempt, snd_telling, snd_outcome]

theorem sound_visit (sound : w.Sound) (v : Visit) : (d.visit w v).2.Sound := by
  rw [visit, snd_answer]
  exact d.sound_attempt (sound.under v.scene) v.errand v.deadline

/-- The clock goes on during a visit. -/
theorem clock_visit (sound : w.Sound) (v : Visit) : v.scene.clock ≤ (d.visit w v).2.clock := by
  rw [visit, snd_answer]
  exact (apart_attempt (sound.under v.scene).ledger v.errand v.deadline).clock

/-- A visit that is not the client's leads to a world that mirrors the one before. -/
theorem mirrors_visit (orderly : w.Orderly made) (notTreasury : client ≠ d.settings.treasury)
    (foreign : v.errand.client? ≠ some client) (own : v.errand.PresentsOwn d made) :
    (w.under v.scene).Mirrors client (made ++ v.errand.made d (d.visit w v).1)
      (d.visit w v).2.clock (d.visit w v).2 := by
  have orderly := orderly.under v.scene
  by_cases making : ∃ r, v.errand = .createOffer r
  · obtain ⟨r, making⟩ := making
    have ne : r.client ≠ client := fun same => foreign (by rw [making, ← same]; rfl)
    have offers := ensures_offers (d := d) orderly r v.deadline
    rw [visit, making]
    generalize d.answer (.createOffer r) v.deadline (w.under v.scene) = p at offers ⊢
    rcases p with ⟨_ | answer, w₁⟩
    · exact Offers.mirrors_of_ne offers orderly ne
    · exact Offers.mirrors_of_ne offers orderly ne
  · push Not at making
    rw [Errand.made_of_ne making, List.append_nil]
    exact mirrors_foreign orderly foreign notTreasury making own _ v.deadline

/-- A visit that is made in both worlds: a client's own has the same answer, and whosever it is,
the client still cannot tell the worlds apart. -/
theorem visit_both (mirrors : w.Mirrors client made w.clock w')
    (notTreasury : client ≠ d.settings.treasury) (steady : w.clock ≤ v.scene.clock)
    (own : v.errand.PresentsOwn d made) :
    (v.errand.client? = some client → (d.visit w' v).1 = (d.visit w v).1) ∧
      (d.visit w v).2.Mirrors client (made ++ v.errand.made d (d.visit w v).1)
        (d.visit w v).2.clock (d.visit w' v).2 := by
  have start := mirrors.under v.scene v.scene
  by_cases making : ∃ r, v.errand = .createOffer r
  · obtain ⟨r, making⟩ := making
    have both := (abreast_createOffer (d := d) start steady rfl r v.deadline).same
      (M := fun answer v v' =>
        v.Mirrors client (made ++ Errand.made d (.createOffer r) answer) v.clock v')
    rw [visit, visit, making]
    exact ⟨fun _ => both.1, both.2⟩
  · push Not at making
    by_cases mine : v.errand.client? = some client
    · have both := (mirrored_own start steady rfl mine making own v.deadline).same
        (M := fun _ v v' => v.Mirrors client made v.clock v')
      rw [Errand.made_of_ne making, List.append_nil]
      exact ⟨fun _ => both.1, both.2⟩
    · have later := steady.trans (clock_visit (d := d) mirrors.left.sound v)
      have left := mirrors_foreign start.left mine notTreasury making own (d.visit w v).2.clock
        v.deadline
      have right := mirrors_foreign start.right mine notTreasury making own (d.visit w v).2.clock
        v.deadline
      rw [Errand.made_of_ne making, List.append_nil]
      exact ⟨fun h => absurd h mine,
        (left.symm.trans (start.mono (List.Subset.refl _) later)).trans right⟩

/-! ### Whole runs -/

/-- The token of a ticket names the identifier that the first random bits of the visit make. -/
theorem named_visit {r : OfferRequest} {t : OfferTicket} (making : v.errand = .createOffer r)
    (given : (d.visit w v).1 = some (.ok (.ticket t))) :
    d.offerOf? t.token = some (w.under v.scene).nextOfferId := by
  have ensured := d.ensures_createOffer r (w := w.under v.scene) v.deadline
  rw [visit, making, answer, telling_apply] at given
  generalize d.createOffer r v.deadline (w.under v.scene) = p at ensured given
  rcases p with ⟨_ | e | ticket, w₁⟩
  · cases given
  · cases given
  · cases given
    obtain ⟨-, ⟨_, ⟨⟩, makes⟩ | ⟨⟨_, ⟨⟩⟩, -⟩⟩ := ensured
    exact makes.named

/-- What a visit makes is the offer that it is for. -/
theorem made_visit (w : World) (v : Visit) : v.errand.made d (d.visit w v).1 ⊆ v.offers := by
  intro m hm
  unfold Errand.made at hm
  split at hm
  case h_1 r t making given =>
    rw [named_visit making given] at hm
    rw [Visit.offers, making]
    exact hm
  case h_2 => cases hm

/-- Whether a run is honest can be told from the visits alone. -/
theorem honest_log (h : visits.Pairwise fun earlier later =>
    later.errand.PresentsOwn d earlier.offers) (w : World) : d.Honest (d.log w visits) := by
  induction h generalizing w with
  | nil => exact .nil
  | @cons v visits since _ ih =>
    refine .cons (fun a ha => ?_) (ih _)
    exact (since a.visit (visit_mem_of_mem_log ha)).of_subset (made_visit w v)

/-- In a run without some visits that are not the client's, its own are answered as they are in the
whole run. -/
theorem log_without (notTreasury : client ≠ d.settings.treasury)
    (without : Visit.Without client visits kept) (mirrors : w.Mirrors client made w.clock w')
    (steady : d.Steady w visits)
    (own : ∀ a ∈ d.log w visits, a.visit.errand.PresentsOwn d made)
    (honest : d.Honest (d.log w visits)) :
    (d.log w' kept).filter (·.isFor client) = (d.log w visits).filter (·.isFor client) := by
  -- along the whole run: its clock is the floor, and `made` is what has been made in it so far
  induction without generalizing w w' made with
  | nil => rfl
  | keep v without ih =>
    obtain ⟨now, later⟩ := steady
    obtain ⟨first, rest⟩ := List.forall_mem_cons.1 own
    obtain ⟨since, honest⟩ := List.pairwise_cons.1 honest
    obtain ⟨same, mirrors⟩ := visit_both mirrors notTreasury now first
    have tail := ih mirrors later (fun a ha => (rest a ha).append (since a ha)) honest
    rw [log, log, List.filter_cons, List.filter_cons, tail]
    by_cases mine : v.errand.client? = some client
    · rw [same mine]
    · simp [Answered.isFor, mine]
  | @drop v visits kept foreign without ih =>
    obtain ⟨now, later⟩ := steady
    obtain ⟨first, rest⟩ := List.forall_mem_cons.1 own
    obtain ⟨since, honest⟩ := List.pairwise_cons.1 honest
    have gone := mirrors_visit mirrors.left notTreasury foreign first
    have clock := now.trans (clock_visit (d := d) mirrors.left.sound v)
    have before : (w.under v.scene).Mirrors client made w.clock w' :=
      mirrors.under v.scene w'.scene
    have tail := ih (gone.symm.trans (before.mono (List.subset_append_left _ _) clock)) later
      (fun a ha => (rest a ha).append (since a ha)) honest
    rw [tail, log, List.filter_cons]
    simp [Answered.isFor, foreign]

/-- Whatever a client is answered in a run shows what is its own. -/
theorem own_of_mem_log (sound : w.Sound) {a : Answered} (there : a ∈ d.log w visits)
    (mine : a.visit.errand.client? = some client) {content : Content}
    (shown : a.answer = some (.ok content)) : content.Own d a.visit.errand client := by
  induction visits generalizing w with
  | nil => cases there
  | cons v visits ih =>
    rcases List.mem_cons.1 there with rfl | later
    · have answered := yields_answer (d := d) (sound.under v.scene).ledger mine v.deadline
      rw [visit] at shown
      generalize d.answer v.errand v.deadline (w.under v.scene) = p at shown answered
      obtain ⟨answer, w₁⟩ := p
      obtain rfl : answer = _ := shown
      exact answered
    · exact ih (sound_visit sound v) later

/-- A client's answers do not depend on visits that are not its own, and show what is its own. -/
theorem isolated (d : Desk) {client : ClientId} {w : World} {visits kept : List Visit}
    (atRest : w.ledger.AtRest) (empty : w.cache.entries = [])
    (notTreasury : client ≠ d.settings.treasury) (steady : d.Steady w visits)
    (honest : d.Honest (d.log w visits)) (without : Visit.Without client visits kept) :
    (d.log w kept).filter (·.isFor client) = (d.log w visits).filter (·.isFor client) ∧
      ∀ a ∈ d.log w visits, a.isFor client = true →
        ∀ content, a.answer = some (.ok content) → content.Own d a.visit.errand client := by
  have orderly : w.Orderly [] :=
    ⟨atRest, empty ▸ OfferCache.keyed_nil, fun x hx => by rw [empty] at hx; cases hx⟩
  refine ⟨?_, fun a ha mine content shown => ?_⟩
  · exact log_without notTreasury without
      ⟨orderly, orderly, .of_eq rfl rfl, .refl _⟩ steady
      (fun _ _ => Errand.presentsOwn_nil) honest
  · exact own_of_mem_log (sound_of_empty atRest empty) ha (of_decide_eq_true mine) shown

end Desk

/-! ### Two clients of the simple desk -/

/-- A client of the example. -/
def ClientId.one : ClientId := ⟨.ofRandom 1⟩

/-- Another client of the example. -/
def ClientId.two : ClientId := ⟨.ofRandom 2⟩

/-- The simple world at the visit with this number. -/
def Scene.simple (n : Nat) : Scene := { World.simple.scene with clock := n, drawn := 4 * n }

namespace Visit

/-- The first visit of the first client. -/
def first : Visit := ⟨.createOffer { OfferRequest.simple with client := .one }, .simple 0, none⟩

/-- Both clients ask for an offer and pay in, and the first client presents a token. -/
def shared (token : String) : List Visit := [
  first,
  ⟨.createOffer { OfferRequest.simple with client := .two }, .simple 1, none⟩,
  ⟨.openAccount .two Currency.usd, .simple 2, none⟩,
  ⟨.openAccount .one Currency.usd, .simple 3, none⟩,
  ⟨.openAccount .one Currency.eur, .simple 4, none⟩,
  ⟨.deposit .two Currency.usd (.hundredths 10000), .simple 5, none⟩,
  ⟨.deposit .one Currency.usd (.hundredths 10000), .simple 6, none⟩,
  ⟨.redeem .one token, .simple 7, none⟩]

/-- The same without the second client. -/
def alone (token : String) : List Visit := [
  first,
  ⟨.openAccount .one Currency.usd, .simple 3, none⟩,
  ⟨.openAccount .one Currency.eur, .simple 4, none⟩,
  ⟨.deposit .one Currency.usd (.hundredths 10000), .simple 6, none⟩,
  ⟨.redeem .one token, .simple 7, none⟩]

theorem without_shared (token : String) : Without .one (shared token) (alone token) :=
  .keep _ (.drop (by decide) (.drop (by decide) (.keep _ (.keep _ (.drop (by decide)
    (.keep _ (.keep _ .nil)))))))

theorem steady_shared (token : String) : Desk.simple.Steady World.simple (shared token) :=
  ⟨by decide +kernel, by decide +kernel, by decide +kernel, by decide +kernel, by decide +kernel,
    by decide +kernel, by decide +kernel, (by decide +kernel : _ ≤ 7), trivial⟩

/-- The first client opens an account and pays in. -/
def payingIn : List Visit := [
  ⟨.openAccount .one Currency.usd, .simple 0, none⟩,
  ⟨.deposit .one Currency.usd (.hundredths 10000), .simple 1, none⟩]

end Visit

namespace Desk

/-- The first client is given a ticket. -/
theorem exists_ticket : ∃ t, (simple.visit World.simple .first).1 = some (.ok (.ticket t)) := by
  have served : (simple.visit World.simple .first).1.any Except.isOk = true := by decide +kernel
  rw [visit, Visit.first, answer, telling_apply] at served ⊢
  generalize simple.createOffer _ none _ = p at served ⊢
  rcases p with ⟨_ | e | t, w'⟩
  · cases served
  · cases served
  · exact ⟨t, rfl⟩

theorem isolated_simple : ∃ t, (simple.visit World.simple .first).1 = some (.ok (.ticket t)) ∧
    (simple.log World.simple (Visit.alone t.token)).filter (·.isFor .one) =
      (simple.log World.simple (Visit.shared t.token)).filter (·.isFor .one) ∧
    ∀ a ∈ simple.log World.simple (Visit.shared t.token), a.isFor .one = true →
      ∀ content, a.answer = some (.ok content) → content.Own simple a.visit.errand .one := by
  obtain ⟨t, given⟩ := exists_ticket
  have named : simple.offerOf? t.token = some (World.simple.under (.simple 0)).nextOfferId :=
    named_visit (v := .first) rfl given
  have other : (World.simple.under (.simple 0)).nextOfferId ≠
      ⟨.ofRandom ((Scene.simple 1).random (Scene.simple 1).drawn)⟩ := by decide
  have honest : (Visit.shared t.token).Pairwise fun earlier later =>
      later.errand.PresentsOwn simple earlier.offers := by
    simp [Visit.shared, Visit.first, Visit.offers, Errand.PresentsOwn, named, other]
  exact ⟨t, given, isolated simple Ledger.atRest_empty rfl (by decide) (Visit.steady_shared _)
    (honest_log honest _) (Visit.without_shared _)⟩

/-- The receipt of a deposit shows a row that is not the client's. -/
theorem clearing_row_shown : ClientId.one ≠ simple.settings.treasury ∧
    simple.Steady World.simple Visit.payingIn ∧
    simple.Honest (simple.log World.simple Visit.payingIn) ∧
    ∃ a ∈ simple.log World.simple Visit.payingIn, a.isFor .one = true ∧
      ∃ content, a.answer = some (.ok content) ∧ ∃ e ∈ content.shownRows, e.client ≠ .one := by
  refine ⟨by decide, by decide +kernel, by decide +kernel, ?_⟩
  have shown : ((simple.log World.simple Visit.payingIn).any fun a => a.isFor .one &&
      a.answer.any fun r => r.toOption.any (·.shownRows.any (·.client ≠ .one))) = true := by
    decide +kernel
  obtain ⟨⟨v, answer⟩, there, h⟩ := List.any_eq_true.1 shown
  obtain ⟨mine, h⟩ := Bool.and_eq_true_iff.1 h
  rcases answer with _ | e | content
  · cases h
  · cases h
  · obtain ⟨e, he, other⟩ := List.any_eq_true.1 h
    exact ⟨_, there, mine, content, rfl, e, he, of_decide_eq_true other⟩

end Desk

end Bureau
