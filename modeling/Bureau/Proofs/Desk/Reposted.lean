import Bureau.Proofs.Desk.Archive
import Bureau.Proofs.Desk.Docket
import Bureau.Proofs.Ledger.Shapes

/-!
# Audits of what has been posted

A posting checks the rows of one batch, an audit all rows under one identifier. The identifier that
the rows of a batch bear need not be the batch's own, and a batch that is posted again adds its rows
once more. So an audit finds a settlement again when just one posting has brought rows under the
identifier that is asked for (`Docket.found`), and this is so for every posting when the identifiers
of batches are distinct and borne by their rows.
-/

namespace Bureau

open Timed World

namespace Posted

/-- The identifier that the rows bear. -/
def rowsId (p : Posted) : TxId := (p.entries.head?.map (·.txId)).getD p.txId

/-- What a posting has brought into the books, under the identifier that its rows bear. -/
def filed (p : Posted) : Receipt := ⟨p.rowsId, p.kind, p.entries⟩

theorem consistent_filed {p : Posted} (h : checkConsistency p.entries = .ok p.kind) :
    p.filed.Consistent where
  consistent := h
  own := by
    obtain ⟨debit, credit, rows, opposes, -⟩ := checkConsistency_eq_ok_iff.1 h
    have together := opposes.together
    change ∀ e ∈ p.entries, e.txId = p.rowsId
    rcases rows with rows | rows <;> simp [rowsId, rows, together]

end Posted

theorem checkConsistency_of_length_ne {entries : List JournalEntry} (h : entries.length ≠ 2) :
    checkConsistency entries = .error (.rowCount entries.length) := by
  unfold checkConsistency
  split
  · exact absurd rfl h
  · rfl

namespace Docket

/-- What has been posted with rows that bear the identifier. -/
def under (s : Docket) (txId : TxId) : List Posted := s.posted.filter (·.rowsId = txId)

/-- What an audit of the identifier finds. -/
def found (s : Docket) (txId : TxId) : Except LedgerError SettlementKind :=
  match s.under txId with
  | [p] => .ok p.kind
  | ps => .error (.inconsistent (ConsistencyError.rowCount (2 * ps.length)).message)

variable {s : Docket} {txId : TxId} {p : Posted}

theorem found_of_length_ne (h : (s.under txId).length ≠ 1) : s.found txId = .error
    (.inconsistent (ConsistencyError.rowCount (2 * (s.under txId).length)).message) := by
  unfold found
  split
  · rename_i alone
    simp [alone] at h
  · rfl

theorem mem_under : p ∈ s.under txId ↔ p ∈ s.posted ∧ p.rowsId = txId := by
  simp [under]

theorem count_rowsId (s : Docket) (txId : TxId) :
    (s.posted.map Posted.rowsId).count txId = (s.under txId).length := by
  rw [List.count, List.countP_map, List.countP_eq_length_filter, under]
  rfl

namespace Inv

/-- The journal consists of the rows that have been filed. -/
theorem records (inv : s.Inv) : s.world.ledger.Records (s.posted.map Posted.filed) where
  journal := by
    rw [inv.journal, List.flatMap_map]
    rfl
  consistent := List.forall_mem_map.2 fun p hp => Posted.consistent_filed (inv.consistent p hp)

/-- The rows under an identifier are those of the postings whose rows bear it. -/
theorem journalFor_eq (inv : s.Inv) (txId : TxId) :
    s.world.ledger.journalFor txId = (s.under txId).flatMap Posted.entries := by
  rw [inv.records.journalFor_eq_flatMap, List.filter_map, List.flatMap_map]
  rfl

theorem length_journalFor (inv : s.Inv) (txId : TxId) :
    (s.world.ledger.journalFor txId).length = 2 * (s.under txId).length := by
  have two : ∀ p ∈ s.under txId, p.entries.length = 2 := fun p hp =>
    (Posted.consistent_filed (inv.consistent p (mem_under.1 hp).1)).length_eq
  rw [inv.journalFor_eq, List.length_flatMap, List.map_congr_left two, List.map_const',
    List.sum_replicate_nat, Nat.mul_comm]

theorem audit_eq (inv : s.Inv) (calm : s.world.Calm .journalFor) (txId : TxId)
    (deadline : Option Nat) :
    Desk.audit txId deadline s.world = (some (s.found txId), s.world) := by
  rw [Desk.audit_calm calm]
  by_cases one : (s.under txId).length = 1
  · obtain ⟨p, alone⟩ := List.length_eq_one_iff.1 one
    have there : p ∈ s.posted := (mem_under.1 (alone ▸ List.mem_singleton_self p)).1
    rw [inv.journalFor_eq, found, alone, List.flatMap_singleton, inv.consistent p there]
  · have length := inv.length_journalFor txId
    rw [checkConsistency_of_length_ne (by omega), length, found_of_length_ne one]

/-- A row in the journal has been brought there under its identifier. -/
theorem under_ne_nil (inv : s.Inv) {e : JournalEntry} (he : e ∈ s.world.ledger.journal) :
    s.under e.txId ≠ [] := by
  have there : e ∈ s.world.ledger.journalFor e.txId := List.mem_filter.2 ⟨he, by simp⟩
  rw [inv.journalFor_eq] at there
  obtain ⟨p, hp, -⟩ := List.mem_flatMap.1 there
  exact List.ne_nil_of_mem hp

/-- Every identifier in the journal has two rows exactly when no two postings share one. -/
theorem two_rows_iff (inv : s.Inv) :
    (∀ e ∈ s.world.ledger.journal, (s.world.ledger.journalFor e.txId).length = 2) ↔
      (s.posted.map Posted.rowsId).Nodup := by
  rw [List.nodup_iff_count_le_one]
  constructor
  · intro two txId
    rw [count_rowsId]
    by_contra more
    obtain ⟨p, hp⟩ := List.exists_mem_of_length_pos (by omega : 0 < (s.under txId).length)
    obtain ⟨there, bears⟩ := mem_under.1 hp
    have filed := Posted.consistent_filed (inv.consistent p there)
    obtain ⟨e, he⟩ := List.exists_mem_of_length_pos
      (by rw [filed.length_eq]; decide : 0 < p.filed.entries.length)
    have rows := two e (inv.journal ▸ List.mem_flatMap.2 ⟨p, there, he⟩)
    have own : e.txId = txId := (filed.own e he).trans bears
    rw [own, inv.length_journalFor] at rows
    omega
  · intro once e he
    have some_ := List.length_pos_iff.2 (inv.under_ne_nil he)
    have one := once e.txId
    rw [count_rowsId] at one
    rw [inv.length_journalFor]
    omega

end Inv

/-- Where no two postings share an identifier, an audit finds each of them by the one that its rows
bear. -/
theorem found_eq (distinct : (s.posted.map Posted.rowsId).Nodup) (there : p ∈ s.posted) :
    s.found p.rowsId = .ok p.kind := by
  have alone : s.under p.rowsId = [p] := filter_eq_singleton distinct there
  rw [found, alone]

/-- After any filings, an identifier has two rows for each posting that has brought rows under it,
and an audit that nothing befalls finds a settlement under it exactly when this is one posting. So
every identifier in the journal has two rows as long as no two postings have brought rows under
one, and then an audit finds every posting whose rows bear the identifier of its batch. -/
theorem audits_posted {w : World} (new : w.ledger = {}) (filings : List Filing) :
    let s := filings.foldl Docket.next { world := w }
    let l := s.world.ledger
    (∀ txId, (l.journalFor txId).length = 2 * (s.under txId).length) ∧
    (s.world.Calm .journalFor → ∀ txId deadline,
      Desk.audit txId deadline s.world = (some (s.found txId), s.world)) ∧
    ((∀ e ∈ l.journal, (l.journalFor e.txId).length = 2) ↔
      (s.posted.map Posted.rowsId).Nodup) ∧
    ((s.posted.map Posted.rowsId).Nodup →
      ∀ p ∈ s.posted, p.rowsId = p.txId → s.found p.txId = .ok p.kind) := by
  intro s l
  have inv : s.Inv := (inv_new new).foldl filings
  exact ⟨inv.length_journalFor, inv.audit_eq, inv.two_rows_iff,
    fun distinct p there own => own ▸ found_eq distinct there⟩

/-- Money that is paid in twice under two identifiers is found twice. -/
theorem audits_posted_dollars :
    let filings : List Filing := [.openAccount none ⟨default, Currency.usd⟩,
      .post none 0 (dollars default (.hundredths 1000)),
      .post none 0 (dollars ⟨Uuid.ofRandom 1⟩ (.hundredths 1000))]
    let s := filings.foldl Docket.next { world := World.simple }
    s.posted.length = 2 ∧ ∀ p ∈ s.posted,
      Desk.audit p.txId none s.world = (some (.ok .externalDeposit), s.world) := by
  intro filings s
  obtain ⟨-, audits, -, found⟩ := audits_posted (w := World.simple) rfl filings
  have distinct : (s.posted.map Posted.rowsId).Nodup := by decide +kernel
  have own : ∀ p ∈ s.posted, p.rowsId = p.txId ∧ p.kind = .externalDeposit := by decide +kernel
  have quiet : s.world.mishaps.ledger.length = 0 := by decide +kernel
  have calm : s.world.Calm .journalFor := by
    intro c hc
    rw [List.eq_nil_of_length_eq_zero quiet] at hc
    cases hc
  refine ⟨by decide +kernel, fun p hp => ?_⟩
  rw [audits calm, found distinct p hp (own p hp).1, (own p hp).2]

/-- A batch is posted again, and another bears an identifier that its rows do not bear. -/
theorem not_audited_of_repeated :
    let deposit := dollars default (.hundredths 1000)
    let account : Filing := .openAccount none ⟨default, Currency.usd⟩
    let twice := [account, .post none 0 deposit, .post none 0 deposit].foldl Docket.next
      { world := World.simple }
    let strange := [account, .post none 0 { deposit with txId := ⟨Uuid.ofRandom 1⟩ }].foldl
      Docket.next { world := World.simple }
    (∃ p ∈ twice.posted, (twice.world.ledger.journalFor p.txId).length = 4 ∧
      (Desk.audit p.txId none twice.world).1 =
        some (.error (.inconsistent "expected 2 rows, found 4"))) ∧
    ∃ p ∈ strange.posted, (Desk.audit p.txId none strange.world).1 =
      some (.error (.inconsistent "expected 2 rows, found 0")) := by
  decide +kernel

end Docket

end Bureau
