import OpenLedger.Horizon
import OpenLedger.Provenance

/-!
# What a run alone lands

An operation run with nobody beside it adds to its book in brackets that land, each
under its own transaction id.  So the transactions of a run stand in the order of
their writers, and nothing but a close adds a close.
-/

namespace OpenLedger

open Postgres

/-- What a bracket that closes nothing wrote under its writer's id. -/
structure Writes.Open (xid : Xid) (writes : Writes) : Prop where
  own : writes.Own xid
  closes : writes.closes = []
  periodBalances : writes.periodBalances = []

namespace Writes.Open

theorem none (xid : Xid) : Writes.none.Open xid := ⟨.none xid, rfl, rfl⟩

theorem append {xid : Xid} {first second : Writes} (firstOpen : first.Open xid)
    (secondOpen : second.Open xid) : (first.append second).Open xid where
  own := firstOpen.own.append secondOpen.own
  closes := by
    rw [Writes.append, firstOpen.closes, secondOpen.closes, List.append_nil]
  periodBalances := by
    rw [Writes.append, firstOpen.periodBalances, secondOpen.periodBalances, List.append_nil]

end Writes.Open

section Landing

variable {book later : Book} {wrote : Writes → Prop}

/-- A new bracket's entries are of no transaction that was there. -/
theorem Lands.entry_apart {writes : Writes} (lands : Lands book writes) {e : EntryRow}
    (member : e ∈ writes.entries) {x : TransactionRow} (isThere : x ∈ book.transactions)
    (sameTenant : e.tenantId = x.tenantId) : e.transactionId ≠ x.id := by
  intro sameId
  obtain ⟨own, isOwn, belongs⟩ := lands.belongs e member
  have unknown := lands.unknown isOwn
  have found := List.find?_eq_none.mp unknown x isThere
  simp [belongs.tenant, belongs.id, sameTenant, sameId] at found

/-- A period is closed in a currency once. -/
theorem Lands.close_apart {writes : Writes} (lands : Lands book writes) {close k : CloseRow}
    (isNew : close ∈ writes.closes) (isThere : k ∈ book.closes) :
    close.primaryKey ≠ k.primaryKey := by
  intro same
  obtain ⟨_, admits⟩ := lands.admitted
  exact admits.pkCloses.2 _ (List.mem_filterMap.mpr ⟨close, isNew, rfl⟩)
    (List.mem_filterMap.mpr ⟨k, isThere, same.symm⟩)

theorem PeriodBalanceRow.OfClose.same {row : PeriodBalanceRow} {left right : CloseRow}
    (ofLeft : row.OfClose left) (ofRight : row.OfClose right) :
    left.primaryKey = right.primaryKey := by
  simp only [CloseRow.primaryKey, ← ofLeft.tenant, ← ofLeft.code, ← ofLeft.currency,
    ofRight.tenant, ofRight.code, ofRight.currency]

/-- A new bracket's checkpoint rows are of no close that was there. -/
theorem Lands.row_apart {writes : Writes} (lands : Lands book writes) {row : PeriodBalanceRow}
    (member : row ∈ writes.periodBalances) {k : CloseRow} (isThere : k ∈ book.closes) :
    ¬ row.OfClose k := by
  intro ofClose
  obtain ⟨close, isNew, ofNew⟩ := lands.checkpointed row member
  exact lands.close_apart isNew isThere (ofNew.same ofClose)

/-- What lands behind a book is of none of its transactions and of none of its closes. -/
theorem Landed.behind (landed : Landed wrote book later) : ∃ entries rows,
    later.entries = book.entries ++ entries ∧
      later.periodBalances = book.periodBalances ++ rows ∧
      (∀ e ∈ entries, ∀ x ∈ book.transactions, e.tenantId = x.tenantId →
        e.transactionId ≠ x.id) ∧
      ∀ row ∈ rows, ∀ k ∈ book.closes, ¬ row.OfClose k := by
  induction landed with
  | refl =>
      exact ⟨[], [], (List.append_nil _).symm, (List.append_nil _).symm,
        fun _ member => absurd member List.not_mem_nil,
        fun _ member => absurd member List.not_mem_nil⟩
  | @bracket between writes before kept lands _ inductionHypothesis =>
      obtain ⟨entries, rows, areEntries, areRows, entriesApart, rowsApart⟩ := inductionHypothesis
      refine ⟨entries ++ writes.entries, rows ++ writes.periodBalances, ?_, ?_, ?_, ?_⟩
      · rw [← List.append_assoc, ← areEntries]
        rfl
      · rw [← List.append_assoc, ← areRows]
        rfl
      · intro e member x isThere
        rcases List.mem_append.mp member with isEarlier | isNew
        · exact entriesApart e isEarlier x isThere
        · exact lands.entry_apart isNew (before.precedes.transactions.subset isThere)
      · intro row member k isThere
        rcases List.mem_append.mp member with isEarlier | isNew
        · exact rowsApart row isEarlier k isThere
        · exact lands.row_apart isNew (before.precedes.closes.subset isThere)

end Landing

section Statements

variable {env : Env} {book : Book}

/-- A statement that closes nothing, run alone, writes under its own id. -/
theorem open_statement {request : Request} (notClosing : request.isClosing = false) :
    (statement env book book request).2.Open env.xid :=
  have rows := statement_closes_nothing env book book notClosing
  ⟨own_statement request, rows.1, rows.2⟩

end Statements

section Runs

variable {env : Env} {need : Request → Prop} {wrote : Writes → Prop} {start book : Book}
  {sha256 : List UInt8 → List UInt8} {chart : Chart} {next : Xid}

/-- A program run alone lands its brackets; what each of its statements writes
satisfies, each bracket does. -/
theorem landed_run {α : Type} {program : Program Request Request.Reply α}
    {connection : Connection} (none : wrote .none)
    (append : ∀ {first second}, wrote first → wrote second → wrote (first.append second))
    (statements : ∀ working request, need request →
      wrote (statement env working working request).2)
    (commits : Commits env program connection) (asks : program.Asks need)
    (kept : Kept connection.committed) (written : wrote connection.written)
    (landed : Landed wrote start connection.committed) :
    Landed wrote start (program.run (handle env) connection).2.committed := by
  induction program generalizing connection with
  | done answer =>
      exact landed
  | ask request next inductionHypothesis =>
      obtain ⟨needed, continues⟩ := Program.asks_ask.mp asks
      obtain ⟨lands, going⟩ := commits
      have rest := going _ _ (Step.answered request (Grows.refl _ connection.committed)
        (Grows.refl _ connection.committed))
      rcases connection.after_cases request
        (statement env connection.working connection.working request).2 with
        ⟨isCommit, after⟩ | ⟨_, same, isWritten⟩
      · refine inductionHypothesis _ rest (continues _) ?_ ?_ ?_
        · rw [after]
          exact kept.apply (lands isCommit)
        · rw [after]
          exact none
        · rw [after]
          exact landed.bracket kept (lands isCommit) written
      · refine inductionHypothesis _ rest (continues _) ?_ ?_ ?_
        · rw [same]
          exact kept
        · rcases isWritten with isNone | isAppended
          · rw [isNone]
            exact none
          · rw [isAppended]
            exact append written (statements _ request needed)
        · rw [same]
          exact landed

/-- An operation alone lands what it commits under its own id. -/
theorem landed_perform (sha256 : List UInt8 → List UInt8) (operation : Operation) (env : Env)
    (kept : Kept book) :
    Landed (fun writes => writes.Own env.xid) book (operation.perform sha256 env book).2 := by
  have commits : Commits env (operation.program sha256) ⟨book, .none⟩ :=
    commits_program sha256 operation kept
  exact landed_run (.none _) (fun first second => first.append second)
    (fun _ request _ => own_statement request) commits (program_asks operation) kept (.none _) .refl

/-- An operation that is no close adds no close. -/
theorem landed_open (sha256 : List UInt8 → List UInt8) {operation : Operation}
    (notClose : operation.isClose = false) (env : Env) (kept : Kept book) :
    Landed (fun writes => writes.Open env.xid) book (operation.perform sha256 env book).2 := by
  have commits : Commits env (operation.program sha256) ⟨book, .none⟩ :=
    commits_program sha256 operation kept
  exact landed_run (.none _) (fun first second => first.append second)
    (fun _ _ needed => open_statement needed.2) commits
    (program_closes_nothing operation notClose) kept (.none _) .refl

/-- What a bracket that closes nothing preserves beside the closes that are there, a run
of them preserves. -/
theorem Landed.invariant {holds : Book → Prop} {xid : Xid} {later : Book}
    (bracket : ∀ {between : Book} {writes : Writes}, holds between → Kept between →
      Lands between writes → writes.Open xid →
      (∀ k ∈ between.closes, k.computedAtXid < xid) → holds (between.apply writes))
    (below : ∀ k ∈ book.closes, k.computedAtXid < xid) (was : holds book)
    (landed : Landed (fun writes => writes.Open xid) book later) :
    holds later ∧ later.closes = book.closes := by
  induction landed with
  | refl =>
      exact ⟨was, rfl⟩
  | bracket _ kept lands isOpen inductionHypothesis =>
      obtain ⟨still, sameCloses⟩ := inductionHypothesis
      refine ⟨bracket still kept lands isOpen ?_, ?_⟩
      · rw [sameCloses]
        exact below
      · rw [Book.closes_apply, isOpen.closes, List.append_nil, sameCloses]

theorem Landed.transactions {xid : Xid} {later : Book}
    (landed : Landed (fun writes => writes.Own xid) book later) :
    ∀ x ∈ later.transactions, x ∈ book.transactions ∨ x.xactId = xid := by
  induction landed with
  | refl =>
      exact fun x member => Or.inl member
  | bracket _ _ _ own inductionHypothesis =>
      intro x member
      rcases List.mem_append.mp member with isOld | isNew
      · exact inductionHypothesis x isOld
      · exact Or.inr (own x isNew)

/-- Every transaction of a run was written under an id given before. -/
theorem transactions_below (reachable : Reachable sha256 chart book next) :
    ∀ x ∈ book.transactions, x.xactId < next := by
  induction reachable with
  | empty =>
      exact fun x member => absurd member List.not_mem_nil
  | @perform book next reachable operation env assigned inductionHypothesis =>
      intro x member
      rcases (landed_perform sha256 operation env (kept_of_reachable reachable)).transactions x
        member with isOld | isOwn
      · exact Nat.lt_succ_of_le ((inductionHypothesis x isOld).le.trans assigned)
      · exact Nat.lt_succ_of_le isOwn.le

theorem entries_below (reachable : Reachable sha256 chart book next) :
    ∀ e ∈ book.entries, e.xactId < next := by
  intro e member
  obtain ⟨x, isThere, belongs⟩ := (kept_of_reachable reachable).belongs e member
  rw [belongs.xactId]
  exact transactions_below reachable x isThere

/-- A run keeps its chart. -/
theorem chart_of_reachable (reachable : Reachable sha256 chart book next) :
    book.chart = chart := by
  induction reachable with
  | empty =>
      rfl
  | perform reachable operation env _ inductionHypothesis =>
      exact (kept_perform sha256 operation env (kept_of_reachable reachable)).2.chart.symm.trans
        inductionHypothesis

end Runs

end OpenLedger
