import OpenLedger.Postgres.AppendLanding
import OpenLedger.Postgres.BatchLanding
import OpenLedger.Postgres.CloseLanding
import OpenLedger.Postgres.RegisterLanding
import OpenLedger.Runs

/-!
# What a bracket commits

A use-case runs between other writers' commits.  Whatever they commit, as long
as it leaves this bracket's writes landing, the use-case asks for its own commit
only when its writes land.  A run without other writers is the case in which
nobody else commits.
-/

namespace OpenLedger

open Postgres

/-- Others committed while a bracket was open, and its writes still land. -/
structure Grows (written : Writes) (before after : Book) : Prop where
  precedes : before.Precedes after
  kept : Kept before → Kept after
  lands : Lands before written → Lands after written

namespace Grows

theorem refl (written : Writes) (book : Book) : Grows written book book :=
  ⟨Book.Precedes.refl book, id, id⟩

theorem trans {written : Writes} {first second third : Book}
    (left : Grows written first second) (right : Grows written second third) :
    Grows written first third :=
  ⟨left.precedes.trans right.precedes, fun kept => right.kept (left.kept kept),
    fun lands => right.lands (left.lands lands)⟩

end Grows

/-- One request answered while others commit: the statement takes its snapshot,
perhaps waits, and runs against what is committed by then; or it fails, and the
server aborts the bracket. -/
inductive Step (env : Env) (connection : Connection) :
    (request : Request) → request.Reply → Connection → Prop where
  | answered (request : Request) {snapshot committed : Book}
      (seen : Grows connection.written connection.committed snapshot)
      (grown : Grows connection.written snapshot committed) :
      Step env connection request
        (statement env (snapshot.apply connection.written)
          (committed.apply connection.written) request).1
        (Connection.after ⟨committed, connection.written⟩ request
          (statement env (snapshot.apply connection.written)
            (committed.apply connection.written) request).2)
  | failed (request : Request) {committed : Book}
      (grown : Grows connection.written connection.committed committed)
      (failure : StorageError) :
      Step env connection request (.error failure) ⟨committed, .none⟩

/-- The program asks for a commit only when what it wrote lands. -/
def Commits {α : Type} (env : Env) (program : Program Request Request.Reply α)
    (connection : Connection) : Prop :=
  program.Upholds (fun connection request =>
      request = .commit → Lands connection.committed connection.written)
    (fun connection request => Step env connection request) (fun _ _ => True) connection

section Rules

variable {env : Env} {connection : Connection} {ε α : Type}

@[simp]
theorem commits_done (answer : α) : Commits env (.done answer) connection := trivial

/-- One request of a use-case: a failure stops it, and an answer goes on from
what the statement wrote. -/
theorem commits_ask (storage : StorageError → ε) (request : Request)
    (next : request.Answer → UseCase ε α)
    (lands : request = .commit → Lands connection.committed connection.written)
    (continues : ∀ (snapshot committed : Book) (answer : request.Answer),
      Grows connection.written connection.committed snapshot →
      Grows connection.written snapshot committed →
      (statement env (snapshot.apply connection.written)
        (committed.apply connection.written) request).1 = .ok answer →
      Commits env (next answer).run
        (Connection.after ⟨committed, connection.written⟩ request
          (statement env (snapshot.apply connection.written)
            (committed.apply connection.written) request).2)) :
    Commits env (ask storage request >>= next).run connection := by
  rw [run_ask_bind]
  refine ⟨lands, fun reply after step => ?_⟩
  cases step with
  | failed _ failure =>
      exact commits_done _
  | @answered snapshot committed seen grown =>
      cases answered : (statement env (snapshot.apply connection.written)
          (committed.apply connection.written) request).1 with
      | error failure =>
          exact commits_done _
      | ok answer =>
          exact continues snapshot committed answer seen grown answered

theorem commits_bind {β : Type} {program : Program Request Request.Reply β}
    {next : β → Program Request Request.Reply α} (first : Commits env program connection)
    (second : ∀ answer after, Commits env (next answer) after) :
    Commits env (program >>= next) connection :=
  Program.upholds_bind first fun answer after _ => second answer after

/-- Rolling back and refusing commits nothing. -/
theorem commits_refused (storage : StorageError → ε) (refusal : ε) :
    Commits env (do ask storage .rollback; refuse refusal : UseCase ε α).run connection :=
  commits_ask _ _ _ (fun isCommit => by cases isCommit) fun _ _ _ _ _ _ => commits_done _

/-- Committing what lands, and answering. -/
theorem commits_answered (storage : StorageError → ε) (answer : α)
    (lands : Lands connection.committed connection.written) :
    Commits env (do ask storage .commit; return answer : UseCase ε α).run connection :=
  commits_ask _ _ _ (fun _ => lands) fun _ _ _ _ _ _ => commits_done _

/-- A fresh bracket: nothing is written, so its statements read the committed
books as they stand. -/
theorem commits_begin (storage : StorageError → ε) (next : Unit → UseCase ε α)
    (kept : Kept connection.committed)
    (continues : ∀ committed : Book, Kept committed →
      Commits env (next ()).run ⟨committed, .none⟩) :
    Commits env (ask storage .begin >>= next).run connection :=
  commits_ask _ _ _ (fun isCommit => by cases isCommit) fun _ committed _ seen grown _ =>
    continues committed (grown.kept (seen.kept kept))

/-- The first statement of a bracket, or a read. -/
theorem commits_first {committed : Book} (storage : StorageError → ε) (request : Request)
    (next : request.Answer → UseCase ε α) (kept : Kept committed) (notCommit : request ≠ .commit)
    (continues : ∀ (snapshot current : Book) (answer : request.Answer), Kept snapshot →
      committed.Precedes snapshot → snapshot.Precedes current → Kept current →
      (statement env snapshot current request).1 = .ok answer →
      Commits env (next answer).run
        (Connection.after ⟨current, .none⟩ request (statement env snapshot current request).2)) :
    Commits env (ask storage request >>= next).run ⟨committed, .none⟩ := by
  refine commits_ask _ _ _ (fun isCommit => absurd isCommit notCommit)
    fun snapshot current answer seen grown answered => ?_
  rw [Book.apply_none, Book.apply_none] at answered ⊢
  exact continues snapshot current answer (seen.kept kept) seen.precedes grown.precedes
    (grown.kept (seen.kept kept)) answered

end Rules

section Posting

variable {env : Env} (sha256 : List UInt8 → List UInt8)

theorem Writes.none_append (writes : Writes) : Writes.none.append writes = writes := by
  simp [Writes.none, Writes.append]

theorem Writes.append_none (writes : Writes) : writes.append .none = writes := by
  simp [Writes.none, Writes.append]

theorem commits_post (command : PostTransaction) {connection : Connection}
    (kept : Kept connection.committed) :
    Commits env (post sha256 command).run connection := by
  unfold post
  cases isPlanned : planFor sha256 command with
  | error refusal =>
      exact commits_done _
  | ok planned =>
      obtain ⟨_, _, _, isAppend⟩ := planFor_ok isPlanned
      refine commits_begin _ _ kept fun committed kept => ?_
      refine commits_first _ _ _ kept (by simp)
        fun snapshot current answer keptSnapshot _ precedes _ answered => ?_
      cases answer with
      | none =>
          refine commits_ask _ _ _ (by simp) fun _ _ stored _ _ _ => ?_
          refine commits_ask _ _ _ (by simp) fun _ _ _ _ _ _ => ?_
          cases stored <;> exact commits_done _
      | some claimed =>
          cases claimed with
          | supersessionRefused refusal =>
              exact commits_refused _ _
          | appended appended =>
              have wrote : claimAndAppend env snapshot current command planned.hash
                  planned.payload planned.append = (.ok (some (.appended appended)),
                    (statement env snapshot current (.claimAndAppend command planned.hash
                      planned.payload planned.append)).2) := Prod.ext answered rfl
              obtain ⟨free, admitted, allowed, isAnswer, isWrites⟩ :=
                claimAndAppend_appended _ _ _ _ _ _ _ wrote
              have lands : Complete command appended.balanceUpserts →
                  Lands current (Writes.none.append (statement env snapshot current
                    (.claimAndAppend command planned.hash planned.payload
                      planned.append)).2) := by
                intro complete
                rw [Writes.none_append, isWrites]
                rw [isAnswer] at complete
                exact appendWrites_lands keptSnapshot precedes isAppend free admitted
                  (known_of_complete keptSnapshot isAppend complete) allowed
              dsimp only
              split
              · rename_i reversal
                exact commits_answered _ _ (lands (Or.inl reversal))
              · unfold commitOrRefuseUnknownAccount
                split
                · exact commits_refused _ _
                · split
                  · exact commits_refused _ _
                  · rename_i noneMissing
                    exact commits_answered _ _ (lands (Or.inr noneMissing))

theorem replayedResultsFor_of_isEmpty {replaying : List BatchMember}
    (none : replaying.isEmpty = true) : replayedResultsFor replaying = pure [] :=
  if_pos none

theorem replayedResultsFor_of_not_isEmpty {replaying : List BatchMember}
    (some : replaying.isEmpty = false) :
    replayedResultsFor replaying = ask .storage (.storedResultBatch replaying) :=
  if_neg (by simp [some])

theorem commits_appendTheBatch {members : List BatchMember}
    (planned : ∀ m ∈ members, planAppend m.command.postings m.command.status = .ok m.append)
    {connection : Connection} (kept : Kept connection.committed) :
    Commits env (appendTheBatch members).run connection := by
  unfold appendTheBatch
  refine commits_begin _ _ kept fun committed kept => ?_
  refine commits_first _ _ _ kept (by simp)
    fun snapshot current outcomes _ _ precedes _ answered => ?_
  have wrote : claimAndAppendBatch env snapshot current members = (.ok outcomes,
      (statement env snapshot current (.claimAndAppendBatch members)).2) :=
    Prod.ext answered rfl
  obtain ⟨carried, allowed, _, isWrites⟩ := claimAndAppendBatch_answered wrote
  have lands : Lands current (Writes.none.append
      (statement env snapshot current (.claimAndAppendBatch members)).2) := by
    rw [Writes.none_append, isWrites]
    refine batchWrites_lands precedes (fun m isMember => ⟨planned m isMember, ?_⟩) allowed
    have plain := unbatchable_of_carried carried m isMember
    unfold unbatchable at plain
    by_contra reverses
    rw [if_pos (Option.isSome_iff_ne_none.mpr reverses)] at plain
    split at plain <;> cases plain
  dsimp only
  split
  · exact commits_refused _ _
  · cases noneReplay : (membersReplayingAnEarlierWrite members outcomes).isEmpty with
    | true =>
      rw [replayedResultsFor_of_isEmpty noneReplay, pure_bind]
      split
      · exact commits_refused _ _
      · exact commits_answered _ _ lands
    | false =>
      rw [replayedResultsFor_of_not_isEmpty noneReplay]
      refine commits_ask _ _ _ (by simp) fun _ later replayed seen grown _ => ?_
      have landsLater := grown.lands (seen.lands lands)
      have stillLands : Lands later ((Writes.none.append
          (statement env snapshot current (.claimAndAppendBatch members)).2).append .none) := by
        rw [Writes.append_none]
        exact landsLater
      split
      · exact commits_refused _ _
      · exact commits_answered _ _ stillLands

/-- Every member a batch carries on was planned. -/
theorem planned_of_plannedMembers (commands : List PostTransaction) :
    ∀ m ∈ plannedMembers (commands.map (planFor sha256)),
      planAppend m.command.postings m.command.status = .ok m.append := by
  intro m isMember
  obtain ⟨answer, isAnswer, isPlanned⟩ := List.mem_filterMap.mp isMember
  obtain ⟨command, _, rfl⟩ := List.mem_map.mp isAnswer
  split at isPlanned
  · rename_i planned planFor_eq
    obtain ⟨same, _, _, isAppend⟩ := planFor_ok planFor_eq
    simp only [Option.some.injEq] at isPlanned
    subst isPlanned
    simp only [Planned.asMember, same]
    exact isAppend
  · cases isPlanned

theorem commits_postBatch (commands : List PostTransaction) {connection : Connection}
    (kept : Kept connection.committed) :
    Commits env (postBatch sha256 commands) connection := by
  unfold postBatch
  split
  · exact commits_done _
  · exact commits_bind (commits_post sha256 _ kept) fun _ _ => commits_done _
  · unfold postTogether
    dsimp only
    split
    · exact commits_done _
    · exact commits_bind (commits_post sha256 _ kept) fun _ _ => commits_done _
    · refine commits_bind (commits_appendTheBatch
        (planned_of_plannedMembers sha256 commands) kept) fun answer after => ?_
      cases answer <;> exact commits_done _

end Posting

section Registers

variable {env : Env} (sha256 : List UInt8 → List UInt8)

theorem commits_openAccount (command : OpenAccount) {connection : Connection}
    (kept : Kept connection.committed) :
    Commits env (openAccount sha256 command).run connection := by
  unfold openAccount
  refine commits_begin _ _ kept fun committed kept => ?_
  refine commits_first _ _ _ kept (by simp)
    fun snapshot current triple? _ _ precedes keptCurrent answered => ?_
  cases triple? with
  | none =>
      exact commits_refused _ _
  | some triple =>
      have charted : chartTripleForPurpose snapshot command.purpose = some triple :=
        Except.ok.inj answered
      dsimp only
      split
      · exact commits_refused _ _
      · refine commits_first _ _ _ keptCurrent (by simp)
          fun later now answer _ seen grown _ opened => ?_
        cases answer with
        | none =>
            refine commits_ask _ _ _ (by simp) fun _ _ stored _ _ _ => ?_
            refine commits_ask _ _ _ (by simp) fun _ _ _ _ _ _ => ?_
            rcases stored with - | ⟨eventId, - | account⟩ <;> exact commits_done _
        | some answer =>
            cases answer with
            | alreadyExists =>
                exact commits_refused _ _
            | opened eventId account =>
                have wrote : claimAndOpenAccount env now command
                    (command.idempotencyHash sha256) command.payload triple =
                      (.ok (some (.opened eventId account)), (statement env later now
                        (.claimAndOpenAccount command (command.idempotencyHash sha256)
                          command.payload triple)).2) := Prod.ext opened rfl
                obtain ⟨free, allowed, _, _, isWrites⟩ := claimAndOpenAccount_opened wrote
                have sameChart : snapshot.chart = now.chart :=
                  precedes.chart.trans (seen.chart.trans grown.chart)
                refine commits_answered _ _ ?_
                change Lands now (Writes.none.append _)
                rw [Writes.none_append, isWrites]
                refine openWrites_lands ?_ free allowed
                rw [chartTripleForPurpose, ← sameChart]
                exact charted

theorem commits_definePeriod (command : DefinePeriod) {connection : Connection}
    (kept : Kept connection.committed) :
    Commits env (definePeriod sha256 command).run connection := by
  unfold definePeriod
  split
  · exact commits_done _
  · exact commits_done _
  · rename_i hash payload _ _
    refine commits_begin _ _ kept fun committed kept => ?_
    refine commits_first _ _ _ kept (by simp)
      fun snapshot current answer _ _ _ _ answered => ?_
    cases answer with
    | none =>
        refine commits_ask _ _ _ (by simp) fun _ _ stored _ _ _ => ?_
        refine commits_ask _ _ _ (by simp) fun _ _ _ _ _ _ => ?_
        rcases stored with - | ⟨eventId, - | period⟩ <;> exact commits_done _
    | some answer =>
        cases answer with
        | «exists» =>
            exact commits_refused _ _
        | overlaps =>
            exact commits_refused _ _
        | zoneUnknown =>
            exact commits_refused _ _
        | defined eventId period =>
            have wrote : claimAndDefinePeriod env current command hash payload =
                (.ok (some (.defined eventId period)), (statement env snapshot current
                  (.claimAndDefinePeriod command hash payload)).2) := Prod.ext answered rfl
            obtain ⟨free, allowed, _, _, isWrites⟩ := claimAndDefinePeriod_defined wrote
            refine commits_answered _ _ ?_
            change Lands current (Writes.none.append _)
            rw [Writes.none_append, isWrites]
            exact defineWrites_lands free allowed

/-- A close that lands keeps landing with its checkpoint behind it. -/
theorem Lands.withCheckpoint {book : Book} {writes : Writes} {tzKnown : String → Bool}
    (lands : Lands book writes) (noRows : writes.periodBalances = [])
    {rows : List PeriodBalanceRow}
    (ofClose : ∀ row ∈ rows, ∃ close ∈ writes.closes, row.OfClose close)
    (onAccount : ∀ row ∈ rows, (book.account? row.tenantId row.accountId row.currency).isSome)
    (allowed : violation tzKnown (book.apply writes) { periodBalances := rows } = none) :
    Lands book (writes.append { periodBalances := rows }) := by
  have admitsRows := (violation_eq_none_iff ..).mp allowed
  obtain ⟨zones, admits⟩ := lands.admitted
  have same : writes.append { periodBalances := rows } =
      { writes with periodBalances := rows } := by
    simp [Writes.append, noRows]
  have indexed := admitsRows.pkPeriodBalances
  rw [Book.periodBalances_apply, noRows, List.append_nil] at indexed
  rw [same]
  exact
  { toLandsEntries :=
      { inputs := lands.inputs
        outputs := lands.outputs
        counts := lands.counts
        numbers := lands.numbers
        upserted := lands.upserted
        belongs := lands.belongs
        onAccount := lands.onAccount
        positive := lands.positive
        foots := lands.foots }
    admitted := ⟨zones,
      { pkEvents := admits.pkEvents
        pkTxn := admits.pkTxn
        uqTxnOnePerEvent := admits.uqTxnOnePerEvent
        uqTxnOneSupersession := admits.uqTxnOneSupersession
        ckTxnNoSelfReference := admits.ckTxnNoSelfReference
        pkAccounts := admits.pkAccounts
        uqAccountsOwned := admits.uqAccountsOwned
        uqAccountsHouse := admits.uqAccountsHouse
        pkEntries := admits.pkEntries
        ckPeriodsNonEmpty := admits.ckPeriodsNonEmpty
        ckPeriodsTzKnown := admits.ckPeriodsTzKnown
        pkPeriods := admits.pkPeriods
        exPeriodsNoOverlap := admits.exPeriodsNoOverlap
        ckClosesTxnInPeriod := admits.ckClosesTxnInPeriod
        pkCloses := admits.pkCloses
        uqClosesTxn := admits.uqClosesTxn
        pkPeriodBalances := indexed
        upsertsOnce := admits.upsertsOnce
        upsertsFit := admits.upsertsFit
        periodBalancesFit := admitsRows.periodBalancesFit }⟩
    claims := lands.claims
    nonEmpty := lands.nonEmpty
    supersedes := lands.supersedes
    pendingPlain := lands.pendingPlain
    notBoth := lands.notBoth
    caused := lands.caused
    closed := lands.closed
    named := lands.named
    ofPeriod := lands.ofPeriod
    checkpointed := ofClose
    balancesOnAccount := onAccount
    apart := lands.apart
    charted := lands.charted }

theorem commits_closePeriod (command : ClosePeriod) {connection : Connection}
    (kept : Kept connection.committed) :
    Commits env (closePeriod sha256 command).run connection := by
  unfold closePeriod
  refine commits_begin _ _ kept fun committed kept => ?_
  refine commits_first _ _ _ kept (by simp)
    fun read afterRead context? _ _ readPrecedes keptRead contextAnswered => ?_
  cases context? with
  | none =>
      exact commits_refused _ _
  | some context =>
      have isContext : periodCloseContext read command = some context :=
        Except.ok.inj contextAnswered
      dsimp only
      split
      · exact commits_refused _ _
      · rename_i retainedEarnings destination
        split
        · exact commits_refused _ _
        · rename_i closesAt instant
          have fitsRead := planFits_of_context isContext destination instant
          refine commits_first _ _ _ keptRead (by simp)
            fun snapshot current answer _ seen precedes keptCurrent answered => ?_
          cases answer with
          | none =>
              refine commits_ask _ _ _ (by simp) fun _ _ held _ _ _ => ?_
              refine commits_ask _ _ _ (by simp) fun _ _ _ _ _ _ => ?_
              split <;> exact commits_done _
          | some answer =>
              cases answer with
              | alreadyClosed =>
                  exact commits_refused _ _
              | closed eventId transactionId computedAtXid swept =>
                  have wrote : claimAndClosePeriod env snapshot current command
                      (command.idempotencyHash sha256) command.payload
                      ⟨context.startsAt, context.endsAt, retainedEarnings, closesAt⟩ =
                        (.ok (some (.closed eventId transactionId computedAtXid swept)),
                          (statement env snapshot current (.claimAndClosePeriod command
                            (command.idempotencyHash sha256) command.payload
                            ⟨context.startsAt, context.endsAt, retainedEarnings,
                              closesAt⟩)).2) := Prod.ext answered rfl
                  obtain ⟨free, allowed, _, _, _, _, isWrites⟩ :=
                    claimAndClosePeriod_closed wrote
                  have fits := (fitsRead.later readPrecedes).later seen
                  have lands := closeWrites_lands (command.idempotencyHash sha256)
                    command.payload precedes fits free allowed
                  refine commits_ask _ _ _ (by simp)
                    fun sight later rows seenLater grown checkpointed => ?_
                  refine commits_answered _ _ ?_
                  obtain ⟨allowedRows, _, wroteRows⟩ :=
                    checkpointTheClose_answered checkpointed
                  change Lands later ((Writes.none.append _).append
                    (checkpointTheClose env _ _ command _ transactionId computedAtXid).2)
                  rw [wroteRows]
                  have landsSight := seenLater.lands (by
                    change Lands current (Writes.none.append _)
                    rw [Writes.none_append, isWrites]
                    exact lands)
                  have landsLater := grown.lands landsSight
                  have keptSight := (seenLater.kept keptCurrent).apply landsSight
                  have written : (Writes.none.append (statement env snapshot current
                      (.claimAndClosePeriod command (command.idempotencyHash sha256)
                        command.payload ⟨context.startsAt, context.endsAt, retainedEarnings,
                          closesAt⟩)).2) =
                      closeWrites env snapshot current command
                        (command.idempotencyHash sha256) command.payload
                        ⟨context.startsAt, context.endsAt, retainedEarnings, closesAt⟩ := by
                    rw [Writes.none_append, isWrites]
                  refine landsLater.withCheckpoint ?_ (fun row isRow => ?_) (fun row isRow => ?_)
                    allowedRows
                  · change (Writes.none.append _).periodBalances = []
                    rw [written]
                    rfl
                  · obtain ⟨accountId, _, rfl⟩ := List.mem_map.mp isRow
                    change ∃ close ∈ (Writes.none.append _).closes, _
                    rw [written]
                    exact ⟨_, List.mem_singleton_self _, rfl, rfl, rfl⟩
                  · have known := checkpointRows_onAccount keptSight row isRow
                    have noAccounts : (Writes.none.append (statement env snapshot current
                        (.claimAndClosePeriod command (command.idempotencyHash sha256)
                          command.payload ⟨context.startsAt, context.endsAt, retainedEarnings,
                            closesAt⟩)).2).accounts = [] := by
                      rw [written]
                      rfl
                    refine Book.account?_later grown.precedes ?_
                    rw [Book.account?, Book.accounts_apply] at known
                    change (List.find? _ (sight.accounts ++ (Writes.none.append _).accounts)).isSome
                      at known
                    rw [noAccounts, List.append_nil] at known
                    exact known

/-- Whatever else commits, an operation commits only what lands. -/
theorem commits_program (operation : Operation) {connection : Connection}
    (kept : Kept connection.committed) :
    Commits env (operation.program sha256) connection := by
  cases operation with
  | post command =>
      exact commits_bind (commits_post sha256 command kept) fun _ _ => commits_done _
  | postBatch commands =>
      exact commits_bind (commits_postBatch sha256 commands kept) fun _ _ => commits_done _
  | openAccount command =>
      exact commits_bind (commits_openAccount sha256 command kept) fun _ _ => commits_done _
  | definePeriod command =>
      exact commits_bind (commits_definePeriod sha256 command kept) fun _ _ => commits_done _
  | closePeriod command =>
      exact commits_bind (commits_closePeriod sha256 command kept) fun _ _ => commits_done _

end Registers

section Alone

variable {env : Env} {α : Type}

/-- Run alone, a program that commits only what lands keeps the book, and only
adds to it. -/
theorem kept_run {program : Program Request Request.Reply α} {connection : Connection}
    (commits : Commits env program connection) (kept : Kept connection.committed) :
    Kept (program.run (handle env) connection).2.committed ∧
      connection.committed.Precedes (program.run (handle env) connection).2.committed := by
  induction program generalizing connection with
  | done answer =>
      exact ⟨kept, Book.Precedes.refl _⟩
  | ask request next inductionHypothesis =>
      obtain ⟨lands, continues⟩ := commits
      have rest := continues _ _ (Step.answered request (Grows.refl _ connection.committed)
        (Grows.refl _ connection.committed))
      have keptAfter : Kept (handle env request connection).2.committed ∧
          connection.committed.Precedes (handle env request connection).2.committed := by
        cases request with
        | commit =>
            exact ⟨kept.apply (lands rfl), Book.Precedes.apply _ _⟩
        | _ =>
            exact ⟨kept, Book.Precedes.refl _⟩
      obtain ⟨keptEnd, precedesEnd⟩ := inductionHypothesis _ rest keptAfter.1
      exact ⟨keptEnd, keptAfter.2.trans precedesEnd⟩

theorem kept_perform (sha256 : List UInt8 → List UInt8) (operation : Operation) (env : Env)
    {book : Book} (kept : Kept book) :
    Kept (operation.perform sha256 env book).2 ∧
      book.Precedes (operation.perform sha256 env book).2 := by
  have commits : Commits env (operation.program sha256) ⟨book, .none⟩ :=
    commits_program sha256 operation kept
  exact kept_run commits kept

/-- A run keeps the book, and only adds to it. -/
theorem kept_performAll (sha256 : List UInt8 → List UInt8) (operations : List (Operation × Env))
    {book : Book} (kept : Kept book) :
    Kept (performAll sha256 operations book) ∧
      book.Precedes (performAll sha256 operations book) := by
  induction operations generalizing book with
  | nil =>
      exact ⟨kept, Book.Precedes.refl book⟩
  | cons operation operations inductionHypothesis =>
      obtain ⟨keptNext, precedesNext⟩ := kept_perform sha256 operation.1 operation.2 kept
      obtain ⟨keptEnd, precedesEnd⟩ := inductionHypothesis keptNext
      exact ⟨keptEnd, precedesNext.trans precedesEnd⟩

/-- Every book a run reaches is kept. -/
theorem kept_of_reachable {sha256 : List UInt8 → List UInt8} {chart : Chart} {book : Book}
    {next : Xid} (reachable : Reachable sha256 chart book next) : Kept book := by
  induction reachable with
  | empty =>
      exact Kept.empty chart
  | perform _ operation env _ inductionHypothesis =>
      exact (kept_perform sha256 operation env inductionHypothesis).1

end Alone

end OpenLedger
