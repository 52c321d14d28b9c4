import OpenLedger.Brackets

/-!
# One operation alone

With nobody writing beside it, an operation is its statements in a row over one
book.  Each use-case is evaluated once: what it answers, and the one set of
writes it commits.
-/

namespace OpenLedger

open Postgres

theorem Connection.after_statement {request : Request} (isStatement : request.isStatement)
    (connection : Connection) (writes : Writes) :
    connection.after request writes =
      ⟨connection.committed, connection.written.append writes⟩ := by
  cases request with
  | begin => cases isStatement
  | commit => cases isStatement
  | rollback => cases isStatement
  | _ => rfl

/-- What an operation alone answers, and what it commits. -/
abbrev Alone (ε α : Type) := Except ε α × Writes

/-- Alone from a connection, a program answers and commits this. -/
structure Settles {α : Type} (env : Env) (program : Program Request Request.Reply α)
    (connection : Connection) (answer : α) (committed : Book) : Prop where
  answer : (program.run (handle env) connection).1 = answer
  committed : (program.run (handle env) connection).2.committed = committed

section Steps

variable {env : Env} {ε α : Type} {book : Book} {written : Writes} {ended : Except ε α}
  {committed : Book}

theorem runOn_of_settles {program : Program Request Request.Reply α} {answer : α}
    (settles : Settles env program ⟨book, .none⟩ answer committed) :
    runOn env program book = (answer, committed) :=
  Prod.ext settles.answer settles.committed

theorem settles_ask (storage : StorageError → ε) (request : Request)
    (next : request.Answer → UseCase ε α) {connection after : Connection}
    {answer : request.Answer}
    (handled : handle env request connection = (.ok answer, after))
    (settles : Settles env (next answer).run after ended committed) :
    Settles env (ask storage request >>= next).run connection ended committed := by
  have same : (ask storage request >>= next).run.run (handle env) connection =
      (next answer).run.run (handle env) after := by
    rw [run_ask_bind, Program.run_ask, handled]
  exact ⟨(congrArg Prod.fst same).trans settles.answer,
    (congrArg (fun ended => ended.2.committed) same).trans settles.committed⟩

/-- A statement answers from what the bracket sees, and its writes are kept for
the commit. -/
theorem settles_statement (storage : StorageError → ε) {request : Request}
    (next : request.Answer → UseCase ε α) (isStatement : request.isStatement)
    {answer : request.Answer} {writes : Writes}
    (answered : statement env (book.apply written) (book.apply written) request =
      (.ok answer, writes))
    (settles : Settles env (next answer).run ⟨book, written.append writes⟩ ended committed) :
    Settles env (ask storage request >>= next).run ⟨book, written⟩ ended committed := by
  refine settles_ask storage request next ?_ settles
  unfold handle Connection.working
  rw [answered]
  dsimp only
  rw [Connection.after_statement isStatement]

/-- The first statement of a bracket. -/
theorem settles_first (storage : StorageError → ε) {request : Request}
    (next : request.Answer → UseCase ε α) (isStatement : request.isStatement)
    {answer : request.Answer} {writes : Writes}
    (answered : statement env book book request = (.ok answer, writes))
    (settles : Settles env (next answer).run ⟨book, writes⟩ ended committed) :
    Settles env (ask storage request >>= next).run ⟨book, .none⟩ ended committed := by
  have sees : statement env (book.apply .none) (book.apply .none) request =
      (.ok answer, writes) := by
    rw [Book.apply_none]
    exact answered
  refine settles_statement storage next isStatement sees ?_
  rw [Writes.none_append]
  exact settles

/-- A failed statement stops the use-case, and the server aborts the bracket. -/
theorem settles_failed (storage : StorageError → ε) {request : Request}
    (next : request.Answer → UseCase ε α) (isStatement : request.isStatement)
    {failure : StorageError}
    (failed : (statement env (book.apply written) (book.apply written) request).1 =
      .error failure) :
    Settles env (ask storage request >>= next).run ⟨book, written⟩
      (.error (storage failure)) book := by
  have same : (ask storage request >>= next).run.run (handle env) ⟨book, written⟩ =
      (.error (storage failure), (handle env request ⟨book, written⟩).2) := by
    have replied : (handle env request ⟨book, written⟩).1 = .error failure := failed
    rw [run_ask_bind, Program.run_ask, replied]
    rfl
  refine ⟨congrArg Prod.fst same, (congrArg (fun ended => ended.2.committed) same).trans ?_⟩
  exact congrArg Connection.committed
    (Connection.after_statement isStatement ⟨book, written⟩ _)

theorem settles_begin (storage : StorageError → ε) (next : Request.begin.Answer → UseCase ε α)
    (settles : Settles env (next ()).run ⟨book, .none⟩ ended committed) :
    Settles env (ask storage .begin >>= next).run ⟨book, written⟩ ended committed :=
  settles_ask storage .begin next rfl settles

theorem settles_rollback (storage : StorageError → ε)
    (next : Request.rollback.Answer → UseCase ε α)
    (settles : Settles env (next ()).run ⟨book, .none⟩ ended committed) :
    Settles env (ask storage .rollback >>= next).run ⟨book, written⟩ ended committed :=
  settles_ask storage .rollback next rfl settles

theorem settles_refused (storage : StorageError → ε) (refusal : ε) :
    Settles env (do ask storage .rollback; refuse refusal : UseCase ε α).run ⟨book, written⟩
      (.error refusal) book :=
  settles_rollback storage _ ⟨rfl, rfl⟩

theorem settles_answered (storage : StorageError → ε) (answer : α) :
    Settles env (do ask storage .commit; return answer : UseCase ε α).run ⟨book, written⟩
      (.ok answer) (book.apply written) :=
  settles_ask storage .commit _ rfl ⟨rfl, rfl⟩

end Steps

section Posting

variable {sha256 : List UInt8 → List UInt8} (env : Env) (book : Book)

/-- What a held key answers a single post. -/
def replayed (command : PostTransaction) (hash : List UInt8) : Except WriteError Posted :=
  match storedResult book command.tenantId command.idempotencyKey hash with
  | some (eventId, transactionId) => .ok ⟨eventId, transactionId, true⟩
  | none => .error .keyReused

/-- Why a plain append is not committed, if it is not. -/
def incomplete (appended : Appended) (deltas : OrdMap AccountKey Delta) : Option WriteError :=
  if appended.balanceUpserts.length ≠ deltas.entries.length then
    some (.internal ("the single call answered " ++
      toString appended.balanceUpserts.length ++ " balance upserts for " ++
      toString deltas.entries.length ++ " deltas"))
  else
    (appended.balanceUpserts.find? fun upsert => upsert.lastSeq.isNone).map fun missing =>
      .accountUnknown missing.accountId missing.currency

/-- One planned post alone. -/
def postAlone (planned : Planned) : Alone WriteError Posted :=
  match claimAndAppend env book book planned.command planned.hash planned.payload
      planned.append with
  | (.error failure, _) => (.error (.storage failure), .none)
  | (.ok none, _) => (replayed book planned.command planned.hash, .none)
  | (.ok (some (.supersessionRefused refusal)), _) =>
      (.error (supersedeRefusalNamed planned.command refusal), .none)
  | (.ok (some (.appended appended)), writes) =>
      match if planned.command.reversesId.isSome then none
          else incomplete appended planned.append.deltas with
      | some refusal => (.error refusal, .none)
      | none => (.ok ⟨appended.eventId, some appended.transactionId, false⟩, writes)

/-- A held key answers what is stored, and rolls back. -/
theorem settles_replayOrRefuse (command : PostTransaction) (hash : List UInt8) :
    Settles env (replayOrRefuse command hash).run ⟨book, .none⟩ (replayed book command hash)
      book := by
  unfold replayOrRefuse replayed
  refine settles_first _ _ rfl rfl ?_
  refine settles_rollback _ _ ?_
  cases storedResult book command.tenantId command.idempotencyKey hash <;> exact ⟨rfl, rfl⟩

theorem settles_commitOrRefuse (appended : Appended) (deltas : OrdMap AccountKey Delta)
    (written : Writes) :
    Settles env (commitOrRefuseUnknownAccount appended deltas).run ⟨book, written⟩
      (match incomplete appended deltas with
        | some refusal => .error refusal
        | none => .ok ⟨appended.eventId, some appended.transactionId, false⟩)
      (match incomplete appended deltas with
        | some _ => book
        | none => book.apply written) := by
  unfold commitOrRefuseUnknownAccount incomplete
  split
  · exact settles_refused _ _
  · cases appended.balanceUpserts.find? fun upsert => upsert.lastSeq.isNone with
    | some missing =>
        exact settles_refused _ _
    | none =>
        exact settles_answered _ _

theorem claimAndAppend_none {env : Env} {snapshot current : Book} {command : PostTransaction}
    {hash : List UInt8} {payload : Json} {append : Append} {writes : Writes}
    (answered : claimAndAppend env snapshot current command hash payload append =
      (.ok none, writes)) : writes = .none := by
  cases held : current.holderOf command.tenantId command.idempotencyKey with
  | some event =>
      rw [claimAndAppend_held _ _ _ _ _ _ _ (by rw [held]; rfl)] at answered
      exact (Prod.mk.inj answered).2.symm
  | none =>
      rw [claimAndAppend_free _ _ _ _ _ _ _ held] at answered
      split at answered
      · cases answered
      · split at answered
        · cases answered
        · cases answered
      · obtain ⟨isNone, _⟩ := Prod.mk.inj answered
        split at isNone
        · cases isNone
        · cases diagnosed : diagnoseSupersedeRefusal command (targetRow env snapshot command) with
          | error failure =>
              rw [diagnosed] at isNone
              cases isNone
          | ok refusal =>
              rw [diagnosed] at isNone
              cases isNone

/-- One post alone: what it answers, and what it commits. -/
theorem runOn_post {command : PostTransaction} {planned : Planned}
    (isPlanned : planFor sha256 command = .ok planned) :
    runOn env (post sha256 command).run book =
      ((postAlone env book planned).1, book.apply (postAlone env book planned).2) := by
  obtain ⟨rfl, _⟩ := planFor_ok isPlanned
  apply runOn_of_settles
  unfold post
  rw [isPlanned]
  refine settles_begin _ _ ?_
  unfold postAlone
  cases ran : claimAndAppend env book book planned.command planned.hash planned.payload
      planned.append with
  | mk answer writes =>
      have answered : statement env book book
          (.claimAndAppend planned.command planned.hash planned.payload planned.append) =
            (answer, writes) := ran
      cases answer with
      | error failure =>
          rw [Book.apply_none]
          refine settles_failed _ _ rfl ?_
          rw [Book.apply_none]
          exact congrArg Prod.fst answered
      | ok claimed =>
          refine settles_first _ _ rfl answered ?_
          rcases claimed with - | (appended | refusal)
          · obtain rfl := claimAndAppend_none ran
            rw [Book.apply_none]
            exact settles_replayOrRefuse env book planned.command planned.hash
          · dsimp only
            split
            · exact settles_answered _ _
            · have settles := settles_commitOrRefuse env book appended planned.append.deltas writes
              cases isIncomplete : incomplete appended planned.append.deltas with
              | some refusal =>
                  rw [isIncomplete] at settles
                  rw [Book.apply_none]
                  exact settles
              | none =>
                  rw [isIncomplete] at settles
                  exact settles
          · rw [Book.apply_none]
            exact settles_refused _ _

/-- A post that is freshly accepted had its key free, its gate open, its accounts
known and no constraint against it, and commits its append. -/
theorem postAlone_fresh {planned : Planned} {answer : Posted} (kept : Kept book)
    (isAppend : planAppend planned.command.postings planned.command.status =
      .ok planned.append)
    (accepted : (postAlone env book planned).1 = .ok answer) (fresh : answer.replayed = false) :
    answer = ⟨env.eventId 0, some (env.transactionId 0), false⟩ ∧
      gateAdmits planned.command (supersedeTarget book planned.command) = true ∧
      (∀ d ∈ delta book planned.command planned.append,
        (book.account? d.tenantId d.accountId d.currency).isSome) ∧
      (postAlone env book planned).2 =
        appendWrites env book book planned.command planned.hash planned.payload planned.append ∧
      Lands book
        (appendWrites env book book planned.command planned.hash planned.payload
          planned.append) := by
  unfold postAlone at accepted ⊢
  split at accepted
  · cases accepted
  · unfold replayed at accepted
    split at accepted
    · cases accepted
      cases fresh
    · cases accepted
  · cases accepted
  · rename_i appended writes ran
    obtain ⟨free, admitted, allowed, isAnswer, isWrites⟩ :=
      claimAndAppend_appended _ _ _ _ _ _ _ ran
    split at accepted
    · cases accepted
    · rename_i complete
      cases accepted
      have isComplete : Complete planned.command appended.balanceUpserts := by
        split at complete
        · rename_i reversal
          exact Or.inl reversal
        · unfold incomplete at complete
          split at complete
          · cases complete
          · exact Or.inr (Option.map_eq_none_iff.mp complete)
      rw [isAnswer] at isComplete
      have known := known_of_complete kept isAppend isComplete
      have lands := appendWrites_lands kept (Book.Precedes.refl book) isAppend free admitted
        known allowed
      exact ⟨by rw [isAnswer]; rfl, admitted, known, isWrites, lands⟩

/-- What a checked map answers, element by element. -/
theorem forall₂_of_mapM_ok {ε α β : Type} {f : α → Except ε β} {rows : List α}
    {answers : List β} (mapped : rows.mapM f = .ok answers) :
    List.Forall₂ (fun row answer => f row = .ok answer) rows answers := by
  induction rows generalizing answers with
  | nil =>
      cases mapped
      exact .nil
  | cons row rest inductionHypothesis =>
      rw [List.mapM_cons] at mapped
      cases first : f row with
      | error refusal =>
          rw [first] at mapped
          cases mapped
      | ok answer =>
          rw [first] at mapped
          cases others : rest.mapM f with
          | error refusal =>
              rw [others] at mapped
              cases mapped
          | ok answers =>
              rw [others] at mapped
              cases mapped
              exact .cons first (inductionHypothesis others)

/-- One outcome a member. -/
theorem length_of_claimAndAppendBatch {members : List BatchMember}
    {outcomes : List MemberOutcome} {writes : Writes}
    (answered : claimAndAppendBatch env book book members = (.ok outcomes, writes)) :
    outcomes.length = members.length := by
  obtain ⟨_, _, isOutcomes, _⟩ := claimAndAppendBatch_answered answered
  have rows : (batchRows env book book members).length = members.length := by
    simp [batchRows, member, Numbering.withOrdinality]
  rw [← (forall₂_of_mapM_ok isOutcomes).length_eq, rows]

/-- Two members or more alone. -/
def batchAlone (members : List BatchMember) :
    Alone WriteError (List (Except WriteError Posted)) :=
  match claimAndAppendBatch env book book members with
  | (.error failure, _) => (.error (.storage failure), .none)
  | (.ok outcomes, writes) =>
      (.ok (answersForMembers outcomes
        (storedResultBatch (book.apply writes) (membersReplayingAnEarlierWrite members outcomes))),
        writes)

/-- A batch alone: what it answers, and what it commits. -/
theorem runOn_appendTheBatch (members : List BatchMember) :
    runOn env (appendTheBatch members).run book =
      ((batchAlone env book members).1, book.apply (batchAlone env book members).2) := by
  apply runOn_of_settles
  unfold appendTheBatch
  refine settles_begin _ _ ?_
  unfold batchAlone
  cases ran : claimAndAppendBatch env book book members with
  | mk answer writes =>
      have answered : statement env book book (.claimAndAppendBatch members) =
          (answer, writes) := ran
      cases answer with
      | error failure =>
          rw [Book.apply_none]
          refine settles_failed _ _ rfl ?_
          rw [Book.apply_none]
          exact congrArg Prod.fst answered
      | ok outcomes =>
          refine settles_first _ _ rfl answered ?_
          have agreed : disagreementOver outcomes.length members.length "batched claim" =
              none := if_pos (length_of_claimAndAppendBatch env book ran)
          dsimp only
          rw [agreed]
          cases noneReplay : (membersReplayingAnEarlierWrite members outcomes).isEmpty with
          | true =>
              rw [List.isEmpty_iff.mp noneReplay]
              exact settles_answered _ _
          | false =>
              rw [replayedResultsFor_of_not_isEmpty noneReplay]
              refine settles_statement _ _ rfl rfl ?_
              have counted : disagreementOver
                  (storedResultBatch (book.apply writes)
                    (membersReplayingAnEarlierWrite members outcomes)).length
                  (membersReplayingAnEarlierWrite members outcomes).length
                  "batched replay lookup" = none := if_pos (List.length_map ..)
              rw [counted, Writes.append_none]
              exact settles_answered _ _

end Posting

section Registers

variable (sha256 : List UInt8 → List UInt8) (env : Env) (book : Book)

/-- What a held key answers an opening. -/
def replayedAccount (command : OpenAccount) (hash : List UInt8) :
    Except OpenAccountError AccountOpened :=
  match storedAccount book command hash with
  | some (eventId, some account) => .ok ⟨eventId, account, true⟩
  | some (eventId, none) =>
      .error (.internal ("event " ++ eventId.hyphenated ++
        " claimed this key with this body and no account carries its natural key"))
  | none => .error .keyReused

/-- One opening alone. -/
def openAlone (command : OpenAccount) : Alone OpenAccountError AccountOpened :=
  match chartTripleForPurpose book command.purpose with
  | none => (.error (.accountTypeUnknown command.purpose), .none)
  | some triple =>
      match theOwnerTheTypeAndTheSchemaDisagreeAbout command triple with
      | some refusal => (.error refusal, .none)
      | none =>
          match claimAndOpenAccount env book command (command.idempotencyHash sha256)
              command.payload triple with
          | (.error failure, _) => (.error (.storage failure), .none)
          | (.ok none, _) =>
              (replayedAccount book command (command.idempotencyHash sha256), .none)
          | (.ok (some .alreadyExists), _) =>
              (.error (.accountExists command.purpose command.currency), .none)
          | (.ok (some (.opened eventId account)), writes) =>
              (.ok ⟨eventId, account, false⟩, writes)

theorem claimAndOpenAccount_none {env : Env} {current : Book} {command : OpenAccount}
    {hash : List UInt8} {payload : Json} {triple : ChartTriple} {writes : Writes}
    (answered : claimAndOpenAccount env current command hash payload triple =
      (.ok none, writes)) : writes = .none := by
  unfold claimAndOpenAccount at answered
  split at answered
  · exact (Prod.mk.inj answered).2.symm
  · dsimp only at answered
    split at answered
    · split at answered
      · cases answered
      · cases answered
    · cases answered

/-- An opening alone: what it answers, and what it commits. -/
theorem runOn_openAccount (command : OpenAccount) :
    runOn env (openAccount sha256 command).run book =
      ((openAlone sha256 env book command).1,
        book.apply (openAlone sha256 env book command).2) := by
  apply runOn_of_settles
  unfold openAccount
  refine settles_begin _ _ ?_
  refine settles_first _ _ rfl rfl ?_
  unfold openAlone
  cases chartTripleForPurpose book command.purpose with
  | none =>
      rw [Book.apply_none]
      exact settles_refused _ _
  | some triple =>
      dsimp only
      cases theOwnerTheTypeAndTheSchemaDisagreeAbout command triple with
      | some refusal =>
          rw [Book.apply_none]
          exact settles_refused _ _
      | none =>
          cases ran : claimAndOpenAccount env book command (command.idempotencyHash sha256)
              command.payload triple with
          | mk answer writes =>
              have answered : statement env book book (.claimAndOpenAccount command
                  (command.idempotencyHash sha256) command.payload triple) =
                    (answer, writes) := ran
              cases answer with
              | error failure =>
                  rw [Book.apply_none]
                  refine settles_failed _ _ rfl ?_
                  rw [Book.apply_none]
                  exact congrArg Prod.fst answered
              | ok claimed =>
                  refine settles_first _ _ rfl answered ?_
                  rcases claimed with - | (⟨eventId, account⟩ | -)
                  · obtain rfl := claimAndOpenAccount_none ran
                    rw [Book.apply_none]
                    refine settles_first _ _ rfl rfl (settles_rollback _ _ ?_)
                    unfold replayedAccount
                    rcases storedAccount book command (command.idempotencyHash sha256) with
                      - | ⟨eventId, - | account⟩ <;> exact ⟨rfl, rfl⟩
                  · exact settles_answered _ _
                  · rw [Book.apply_none]
                    exact settles_refused _ _

/-- What a held key answers a definition. -/
def replayedPeriod (command : DefinePeriod) (hash : List UInt8) :
    Except DefinePeriodError PeriodDefined :=
  match storedPeriod book command hash with
  | some (eventId, some period) => .ok ⟨eventId, period, true⟩
  | some (eventId, none) =>
      .error (.internal ("event " ++ eventId.hyphenated ++
        " claimed this key with this body and no period carries its code"))
  | none => .error .keyReused

/-- One definition alone, its hash and payload rendered. -/
def defineAlone (command : DefinePeriod) (hash : List UInt8) (payload : Json) :
    Alone DefinePeriodError PeriodDefined :=
  match claimAndDefinePeriod env book command hash payload with
  | (.error failure, _) => (.error (.storage failure), .none)
  | (.ok none, _) => (replayedPeriod book command hash, .none)
  | (.ok (some .exists), _) => (.error (.periodExists command.code), .none)
  | (.ok (some .overlaps), _) => (.error (.periodOverlaps command.code), .none)
  | (.ok (some .zoneUnknown), _) => (.error (.periodZoneUnknown command.tz), .none)
  | (.ok (some (.defined eventId period)), writes) => (.ok ⟨eventId, period, false⟩, writes)

theorem claimAndDefinePeriod_none {env : Env} {current : Book} {command : DefinePeriod}
    {hash : List UInt8} {payload : Json} {writes : Writes}
    (answered : claimAndDefinePeriod env current command hash payload = (.ok none, writes)) :
    writes = .none := by
  unfold claimAndDefinePeriod at answered
  split at answered
  · exact (Prod.mk.inj answered).2.symm
  · dsimp only at answered
    split at answered
    · split at answered
      · rename_i refused race
        unfold refusalFromThePeriodConstraints at race
        split at race <;> cases race <;> cases answered
      · cases answered
    · cases answered

/-- A definition alone: what it answers, and what it commits. -/
theorem runOn_definePeriod {command : DefinePeriod} {hash : List UInt8} {payload : Json}
    (hashed : command.idempotencyHash sha256 = .ok hash)
    (rendered : command.payload = .ok payload) :
    runOn env (definePeriod sha256 command).run book =
      ((defineAlone env book command hash payload).1,
        book.apply (defineAlone env book command hash payload).2) := by
  apply runOn_of_settles
  unfold definePeriod
  rw [hashed, rendered]
  refine settles_begin _ _ ?_
  unfold defineAlone
  cases ran : claimAndDefinePeriod env book command hash payload with
  | mk answer writes =>
      have answered : statement env book book (.claimAndDefinePeriod command hash payload) =
          (answer, writes) := ran
      cases answer with
      | error failure =>
          rw [Book.apply_none]
          refine settles_failed _ _ rfl ?_
          rw [Book.apply_none]
          exact congrArg Prod.fst answered
      | ok claimed =>
          refine settles_first _ _ rfl answered ?_
          rcases claimed with - | (⟨eventId, period⟩ | - | - | -)
          · obtain rfl := claimAndDefinePeriod_none ran
            rw [Book.apply_none]
            refine settles_first _ _ rfl rfl (settles_rollback _ _ ?_)
            unfold replayedPeriod
            rcases storedPeriod book command hash with - | ⟨eventId, - | period⟩ <;>
              exact ⟨rfl, rfl⟩
          · exact settles_answered _ _
          all_goals
            rw [Book.apply_none]
            exact settles_refused _ _

/-- What a held key answers a close. -/
def repeatedClose (command : ClosePeriod) : ClosePeriodError :=
  if (storedClose book command (command.idempotencyHash sha256)).isSome then
    .periodAlreadyClosed command.periodCode command.currency
  else .keyReused

/-- The plan of a close, or why there is none. -/
def closePlan (command : ClosePeriod) : Except ClosePeriodError ClosePlan :=
  match periodCloseContext book command with
  | none => .error (.periodUnknown command.periodCode)
  | some context =>
      match context.retainedEarnings with
      | none => .error (.retainedEarningsUnknown command.currency)
      | some retainedEarnings =>
          match theLastInstantInside context.endsAt with
          | none => .error (.internal
              "the period ends at the first representable instant, so it has no closing instant one microsecond inside it")
          | some closesAt =>
              .ok ⟨context.startsAt, context.endsAt, retainedEarnings, closesAt⟩

/-- One planned close alone: the sweep, then the checkpoint over it. -/
def closeAlone (command : ClosePeriod) (plan : ClosePlan) : Alone ClosePeriodError PeriodClosed :=
  match claimAndClosePeriod env book book command (command.idempotencyHash sha256)
      command.payload plan with
  | (.error failure, _) => (.error (.storage failure), .none)
  | (.ok none, _) => (.error (repeatedClose sha256 book command), .none)
  | (.ok (some .alreadyClosed), _) =>
      (.error (.periodAlreadyClosed command.periodCode command.currency), .none)
  | (.ok (some (.closed eventId transactionId computedAtXid swept)), writes) =>
      match checkpointTheClose env (book.apply writes) (book.apply writes) command plan
          transactionId computedAtXid with
      | (.error failure, _) => (.error (.storage failure), .none)
      | (.ok rows, checkpoint) =>
          (.ok {
            eventId, transactionId, computedAtXid, swept
            checkpointRows := rows
            periodCode := command.periodCode
            currency := command.currency
            effectiveAt := plan.closesAt }, writes.append checkpoint)

theorem claimAndClosePeriod_none {env : Env} {snapshot current : Book} {command : ClosePeriod}
    {hash : List UInt8} {payload : Json} {plan : ClosePlan} {writes : Writes}
    (answered : claimAndClosePeriod env snapshot current command hash payload plan =
      (.ok none, writes)) : writes = .none := by
  unfold claimAndClosePeriod at answered
  split at answered
  · exact (Prod.mk.inj answered).2.symm
  · dsimp only at answered
    split at answered
    · cases answered
    · split at answered
      · cases answered
      · cases answered
    · obtain ⟨isNone, _⟩ := Prod.mk.inj answered
      cases swept : sweptBy env snapshot command plan with
      | nil =>
          rw [swept] at isNone
          cases isNone
      | cons first rest =>
          rw [swept] at isNone
          cases isNone

theorem runOn_closePeriod_unplanned {command : ClosePeriod} {refusal : ClosePeriodError}
    (unplanned : closePlan book command = .error refusal) :
    runOn env (closePeriod sha256 command).run book = (.error refusal, book) := by
  apply runOn_of_settles
  unfold closePeriod
  refine settles_begin _ _ ?_
  refine settles_first _ _ rfl rfl ?_
  unfold closePlan at unplanned
  cases isContext : periodCloseContext book command with
  | none =>
      rw [isContext] at unplanned
      cases unplanned
      exact settles_refused _ _
  | some context =>
      rw [isContext] at unplanned
      dsimp only at unplanned ⊢
      cases destination : context.retainedEarnings with
      | none =>
          rw [destination] at unplanned
          cases unplanned
          exact settles_refused _ _
      | some retainedEarnings =>
          rw [destination] at unplanned
          dsimp only at unplanned ⊢
          cases instant : theLastInstantInside context.endsAt with
          | none =>
              rw [instant] at unplanned
              cases unplanned
              exact settles_refused _ _
          | some closesAt =>
              rw [instant] at unplanned
              cases unplanned

/-- A close alone: what it answers, and what it commits. -/
theorem runOn_closePeriod {command : ClosePeriod} {plan : ClosePlan}
    (planned : closePlan book command = .ok plan) :
    runOn env (closePeriod sha256 command).run book =
      ((closeAlone sha256 env book command plan).1,
        book.apply (closeAlone sha256 env book command plan).2) := by
  apply runOn_of_settles
  unfold closePeriod
  refine settles_begin _ _ ?_
  refine settles_first _ _ rfl rfl ?_
  unfold closePlan at planned
  split at planned
  · cases planned
  · rename_i context isContext
    split at planned
    · cases planned
    · rename_i retainedEarnings destination
      split at planned
      · cases planned
      · rename_i closesAt instant
        cases planned
        rw [isContext]
        dsimp only
        rw [destination]
        dsimp only
        rw [instant]
        unfold closeAlone
        cases ran : claimAndClosePeriod env book book command
            (command.idempotencyHash sha256) command.payload
            ⟨context.startsAt, context.endsAt, retainedEarnings, closesAt⟩ with
        | mk answer writes =>
            have answered : statement env book book (.claimAndClosePeriod command
                (command.idempotencyHash sha256) command.payload
                ⟨context.startsAt, context.endsAt, retainedEarnings, closesAt⟩) =
                  (answer, writes) := ran
            cases answer with
            | error failure =>
                rw [Book.apply_none]
                refine settles_failed _ _ rfl ?_
                rw [Book.apply_none]
                exact congrArg Prod.fst answered
            | ok claimed =>
                refine settles_first _ _ rfl answered ?_
                rcases claimed with - | (⟨eventId, transactionId, cursor, swept⟩ | -)
                · obtain rfl := claimAndClosePeriod_none ran
                  rw [Book.apply_none]
                  refine settles_first _ _ rfl rfl (settles_rollback _ _ ?_)
                  unfold repeatedClose
                  dsimp only
                  split <;> exact ⟨rfl, rfl⟩
                · dsimp only
                  cases checked : checkpointTheClose env (book.apply writes)
                      (book.apply writes) command
                      ⟨context.startsAt, context.endsAt, retainedEarnings, closesAt⟩
                      transactionId cursor with
                  | mk reply checkpoint =>
                      have answeredToo : statement env (book.apply writes)
                          (book.apply writes) (.checkpointTheClose command
                            ⟨context.startsAt, context.endsAt, retainedEarnings, closesAt⟩
                            transactionId cursor) = (reply, checkpoint) := checked
                      cases reply with
                      | error failure =>
                          rw [Book.apply_none]
                          exact settles_failed _ _ rfl (congrArg Prod.fst answeredToo)
                      | ok rows =>
                          refine settles_statement _ _ rfl answeredToo ?_
                          exact settles_answered _ _
                · rw [Book.apply_none]
                  exact settles_refused _ _

end Registers

section Operations

variable {sha256 : List UInt8 → List UInt8} (env : Env) (book : Book)

theorem perform_post {command : PostTransaction} {planned : Planned}
    (isPlanned : planFor sha256 command = .ok planned) :
    (Operation.post command).perform sha256 env book =
      (.posted (postAlone env book planned).1, book.apply (postAlone env book planned).2) := by
  have ran := runOn_bind env (post sha256 command).run (fun answer => .done (Outcome.posted answer))
    (fun answer => ⟨_, rfl⟩) book
  rw [runOn_post env book isPlanned] at ran
  exact ran

theorem perform_post_unplanned {command : PostTransaction} {refusal : WriteError}
    (unplanned : planFor sha256 command = .error refusal) :
    (Operation.post command).perform sha256 env book = (.posted (.error refusal), book) := by
  have isProgram : (Operation.post command).program sha256 =
      .done (.posted (.error refusal)) := by
    unfold Operation.program post
    dsimp only
    rw [unplanned]
    rfl
  rw [Operation.perform, isProgram]
  rfl

theorem perform_openAccount (command : OpenAccount) :
    (Operation.openAccount command).perform sha256 env book =
      (.opened (openAlone sha256 env book command).1,
        book.apply (openAlone sha256 env book command).2) := by
  have ran := runOn_bind env (openAccount sha256 command).run
    (fun answer => .done (Outcome.opened answer)) (fun answer => ⟨_, rfl⟩) book
  rw [runOn_openAccount sha256 env book command] at ran
  exact ran

theorem perform_definePeriod {command : DefinePeriod} {hash : List UInt8} {payload : Json}
    (hashed : command.idempotencyHash sha256 = .ok hash)
    (rendered : command.payload = .ok payload) :
    (Operation.definePeriod command).perform sha256 env book =
      (.defined (defineAlone env book command hash payload).1,
        book.apply (defineAlone env book command hash payload).2) := by
  have ran := runOn_bind env (definePeriod sha256 command).run
    (fun answer => .done (Outcome.defined answer)) (fun answer => ⟨_, rfl⟩) book
  rw [runOn_definePeriod sha256 env book hashed rendered] at ran
  exact ran

theorem perform_closePeriod {command : ClosePeriod} {plan : ClosePlan}
    (planned : closePlan book command = .ok plan) :
    (Operation.closePeriod command).perform sha256 env book =
      (.closed (closeAlone sha256 env book command plan).1,
        book.apply (closeAlone sha256 env book command plan).2) := by
  have ran := runOn_bind env (closePeriod sha256 command).run
    (fun answer => .done (Outcome.closed answer)) (fun answer => ⟨_, rfl⟩) book
  rw [runOn_closePeriod sha256 env book planned] at ran
  exact ran

theorem perform_closePeriod_unplanned {command : ClosePeriod} {refusal : ClosePeriodError}
    (unplanned : closePlan book command = .error refusal) :
    (Operation.closePeriod command).perform sha256 env book =
      (.closed (.error refusal), book) := by
  have ran := runOn_bind env (closePeriod sha256 command).run
    (fun answer => .done (Outcome.closed answer)) (fun answer => ⟨_, rfl⟩) book
  rw [runOn_closePeriod_unplanned sha256 env book unplanned] at ran
  exact ran

end Operations

end OpenLedger
