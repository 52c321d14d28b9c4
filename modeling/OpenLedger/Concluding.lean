import OpenLedger.Beside
import OpenLedger.ExactlyOnce
import OpenLedger.Postgres.Later

/-!
# What a commit comes to

A use-case answers last what its commit made true.  A relation between that answer,
what the bracket wrote and the book it lands on is proved along the use-case alone,
against whatever else commits.
-/

namespace OpenLedger

open Postgres

/-! ## The last reply of a use-case -/

/-- A failure, and what a commit answers, is the last a use-case hears. -/
def Request.isLast (request : Request) (reply : request.Reply) : Prop :=
  request = .commit ∨ ∃ failure, reply = .error failure

/-- A commit that was answered. -/
def Request.commits (request : Request) (reply : request.Reply) : Prop :=
  request = .commit ∧ ∃ answer, reply = .ok answer

/-- An answer that accepts nothing for the first time. -/
def Unacknowledged {ε α : Type} (isFresh : α → Bool) (answer : Except ε α) : Prop :=
  ∀ value, answer = .ok value → isFresh value = false

section Stopping

variable {ε α : Type} {isFresh : α → Bool}

/-- A use-case that ends with its commit, and accepts nothing for the first time without
one. -/
def UseCase.Stops (isFresh : α → Bool) (useCase : UseCase ε α) : Prop :=
  useCase.run.Stops Request.isLast Request.commits (Unacknowledged isFresh)

theorem unacknowledged_error (refusal : ε) :
    Unacknowledged isFresh (.error refusal : Except ε α) := fun _ isOk => by cases isOk

theorem unacknowledged_ok {value : α} (notFresh : isFresh value = false) :
    Unacknowledged isFresh (.ok value : Except ε α) := by
  intro other isOk
  obtain rfl := Except.ok.inj isOk
  exact notFresh

theorem stops_ask (storage : StorageError → ε) (request : Request)
    (next : request.Answer → UseCase ε α)
    (continues : request ≠ .commit → ∀ answer, (next answer).Stops isFresh)
    (ends : request = .commit → ∀ answer, ∃ ended, (next answer).run = .done ended) :
    (ask storage request >>= next).Stops isFresh := by
  unfold UseCase.Stops
  rw [run_ask_bind]
  intro reply
  cases reply with
  | error failure =>
      exact ⟨fun _ => ⟨_, rfl⟩, fun _ => unacknowledged_error _⟩
  | ok answer =>
      refine ⟨fun isLast => ?_, fun goesOn => ?_⟩
      · rcases isLast with isCommit | ⟨failure, isError⟩
        · exact ends isCommit answer
        · cases isError
      · by_cases isCommit : request = .commit
        · exact absurd ⟨isCommit, answer, rfl⟩ goesOn
        · exact continues isCommit answer

/-- A statement that is no commit. -/
theorem stops_statement (storage : StorageError → ε) (request : Request)
    (next : request.Answer → UseCase ε α) (notCommit : request ≠ .commit)
    (continues : ∀ answer, (next answer).Stops isFresh) :
    (ask storage request >>= next).Stops isFresh :=
  stops_ask storage request next (fun _ => continues) fun isCommit => absurd isCommit notCommit

theorem stops_refuse (refusal : ε) : (refuse refusal : UseCase ε α).Stops isFresh :=
  unacknowledged_error refusal

theorem stops_replayed {value : α} (notFresh : isFresh value = false) :
    (pure value : UseCase ε α).Stops isFresh :=
  unacknowledged_ok notFresh

theorem stops_refused (storage : StorageError → ε) (refusal : ε) :
    (do ask storage .rollback; refuse refusal : UseCase ε α).Stops isFresh :=
  stops_statement _ _ _ (by simp) fun _ => stops_refuse refusal

theorem stops_answered (storage : StorageError → ε) (answer : α) :
    (do ask storage .commit; return answer : UseCase ε α).Stops isFresh :=
  stops_ask _ _ _ (fun notCommit => absurd rfl notCommit) fun _ _ => ⟨_, rfl⟩

end Stopping

section Stops

variable (sha256 : List UInt8 → List UInt8)

/-- Answers of which none accepts a command for the first time. -/
def NoneFresh (answers : List (Except WriteError Posted)) : Prop :=
  ∀ answer ∈ answers, Unacknowledged (fun posted : Posted => !posted.replayed) answer

theorem stops_post (command : PostTransaction) :
    (post sha256 command).Stops fun posted => !posted.replayed := by
  unfold post
  cases planFor sha256 command with
  | error refusal =>
      exact stops_refuse _
  | ok planned =>
      refine stops_statement _ _ _ (by simp) fun _ => ?_
      refine stops_statement _ _ _ (by simp) fun claimed => ?_
      rcases claimed with - | (appended | refusal)
      · refine stops_statement _ _ _ (by simp) fun stored => ?_
        refine stops_statement _ _ _ (by simp) fun _ => ?_
        rcases stored with - | ⟨eventId, transactionId⟩
        · exact stops_refuse _
        · exact stops_replayed rfl
      · dsimp only
        split
        · exact stops_answered _ _
        · unfold commitOrRefuseUnknownAccount
          split
          · exact stops_refused _ _
          · split
            · exact stops_refused _ _
            · exact stops_answered _ _
      · exact stops_refused _ _

theorem stops_appendTheBatch (members : List BatchMember) :
    (appendTheBatch members).Stops fun _ => true := by
  unfold appendTheBatch
  refine stops_statement _ _ _ (by simp) fun _ => ?_
  refine stops_statement _ _ _ (by simp) fun outcomes => ?_
  dsimp only
  split
  · exact stops_refused _ _
  · cases noneReplay : (membersReplayingAnEarlierWrite members outcomes).isEmpty with
    | true =>
        rw [replayedResultsFor_of_isEmpty noneReplay, pure_bind]
        split
        · exact stops_refused _ _
        · exact stops_answered _ _
    | false =>
        rw [replayedResultsFor_of_not_isEmpty noneReplay]
        refine stops_statement _ _ _ (by simp) fun _ => ?_
        split
        · exact stops_refused _ _
        · exact stops_answered _ _

/-- Two members or more share one statement, and what it answers is handed out. -/
theorem postTogether_of_many {commands : List PostTransaction}
    (many : 2 ≤ (membersOf sha256 commands).length) :
    postTogether sha256 commands =
      (appendTheBatch (membersOf sha256 commands)).run >>= fun answer => .done
        (answersInArrivalOrder (commands.map (planFor sha256))
          (answeredTogether (membersOf sha256 commands) answer)) := by
  unfold postTogether
  dsimp only
  unfold membersOf at many ⊢
  match plannedMembers (commands.map (planFor sha256)), many with
  | first :: second :: rest, _ =>
      refine bind_congr fun answer => ?_
      cases answer <;> rfl

/-- No member at all, and nothing is asked. -/
theorem postTogether_none {commands : List PostTransaction}
    (none : membersOf sha256 commands = []) :
    postTogether sha256 commands =
      .done (answersInArrivalOrder (commands.map (planFor sha256)) []) := by
  unfold membersOf at none
  unfold postTogether
  dsimp only
  rw [none]

/-- One member is posted by itself. -/
theorem postTogether_one {commands : List PostTransaction} {member : BatchMember}
    (one : membersOf sha256 commands = [member]) :
    postTogether sha256 commands = (post sha256 member.command).run >>= fun answer => .done
      (answersInArrivalOrder (commands.map (planFor sha256)) [answer]) := by
  unfold membersOf at one
  unfold postTogether
  dsimp only
  rw [one]
  rfl

theorem noneFresh_arrival {planned : List (Except WriteError Planned)}
    {answered : List (Except WriteError Posted)} (none : NoneFresh answered) :
    NoneFresh (answersInArrivalOrder planned answered) := by
  intro answer member
  rcases mem_answersInArrivalOrder member with ⟨refusal, rfl⟩ | isAnswered
  · exact unacknowledged_error refusal
  · exact none answer isAnswered

theorem stops_postTogether (commands : List PostTransaction) :
    (postTogether sha256 commands).Stops Request.isLast Request.commits NoneFresh := by
  by_cases many : 2 ≤ (membersOf sha256 commands).length
  · rw [postTogether_of_many sha256 many]
    refine Program.stops_map _ (fun answer early => noneFresh_arrival ?_)
      (stops_appendTheBatch _)
    cases answer with
    | ok answers =>
        cases early answers rfl
    | error refused =>
        intro answer member
        obtain ⟨_, _, rfl⟩ := List.mem_map.mp member
        exact unacknowledged_error (refusalForOneMember refused)
  · rcases members : membersOf sha256 commands with - | ⟨only, - | ⟨_, _⟩⟩
    · rw [postTogether_none sha256 members]
      exact noneFresh_arrival fun _ member => absurd member List.not_mem_nil
    · rw [postTogether_one sha256 members]
      refine Program.stops_map _ (fun answer early => noneFresh_arrival fun other member => ?_)
        (stops_post sha256 _)
      rw [List.mem_singleton.mp member]
      exact early
    · rw [members] at many
      exact absurd (by simp) many

theorem stops_postBatch (commands : List PostTransaction) :
    (postBatch sha256 commands).Stops Request.isLast Request.commits NoneFresh := by
  unfold postBatch
  split
  · exact fun _ member => absurd member List.not_mem_nil
  · refine Program.stops_map _ (fun answer early other member => ?_) (stops_post sha256 _)
    rw [List.mem_singleton.mp member]
    exact early
  · exact stops_postTogether sha256 _

theorem stops_openAccount (command : OpenAccount) :
    (openAccount sha256 command).Stops fun opened => !opened.replayed := by
  unfold openAccount
  refine stops_statement _ _ _ (by simp) fun _ => ?_
  refine stops_statement _ _ _ (by simp) fun triple? => ?_
  cases triple? with
  | none =>
      exact stops_refused _ _
  | some triple =>
      dsimp only
      split
      · exact stops_refused _ _
      · refine stops_statement _ _ _ (by simp) fun claimed => ?_
        rcases claimed with - | (⟨eventId, account⟩ | -)
        · refine stops_statement _ _ _ (by simp) fun stored => ?_
          refine stops_statement _ _ _ (by simp) fun _ => ?_
          rcases stored with - | ⟨eventId, - | account⟩
          · exact stops_refuse _
          · exact stops_refuse _
          · exact stops_replayed rfl
        · exact stops_answered _ _
        · exact stops_refused _ _

theorem stops_definePeriod (command : DefinePeriod) :
    (definePeriod sha256 command).Stops fun defined => !defined.replayed := by
  unfold definePeriod
  split
  · exact stops_refuse _
  · exact stops_refuse _
  · refine stops_statement _ _ _ (by simp) fun _ => ?_
    refine stops_statement _ _ _ (by simp) fun claimed => ?_
    rcases claimed with - | (⟨eventId, period⟩ | - | - | -)
    · refine stops_statement _ _ _ (by simp) fun stored => ?_
      refine stops_statement _ _ _ (by simp) fun _ => ?_
      rcases stored with - | ⟨eventId, - | period⟩
      · exact stops_refuse _
      · exact stops_refuse _
      · exact stops_replayed rfl
    · exact stops_answered _ _
    all_goals exact stops_refused _ _

theorem stops_closePeriod (command : ClosePeriod) :
    (closePeriod sha256 command).Stops fun _ => true := by
  unfold closePeriod
  refine stops_statement _ _ _ (by simp) fun _ => ?_
  refine stops_statement _ _ _ (by simp) fun context? => ?_
  cases context? with
  | none =>
      exact stops_refused _ _
  | some context =>
      dsimp only
      split
      · exact stops_refused _ _
      · split
        · exact stops_refused _ _
        · refine stops_statement _ _ _ (by simp) fun claimed => ?_
          rcases claimed with - | (⟨eventId, transactionId, cursor, swept⟩ | -)
          · refine stops_statement _ _ _ (by simp) fun held => ?_
            refine stops_statement _ _ _ (by simp) fun _ => ?_
            split <;> exact stops_refuse _
          · refine stops_statement _ _ _ (by simp) fun _ => ?_
            exact stops_answered _ _
          · exact stops_refused _ _

/-- An outcome that accepts no submission for the first time. -/
def Outcome.AcceptsNone (outcome : Outcome) : Prop :=
  ∀ eventId made, Verdict.accepted eventId made false ∉ outcome.verdicts

theorem ofPosted_ne_accepted {answer : Except WriteError Posted}
    (early : Unacknowledged (fun posted : Posted => !posted.replayed) answer) {eventId : Uuid}
    {made : Made} : Verdict.accepted eventId made false ≠ .ofPosted answer := by
  intro isAccepted
  cases answer with
  | error refusal =>
      cases refusal <;> cases isAccepted
  | ok posted =>
      have replayed : (!posted.replayed) = false := early posted rfl
      rw [Verdict.ofPosted, Verdict.accepted.injEq] at isAccepted
      rw [← isAccepted.2.2] at replayed
      cases replayed

/-- Every operation ends with its commit, and accepts nothing without one. -/
theorem stops_program (operation : Operation) :
    (operation.program sha256).Stops Request.isLast Request.commits Outcome.AcceptsNone := by
  cases operation with
  | post command =>
      refine Program.stops_map Outcome.posted (fun answer early eventId made member => ?_)
        (stops_post sha256 command)
      exact ofPosted_ne_accepted early (List.mem_singleton.mp member)
  | postBatch commands =>
      refine Program.stops_map Outcome.postedBatch (fun answers early eventId made member => ?_)
        (stops_postBatch sha256 commands)
      obtain ⟨answer, isAnswer, same⟩ := List.mem_map.mp member
      exact ofPosted_ne_accepted (early answer isAnswer) same.symm
  | openAccount command =>
      refine Program.stops_map Outcome.opened (fun answer early eventId made member => ?_)
        (stops_openAccount sha256 command)
      have isAccepted := List.mem_singleton.mp member
      cases answer with
      | error refusal =>
          cases refusal <;> cases isAccepted
      | ok opened =>
          have replayed : (!opened.replayed) = false := early opened rfl
          rw [Verdict.ofOpened, Verdict.accepted.injEq] at isAccepted
          rw [← isAccepted.2.2] at replayed
          cases replayed
  | definePeriod command =>
      refine Program.stops_map Outcome.defined (fun answer early eventId made member => ?_)
        (stops_definePeriod sha256 command)
      have isAccepted := List.mem_singleton.mp member
      cases answer with
      | error refusal =>
          cases refusal <;> cases isAccepted
      | ok defined =>
          have replayed : (!defined.replayed) = false := early defined rfl
          rw [Verdict.ofDefined, Verdict.accepted.injEq] at isAccepted
          rw [← isAccepted.2.2] at replayed
          cases replayed
  | closePeriod command =>
      refine Program.stops_map Outcome.closed (fun answer early eventId made member => ?_)
        (stops_closePeriod sha256 command)
      have isAccepted := List.mem_singleton.mp member
      cases answer with
      | error refusal =>
          cases refusal <;> cases isAccepted
      | ok closed =>
          cases early closed rfl

end Stops

/-! ## What a commit comes to -/

/-- Whatever else commits, a program asks for its commit only where the answer it goes on
to give fits what it has written, over every book its bracket may still meet. -/
def Concludes {α : Type} (env : Env) (fits : α → Writes → Book → Prop) :
    Program Request Request.Reply α → Connection → Prop
  | .done _, _ => True
  | .ask request next, connection =>
      (request = .commit → ∃ answer, (∀ value, next (.ok value) = .done answer) ∧
        ∀ later, Since connection.written connection.committed later →
          fits answer connection.written later) ∧
      ∀ snapshot committed, Since connection.written connection.committed snapshot →
        Since connection.written snapshot committed →
          Concludes env fits
            (next (statement env (snapshot.apply connection.written)
              (committed.apply connection.written) request).1)
            (Connection.after ⟨committed, connection.written⟩ request
              (statement env (snapshot.apply connection.written)
                (committed.apply connection.written) request).2)

section Concluding

variable {env : Env} {ε α β : Type}

theorem concludes_done {fits : α → Writes → Book → Prop} (answer : α) (connection : Connection) :
    Concludes env fits (.done answer) connection := trivial

theorem Concludes.later {fits : α → Writes → Book → Prop}
    {program : Program Request Request.Reply α} {written : Writes} {before after : Book}
    (concludes : Concludes env fits program ⟨before, written⟩)
    (since : Since written before after) : Concludes env fits program ⟨after, written⟩ := by
  cases program with
  | done answer =>
      exact concludes_done _ _
  | ask request next =>
      refine ⟨fun isCommit => ?_, fun snapshot committed seen grown =>
        concludes.2 snapshot committed (since.trans seen) grown⟩
      obtain ⟨answer, isNext, isFit⟩ := concludes.1 isCommit
      exact ⟨answer, isNext, fun later further => isFit later (since.trans further)⟩

theorem Concludes.mono {fits weaker : α → Writes → Book → Prop}
    {program : Program Request Request.Reply α} {connection : Connection}
    (concludes : Concludes env fits program connection)
    (weakens : ∀ answer written book, fits answer written book → weaker answer written book) :
    Concludes env weaker program connection := by
  induction program generalizing connection with
  | done answer =>
      exact concludes_done _ _
  | ask request next inductionHypothesis =>
      refine ⟨fun isCommit => ?_, fun snapshot committed seen grown =>
        inductionHypothesis _ (concludes.2 snapshot committed seen grown)⟩
      obtain ⟨answer, isNext, isFit⟩ := concludes.1 isCommit
      exact ⟨answer, isNext, fun later since => weakens answer _ later (isFit later since)⟩

/-- A pure end fits what it makes of the answer. -/
theorem concludes_map (ending : α → β) {fits : α → Writes → Book → Prop}
    {endFits : β → Writes → Book → Prop}
    (carried : ∀ answer written book, fits answer written book →
      endFits (ending answer) written book)
    {program : Program Request Request.Reply α} {connection : Connection}
    (concludes : Concludes env fits program connection) :
    Concludes env endFits (program >>= fun answer => .done (ending answer)) connection := by
  induction program generalizing connection with
  | done answer =>
      exact concludes_done _ _
  | ask request next inductionHypothesis =>
      refine ⟨fun isCommit => ?_, fun snapshot committed seen grown =>
        inductionHypothesis _ (concludes.2 snapshot committed seen grown)⟩
      obtain ⟨answer, isNext, isFit⟩ := concludes.1 isCommit
      refine ⟨ending answer, fun value => ?_, fun later since =>
        carried answer _ later (isFit later since)⟩
      change (next (.ok value) >>= fun answer => .done (ending answer)) = _
      rw [isNext value]
      rfl

/-- Where nothing is asked of the answer, it is enough that a commit ends the program. -/
theorem concludes_of_stops {fits : α → Writes → Book → Prop} {early : α → Prop}
    (always : ∀ answer written book, fits answer written book)
    {program : Program Request Request.Reply α}
    (stops : program.Stops Request.isLast Request.commits early) (connection : Connection) :
    Concludes env fits program connection := by
  induction program generalizing connection with
  | done answer =>
      exact concludes_done _ _
  | ask request next inductionHypothesis =>
      refine ⟨fun isCommit => ?_, fun snapshot committed _ _ => ?_⟩
      · subst isCommit
        obtain ⟨answer, isDone⟩ := (stops (.ok ())).1 (Or.inl rfl)
        exact ⟨answer, fun _ => isDone, fun later _ => always answer _ later⟩
      · by_cases isCommit : request = .commit
        · obtain ⟨answer, isDone⟩ := (stops (statement env (snapshot.apply connection.written)
            (committed.apply connection.written) request).1).1 (Or.inl isCommit)
          rw [isDone]
          exact concludes_done _ _
        · exact inductionHypothesis _ ((stops _).2 fun commits => isCommit commits.1) _

variable {fits : Except ε α → Writes → Book → Prop} {connection : Connection}

/-- One request of a use-case: a failure stops it, and an answer goes on from what the
statement wrote. -/
theorem concludes_ask (storage : StorageError → ε) (request : Request)
    (next : request.Answer → UseCase ε α)
    (committing : request = .commit → ∃ answer, (∀ value, (next value).run = .done answer) ∧
      ∀ later, Since connection.written connection.committed later →
        fits answer connection.written later)
    (continues : ∀ snapshot committed answer,
      Since connection.written connection.committed snapshot →
      Since connection.written snapshot committed →
      (statement env (snapshot.apply connection.written)
        (committed.apply connection.written) request).1 = .ok answer →
      Concludes env fits (next answer).run
        (Connection.after ⟨committed, connection.written⟩ request
          (statement env (snapshot.apply connection.written)
            (committed.apply connection.written) request).2)) :
    Concludes env fits (ask storage request >>= next).run connection := by
  rw [run_ask_bind]
  refine ⟨committing, fun snapshot committed seen grown => ?_⟩
  cases answered : (statement env (snapshot.apply connection.written)
      (committed.apply connection.written) request).1 with
  | error failure =>
      exact concludes_done _ _
  | ok answer =>
      exact continues snapshot committed answer seen grown answered

theorem concludes_statement (storage : StorageError → ε) (request : Request)
    (next : request.Answer → UseCase ε α) (notCommit : request ≠ .commit)
    (continues : ∀ snapshot committed answer,
      Since connection.written connection.committed snapshot →
      Since connection.written snapshot committed →
      (statement env (snapshot.apply connection.written)
        (committed.apply connection.written) request).1 = .ok answer →
      Concludes env fits (next answer).run
        (Connection.after ⟨committed, connection.written⟩ request
          (statement env (snapshot.apply connection.written)
            (committed.apply connection.written) request).2)) :
    Concludes env fits (ask storage request >>= next).run connection :=
  concludes_ask storage request next (fun isCommit => absurd isCommit notCommit) continues

/-- The first statement of a bracket, or a read: nothing is written before it. -/
theorem concludes_first {book : Book} (storage : StorageError → ε) (request : Request)
    (next : request.Answer → UseCase ε α) (kept : Kept book) (notCommit : request ≠ .commit)
    (continues : ∀ snapshot committed answer, Kept snapshot → Since .none book snapshot →
      Since .none snapshot committed →
      (statement env snapshot committed request).1 = .ok answer →
      Concludes env fits (next answer).run
        (Connection.after ⟨committed, .none⟩ request
          (statement env snapshot committed request).2)) :
    Concludes env fits (ask storage request >>= next).run ⟨book, .none⟩ := by
  refine concludes_statement storage request next notCommit
    fun snapshot committed answer seen grown answered => ?_
  rw [Book.apply_none, Book.apply_none] at answered ⊢
  exact continues snapshot committed answer (seen.kept kept) seen grown answered

theorem concludes_refused (storage : StorageError → ε) (refusal : ε) :
    Concludes env fits
      (do ask storage .rollback; refuse refusal : UseCase ε α).run connection :=
  concludes_statement _ _ _ (by simp) fun _ _ _ _ _ _ => trivial

/-- Committing, and an answer that fits what is written. -/
theorem concludes_answered (storage : StorageError → ε) (answer : α)
    (isFit : ∀ later, Since connection.written connection.committed later →
      fits (.ok answer) connection.written later) :
    Concludes env fits
      (do ask storage .commit; return answer : UseCase ε α).run connection :=
  concludes_ask _ _ _ (fun _ => ⟨.ok answer, fun _ => rfl, isFit⟩) fun _ _ _ _ _ _ => trivial

end Concluding

section UseCases

variable {env : Env} (sha256 : List UInt8 → List UInt8)

/-- A post commits the append it would make, and answer, over the book it lands on. -/
theorem concludes_post {fits : Except WriteError Posted → Writes → Book → Prop}
    (command : PostTransaction) {book : Book} (kept : Kept book)
    (fit : ∀ planned appended writes later, planFor sha256 command = .ok planned →
      Kept later → claimAndAppend env later later command planned.hash planned.payload
        planned.append = (.ok (some (.appended appended)), writes) →
      (∀ d ∈ delta later command planned.append,
        (later.account? d.tenantId d.accountId d.currency).isSome) →
      (if command.reversesId.isSome then none
        else incomplete appended planned.append.deltas) = none →
      fits (.ok ⟨appended.eventId, some appended.transactionId, false⟩) writes later) :
    Concludes env fits (post sha256 command).run ⟨book, .none⟩ := by
  unfold post
  cases isPlanned : planFor sha256 command with
  | error refusal =>
      exact concludes_done _ _
  | ok planned =>
      obtain ⟨_, _, _, isAppend⟩ := planFor_ok isPlanned
      refine concludes_first _ _ _ kept (by simp) fun _ begun _ keptSeen seen grown _ => ?_
      have keptBegun : Kept begun := grown.kept keptSeen
      refine concludes_first _ _ _ keptBegun (by simp)
        fun snapshot current claimed? keptSnapshot _ grown answered => ?_
      rcases claimed? with - | (appended | refusal)
      · refine concludes_statement _ _ _ (by simp) fun _ _ stored _ _ _ => ?_
        refine concludes_statement _ _ _ (by simp) fun _ _ _ _ _ _ => ?_
        rcases stored with - | ⟨eventId, transactionId⟩ <;> exact trivial
      · have ran : claimAndAppend env snapshot current command planned.hash planned.payload
            planned.append = (.ok (some (.appended appended)),
              (statement env snapshot current (.claimAndAppend command planned.hash
                planned.payload planned.append)).2) := Prod.ext answered rfl
        obtain ⟨free, admitted, allowed, isAnswer, isWrites⟩ :=
          claimAndAppend_appended _ _ _ _ _ _ _ ran
        have committing : Complete command appended.balanceUpserts →
            (if command.reversesId.isSome then none
              else incomplete appended planned.append.deltas) = none →
            ∀ later, Since (Writes.none.append (statement env snapshot current
                (.claimAndAppend command planned.hash planned.payload planned.append)).2)
                current later →
              fits (.ok ⟨appended.eventId, some appended.transactionId, false⟩)
                (Writes.none.append (statement env snapshot current
                  (.claimAndAppend command planned.hash planned.payload planned.append)).2)
                later := by
          intro complete noneMissing later since
          rw [Writes.none_append] at since ⊢
          rw [isAnswer] at complete
          have known := known_of_complete keptSnapshot isAppend complete
          have lands : Lands current (statement env snapshot current (.claimAndAppend command
              planned.hash planned.payload planned.append)).2 := by
            rw [isWrites]
            exact appendWrites_lands keptSnapshot grown.precedes isAppend free admitted known
              allowed
          have landed := grown.landed.trans since.landed
          have keptLater := since.kept (grown.kept keptSnapshot)
          have again := claimAndAppend_later ran known landed keptLater (since.lands lands)
            since.counters
          refine fit planned appended _ later isPlanned keptLater again (fun d member => ?_)
            noneMissing
          have sameDelta : delta later command planned.append =
              delta snapshot command planned.append :=
            delta_later landed keptLater admitted (isWrites ▸ since.lands lands)
          rw [sameDelta] at member
          obtain ⟨account, isAccount⟩ := Option.isSome_iff_exists.mp (known d member)
          rw [landed.precedes.account? isAccount]
          rfl
        dsimp only
        split
        · rename_i reversal
          exact concludes_answered _ _ (committing (Or.inl reversal) (if_pos reversal))
        · rename_i noReversal
          unfold commitOrRefuseUnknownAccount
          split
          · exact concludes_refused _ _
          · rename_i counted
            cases missing : appended.balanceUpserts.find? fun upsert => upsert.lastSeq.isNone with
            | some upsert =>
                exact concludes_refused _ _
            | none =>
                refine concludes_answered _ _ (committing (Or.inr missing) ?_)
                rw [if_neg noReversal, incomplete, if_neg counted, missing]
                rfl
      · exact concludes_refused _ _

/-- An opening finds the chart it found, and commits what it would alone. -/
theorem concludes_openAccount {fits : Except OpenAccountError AccountOpened → Writes → Book → Prop}
    (command : OpenAccount) {book : Book} (kept : Kept book)
    (fit : ∀ triple eventId account writes later,
      chartTripleForPurpose later command.purpose = some triple →
      theOwnerTheTypeAndTheSchemaDisagreeAbout command triple = none →
      claimAndOpenAccount env later command (command.idempotencyHash sha256) command.payload
        triple = (.ok (some (.opened eventId account)), writes) →
      fits (.ok ⟨eventId, account, false⟩) writes later) :
    Concludes env fits (openAccount sha256 command).run ⟨book, .none⟩ := by
  unfold openAccount
  refine concludes_first _ _ _ kept (by simp) fun _ begun _ keptSeen _ grown _ => ?_
  have keptBegun : Kept begun := grown.kept keptSeen
  refine concludes_first _ _ _ keptBegun (by simp)
    fun snapshot current triple? keptSnapshot _ grown answered => ?_
  cases triple? with
  | none =>
      exact concludes_refused _ _
  | some triple =>
      have charted : chartTripleForPurpose snapshot command.purpose = some triple :=
        Except.ok.inj answered
      dsimp only
      cases disagreed : theOwnerTheTypeAndTheSchemaDisagreeAbout command triple with
      | some refusal =>
          exact concludes_refused _ _
      | none =>
          refine concludes_first _ _ _ (grown.kept keptSnapshot) (by simp)
            fun sight now claimed? _ seen opening opened => ?_
          rcases claimed? with - | (⟨eventId, account⟩ | -)
          · refine concludes_statement _ _ _ (by simp) fun _ _ stored _ _ _ => ?_
            refine concludes_statement _ _ _ (by simp) fun _ _ _ _ _ _ => ?_
            rcases stored with - | ⟨eventId, - | account⟩ <;> exact trivial
          · have ran : claimAndOpenAccount env now command (command.idempotencyHash sha256)
                command.payload triple = (.ok (some (.opened eventId account)),
                  (statement env sight now (.claimAndOpenAccount command
                    (command.idempotencyHash sha256) command.payload triple)).2) :=
              Prod.ext opened rfl
            obtain ⟨free, allowed, _, _, isWrites⟩ := claimAndOpenAccount_opened ran
            have sameChart : ∀ later : Book, now.Precedes later →
                chartTripleForPurpose later command.purpose = some triple := by
              intro later precedes
              have same := grown.precedes.chart.trans (seen.precedes.chart.trans
                (opening.precedes.chart.trans precedes.chart))
              rw [chartTripleForPurpose, ← same]
              exact charted
            refine concludes_answered _ _ fun later since => ?_
            change Since (Writes.none.append _) now later at since
            change fits _ (Writes.none.append _) later
            rw [Writes.none_append] at since ⊢
            have lands : Lands now (statement env sight now (.claimAndOpenAccount command
                (command.idempotencyHash sha256) command.payload triple)).2 := by
              rw [isWrites]
              exact openWrites_lands (sameChart now (.refl now)) free allowed
            exact fit triple eventId account _ later (sameChart later since.precedes) disagreed
              (claimAndOpenAccount_later ran (since.lands lands))
          · exact concludes_refused _ _

/-- A definition commits what it would alone. -/
theorem concludes_definePeriod
    {fits : Except DefinePeriodError PeriodDefined → Writes → Book → Prop}
    (command : DefinePeriod) {book : Book} (kept : Kept book)
    (fit : ∀ hash payload eventId period writes later,
      command.idempotencyHash sha256 = .ok hash → command.payload = .ok payload →
      claimAndDefinePeriod env later command hash payload =
        (.ok (some (.defined eventId period)), writes) →
      fits (.ok ⟨eventId, period, false⟩) writes later) :
    Concludes env fits (definePeriod sha256 command).run ⟨book, .none⟩ := by
  unfold definePeriod
  split
  · exact concludes_done _ _
  · exact concludes_done _ _
  · rename_i hash payload hashed rendered
    refine concludes_first _ _ _ kept (by simp) fun _ begun _ keptSeen _ grown _ => ?_
    refine concludes_first _ _ _ (grown.kept keptSeen) (by simp)
      fun snapshot current claimed? _ _ _ answered => ?_
    rcases claimed? with - | (⟨eventId, period⟩ | - | - | -)
    · refine concludes_statement _ _ _ (by simp) fun _ _ stored _ _ _ => ?_
      refine concludes_statement _ _ _ (by simp) fun _ _ _ _ _ _ => ?_
      rcases stored with - | ⟨eventId, - | period⟩ <;> exact trivial
    · have ran : claimAndDefinePeriod env current command hash payload =
          (.ok (some (.defined eventId period)), (statement env snapshot current
            (.claimAndDefinePeriod command hash payload)).2) := Prod.ext answered rfl
      obtain ⟨free, allowed, _, _, isWrites⟩ := claimAndDefinePeriod_defined ran
      refine concludes_answered _ _ fun later since => ?_
      change Since (Writes.none.append _) current later at since
      change fits _ (Writes.none.append _) later
      rw [Writes.none_append] at since ⊢
      have lands : Lands current (statement env snapshot current
          (.claimAndDefinePeriod command hash payload)).2 := by
        rw [isWrites]
        exact defineWrites_lands free allowed
      exact fit hash payload eventId period _ later hashed rendered
        (claimAndDefinePeriod_later ran (since.lands lands))
    all_goals exact concludes_refused _ _

/-- A batch commits its one statement, and each member is answered by its outcome. -/
theorem concludes_appendTheBatch
    {fits : Except WriteError (List (Except WriteError Posted)) → Writes → Book → Prop}
    (members : List BatchMember) {book : Book} (kept : Kept book)
    (fit : ∀ snapshot current outcomes writes later replayed, Kept snapshot →
      claimAndAppendBatch env snapshot current members = (.ok outcomes, writes) →
      fits (.ok (answersForMembers outcomes replayed)) writes later) :
    Concludes env fits (appendTheBatch members).run ⟨book, .none⟩ := by
  unfold appendTheBatch
  refine concludes_first _ _ _ kept (by simp) fun _ begun _ keptSeen _ grown _ => ?_
  refine concludes_first _ _ _ (grown.kept keptSeen) (by simp)
    fun snapshot current outcomes keptSnapshot _ _ answered => ?_
  have ran : claimAndAppendBatch env snapshot current members = (.ok outcomes,
      (statement env snapshot current (.claimAndAppendBatch members)).2) := Prod.ext answered rfl
  have isFit := fun later replayed => fit snapshot current outcomes _ later replayed keptSnapshot ran
  dsimp only
  split
  · exact concludes_refused _ _
  · cases noneReplay : (membersReplayingAnEarlierWrite members outcomes).isEmpty with
    | true =>
        rw [replayedResultsFor_of_isEmpty noneReplay, pure_bind]
        split
        · exact concludes_refused _ _
        · refine concludes_answered _ _ fun later _ => ?_
          change fits _ (Writes.none.append _) later
          rw [Writes.none_append]
          exact isFit later _
    | false =>
        rw [replayedResultsFor_of_not_isEmpty noneReplay]
        refine concludes_statement _ _ _ (by simp) fun _ _ replayed _ _ _ => ?_
        split
        · exact concludes_refused _ _
        · refine concludes_answered _ _ fun later _ => ?_
          change fits _ ((Writes.none.append _).append Writes.none) later
          rw [Writes.append_none, Writes.none_append]
          exact isFit later _

/-- A close commits what it swept from the snapshot of its closing statement, and the
rows of its checkpoint behind it. -/
theorem concludes_closePeriod {fits : Except ClosePeriodError PeriodClosed → Writes → Book → Prop}
    (command : ClosePeriod) {book : Book} (kept : Kept book)
    (fit : ∀ snapshot current plan writes periodBalances checkpointRows later,
      SweepWrites sha256 env snapshot current command plan writes →
      snapshot.Precedes later → closePlan later command = .ok plan →
      fits (.ok
        { eventId := env.eventId 0
          transactionId := env.transactionId 0
          periodCode := command.periodCode
          currency := command.currency
          effectiveAt := plan.closesAt
          computedAtXid := env.xid
          swept := sweptBy env snapshot command plan
          checkpointRows }) (writes.append { periodBalances }) later) :
    Concludes env fits (closePeriod sha256 command).run ⟨book, .none⟩ := by
  unfold closePeriod
  refine concludes_first _ _ _ kept (by simp) fun _ begun _ keptSeen _ grown _ => ?_
  refine concludes_first _ _ _ (grown.kept keptSeen) (by simp)
    fun read afterRead context? keptRead _ grown answered => ?_
  have keptAfter : Kept afterRead := grown.kept keptRead
  have readPrecedes := grown.precedes
  cases context? with
  | none =>
      exact concludes_refused _ _
  | some context =>
      have isContext : periodCloseContext read command = some context := Except.ok.inj answered
      dsimp only
      split
      · exact concludes_refused _ _
      · rename_i retainedEarnings destination
        split
        · exact concludes_refused _ _
        · rename_i closesAt instant
          have fitsRead := planFits_of_context isContext destination instant
          have planned : closePlan read command =
              .ok ⟨context.startsAt, context.endsAt, retainedEarnings, closesAt⟩ := by
            rw [closePlan, isContext]
            dsimp only
            rw [destination]
            dsimp only
            rw [instant]
          refine concludes_first _ _ _ keptAfter (by simp)
            fun snapshot current claimed? keptSnapshot seen grown ran => ?_
          have fitsSnapshot := (fitsRead.later readPrecedes).later seen.precedes
          rcases claimed? with - | (⟨eventId, transactionId, computedAtXid, swept⟩ | -)
          · refine concludes_statement _ _ _ (by simp) fun _ _ held _ _ _ => ?_
            refine concludes_statement _ _ _ (by simp) fun _ _ _ _ _ _ => ?_
            split <;> exact trivial
          · have closed : claimAndClosePeriod env snapshot current command
                (command.idempotencyHash sha256) command.payload
                ⟨context.startsAt, context.endsAt, retainedEarnings, closesAt⟩ =
                  (.ok (some (.closed eventId transactionId computedAtXid swept)),
                    (statement env snapshot current (.claimAndClosePeriod command
                      (command.idempotencyHash sha256) command.payload
                      ⟨context.startsAt, context.endsAt, retainedEarnings, closesAt⟩)).2) :=
              Prod.ext ran rfl
            obtain ⟨free, allowed, rfl, rfl, rfl, rfl, isWrites⟩ :=
              claimAndClosePeriod_closed closed
            have lands := closeWrites_lands (command.idempotencyHash sha256) command.payload
              grown.precedes fitsSnapshot free allowed
            change Concludes env _ _ ⟨current, Writes.none.append (statement env snapshot current
              (.claimAndClosePeriod command (command.idempotencyHash sha256) command.payload
                ⟨context.startsAt, context.endsAt, retainedEarnings, closesAt⟩)).2⟩
            rw [Writes.none_append, isWrites]
            refine concludes_statement _ _ _ (by simp)
              fun sight now checkpointRows seenNow grownNow checkpointed => ?_
            obtain ⟨_, _, wroteRows⟩ := checkpointTheClose_answered checkpointed
            refine concludes_answered _ _ fun later since => ?_
            have behind := grown.precedes.trans
              (seenNow.precedes.trans (grownNow.precedes.trans since.precedes))
            have precedes := readPrecedes.trans (seen.precedes.trans behind)
            change fits _ (Writes.append _ (checkpointTheClose env _ _ command _ _ _).2) later
            rw [wroteRows]
            exact fit snapshot current _ _ _ checkpointRows later ⟨fitsSnapshot, rfl, lands⟩
              behind (closePlan_later precedes planned)
          · exact concludes_refused _ _

end UseCases

end OpenLedger
