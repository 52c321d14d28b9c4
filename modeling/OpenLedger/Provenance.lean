import OpenLedger.BatchAnswers
import OpenLedger.Calendar
import OpenLedger.Interleaved

/-!
# Where a book's rows come from

Every event was claimed by a command of its operation, under the command's tenant
and key and with the command's own hash; a close's event came with its close row,
and every period row is some definition's.  What the rows of each statement
satisfy, the rows of every book an interleaving reaches satisfy.
-/

namespace OpenLedger

open Postgres

/-! ## From statements to books -/

section Runs

variable {need : Request → Prop} {wrote : Writes → Prop} {held : Book → Prop}
  {sha256 : List UInt8 → List UInt8} {chart : Chart} {machine after : Machine}

/-- What a bracket's rows satisfy when each statement's do, and what a book
satisfies when each bracket's rows do. -/
structure Inheritance (need : Request → Prop) (wrote : Writes → Prop) (held : Book → Prop) :
    Prop where
  none : wrote .none
  append : ∀ {first second}, wrote first → wrote second → wrote (first.append second)
  statement : ∀ env snapshot current request, need request →
    wrote (statement env snapshot current request).2
  apply : ∀ {book writes}, held book → wrote writes → held (book.apply writes)

/-- A session asks only what is needed, and has written only what is held. -/
structure Session.Inherits (need : Request → Prop) (wrote : Writes → Prop)
    (session : Session) : Prop where
  asks : session.program.Asks need
  written : wrote session.written

structure Machine.Inherits (need : Request → Prop) (wrote : Writes → Prop)
    (held : Book → Prop) (machine : Machine) : Prop where
  committed : held machine.committed
  sessions : ∀ session ∈ machine.sessions, session.Inherits need wrote

theorem Session.Inherits.advance (inherits : Inheritance need wrote held) (session : Session)
    {program : Program Request Request.Reply Outcome} {written : Writes} {trace : List Ran}
    (asks : program.Asks need) (isWritten : wrote written) :
    (session.advance program written trace).Inherits need wrote := by
  constructor
  · exact asks
  · cases program with
    | done answer => exact inherits.none
    | ask request next => exact isWritten

theorem Machine.Inherits.replace (was : machine.Inherits need wrote held) {index : Nat}
    {session : Session} (here : session.Inherits need wrote) :
    ∀ other ∈ (machine.replace index session).sessions, other.Inherits need wrote := by
  intro other member
  rcases List.mem_or_eq_of_mem_set member with isOld | rfl
  · exact was.sessions other isOld
  · exact here

theorem Machine.Inherits.run (inherits : Inheritance need wrote held)
    (was : machine.Inherits need wrote held) {index : Nat} {session : Session}
    (here : machine.sessions[index]? = some session)
    (ran : machine.runStatement index session = some after) :
    after.Inherits need wrote held := by
  obtain ⟨snapshot, request, next, _, isNext, _, _, rfl⟩ := runStatement_eq_some ran
  have mine := was.sessions session (List.mem_of_getElem? here)
  have asks := mine.asks
  rw [isNext, Program.asks_ask] at asks
  have isWritten := inherits.statement session.env (snapshot.apply session.written)
    (machine.committed.apply session.written) request asks.1
  rcases Connection.after_cases ⟨machine.committed, session.written⟩ request
      (session.answered snapshot machine.committed request).2 with
    ⟨_, committing⟩ | ⟨_, sameBook, written⟩
  · constructor
    · change held (Connection.after _ _ _).committed
      rw [committing]
      exact inherits.apply was.committed mine.written
    · refine was.replace (Session.Inherits.advance inherits session (asks.2 _) ?_)
      change wrote (Connection.after _ _ _).written
      rw [committing]
      exact inherits.none
  · constructor
    · change held (Connection.after _ _ _).committed
      rw [sameBook]
      exact was.committed
    · refine was.replace (Session.Inherits.advance inherits session (asks.2 _) ?_)
      change wrote (Connection.after _ _ _).written
      rcases written with isNone | isAppend
      · rw [isNone]
        exact inherits.none
      · rw [isAppend]
        exact inherits.append mine.written isWritten

theorem Machine.Inherits.step (inherits : Inheritance need wrote held)
    (asks : ∀ operation : Operation, (operation.program sha256).Asks need)
    (was : machine.Inherits need wrote held) {action : Action}
    (stepped : machine.step sha256 action = some after) : after.Inherits need wrote held := by
  cases action with
  | start operation env =>
      cases stepped
      refine ⟨was.committed, fun session member => ?_⟩
      rcases List.mem_append.mp member with isOld | isNew
      · exact was.sessions session isOld
      · obtain rfl := List.mem_singleton.mp isNew
        exact ⟨asks operation, inherits.none⟩
  | elsewhere =>
      cases stepped
      exact ⟨was.committed, was.sessions⟩
  | assign index =>
      obtain ⟨session, here, assigned⟩ := Option.bind_eq_some_iff.mp stepped
      dsimp only at assigned
      split at assigned
      · cases assigned
        have mine := was.sessions session (List.mem_of_getElem? here)
        exact ⟨was.committed, was.replace ⟨mine.asks, mine.written⟩⟩
      · cases assigned
  | look index =>
      obtain ⟨session, here, rfl⟩ := Option.map_eq_some_iff.mp stepped
      have mine := was.sessions session (List.mem_of_getElem? here)
      exact ⟨was.committed, was.replace ⟨mine.asks, mine.written⟩⟩
  | run index =>
      obtain ⟨session, here, ran⟩ := Option.bind_eq_some_iff.mp stepped
      exact was.run inherits here ran
  | fail index failure =>
      obtain ⟨session, here, failed⟩ := Option.bind_eq_some_iff.mp stepped
      split at failed
      · cases failed
      · rename_i request next isNext
        cases failed
        have mine := was.sessions session (List.mem_of_getElem? here)
        have asksOn := mine.asks
        rw [isNext, Program.asks_ask] at asksOn
        exact ⟨was.committed, was.replace
          (Session.Inherits.advance inherits session (asksOn.2 _) inherits.none)⟩

/-- Whatever runs beside whatever, the committed book holds what each statement's
rows do. -/
theorem held_of_interleaved (inherits : Inheritance need wrote held)
    (asks : ∀ operation : Operation, (operation.program sha256).Asks need)
    (empty : held (Book.empty chart)) (interleaved : Interleaved sha256 chart machine) :
    held machine.committed := by
  have all : machine.Inherits need wrote held := by
    induction interleaved with
    | initial =>
        exact ⟨empty, fun _ member => absurd member List.not_mem_nil⟩
    | step _ _ stepped inductionHypothesis =>
        exact inductionHypothesis.step inherits asks stepped
  exact all.committed

end Runs

/-! ## The hash each operation claims with -/

section Asking

variable (sha256 : List UInt8 → List UInt8)

/-- A claim carries its command's own hash. -/
def Request.OwnHash : Request → Prop
  | claimAndAppend command hash _ _ => command.idempotencyHash sha256 = .ok hash
  | claimAndAppendBatch members =>
      ∀ m ∈ members, m.command.idempotencyHash sha256 = .ok m.hash
  | claimAndOpenAccount command hash _ _ => hash = command.idempotencyHash sha256
  | claimAndDefinePeriod command hash _ => command.idempotencyHash sha256 = .ok hash
  | claimAndClosePeriod command hash _ _ => hash = command.idempotencyHash sha256
  | _ => True

/-- Whether a request is one of a close's two writing statements. -/
def Request.isClosing : Request → Bool
  | claimAndClosePeriod .. => true
  | checkpointTheClose .. => true
  | _ => false

/-- What an operation other than a close asks. -/
def Request.ClosesNothing (request : Request) : Prop :=
  request.OwnHash sha256 ∧ request.isClosing = false

variable {sha256} {ε α : Type}

theorem asks_useCase {need : Request → Prop} (storage : StorageError → ε) (request : Request)
    (next : request.Answer → UseCase ε α) (needed : need request)
    (continues : ∀ answer, (next answer).run.Asks need) :
    (ask storage request >>= next).run.Asks need := by
  rw [run_ask_bind]
  refine Program.asks_ask.mpr ⟨needed, fun reply => ?_⟩
  cases reply with
  | error failure => exact Program.asks_done _
  | ok answer => exact continues answer

/-- A bracket that ends after one more request, whatever that answers. -/
theorem asks_last {need : Request → Prop} (storage : StorageError → ε) (request : Request)
    (last : Except ε α) (needed : need request) :
    (ask storage request >>= fun _ => ExceptT.mk (.done last)).run.Asks need :=
  asks_useCase storage request _ needed fun _ => Program.asks_done last

theorem post_asks (command : PostTransaction) :
    (post sha256 command).run.Asks (Request.ClosesNothing sha256) := by
  unfold post
  split
  · exact Program.asks_done _
  · rename_i planned isPlanned
    obtain ⟨_, hashed, _⟩ := planFor_ok isPlanned
    refine asks_useCase _ _ _ ⟨trivial, rfl⟩ fun _ => ?_
    refine asks_useCase _ _ _ ⟨hashed, rfl⟩ fun claimed => ?_
    rcases claimed with - | (appended | refusal)
    · refine asks_useCase _ _ _ ⟨trivial, rfl⟩ fun stored => ?_
      refine asks_useCase _ _ _ ⟨trivial, rfl⟩ fun _ => ?_
      rcases stored with - | ⟨eventId, transactionId⟩ <;> exact Program.asks_done _
    · dsimp only
      split
      · exact asks_last _ _ _ ⟨trivial, rfl⟩
      · unfold commitOrRefuseUnknownAccount
        split
        · exact asks_last _ _ _ ⟨trivial, rfl⟩
        · split
          · exact asks_last _ _ _ ⟨trivial, rfl⟩
          · exact asks_last _ _ _ ⟨trivial, rfl⟩
    · exact asks_last _ _ _ ⟨trivial, rfl⟩

theorem appendTheBatch_asks {members : List BatchMember}
    (own : ∀ m ∈ members, m.command.idempotencyHash sha256 = .ok m.hash) :
    (appendTheBatch members).run.Asks (Request.ClosesNothing sha256) := by
  unfold appendTheBatch
  refine asks_useCase _ _ _ ⟨trivial, rfl⟩ fun _ => ?_
  refine asks_useCase _ _ _ ⟨own, rfl⟩ fun (outcomes : List MemberOutcome) => ?_
  split
  · exact asks_last _ _ _ ⟨trivial, rfl⟩
  · dsimp only
    by_cases nobody : (membersReplayingAnEarlierWrite members outcomes).isEmpty = true
    · have asked : replayedResultsFor (membersReplayingAnEarlierWrite members outcomes) =
          pure [] := if_pos nobody
      rw [asked, pure_bind]
      split
      · exact asks_last _ _ _ ⟨trivial, rfl⟩
      · exact asks_last _ _ _ ⟨trivial, rfl⟩
    · have asked : replayedResultsFor (membersReplayingAnEarlierWrite members outcomes) =
          ask .storage (.storedResultBatch (membersReplayingAnEarlierWrite members outcomes)) :=
        if_neg nobody
      rw [asked]
      refine asks_useCase _ _ _ ⟨trivial, rfl⟩ fun replayed => ?_
      split
      · exact asks_last _ _ _ ⟨trivial, rfl⟩
      · exact asks_last _ _ _ ⟨trivial, rfl⟩

theorem postBatch_asks (commands : List PostTransaction) :
    (postBatch sha256 commands).Asks (Request.ClosesNothing sha256) := by
  unfold postBatch
  split
  · exact Program.asks_done _
  · exact Program.asks_bind (post_asks _) fun _ => Program.asks_done _
  · unfold postTogether
    dsimp only
    split
    · exact Program.asks_done _
    · exact Program.asks_bind (post_asks _) fun _ => Program.asks_done _
    · refine Program.asks_bind (appendTheBatch_asks fun m isMember => ?_) fun answer => ?_
      · obtain ⟨planned, isPlanned, rfl⟩ := plannedMembers_own isMember
        exact (planFor_ok isPlanned).2.1
      · cases answer <;> exact Program.asks_done _

theorem openAccount_asks (command : OpenAccount) :
    (openAccount sha256 command).run.Asks (Request.ClosesNothing sha256) := by
  unfold openAccount
  refine asks_useCase _ _ _ ⟨trivial, rfl⟩ fun _ => ?_
  refine asks_useCase _ _ _ ⟨trivial, rfl⟩ fun triple? => ?_
  rcases triple? with - | triple
  · exact asks_last _ _ _ ⟨trivial, rfl⟩
  · dsimp only
    split
    · exact asks_last _ _ _ ⟨trivial, rfl⟩
    · refine asks_useCase _ _ _ ⟨rfl, rfl⟩ fun claimed => ?_
      rcases claimed with - | (⟨eventId, account⟩ | -)
      · refine asks_useCase _ _ _ ⟨trivial, rfl⟩ fun stored => ?_
        refine asks_useCase _ _ _ ⟨trivial, rfl⟩ fun _ => ?_
        rcases stored with - | ⟨eventId, - | account⟩ <;> exact Program.asks_done _
      · exact asks_last _ _ _ ⟨trivial, rfl⟩
      · exact asks_last _ _ _ ⟨trivial, rfl⟩

theorem definePeriod_asks (command : DefinePeriod) :
    (definePeriod sha256 command).run.Asks (Request.ClosesNothing sha256) := by
  unfold definePeriod
  split
  · exact Program.asks_done _
  · exact Program.asks_done _
  · rename_i hash payload hashed _
    refine asks_useCase _ _ _ ⟨trivial, rfl⟩ fun _ => ?_
    refine asks_useCase _ _ _ ⟨hashed, rfl⟩ fun claimed => ?_
    rcases claimed with - | (⟨eventId, period⟩ | - | - | -)
    · refine asks_useCase _ _ _ ⟨trivial, rfl⟩ fun stored => ?_
      refine asks_useCase _ _ _ ⟨trivial, rfl⟩ fun _ => ?_
      rcases stored with - | ⟨eventId, - | period⟩ <;> exact Program.asks_done _
    all_goals exact asks_last _ _ _ ⟨trivial, rfl⟩

theorem closePeriod_asks (command : ClosePeriod) :
    (closePeriod sha256 command).run.Asks (Request.OwnHash sha256) := by
  unfold closePeriod
  refine asks_useCase _ _ _ trivial fun _ => ?_
  refine asks_useCase _ _ _ trivial fun context? => ?_
  rcases context? with - | context
  · exact asks_last _ _ _ trivial
  · dsimp only
    split
    · exact asks_last _ _ _ trivial
    · split
      · exact asks_last _ _ _ trivial
      · refine asks_useCase _ _ _ rfl fun claimed => ?_
        rcases claimed with - | (⟨eventId, transactionId, cursor, swept⟩ | -)
        · refine asks_useCase _ _ _ trivial fun held => ?_
          refine asks_useCase _ _ _ trivial fun _ => ?_
          split <;> exact Program.asks_done _
        · refine asks_useCase _ _ _ trivial fun rows => ?_
          exact asks_last _ _ _ trivial
        · exact asks_last _ _ _ trivial

/-- Whether an operation is a close. -/
def Operation.isClose : Operation → Bool
  | closePeriod _ => true
  | _ => false

/-- An operation that is no close asks neither closing statement. -/
theorem program_closes_nothing (operation : Operation) (notClose : operation.isClose = false) :
    (operation.program sha256).Asks (Request.ClosesNothing sha256) := by
  cases operation with
  | post command => exact Program.asks_bind (post_asks command) fun _ => Program.asks_done _
  | postBatch commands =>
      exact Program.asks_bind (postBatch_asks commands) fun _ => Program.asks_done _
  | openAccount command =>
      exact Program.asks_bind (openAccount_asks command) fun _ => Program.asks_done _
  | definePeriod command =>
      exact Program.asks_bind (definePeriod_asks command) fun _ => Program.asks_done _
  | closePeriod command =>
      cases notClose

theorem program_asks (operation : Operation) :
    (operation.program sha256).Asks (Request.OwnHash sha256) := by
  cases isClose : operation.isClose with
  | false =>
      exact Program.asks_mono (fun _ closesNothing => closesNothing.1)
        (program_closes_nothing operation isClose)
  | true =>
      cases operation with
      | closePeriod command =>
          exact Program.asks_bind (closePeriod_asks command) fun _ => Program.asks_done _
      | _ =>
          cases isClose

end Asking

/-! ## The rows of each statement -/

section Rows

variable {sha256 : List UInt8 → List UInt8} {env : Env} {snapshot current : Book}
  {hash : List UInt8} {payload : Json}

/-- The row a close writes is of the command's period and currency. -/
def CloseRow.IsOf (close : CloseRow) (command : ClosePeriod) : Prop :=
  close.tenantId = command.tenantId ∧ close.periodCode = command.periodCode ∧
    close.currency = command.currency

instance (close : CloseRow) (command : ClosePeriod) : Decidable (close.IsOf command) :=
  inferInstanceAs (Decidable (_ ∧ _))

/-- The command an event was claimed by, with the close row of a close. -/
inductive EventRow.Asked (sha256 : List UInt8 → List UInt8) (closes : List CloseRow)
    (event : EventRow) : Prop where
  | post (command : PostTransaction) (isKind : event.kind = "posting")
      (tenant : event.tenantId = command.tenantId)
      (key : event.idempotencyKey = command.idempotencyKey)
      (hashed : command.idempotencyHash sha256 = .ok event.idempotencyHash)
  | openAccount (command : OpenAccount) (isKind : event.kind = "account_opened")
      (tenant : event.tenantId = command.tenantId)
      (key : event.idempotencyKey = command.idempotencyKey)
      (hashed : event.idempotencyHash = command.idempotencyHash sha256)
  | definePeriod (command : DefinePeriod) (isKind : event.kind = "period_defined")
      (tenant : event.tenantId = command.tenantId)
      (key : event.idempotencyKey = command.idempotencyKey)
      (hashed : command.idempotencyHash sha256 = .ok event.idempotencyHash)
  | closePeriod (command : ClosePeriod) (isKind : event.kind = "period_close")
      (tenant : event.tenantId = command.tenantId)
      (key : event.idempotencyKey = command.idempotencyKey)
      (hashed : event.idempotencyHash = command.idempotencyHash sha256)
      (closed : ∃ close ∈ closes, close.IsOf command)

theorem EventRow.Asked.later {closes more : List CloseRow} {event : EventRow}
    (asked : event.Asked sha256 closes) (kept : closes ⊆ more) : event.Asked sha256 more := by
  cases asked with
  | post command isKind tenant key hashed => exact .post command isKind tenant key hashed
  | openAccount command isKind tenant key hashed =>
      exact .openAccount command isKind tenant key hashed
  | definePeriod command isKind tenant key hashed =>
      exact .definePeriod command isKind tenant key hashed
  | closePeriod command isKind tenant key hashed closed =>
      obtain ⟨close, isThere, isOf⟩ := closed
      exact .closePeriod command isKind tenant key hashed ⟨close, kept isThere, isOf⟩

/-- Every event and every period row is some command's. -/
structure RowsAsked (sha256 : List UInt8 → List UInt8) (events : List EventRow)
    (periods : List PeriodRow) (closes : List CloseRow) : Prop where
  events : ∀ event ∈ events, event.Asked sha256 closes
  periods : ∀ row ∈ periods, ∃ command, row = definedRow command

def Writes.Asked (sha256 : List UInt8 → List UInt8) (writes : Writes) : Prop :=
  RowsAsked sha256 writes.events writes.periods writes.closes

def Book.Asked (sha256 : List UInt8 → List UInt8) (book : Book) : Prop :=
  RowsAsked sha256 book.events book.periods book.closes

theorem RowsAsked.none {closes : List CloseRow} : RowsAsked sha256 [] [] closes :=
  ⟨fun _ member => absurd member List.not_mem_nil, fun _ member => absurd member List.not_mem_nil⟩

theorem RowsAsked.append {events moreEvents : List EventRow} {periods morePeriods : List PeriodRow}
    {closes moreCloses : List CloseRow} (first : RowsAsked sha256 events periods closes)
    (second : RowsAsked sha256 moreEvents morePeriods moreCloses) :
    RowsAsked sha256 (events ++ moreEvents) (periods ++ morePeriods) (closes ++ moreCloses) := by
  constructor
  · intro event member
    rcases List.mem_append.mp member with isOld | isNew
    · exact (first.events event isOld).later (List.subset_append_left _ _)
    · exact (second.events event isNew).later (List.subset_append_right _ _)
  · intro row member
    rcases List.mem_append.mp member with isOld | isNew
    · exact first.periods row isOld
    · exact second.periods row isNew

theorem claimAndAppend_wrote (command : PostTransaction) (append : Append) :
    (claimAndAppend env snapshot current command hash payload append).2 = .none ∨
      (claimAndAppend env snapshot current command hash payload append).2 =
        appendWrites env snapshot current command hash payload append := by
  cases held : current.holderOf command.tenantId command.idempotencyKey with
  | some event =>
      left
      unfold claimAndAppend claimAndAppendStatement
      rw [held]
      rfl
  | none =>
      rw [claimAndAppend_free env snapshot current command hash payload append held]
      split
      · exact Or.inl rfl
      · split <;> exact Or.inl rfl
      · exact Or.inr rfl

theorem claimAndAppendBatch_wrote (members : List BatchMember) :
    (claimAndAppendBatch env snapshot current members).2 = .none ∨
      (claimAndAppendBatch env snapshot current members).2 =
        batchWrites env snapshot current members := by
  unfold claimAndAppendBatch
  split
  · exact Or.inl rfl
  · split
    · exact Or.inl rfl
    · rename_i rows writes ran
      right
      unfold claimAndAppendBatchStatement at ran
      cases casts : ensureBigints ((memberDelta members).flatMap fun row =>
          [row.delta.input, row.delta.output]) with
      | error error =>
          rw [casts] at ran
          cases ran
      | ok fits =>
          rw [casts] at ran
          change (if _ then _ else _) = _ at ran
          split at ran
          · cases ran
          · cases sums : ensureBigints ((batchDelta members
                (proceeding env snapshot current members)).flatMap fun d =>
                  [d.input, d.output, d.legs]) with
            | error error =>
                rw [sums] at ran
                cases ran
            | ok fits =>
                rw [sums] at ran
                dsimp only [bind, Except.bind] at ran
                split at ran
                · cases ran
                · exact (Prod.mk.inj (Except.ok.inj ran)).2.symm

theorem claimAndOpenAccount_wrote (command : OpenAccount) (triple : ChartTriple) :
    (claimAndOpenAccount env current command hash payload triple).2 = .none ∨
      (claimAndOpenAccount env current command hash payload triple).2 =
        openWrites env command hash payload triple := by
  unfold claimAndOpenAccount
  split
  · exact Or.inl rfl
  · dsimp only
    split
    · split <;> exact Or.inl rfl
    · exact Or.inr rfl

theorem claimAndDefinePeriod_wrote (command : DefinePeriod) :
    (claimAndDefinePeriod env current command hash payload).2 = .none ∨
      (claimAndDefinePeriod env current command hash payload).2 =
        defineWrites env command hash payload := by
  unfold claimAndDefinePeriod
  split
  · exact Or.inl rfl
  · dsimp only
    split
    · split <;> exact Or.inl rfl
    · exact Or.inr rfl

theorem claimAndClosePeriod_wrote (command : ClosePeriod) (plan : ClosePlan) :
    (claimAndClosePeriod env snapshot current command hash payload plan).2 = .none ∨
      (claimAndClosePeriod env snapshot current command hash payload plan).2 =
        closeWrites env snapshot current command hash payload plan := by
  unfold claimAndClosePeriod
  split
  · exact Or.inl rfl
  · dsimp only
    split
    · exact Or.inl rfl
    · split <;> exact Or.inl rfl
    · exact Or.inr rfl

theorem checkpointTheClose_asked (command : ClosePeriod) (plan : ClosePlan) (transactionId : Uuid)
    (cursor : Xid) :
    (checkpointTheClose env snapshot current command plan transactionId cursor).2.Asked sha256 := by
  unfold checkpointTheClose
  dsimp only
  split <;> exact RowsAsked.none

/-- A single claim writes its own event. -/
theorem asked_of_event {event : EventRow} {periods : List PeriodRow} {closes : List CloseRow}
    (asked : event.Asked sha256 closes)
    (defined : ∀ row ∈ periods, ∃ command, row = definedRow command) :
    RowsAsked sha256 [event] periods closes := by
  refine ⟨fun other member => ?_, defined⟩
  rw [List.mem_singleton.mp member]
  exact asked

theorem batchWrites_asked {members : List BatchMember}
    (own : ∀ m ∈ members, m.command.idempotencyHash sha256 = .ok m.hash) :
    (batchWrites env snapshot current members).Asked sha256 := by
  refine ⟨fun event isThere => ?_, fun _ isThere => absurd isThere List.not_mem_nil⟩
  obtain ⟨row, isRow, _, _, rfl⟩ := claimed_spec.1 event isThere
  obtain ⟨numbered, isMember, rfl⟩ := List.mem_map.mp isRow
  have inMembers : numbered.2 ∈ members := by
    rw [← Numbering.map_snd_withOrdinality members]
    exact List.mem_map_of_mem isMember
  exact .post numbered.2.command rfl rfl rfl (own _ inMembers)

theorem statement_asked (env : Env) (snapshot current : Book) (request : Request)
    (own : request.OwnHash sha256) :
    (statement env snapshot current request).2.Asked sha256 := by
  have nothing : Writes.none.Asked sha256 := RowsAsked.none
  cases request with
  | claimAndAppend command hash payload append =>
      change (claimAndAppend env snapshot current command hash payload append).2.Asked sha256
      rcases @claimAndAppend_wrote env snapshot current hash payload command append with
        same | same
      · rw [same]
        exact nothing
      · rw [same]
        exact asked_of_event (.post command rfl rfl rfl own)
          fun _ member => absurd member List.not_mem_nil
  | claimAndAppendBatch members =>
      change (claimAndAppendBatch env snapshot current members).2.Asked sha256
      rcases @claimAndAppendBatch_wrote env snapshot current members with same | same
      · rw [same]
        exact nothing
      · rw [same]
        exact batchWrites_asked own
  | claimAndOpenAccount command hash payload triple =>
      change (claimAndOpenAccount env current command hash payload triple).2.Asked sha256
      rcases @claimAndOpenAccount_wrote env current hash payload command triple with
        same | same
      · rw [same]
        exact nothing
      · rw [same]
        exact asked_of_event (.openAccount command rfl rfl rfl own)
          fun _ member => absurd member List.not_mem_nil
  | claimAndDefinePeriod command hash payload =>
      change (claimAndDefinePeriod env current command hash payload).2.Asked sha256
      rcases @claimAndDefinePeriod_wrote env current hash payload command with same | same
      · rw [same]
        exact nothing
      · rw [same]
        exact asked_of_event (.definePeriod command rfl rfl rfl own)
          fun row member => ⟨command, List.mem_singleton.mp member⟩
  | claimAndClosePeriod command hash payload plan =>
      change (claimAndClosePeriod env snapshot current command hash payload plan).2.Asked sha256
      rcases @claimAndClosePeriod_wrote env snapshot current hash payload command plan with
        same | same
      · rw [same]
        exact nothing
      · rw [same]
        exact asked_of_event
          (.closePeriod command rfl rfl rfl own ⟨_, List.mem_singleton_self _, rfl, rfl, rfl⟩)
          fun _ member => absurd member List.not_mem_nil
  | checkpointTheClose command plan transactionId cursor =>
      exact checkpointTheClose_asked command plan transactionId cursor
  | _ => exact nothing

theorem inherits_asked : Inheritance (Request.OwnHash sha256) (Writes.Asked sha256)
    (Book.Asked sha256) where
  none := RowsAsked.none
  append := RowsAsked.append
  statement := statement_asked
  apply := RowsAsked.append

/-- Every event of every book was claimed by a command of its operation. -/
theorem asked_of_interleaved {chart : Chart} {machine : Machine}
    (interleaved : Interleaved sha256 chart machine) : machine.committed.Asked sha256 :=
  held_of_interleaved inherits_asked program_asks RowsAsked.none interleaved

/-- Every close came with an event under its derived key. -/
def RowsKeyed (events : List EventRow) (closes : List CloseRow) : Prop :=
  ∀ close ∈ closes, ∃ event ∈ events, event.tenantId = close.tenantId ∧
    event.idempotencyKey = closeKey close.tenantId close.periodCode close.currency

theorem RowsKeyed.append {events moreEvents : List EventRow} {closes moreCloses : List CloseRow}
    (first : RowsKeyed events closes) (second : RowsKeyed moreEvents moreCloses) :
    RowsKeyed (events ++ moreEvents) (closes ++ moreCloses) := by
  intro close member
  rcases List.mem_append.mp member with isOld | isNew
  · obtain ⟨event, isThere, spec⟩ := first close isOld
    exact ⟨event, List.mem_append_left _ isThere, spec⟩
  · obtain ⟨event, isThere, spec⟩ := second close isNew
    exact ⟨event, List.mem_append_right _ isThere, spec⟩

theorem rows_of_wrote {writes full : Writes} (wrote : writes = .none ∨ writes = full)
    (closes : full.closes = []) (periodBalances : full.periodBalances = []) :
    writes.closes = [] ∧ writes.periodBalances = [] := by
  rcases wrote with rfl | rfl
  · exact ⟨rfl, rfl⟩
  · exact ⟨closes, periodBalances⟩

/-- Only the two closing statements write a close or its checkpoint. -/
theorem statement_closes_nothing (env : Env) (snapshot current : Book) {request : Request}
    (notClosing : request.isClosing = false) :
    (statement env snapshot current request).2.closes = [] ∧
      (statement env snapshot current request).2.periodBalances = [] := by
  cases request with
  | claimAndAppend command hash payload append =>
      exact rows_of_wrote (claimAndAppend_wrote command append) rfl rfl
  | claimAndAppendBatch members =>
      exact rows_of_wrote (claimAndAppendBatch_wrote members) rfl rfl
  | claimAndOpenAccount command hash payload triple =>
      exact rows_of_wrote (claimAndOpenAccount_wrote command triple) rfl rfl
  | claimAndDefinePeriod command hash payload =>
      exact rows_of_wrote (claimAndDefinePeriod_wrote command) rfl rfl
  | claimAndClosePeriod =>
      cases notClosing
  | checkpointTheClose =>
      cases notClosing
  | _ =>
      exact ⟨rfl, rfl⟩

theorem statement_keyed (env : Env) (snapshot current : Book) (request : Request) :
    RowsKeyed (statement env snapshot current request).2.events
      (statement env snapshot current request).2.closes := by
  have nothing : ∀ {writes : Writes}, writes.closes = [] →
      RowsKeyed writes.events writes.closes := by
    intro writes isNil close member
    rw [isNil] at member
    exact absurd member List.not_mem_nil
  cases isClosing : request.isClosing with
  | false =>
      exact nothing (statement_closes_nothing env snapshot current isClosing).1
  | true =>
      cases request with
      | claimAndClosePeriod command hash payload plan =>
          change RowsKeyed (claimAndClosePeriod env snapshot current command hash payload
            plan).2.events (claimAndClosePeriod env snapshot current command hash payload
              plan).2.closes
          rcases @claimAndClosePeriod_wrote env snapshot current hash payload command plan with
            same | same
          · rw [same]
            exact nothing rfl
          · rw [same]
            intro close member
            rw [List.mem_singleton.mp member]
            exact ⟨_, List.mem_singleton_self _, rfl, rfl⟩
      | checkpointTheClose command plan transactionId cursor =>
          refine nothing ?_
          change (checkpointTheClose env snapshot current command plan transactionId
            cursor).2.closes = []
          unfold checkpointTheClose
          dsimp only
          split <;> rfl
      | _ =>
          cases isClosing

theorem inherits_keyed : Inheritance (Request.OwnHash sha256)
    (fun writes => RowsKeyed writes.events writes.closes)
    (fun book => RowsKeyed book.events book.closes) where
  none := fun _ member => absurd member List.not_mem_nil
  append := RowsKeyed.append
  statement := fun env snapshot current request _ =>
    statement_keyed env snapshot current request
  apply := RowsKeyed.append

/-- Every close of every book holds its derived key. -/
theorem keyed_of_interleaved {chart : Chart} {machine : Machine}
    (interleaved : Interleaved sha256 chart machine) :
    RowsKeyed machine.committed.events machine.committed.closes :=
  held_of_interleaved inherits_keyed program_asks
    (fun _ member => absurd member List.not_mem_nil) interleaved

/-- A defined period starts within the representable years. -/
theorem Book.Asked.startsInRange {book : Book} (asked : book.Asked sha256) {row : PeriodRow}
    (member : row ∈ book.periods) : firstRepresentable ≤ row.startsAt := by
  obtain ⟨command, rfl⟩ := asked.periods row member
  have inRange := command.startsInUtc
  rw [OffsetDateTime.checkedToUtc] at inRange
  split at inRange
  · rename_i years
    have first := Instant.le_year_iff.mp years.1
    obtain ⟨micros, isStored, either⟩ := command.startsAt.stored_cases
    have isStart : (definedRow command).startsAt = micros := isStored
    rw [isStart]
    unfold Instant.firstDayOf Instant.nanosPerSecond at first
    have isAbove : (-377705116800000000 : Int) ≤ micros := by omega
    exact isAbove
  · cases inRange

end Rows

end OpenLedger
