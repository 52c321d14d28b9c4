import OpenLedger.Postgres.OneTenant

/-!
# Tenants beside each other

What some tenants see of a machine is a machine: their sessions over their rows.
Every interleaving, seen by them, is an interleaving of their own operations
alone, and whatever they could do alone they can do beside the others.
-/

namespace OpenLedger

open Postgres

variable {mine : String → Bool}

/-! ## What an operation asks -/

section Asking

variable {sha256 : List UInt8 → List UInt8}

theorem post_asks_within {command : PostTransaction} (isMine : mine command.tenantId = true) :
    (post sha256 command).run.Asks (Request.Within mine) := by
  unfold post
  split
  · exact Program.asks_done _
  · refine asks_useCase _ _ _ trivial fun _ => ?_
    refine asks_useCase _ _ _ isMine fun claimed => ?_
    rcases claimed with - | (appended | refusal)
    · refine asks_useCase _ _ _ isMine fun stored => ?_
      refine asks_useCase _ _ _ trivial fun _ => ?_
      rcases stored with - | ⟨eventId, transactionId⟩ <;> exact Program.asks_done _
    · dsimp only
      split
      · exact asks_last _ _ _ trivial
      · unfold commitOrRefuseUnknownAccount
        split
        · exact asks_last _ _ _ trivial
        · split
          · exact asks_last _ _ _ trivial
          · exact asks_last _ _ _ trivial
    · exact asks_last _ _ _ trivial

/-- The members whose key is held are members. -/
theorem replaying_subset (members : List BatchMember) (outcomes : List MemberOutcome) :
    ∀ m ∈ membersReplayingAnEarlierWrite members outcomes, m ∈ members := by
  intro m isThere
  obtain ⟨answered, isPair, rfl⟩ := List.mem_map.mp isThere
  exact (List.of_mem_zip (List.mem_filter.mp isPair).1).1

theorem appendTheBatch_asks_within {members : List BatchMember}
    (own : ∀ m ∈ members, mine m.command.tenantId = true) :
    (appendTheBatch members).run.Asks (Request.Within mine) := by
  unfold appendTheBatch
  refine asks_useCase _ _ _ trivial fun _ => ?_
  refine asks_useCase _ _ _ own fun (outcomes : List MemberOutcome) => ?_
  split
  · exact asks_last _ _ _ trivial
  · dsimp only
    by_cases nobody : (membersReplayingAnEarlierWrite members outcomes).isEmpty = true
    · have asked : replayedResultsFor (membersReplayingAnEarlierWrite members outcomes) =
          pure [] := if_pos nobody
      rw [asked, pure_bind]
      split
      · exact asks_last _ _ _ trivial
      · exact asks_last _ _ _ trivial
    · have asked : replayedResultsFor (membersReplayingAnEarlierWrite members outcomes) =
          ask .storage (.storedResultBatch (membersReplayingAnEarlierWrite members outcomes)) :=
        if_neg nobody
      have ownReplaying : Request.Within mine
          (.storedResultBatch (membersReplayingAnEarlierWrite members outcomes)) :=
        fun m isThere => own m (replaying_subset members outcomes m isThere)
      rw [asked]
      refine asks_useCase _ _ _ ownReplaying fun replayed => ?_
      split
      · exact asks_last _ _ _ trivial
      · exact asks_last _ _ _ trivial

/-- A member a batch carries on is one of its commands. -/
theorem command_of_plannedMembers {commands : List PostTransaction} {m : BatchMember}
    (isMember : m ∈ plannedMembers (commands.map (planFor sha256))) : m.command ∈ commands := by
  obtain ⟨answer, isAnswer, isKept⟩ := List.mem_filterMap.mp isMember
  obtain ⟨command, isCommand, rfl⟩ := List.mem_map.mp isAnswer
  cases isPlan : planFor sha256 command with
  | error refusal =>
      rw [isPlan] at isKept
      cases isKept
  | ok planned =>
      rw [isPlan] at isKept
      cases isKept
      rw [Planned.asMember, (planFor_ok isPlan).1]
      exact isCommand

theorem postBatch_asks_within {commands : List PostTransaction}
    (own : ∀ command ∈ commands, mine command.tenantId = true) :
    (postBatch sha256 commands).Asks (Request.Within mine) := by
  unfold postBatch
  split
  · exact Program.asks_done _
  · exact Program.asks_bind (post_asks_within (own _ List.mem_cons_self))
      fun _ => Program.asks_done _
  · have ofMembers : ∀ m ∈ plannedMembers (commands.map (planFor sha256)),
        mine m.command.tenantId = true :=
      fun m isMember => own _ (command_of_plannedMembers isMember)
    unfold postTogether
    dsimp only
    split
    · exact Program.asks_done _
    · rename_i only isOnly
      exact Program.asks_bind
        (post_asks_within (ofMembers only (isOnly ▸ List.mem_singleton_self only)))
        fun _ => Program.asks_done _
    · refine Program.asks_bind (appendTheBatch_asks_within ofMembers) fun answer => ?_
      cases answer <;> exact Program.asks_done _

theorem openAccount_asks_within {command : OpenAccount}
    (isMine : mine command.tenantId = true) :
    (openAccount sha256 command).run.Asks (Request.Within mine) := by
  unfold openAccount
  refine asks_useCase _ _ _ trivial fun _ => ?_
  refine asks_useCase _ _ _ trivial fun triple? => ?_
  rcases triple? with - | triple
  · exact asks_last _ _ _ trivial
  · dsimp only
    split
    · exact asks_last _ _ _ trivial
    · refine asks_useCase _ _ _ isMine fun claimed => ?_
      rcases claimed with - | (⟨eventId, account⟩ | -)
      · refine asks_useCase _ _ _ isMine fun stored => ?_
        refine asks_useCase _ _ _ trivial fun _ => ?_
        rcases stored with - | ⟨eventId, - | account⟩ <;> exact Program.asks_done _
      · exact asks_last _ _ _ trivial
      · exact asks_last _ _ _ trivial

theorem definePeriod_asks_within {command : DefinePeriod}
    (isMine : mine command.tenantId = true) :
    (definePeriod sha256 command).run.Asks (Request.Within mine) := by
  unfold definePeriod
  split
  · exact Program.asks_done _
  · exact Program.asks_done _
  · refine asks_useCase _ _ _ trivial fun _ => ?_
    refine asks_useCase _ _ _ isMine fun claimed => ?_
    rcases claimed with - | (⟨eventId, period⟩ | - | - | -)
    · refine asks_useCase _ _ _ isMine fun stored => ?_
      refine asks_useCase _ _ _ trivial fun _ => ?_
      rcases stored with - | ⟨eventId, - | period⟩ <;> exact Program.asks_done _
    all_goals exact asks_last _ _ _ trivial

theorem closePeriod_asks_within {command : ClosePeriod}
    (isMine : mine command.tenantId = true) :
    (closePeriod sha256 command).run.Asks (Request.Within mine) := by
  unfold closePeriod
  refine asks_useCase _ _ _ trivial fun _ => ?_
  refine asks_useCase _ _ _ isMine fun context? => ?_
  rcases context? with - | context
  · exact asks_last _ _ _ trivial
  · dsimp only
    split
    · exact asks_last _ _ _ trivial
    · split
      · exact asks_last _ _ _ trivial
      · refine asks_useCase _ _ _ isMine fun claimed => ?_
        rcases claimed with - | (⟨eventId, transactionId, cursor, swept⟩ | -)
        · refine asks_useCase _ _ _ isMine fun held => ?_
          refine asks_useCase _ _ _ trivial fun _ => ?_
          split <;> exact Program.asks_done _
        · refine asks_useCase _ _ _ isMine fun rows => ?_
          exact asks_last _ _ _ trivial
        · exact asks_last _ _ _ trivial

/-- An operation about some tenants asks about them alone. -/
theorem program_asks_within {operation : Operation}
    (isWithin : operation.isWithin mine = true) :
    (operation.program sha256).Asks (Request.Within mine) := by
  have all := List.all_eq_true.mp isWithin
  cases operation with
  | post command =>
      exact Program.asks_bind (post_asks_within (all _ List.mem_cons_self))
        fun _ => Program.asks_done _
  | postBatch commands =>
      exact Program.asks_bind
        (postBatch_asks_within fun command isThere => all _ (List.mem_map_of_mem isThere))
        fun _ => Program.asks_done _
  | openAccount command =>
      exact Program.asks_bind (openAccount_asks_within (all _ List.mem_cons_self))
        fun _ => Program.asks_done _
  | definePeriod command =>
      exact Program.asks_bind (definePeriod_asks_within (all _ List.mem_cons_self))
        fun _ => Program.asks_done _
  | closePeriod command =>
      exact Program.asks_bind (closePeriod_asks_within (all _ List.mem_cons_self))
        fun _ => Program.asks_done _

end Asking

/-! ## Confinement -/

/-- A session asks about its operation's tenants alone, and has written their rows
alone. -/
def Session.Confined (session : Session) : Prop :=
  ∀ mine : String → Bool, session.operation.isWithin mine = true →
    session.Inherits (Request.Within mine) (Writes.Within mine)

section Confined

variable {sha256 : List UInt8 → List UInt8} {chart : Chart} {machine after : Machine}

theorem inherits_within (mine : String → Bool) :
    Inheritance (Request.Within mine) (Writes.Within mine) fun _ => True where
  none := .none
  append := fun first second => first.append second
  statement := fun _ _ _ _ isWithin => statement_own isWithin
  apply := fun _ _ => trivial

theorem Session.Confined.advance {session : Session}
    {program : Program Request Request.Reply Outcome} {written : Writes} (trace : List Ran)
    (confined : ∀ mine : String → Bool, session.operation.isWithin mine = true →
      program.Asks (Request.Within mine) ∧ written.Within mine) :
    (session.advance program written trace).Confined := fun mine isWithin =>
  Session.Inherits.advance (inherits_within mine) session (confined mine isWithin).1
    (confined mine isWithin).2

/-- What a statement leaves written is confined when what was is. -/
theorem Session.Confined.reached {session : Session} {request : Request}
    {next : request.Reply → Program Request Request.Reply Outcome}
    (confined : session.Confined) (isNext : session.program = .ask request next)
    (isWithin : session.operation.isWithin mine = true) (snapshot committed : Book) :
    (next (session.answered snapshot committed request).1).Asks (Request.Within mine) ∧
      (session.reached snapshot committed request).written.Within mine := by
  have held := confined mine isWithin
  have asks := held.asks
  rw [isNext, Program.asks_ask] at asks
  refine ⟨asks.2 _, ?_⟩
  rcases Connection.after_cases ⟨committed, session.written⟩ request
      (session.answered snapshot committed request).2 with
    ⟨_, committing⟩ | ⟨_, _, isNone | isAppended⟩
  · rw [Session.reached, committing]
    exact .none
  · rw [Session.reached, isNone]
    exact .none
  · rw [Session.reached, isAppended]
    exact held.written.append (statement_own asks.1)

theorem confined_replace (was : ∀ session ∈ machine.sessions, session.Confined) {index : Nat}
    {session : Session} (here : session.Confined) :
    ∀ other ∈ (machine.replace index session).sessions, other.Confined := by
  intro other member
  rcases List.mem_or_eq_of_mem_set member with isOld | rfl
  · exact was other isOld
  · exact here

/-- Every step keeps the sessions confined. -/
theorem confined_step (was : ∀ session ∈ machine.sessions, session.Confined) {action : Action}
    (stepped : machine.step sha256 action = some after) :
    ∀ session ∈ after.sessions, session.Confined := by
  cases action with
  | start operation env =>
      cases stepped
      intro session member
      rcases List.mem_append.mp member with isOld | isNew
      · exact was session isOld
      · obtain rfl := List.mem_singleton.mp isNew
        exact fun mine isWithin => ⟨program_asks_within isWithin, .none⟩
  | elsewhere =>
      cases stepped
      exact was
  | assign index =>
      obtain ⟨session, here, assigned⟩ := Option.bind_eq_some_iff.mp stepped
      dsimp only at assigned
      split at assigned
      · cases assigned
        have held := was session (List.mem_of_getElem? here)
        exact confined_replace was fun mine isWithin =>
          ⟨(held mine isWithin).asks, (held mine isWithin).written⟩
      · cases assigned
  | look index =>
      obtain ⟨session, here, rfl⟩ := Option.map_eq_some_iff.mp stepped
      have held := was session (List.mem_of_getElem? here)
      exact confined_replace was fun mine isWithin =>
        ⟨(held mine isWithin).asks, (held mine isWithin).written⟩
  | run index =>
      obtain ⟨session, here, ran⟩ := Option.bind_eq_some_iff.mp stepped
      have held := was session (List.mem_of_getElem? here)
      obtain ⟨snapshot, request, next, _, isNext, _, _, rfl⟩ := Machine.runStatement_eq_some ran
      exact confined_replace was
        (Session.Confined.advance _ fun mine isWithin => held.reached isNext isWithin _ _)
  | fail index failure =>
      obtain ⟨session, here, failed⟩ := Option.bind_eq_some_iff.mp stepped
      split at failed
      · cases failed
      · rename_i request next isNext
        cases failed
        have held := was session (List.mem_of_getElem? here)
        refine confined_replace was (Session.Confined.advance _ fun mine isWithin => ?_)
        have asks := (held mine isWithin).asks
        rw [isNext, Program.asks_ask] at asks
        exact ⟨asks.2 _, .none⟩

theorem confined_of_interleaved (interleaved : Interleaved sha256 chart machine) :
    ∀ session ∈ machine.sessions, session.Confined := by
  induction interleaved with
  | initial =>
      exact fun _ member => absurd member List.not_mem_nil
  | step _ _ stepped inductionHypothesis =>
      exact confined_step inductionHypothesis stepped

end Confined

/-! ## What some tenants see -/

def Ran.seenBy (mine : String → Bool) (ran : Ran) : Ran :=
  ⟨ran.request, ran.snapshot.within mine, ran.current.within mine⟩

def Session.seenBy (mine : String → Bool) (session : Session) : Session :=
  { session with
    snapshot := session.snapshot.map (Book.within mine)
    trace := session.trace.map (Ran.seenBy mine) }

/-- The machine some tenants see: their sessions alone, over their rows alone. -/
def Machine.seenBy (mine : String → Bool) (machine : Machine) : Machine where
  committed := machine.committed.within mine
  next := machine.next
  sessions := (machine.sessions.filter fun session => session.operation.isWithin mine).map
    (Session.seenBy mine)

/-- Where a session is among the ones they see. -/
def Machine.rank (mine : String → Bool) (machine : Machine) (index : Nat) : Nat :=
  Fence.rank (fun session : Session => session.operation.isWithin mine) machine.sessions index

/-- Whether a step is theirs: an operation of theirs that starts, or one of their
sessions. -/
def Machine.owns (mine : String → Bool) (machine : Machine) : Action → Bool
  | .start operation _ => operation.isWithin mine
  | .elsewhere => true
  | .assign index | .look index | .run index | .fail index _ =>
      machine.sessions[index]?.any fun session => session.operation.isWithin mine

/-- A step of theirs as they see it. -/
def Action.seenBy (mine : String → Bool) (machine : Machine) : Action → Action
  | start operation env => start operation env
  | elsewhere => elsewhere
  | assign index => assign (machine.rank mine index)
  | look index => look (machine.rank mine index)
  | run index => run (machine.rank mine index)
  | fail index failure => fail (machine.rank mine index) failure

section Views

variable {machine after : Machine} {index : Nat} {session : Session}

theorem seenBy_getElem? (here : machine.sessions[index]? = some session)
    (inside : session.operation.isWithin mine = true) :
    (machine.seenBy mine).sessions[machine.rank mine index]? = some (session.seenBy mine) := by
  have ranked : (machine.sessions.filter fun session : Session =>
      session.operation.isWithin mine)[machine.rank mine index]? = some session :=
    Fence.getElem?_rank here inside
  rw [Machine.seenBy, List.getElem?_map, ranked, Option.map_some]

theorem seenBy_replace (new : Session)
    (here : machine.sessions[index]? = some session)
    (inside : session.operation.isWithin mine = true)
    (same : new.operation = session.operation) :
    (machine.replace index new).seenBy mine =
      (machine.seenBy mine).replace (machine.rank mine index) (new.seenBy mine) := by
  have stays : new.operation.isWithin mine = true := by
    rw [same]
    exact inside
  have kept : (machine.sessions.set index new).filter
        (fun session => session.operation.isWithin mine) =
      (machine.sessions.filter fun session => session.operation.isWithin mine).set
        (machine.rank mine index) new :=
    Fence.filter_set_mine here inside stays
  simp only [Machine.seenBy, Machine.replace, kept, List.map_set]

theorem seenBy_replace_foreign (new : Session)
    (here : machine.sessions[index]? = some session)
    (outside : session.operation.isWithin mine = false)
    (same : new.operation = session.operation) :
    (machine.replace index new).seenBy mine = machine.seenBy mine := by
  have stays : new.operation.isWithin mine = false := by
    rw [same]
    exact outside
  have kept : (machine.sessions.set index new).filter
        (fun session => session.operation.isWithin mine) =
      machine.sessions.filter fun session => session.operation.isWithin mine :=
    Fence.filter_set_foreign here outside stays
  simp only [Machine.seenBy, Machine.replace, kept]

theorem seenBy_advance (session : Session)
    (program : Program Request Request.Reply Outcome) (written : Writes) (trace : List Ran) :
    (session.advance program written trace).seenBy mine =
      (session.seenBy mine).advance program written (trace.map (Ran.seenBy mine)) := rfl

/-- A statement of a session they see answers and writes what they see it do. -/
theorem seenBy_answered (confined : session.Confined)
    (inside : session.operation.isWithin mine = true) {request : Request}
    (isWithin : request.Within mine) (snapshot committed : Book) :
    (session.seenBy mine).answered (snapshot.within mine) (committed.within mine) request =
      session.answered snapshot committed request := by
  have written := (confined mine inside).written
  change statement session.env ((snapshot.within mine).apply session.written)
    ((committed.within mine).apply session.written) request = _
  rw [← Book.within_apply snapshot written, ← Book.within_apply committed written,
    statement_within isWithin]
  rfl

theorem seenBy_after (committed : Book) {written : Writes} (own : written.Within mine)
    (request : Request) (writes : Writes) :
    Connection.after ⟨committed.within mine, written⟩ request writes =
      ⟨(Connection.after ⟨committed, written⟩ request writes).committed.within mine,
        (Connection.after ⟨committed, written⟩ request writes).written⟩ := by
  cases request with
  | commit =>
      have landed := Book.within_apply committed own
      simp only [Connection.after, Connection.working, landed]
  | _ =>
      rfl

theorem seenBy_reached (confined : session.Confined)
    (inside : session.operation.isWithin mine = true) {request : Request}
    (isWithin : request.Within mine) (snapshot committed : Book) :
    (session.seenBy mine).reached (snapshot.within mine) (committed.within mine) request =
      ⟨(session.reached snapshot committed request).committed.within mine,
        (session.reached snapshot committed request).written⟩ := by
  rw [Session.reached, seenBy_answered confined inside isWithin]
  exact seenBy_after committed (confined mine inside).written request _

/-- Nobody's statement waits for another tenant's bracket: it is unblocked when
its own tenants see it unblocked. -/
theorem seenBy_unblocked (confined : ∀ session ∈ machine.sessions, session.Confined)
    (ofOneTenant : ∀ session ∈ machine.sessions, session.operation.OfOneTenant)
    (here : machine.sessions[index]? = some session)
    (inside : session.operation.isWithin mine = true) {writes : Writes}
    (own : writes.Within mine) :
    (machine.seenBy mine).Unblocked (machine.rank mine index) writes ↔
      machine.Unblocked index writes := by
  constructor
  · intro unblocked other member elsewhere
    obtain ⟨right, there⟩ := other
    have isThere := List.mk_mem_zipIdx_iff_getElem?.mp member
    have isSession := List.mem_of_getElem? isThere
    rcases (ofOneTenant right isSession).isWithin_or mine with rightInside | rightOutside
    · have apart := unblocked (right.seenBy mine, machine.rank mine there)
        (List.mk_mem_zipIdx_iff_getElem?.mpr (seenBy_getElem? isThere rightInside))
        fun same => elsewhere (Fence.rank_injective isThere here rightInside inside same)
      exact apart
    · exact own.apart (confined right isSession _ rightOutside).written
  · intro unblocked other member elsewhere
    obtain ⟨view, place⟩ := other
    have isThere := List.mk_mem_zipIdx_iff_getElem?.mp member
    rw [Machine.seenBy, List.getElem?_map] at isThere
    obtain ⟨right, isRight, rfl⟩ := Option.map_eq_some_iff.mp isThere
    obtain ⟨there, atThere, _, ranked⟩ := Fence.exists_of_getElem?_filter isRight
    refine unblocked (right, there) (List.mk_mem_zipIdx_iff_getElem?.mpr atThere) ?_
    rintro rfl
    exact elsewhere ranked.symm

end Views

/-! ## Steps -/

section Steps

variable {sha256 : List UInt8 → List UInt8} {machine after : Machine} {action : Action}

theorem runStatement_seenBy (confined : ∀ session ∈ machine.sessions, session.Confined)
    (ofOneTenant : ∀ session ∈ machine.sessions, session.operation.OfOneTenant)
    {index : Nat} {session : Session} (here : machine.sessions[index]? = some session)
    (inside : session.operation.isWithin mine = true) :
    (machine.runStatement index session).map (Machine.seenBy mine) =
      (machine.seenBy mine).runStatement (machine.rank mine index) (session.seenBy mine) := by
  have held := confined session (List.mem_of_getElem? here)
  have sameProgram : (session.seenBy mine).program = session.program := rfl
  cases looked : session.snapshot with
  | none =>
      have seenNone : (session.seenBy mine).snapshot = none := by
        rw [Session.seenBy, looked, Option.map_none]
      rw [Machine.runStatement, Machine.runStatement, looked, seenNone, Option.map_none]
  | some snapshot =>
      have seenLook : (session.seenBy mine).snapshot = some (snapshot.within mine) := by
        rw [Session.seenBy, looked, Option.map_some]
      cases isNext : session.program with
      | done answer =>
          simp only [Machine.runStatement, looked, seenLook, sameProgram, isNext,
            Option.map_none]
      | ask request next =>
          have asks := (held mine inside).asks
          rw [isNext, Program.asks_ask] at asks
          have answered := seenBy_answered held inside asks.1 snapshot machine.committed
          have reached := seenBy_reached held inside asks.1 snapshot machine.committed
          have own : (session.answered snapshot machine.committed request).2.Within mine :=
            statement_own asks.1
          have unblocked := seenBy_unblocked confined ofOneTenant here inside own
          have allowed : ((session.seenBy mine).assigned = true ∨
                (session.answered snapshot machine.committed request).2.isEmpty = true) ∧
              (machine.seenBy mine).Unblocked (machine.rank mine index)
                (session.answered snapshot machine.committed request).2 ↔
              (session.assigned = true ∨
                (session.answered snapshot machine.committed request).2.isEmpty = true) ∧
              machine.Unblocked index
                (session.answered snapshot machine.committed request).2 :=
            and_congr_right fun _ => unblocked
          have seenCommitted : (machine.seenBy mine).committed = machine.committed.within mine :=
            rfl
          simp only [Machine.runStatement, looked, seenLook, sameProgram, isNext,
            seenCommitted, answered, reached, allowed]
          split
          · rw [Option.map_some]
            have replaced := seenBy_replace
              (session.advance (next (session.answered snapshot machine.committed request).1)
                (session.reached snapshot machine.committed request).written
                (session.trace ++ [⟨request, snapshot, machine.committed⟩])) here inside rfl
            rw [seenBy_advance, List.map_append] at replaced
            exact congrArg some (congrArg (fun view : Machine =>
              { view with committed :=
                (session.reached snapshot machine.committed request).committed.within mine })
              replaced)
          · rfl

/-- A step of theirs is possible exactly when they see it possible, and does what
they see it do. -/
theorem step_seenBy (confined : ∀ session ∈ machine.sessions, session.Confined)
    (ofOneTenant : ∀ session ∈ machine.sessions, session.operation.OfOneTenant)
    (owns : machine.owns mine action = true) :
    (machine.step sha256 action).map (Machine.seenBy mine) =
      (machine.seenBy mine).step sha256 (action.seenBy mine machine) := by
  cases action with
  | start operation env =>
      have started : (machine.sessions ++
            [Session.mk operation env (operation.program sha256) .none none false []]).filter
              (fun session => session.operation.isWithin mine) =
          machine.sessions.filter (fun session => session.operation.isWithin mine) ++
            [Session.mk operation env (operation.program sha256) .none none false []] :=
        Fence.filter_append_mine fun session member => by
          rw [List.mem_singleton.mp member]
          exact owns
      simp only [Machine.step, Action.seenBy, Option.map_some, Machine.seenBy, started,
        List.map_append]
      rfl
  | elsewhere =>
      rfl
  | assign index =>
      obtain ⟨session, here, inside⟩ := (Option.any_eq_true _ _).mp owns
      have replaced := seenBy_replace { session with assigned := true } here inside rfl
      simp only [Machine.step, Action.seenBy, here, seenBy_getElem? here inside,
        Option.bind_some]
      by_cases turn : session.assigned = false ∧ session.env.xid = machine.next
      · have seenTurn : (session.seenBy mine).assigned = false ∧
            (session.seenBy mine).env.xid = (machine.seenBy mine).next := turn
        rw [if_pos turn, if_pos seenTurn, Option.map_some]
        exact congrArg some (congrArg (fun view : Machine =>
          { view with next := machine.next + 1 }) replaced)
      · have seenTurn : ¬ ((session.seenBy mine).assigned = false ∧
            (session.seenBy mine).env.xid = (machine.seenBy mine).next) := turn
        rw [if_neg turn, if_neg seenTurn, Option.map_none]
  | look index =>
      obtain ⟨session, here, inside⟩ := (Option.any_eq_true _ _).mp owns
      simp only [Machine.step, Action.seenBy, here, seenBy_getElem? here inside,
        Option.map_some]
      exact congrArg some (seenBy_replace _ here inside rfl)
  | run index =>
      obtain ⟨session, here, inside⟩ := (Option.any_eq_true _ _).mp owns
      simp only [Machine.step, Action.seenBy, here, seenBy_getElem? here inside,
        Option.bind_some]
      exact runStatement_seenBy confined ofOneTenant here inside
  | fail index failure =>
      obtain ⟨session, here, inside⟩ := (Option.any_eq_true _ _).mp owns
      have sameProgram : (session.seenBy mine).program = session.program := rfl
      simp only [Machine.step, Action.seenBy, here, seenBy_getElem? here inside,
        Option.bind_some, sameProgram]
      cases isNext : session.program with
      | done answer =>
          rfl
      | ask request next =>
          exact congrArg some (seenBy_replace
            (session.advance (next (.error failure)) .none session.trace) here inside rfl)

/-- A step of others they see nothing of, but that an id was taken. -/
theorem step_unseen (confined : ∀ session ∈ machine.sessions, session.Confined)
    (ofOneTenant : ∀ session ∈ machine.sessions, session.operation.OfOneTenant)
    (foreign : machine.owns mine action = false)
    (stepped : machine.step sha256 action = some after) :
    after.seenBy mine = { machine.seenBy mine with next := after.next } ∧
      (after.next = machine.next ∨ after.next = machine.next + 1) := by
  have outside : ∀ {index : Nat} {session : Session},
      (machine.sessions[index]?.any fun session => session.operation.isWithin mine) = false →
      machine.sessions[index]? = some session → session.operation.isWithin mine = false := by
    intro index session nobody here
    rw [here] at nobody
    exact nobody
  cases action with
  | start operation env =>
      cases stepped
      have dropped : (machine.sessions ++
            [Session.mk operation env (operation.program sha256) .none none false []]).filter
              (fun session => session.operation.isWithin mine) =
          machine.sessions.filter fun session => session.operation.isWithin mine :=
        Fence.filter_append_foreign fun session member => by
          rw [List.mem_singleton.mp member]
          exact foreign
      refine ⟨?_, Or.inl rfl⟩
      simp only [Machine.seenBy, dropped]
  | elsewhere =>
      cases foreign
  | assign index =>
      obtain ⟨session, here, assigned⟩ := Option.bind_eq_some_iff.mp stepped
      dsimp only at assigned
      split at assigned
      · cases assigned
        have replaced := seenBy_replace_foreign { session with assigned := true } here
          (outside foreign here) rfl
        exact ⟨congrArg (fun view : Machine => { view with next := machine.next + 1 }) replaced,
          Or.inr rfl⟩
      · cases assigned
  | look index =>
      obtain ⟨session, here, rfl⟩ := Option.map_eq_some_iff.mp stepped
      exact ⟨seenBy_replace_foreign _ here (outside foreign here) rfl, Or.inl rfl⟩
  | run index =>
      obtain ⟨session, here, ran⟩ := Option.bind_eq_some_iff.mp stepped
      have isOutside := outside foreign here
      have isSession := List.mem_of_getElem? here
      obtain ⟨snapshot, request, next, _, isNext, _, _, rfl⟩ := Machine.runStatement_eq_some ran
      have replaced := seenBy_replace_foreign
        (session.advance (next (session.answered snapshot machine.committed request).1)
          (session.reached snapshot machine.committed request).written
          (session.trace ++ [⟨request, snapshot, machine.committed⟩])) here isOutside rfl
      have otherSide : session.operation.isWithin (fun tenant => !mine tenant) = true := by
        rcases (ofOneTenant session isSession).isWithin_or mine with inside | there
        · rw [isOutside] at inside
          cases inside
        · exact there
      have written := (confined session isSession _ otherSide).written
      have unseen : (session.reached snapshot machine.committed request).committed.within mine =
          machine.committed.within mine := by
        rcases Connection.after_cases ⟨machine.committed, session.written⟩ request
            (session.answered snapshot machine.committed request).2 with
          ⟨_, committing⟩ | ⟨_, sameBook, _⟩
        · rw [Session.reached, committing]
          exact Book.within_apply_foreign machine.committed written
        · rw [Session.reached, sameBook]
      refine ⟨?_, Or.inl rfl⟩
      have view : Machine.seenBy mine { machine.replace index (session.advance
            (next (session.answered snapshot machine.committed request).1)
            (session.reached snapshot machine.committed request).written
            (session.trace ++ [⟨request, snapshot, machine.committed⟩])) with
          committed := (session.reached snapshot machine.committed request).committed } =
          { Machine.seenBy mine (machine.replace index (session.advance
              (next (session.answered snapshot machine.committed request).1)
              (session.reached snapshot machine.committed request).written
              (session.trace ++ [⟨request, snapshot, machine.committed⟩]))) with
            committed :=
              (session.reached snapshot machine.committed request).committed.within mine } :=
        rfl
      rw [view, replaced, unseen]
      rfl
  | fail index failure =>
      obtain ⟨session, here, failed⟩ := Option.bind_eq_some_iff.mp stepped
      split at failed
      · cases failed
      · cases failed
        exact ⟨seenBy_replace_foreign _ here (outside foreign here) rfl, Or.inl rfl⟩

/-- A session keeps its operation. -/
theorem operations_of_step (stepped : machine.step sha256 action = some after) :
    machine.sessions.map Session.operation <+: after.sessions.map Session.operation := by
  have keeps : ∀ {index : Nat} {session : Session} (new : Session),
      machine.sessions[index]? = some session → new.operation = session.operation →
        machine.sessions.map Session.operation <+:
          (machine.replace index new).sessions.map Session.operation := by
    intro index session new here same
    have there : (machine.sessions.map Session.operation)[index]? = some session.operation := by
      rw [List.getElem?_map, here, Option.map_some]
    obtain ⟨below, isThere⟩ := List.getElem?_eq_some_iff.mp there
    have unchanged : machine.sessions.map Session.operation ++ [] =
        (machine.replace index new).sessions.map Session.operation := by
      rw [Machine.replace, List.map_set, same, ← isThere, List.set_getElem_self, List.append_nil]
    exact ⟨[], unchanged⟩
  cases action with
  | start operation env =>
      cases stepped
      rw [List.map_append]
      exact List.prefix_append _ _
  | elsewhere =>
      cases stepped
      exact List.prefix_refl _
  | assign index =>
      obtain ⟨session, here, assigned⟩ := Option.bind_eq_some_iff.mp stepped
      dsimp only at assigned
      split at assigned
      · cases assigned
        exact keeps { session with assigned := true } here rfl
      · cases assigned
  | look index =>
      obtain ⟨session, here, rfl⟩ := Option.map_eq_some_iff.mp stepped
      exact keeps _ here rfl
  | run index =>
      obtain ⟨session, here, ran⟩ := Option.bind_eq_some_iff.mp stepped
      obtain ⟨snapshot, request, next, _, _, _, _, rfl⟩ := Machine.runStatement_eq_some ran
      exact keeps (session.advance (next (session.answered snapshot machine.committed request).1)
        (session.reached snapshot machine.committed request).written
        (session.trace ++ [⟨request, snapshot, machine.committed⟩])) here rfl
  | fail index failure =>
      obtain ⟨session, here, failed⟩ := Option.bind_eq_some_iff.mp stepped
      split at failed
      · cases failed
      · cases failed
        exact keeps _ here rfl

theorem ofOneTenant_before (stepped : machine.step sha256 action = some after)
    (ofOneTenant : ∀ session ∈ after.sessions, session.operation.OfOneTenant) :
    ∀ session ∈ machine.sessions, session.operation.OfOneTenant := by
  intro session member
  have isThere := (operations_of_step stepped).subset (List.mem_map_of_mem member)
  obtain ⟨later, isLater, same⟩ := List.mem_map.mp isThere
  rw [← same]
  exact ofOneTenant later isLater

/-- Whether an action starts nothing that is not theirs. -/
def Action.isWithin (mine : String → Bool) : Action → Bool
  | start operation _ => operation.isWithin mine
  | _ => true

/-- Every step of what they see is a step of theirs. -/
theorem exists_owned {view : Machine} (isWithin : action.isWithin mine = true)
    (stepped : (machine.seenBy mine).step sha256 action = some view) :
    ∃ asked, machine.owns mine asked = true ∧ asked.seenBy mine machine = action := by
  have placed : ∀ {place : Nat} {seen : Session},
      (machine.seenBy mine).sessions[place]? = some seen →
        ∃ index, (machine.sessions[index]?.any fun session =>
          session.operation.isWithin mine) = true ∧ machine.rank mine index = place := by
    intro place seen isThere
    rw [Machine.seenBy, List.getElem?_map] at isThere
    obtain ⟨session, isSession, _⟩ := Option.map_eq_some_iff.mp isThere
    obtain ⟨index, here, inside, ranked⟩ := Fence.exists_of_getElem?_filter isSession
    exact ⟨index, (Option.any_eq_true _ _).mpr ⟨session, here, inside⟩, ranked⟩
  cases action with
  | start operation env => exact ⟨.start operation env, isWithin, rfl⟩
  | elsewhere => exact ⟨.elsewhere, rfl, rfl⟩
  | assign place =>
      obtain ⟨seen, isThere, _⟩ := Option.bind_eq_some_iff.mp stepped
      obtain ⟨index, owned, rfl⟩ := placed isThere
      exact ⟨.assign index, owned, rfl⟩
  | look place =>
      obtain ⟨seen, isThere, _⟩ := Option.map_eq_some_iff.mp stepped
      obtain ⟨index, owned, rfl⟩ := placed isThere
      exact ⟨.look index, owned, rfl⟩
  | run place =>
      obtain ⟨seen, isThere, _⟩ := Option.bind_eq_some_iff.mp stepped
      obtain ⟨index, owned, rfl⟩ := placed isThere
      exact ⟨.run index, owned, rfl⟩
  | fail place failure =>
      obtain ⟨seen, isThere, _⟩ := Option.bind_eq_some_iff.mp stepped
      obtain ⟨index, owned, rfl⟩ := placed isThere
      exact ⟨.fail index failure, owned, rfl⟩

end Steps

section Runs

variable {sha256 : List UInt8 → List UInt8} {chart : Chart} {machine : Machine}

/-- What some tenants see of an interleaving is an interleaving of their own. -/
theorem interleaved_seenBy (interleaved : Interleaved sha256 chart machine)
    (ofOneTenant : ∀ session ∈ machine.sessions, session.operation.OfOneTenant)
    (mine : String → Bool) : Interleaved sha256 chart (machine.seenBy mine) := by
  induction interleaved with
  | initial =>
      exact .initial
  | step reached action stepped inductionHypothesis =>
      rename_i machine after
      have ofOne := ofOneTenant_before stepped ofOneTenant
      have confined := confined_of_interleaved reached
      have seen := inductionHypothesis ofOne
      by_cases owns : machine.owns mine action = true
      · have sameStep :
            (machine.step sha256 action).map (Machine.seenBy mine) =
              (machine.seenBy mine).step sha256 (action.seenBy mine machine) :=
          step_seenBy confined ofOne owns
        rw [stepped, Option.map_some] at sameStep
        exact seen.step _ sameStep.symm
      · obtain ⟨sameView, stays | taken⟩ := step_unseen confined ofOne (by simpa using owns) stepped
        · rw [sameView, stays]
          exact seen
        · rw [sameView, taken]
          exact seen.step .elsewhere rfl

/-- Tenants are isolated.  What some of them see of any interleaving, their rows
and their callers' every answer, is an interleaving of their operations with nobody
else there; whatever they could do next alone they can do beside the others, to the
same effect; and a step of the others' shows them nothing but an id taken. -/
theorem tenants_are_isolated (interleaved : Interleaved sha256 chart machine)
    (ofOneTenant : ∀ session ∈ machine.sessions, session.operation.OfOneTenant)
    (mine : String → Bool) :
    Interleaved sha256 chart (machine.seenBy mine) ∧
      (∀ (action : Action) (view : Machine), action.isWithin mine = true →
        (machine.seenBy mine).step sha256 action = some view →
          ∃ asked after, machine.step sha256 asked = some after ∧ after.seenBy mine = view) ∧
      ∀ (action : Action) (after : Machine), machine.owns mine action = false →
        machine.step sha256 action = some after →
          after.seenBy mine = { machine.seenBy mine with next := after.next } := by
  have confined := confined_of_interleaved interleaved
  refine ⟨interleaved_seenBy interleaved ofOneTenant mine, ?_, ?_⟩
  · intro action view isWithin stepped
    obtain ⟨asked, owns, rfl⟩ := exists_owned isWithin stepped
    rw [← step_seenBy confined ofOneTenant owns] at stepped
    obtain ⟨after, reached, isView⟩ := Option.map_eq_some_iff.mp stepped
    exact ⟨asked, after, reached, isView⟩
  · intro action after foreign stepped
    exact (step_unseen confined ofOneTenant foreign stepped).1

end Runs

namespace Shop

/-- Another tenant's till. -/
def stallTill : Operation :=
  .openAccount ((OpenAccount.new "stall" "till" "till" ⟨.house, none⟩ "USD" none
    none).toOption.getD tillOpening)

/-- The shop's opening is claimed and not committed when the stall's begins, and
the stall's commits first. -/
def besideStall : List Action :=
  [.elsewhere, .start (opening "till" "till") (envOf 1), .assign 0] ++ statements 0 3 ++
    session 1 2 stallTill 4

/-- The shop sees its own bracket open over no rows, and the stall's account is in
the book. -/
theorem besideStall_isolated :
    ((machineAfter besideStall).sessions.length = 2 ∧
      (machineAfter besideStall).committed.accounts.length = 1 ∧
      ((machineAfter besideStall).seenBy (· == "shop")).committed.accounts.length = 0) ∧
    Interleaved id chart ((machineAfter besideStall).seenBy (· == "shop")) :=
  ⟨by decide +kernel,
    (tenants_are_isolated (interleaved_machineAfter besideStall) (by decide +kernel)
      (· == "shop")).1⟩

end Shop

end OpenLedger
