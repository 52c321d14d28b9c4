import OpenLedger.Alone
import OpenLedger.Concluded
import OpenLedger.Supersession

/-!
# Interleaved writers, one at a time

Brackets overlap and commit in any order.  What the committed ones did beside each
other is what they do with nobody else writing, one after the other in the order of
their commits.
-/

namespace OpenLedger

open Postgres

/-! ## One session -/

/-- What a session has been told of from outside its bracket: at most one book. -/
def Session.SawOnly (session : Session) (book : Book) : Prop :=
  ∀ ran ∈ session.trace, ran.snapshot = book ∧ ran.current = book

/-- Nobody committed from a session's first statement to its last. -/
def Session.Undisturbed (session : Session) : Prop := ∃ book, session.SawOnly book

/-- What an operation that answers from rows it holds is told and writes, it is told and
writes alone. -/
def performsAlone (sha256 : List UInt8 → List UInt8) (operation : Operation) (env : Env)
    (outcome : Outcome) (written : Writes) (book : Book) : Prop :=
  operation.readsAtLarge sha256 = false →
    operation.perform sha256 env book = (outcome, book.apply written)

theorem concludes_performsAlone (sha256 : List UInt8 → List UInt8) (operation : Operation)
    (env : Env) {book : Book} (kept : Kept book) :
    Concludes env (performsAlone sha256 operation env) (operation.program sha256)
      ⟨book, .none⟩ := by
  cases holds : operation.readsAtLarge sha256 with
  | false =>
      exact (serializes_program sha256 operation holds kept).mono
        fun _ _ _ isAlone _ => isAlone
  | true =>
      refine concludes_of_stops (fun answer written book heldRows => ?_)
        (stops_program sha256 operation) _
      rw [holds] at heldRows
      cases heldRows

section Sessions

variable {sha256 : List UInt8 → List UInt8}

/-- With nobody beside it, a session is where it would be alone. -/
def Session.Alone (sha256 : List UInt8 → List UInt8) (session : Session) : Prop :=
  ∀ book, session.SawOnly book → (∃ answer, session.program = .done answer) ∨
    session.program.run (handle session.env) ⟨book, session.written⟩ =
      (session.operation.program sha256).run (handle session.env) ⟨book, .none⟩

/-- A statement after which its session goes on committed nothing. -/
theorem reached_committed {session : Session} {snapshot committed : Book} {request : Request}
    {next : request.Reply → Program Request Request.Reply Outcome}
    (stops : session.program.Stops Request.isLast Request.commits Outcome.AcceptsNone)
    (isNext : session.program = .ask request next)
    (goesOn : ¬ ∃ answer, next (session.answered snapshot committed request).1 = .done answer) :
    (session.reached snapshot committed request).committed = committed := by
  rw [isNext] at stops
  have notCommit : request ≠ .commit := fun isCommit => goesOn ((stops _).1 (Or.inl isCommit))
  rcases Connection.after_cases ⟨committed, session.written⟩ request
    (session.answered snapshot committed request).2 with ⟨isCommit, _⟩ | ⟨_, same, _⟩
  · exact absurd isCommit notCommit
  · exact same

/-- A statement leaves its own session where it would be alone. -/
theorem Session.Alone.run {committed : Book} {session : Session} (alone : session.Alone sha256)
    (stops : session.program.Stops Request.isLast Request.commits Outcome.AcceptsNone)
    {snapshot : Book} {request : Request}
    {next : request.Reply → Program Request Request.Reply Outcome}
    (isNext : session.program = .ask request next) :
    Session.Alone sha256 (session.advance (next (session.answered snapshot committed request).1)
      (session.reached snapshot committed request).written
      (session.trace ++ [⟨request, snapshot, committed⟩])) := by
  intro book saw
  by_cases isDone : ∃ answer, next (session.answered snapshot committed request).1 = .done answer
  · exact Or.inl isDone
  · right
    have both : snapshot = book ∧ committed = book := saw ⟨request, snapshot, committed⟩
      (List.mem_append_right _ (List.mem_singleton_self _))
    obtain ⟨rfl, rfl⟩ := both
    have before : session.SawOnly committed :=
      fun ran member => saw ran (List.mem_append_left _ member)
    have sameBook := reached_committed stops isNext isDone
    have here : (handle session.env request ⟨committed, session.written⟩).2 =
        ⟨committed, (session.reached committed committed request).written⟩ := by
      rw [← congrArg (fun book => Connection.mk book
        (session.reached committed committed request).written) sameBook]
      rfl
    rcases alone committed before with ⟨answer, ended⟩ | runs
    · rw [isNext] at ended
      cases ended
    · rw [isNext, Program.run_ask, here] at runs
      rw [written_advance isDone]
      exact runs

end Sessions

/-! ## The machine -/

section Machines

variable {sha256 : List UInt8 → List UInt8} {chart : Chart} {machine after : Machine}

/-- Every session of a machine is on its way to what it does alone. -/
structure Machine.Serializing (sha256 : List UInt8 → List UInt8) (machine : Machine) : Prop where
  concluding : machine.Concluding (performsAlone sha256)
  alone : ∀ (index : Nat) (session : Session), machine.sessions[index]? = some session →
    session.Alone sha256

/-- Replacing one session leaves the others where they would be alone. -/
theorem alone_replace
    (alone : ∀ (index : Nat) (session : Session), machine.sessions[index]? = some session →
      session.Alone sha256) {index : Nat} {session : Session} (here : session.Alone sha256)
    {other : Nat} {found : Session} (isFound : (machine.sessions.set index session)[other]? =
      some found) : found.Alone sha256 := by
  rw [List.getElem?_set] at isFound
  split at isFound
  · split at isFound
    · cases isFound
      exact here
    · cases isFound
  · exact alone other found isFound

theorem Machine.Serializing.step (serializing : machine.Serializing sha256)
    (sound : machine.Sound) {action : Action}
    (stepped : machine.step sha256 action = some after) : after.Serializing sha256 := by
  refine ⟨serializing.concluding.step
    (fun operation env _ kept => concludes_performsAlone sha256 operation env kept) sound stepped,
    fun other found isFound => ?_⟩
  cases action with
  | start operation env =>
      cases stepped
      rw [List.getElem?_append] at isFound
      split at isFound
      · exact serializing.alone other found isFound
      · rw [List.getElem?_singleton] at isFound
        split at isFound
        · cases isFound
          exact fun _ _ => Or.inr rfl
        · cases isFound
  | elsewhere =>
      cases stepped
      exact serializing.alone other found isFound
  | assign index =>
      obtain ⟨session, here, assigned⟩ := Option.bind_eq_some_iff.mp stepped
      dsimp only at assigned
      split at assigned
      · cases assigned
        have mine : Session.Alone sha256 { session with assigned := true } :=
          serializing.alone index session here
        exact alone_replace serializing.alone mine isFound
      · cases assigned
  | look index =>
      obtain ⟨session, here, rfl⟩ := Option.map_eq_some_iff.mp stepped
      have mine : Session.Alone sha256 { session with snapshot := some machine.committed } :=
        serializing.alone index session here
      exact alone_replace serializing.alone mine isFound
  | run index =>
      obtain ⟨session, here, ran⟩ := Option.bind_eq_some_iff.mp stepped
      obtain ⟨snapshot, request, next, _, isNext, _, _, rfl⟩ := Machine.runStatement_eq_some ran
      have mine := serializing.concluding index session here
      exact alone_replace serializing.alone ((serializing.alone index session here).run
        (mine.stops (mine.uncommitted isNext)) isNext) isFound
  | fail index failure =>
      obtain ⟨session, here, failed⟩ := Option.bind_eq_some_iff.mp stepped
      split at failed
      · cases failed
      · rename_i request next isNext
        cases failed
        have mine := serializing.concluding index session here
        have stops := mine.stops (mine.uncommitted isNext)
        rw [isNext] at stops
        exact alone_replace serializing.alone
          (fun _ _ => Or.inl ((stops _).1 (Or.inr ⟨failure, rfl⟩))) isFound

theorem serializing_of_interleaved (interleaved : Interleaved sha256 chart machine) :
    machine.Serializing sha256 := by
  induction interleaved with
  | initial =>
      refine ⟨fun index session found => ?_, fun index session found => ?_⟩
      all_goals
        rw [Machine.initial, List.getElem?_nil] at found
        cases found
  | step interleaved _ stepped inductionHypothesis =>
      exact inductionHypothesis.step (sound_of_interleaved interleaved) stepped

/-- A statement that commits, of a session whose answers nobody disturbed, commits what
it does alone over the book it commits to. -/
theorem Machine.Serializing.commits (serializing : machine.Serializing sha256) {index : Nat}
    {session : Session} (here : machine.sessions[index]? = some session) {snapshot : Book}
    (looked : session.snapshot = some snapshot)
    {next : Request.commit.Reply → Program Request Request.Reply Outcome}
    (isNext : session.program = .ask .commit next)
    (quiet : session.operation.readsAtLarge sha256 = true →
      ∃ book, session.SawOnly book ∧ snapshot = book ∧ machine.committed = book) :
    ∃ outcome, next (.ok ()) = .done outcome ∧
      session.operation.perform sha256 session.env machine.committed =
        (outcome, machine.committed.apply session.written) := by
  obtain ⟨outcome, isDone, isAlone⟩ :=
    (serializing.concluding index session here).commits looked isNext
  refine ⟨outcome, isDone, ?_⟩
  cases holds : session.operation.readsAtLarge sha256 with
  | false =>
      exact isAlone holds
  | true =>
      obtain ⟨book, saw, _, rfl⟩ := quiet holds
      rcases serializing.alone index session here machine.committed saw with
        ⟨answer, ended⟩ | runs
      · rw [isNext] at ended
        cases ended
      · rw [isNext, Program.run_ask] at runs
        change (next (.ok ())).run (handle session.env)
          ⟨machine.committed.apply session.written, .none⟩ = _ at runs
        rw [isDone, Program.run_done] at runs
        rw [Operation.perform, runOn, ← runs]

/-! ## A session left to itself -/

/-- A session nobody came between so far: all it saw is one book, and until it has its
answer that is the committed one. -/
def Machine.LeavesAlone (machine : Machine) (index : Nat) (book : Book) : Prop :=
  ∃ session, machine.sessions[index]? = some session ∧ session.SawOnly book ∧
    ((∃ answer, session.program = .done answer) ∨
      machine.committed = book ∧ ∀ snapshot ∈ session.snapshot, snapshot = book)

/-- A session that has run nothing is left alone. -/
theorem leavesAlone_of_begun {index : Nat} {session : Session}
    (here : machine.sessions[index]? = some session) (begun : session.trace = [])
    (unlooked : session.snapshot = none) : machine.LeavesAlone index machine.committed := by
  refine ⟨session, here, fun ran member => ?_, Or.inr ⟨rfl, fun snapshot isSnapshot => ?_⟩⟩
  · rw [begun] at member
    cases member
  · rw [unlooked] at isSnapshot
    cases isSnapshot

/-- Its own steps leave it alone. -/
theorem Machine.LeavesAlone.step (serializing : machine.Serializing sha256) {index : Nat}
    {book : Book} (leaves : machine.LeavesAlone index book) {action : Action}
    (own : action = .look index ∨ action = .run index)
    (stepped : machine.step sha256 action = some after) : after.LeavesAlone index book := by
  obtain ⟨session, here, saw, goesOn⟩ := leaves
  have inside := (List.getElem?_eq_some_iff.mp here).1
  rcases own with rfl | rfl
  · obtain ⟨found, isFound, rfl⟩ := Option.map_eq_some_iff.mp stepped
    rw [here] at isFound
    cases isFound
    refine ⟨_, List.getElem?_set_self inside, saw, ?_⟩
    rcases goesOn with ended | ⟨same, _⟩
    · exact Or.inl ended
    · refine Or.inr ⟨same, fun snapshot isSnapshot => ?_⟩
      rw [← Option.some.inj isSnapshot]
      exact same
  · obtain ⟨found, isFound, ran⟩ := Option.bind_eq_some_iff.mp stepped
    rw [here] at isFound
    cases isFound
    obtain ⟨snapshot, request, next, looked, isNext, _, _, rfl⟩ :=
      Machine.runStatement_eq_some ran
    have mine := serializing.concluding index session here
    have stops := mine.stops (mine.uncommitted isNext)
    rcases goesOn with ⟨answer, ended⟩ | ⟨same, snapshots⟩
    · rw [isNext] at ended
      cases ended
    · refine ⟨_, List.getElem?_set_self inside, fun ran member => ?_, ?_⟩
      · rcases List.mem_append.mp member with earlier | last
        · exact saw ran earlier
        · rw [List.mem_singleton.mp last]
          exact ⟨snapshots snapshot looked, same⟩
      · by_cases isDone : ∃ answer,
            next (session.answered snapshot machine.committed request).1 = .done answer
        · exact Or.inl isDone
        · refine Or.inr ⟨(reached_committed stops isNext isDone).trans same, fun _ isSnapshot => ?_⟩
          cases isSnapshot

/-- A session that runs from here on its own is left alone. -/
theorem Machine.LeavesAlone.steps (interleaved : Interleaved sha256 chart machine) {index : Nat}
    {book : Book} (leaves : machine.LeavesAlone index book) {actions : List Action}
    (own : ∀ action ∈ actions, action = .look index ∨ action = .run index) {later : Machine}
    (stepped : machine.steps sha256 actions = some later) : later.LeavesAlone index book := by
  induction actions generalizing machine with
  | nil =>
      obtain rfl : machine = later := by simpa [Machine.steps] using stepped
      exact leaves
  | cons action actions inductionHypothesis =>
      rw [Machine.steps, List.foldlM_cons] at stepped
      obtain ⟨between, first, rest⟩ := Option.bind_eq_some_iff.mp stepped
      exact inductionHypothesis (interleaved.step action first)
        (leaves.step (serializing_of_interleaved interleaved) (own action List.mem_cons_self) first)
        (fun other member => own other (List.mem_cons_of_mem _ member)) rest

/-- What a session has committed undisturbed stays so, whatever the others do. -/
theorem undisturbed_of_steps (interleaved : Interleaved sha256 chart machine) {index : Nat}
    {session : Session} (here : machine.sessions[index]? = some session)
    (isCommitted : session.committed = true) (undisturbed : session.Undisturbed)
    {actions : List Action} {later : Machine}
    (stepped : machine.steps sha256 actions = some later) :
    ∃ found, later.sessions[index]? = some found ∧ found.Undisturbed := by
  induction actions generalizing machine session with
  | nil =>
      obtain rfl : machine = later := by simpa [Machine.steps] using stepped
      exact ⟨session, here, undisturbed⟩
  | cons action actions inductionHypothesis =>
      rw [Machine.steps, List.foldlM_cons] at stepped
      obtain ⟨between, first, rest⟩ := Option.bind_eq_some_iff.mp stepped
      obtain ⟨next, isThere, _, _, committed, _, trace⟩ :=
        kept_of_step (serializing_of_interleaved interleaved).concluding first here isCommitted
      obtain ⟨book, saw⟩ := undisturbed
      have still : next.SawOnly book := by
        rw [Session.SawOnly, trace]
        exact saw
      exact inductionHypothesis (interleaved.step action first) isThere committed ⟨book, still⟩ rest

/-! ## The order of the commits -/

/-- The operations of some sessions, in the order given. -/
def Machine.operations (machine : Machine) (order : List Nat) : List (Operation × Env) :=
  order.filterMap fun index =>
    machine.sessions[index]?.map fun session => (session.operation, session.env)

/-- An order of the sessions that have committed in which, performed one at a time with
nobody else writing, they leave the committed book and are told what they were told. -/
structure SerialOrder (sha256 : List UInt8 → List UInt8) (chart : Chart) (machine : Machine)
    (order : List Nat) : Prop where
  nodup : order.Nodup
  committed : ∀ index, index ∈ order ↔
    ∃ session, machine.sessions[index]? = some session ∧ session.committed = true
  book : performAll sha256 (machine.operations order) (Book.empty chart) = machine.committed
  answers : ∀ earlier index rest, order = earlier ++ index :: rest →
    ∃ session, machine.sessions[index]? = some session ∧
      session.program = .done (session.operation.perform sha256 session.env
        (performAll sha256 (machine.operations earlier) (Book.empty chart))).1

/-- Whoever answered from rows it did not hold was left alone meanwhile. -/
def Machine.Quiet (sha256 : List UInt8 → List UInt8) (machine : Machine) : Prop :=
  ∀ session ∈ machine.sessions, session.committed = true →
    session.operation.readsAtLarge sha256 = true → session.Undisturbed

theorem performAll_append (sha256 : List UInt8 → List UInt8)
    (first second : List (Operation × Env)) (book : Book) :
    performAll sha256 (first ++ second) book =
      performAll sha256 second (performAll sha256 first book) := by
  rw [performAll, performAll, performAll, List.foldl_append]

/-- What is quiet now was quiet before. -/
theorem Machine.Quiet.before (serializing : machine.Serializing sha256) {action : Action}
    (stepped : machine.step sha256 action = some after) (quiet : after.Quiet sha256) :
    machine.Quiet sha256 := by
  intro session member isCommitted atLarge
  obtain ⟨index, here⟩ := List.getElem?_of_mem member
  obtain ⟨later, isThere, operation, _, committed, _, trace⟩ :=
    kept_of_step serializing.concluding stepped here isCommitted
  obtain ⟨book, saw⟩ := quiet later (List.mem_of_getElem? isThere) committed
    (by rw [operation]; exact atLarge)
  refine ⟨book, fun ran isRan => saw ran ?_⟩
  rw [trace]
  exact isRan

/-- The committed sessions' operations are what they were. -/
theorem SerialOrder.operations_of_step {order : List Nat}
    (serial : SerialOrder sha256 chart machine order)
    (serializing : machine.Serializing sha256) {action : Action}
    (stepped : machine.step sha256 action = some after) {chosen : List Nat}
    (sub : chosen ⊆ order) : after.operations chosen = machine.operations chosen := by
  refine List.filterMap_congr fun index member => ?_
  obtain ⟨session, here, isCommitted⟩ := (serial.committed index).mp (sub member)
  obtain ⟨later, isThere, operation, env, _⟩ :=
    kept_of_step serializing.concluding stepped here isCommitted
  rw [here, isThere, Option.map_some, Option.map_some, operation, env]

/-- The answers of the earlier ones stand. -/
theorem SerialOrder.answers_of_step {order : List Nat}
    (serial : SerialOrder sha256 chart machine order)
    (serializing : machine.Serializing sha256) {action : Action}
    (stepped : machine.step sha256 action = some after) {earlier rest : List Nat} {index : Nat}
    (isOrder : order = earlier ++ index :: rest) :
    ∃ session, after.sessions[index]? = some session ∧
      session.program = .done (session.operation.perform sha256 session.env
        (performAll sha256 (after.operations earlier) (Book.empty chart))).1 := by
  obtain ⟨session, here, isDone⟩ := serial.answers earlier index rest isOrder
  have isIn : index ∈ order := by
    rw [isOrder]
    exact List.mem_append_right _ List.mem_cons_self
  have sub : earlier ⊆ order := by
    rw [isOrder]
    exact List.subset_append_left _ _
  obtain ⟨found, isThere, isCommitted⟩ := (serial.committed index).mp isIn
  rw [here] at isThere
  cases isThere
  obtain ⟨later, isThere, operation, env, _, program, _⟩ :=
    kept_of_step serializing.concluding stepped here isCommitted
  refine ⟨later, isThere, ?_⟩
  rw [serial.operations_of_step serializing stepped sub, operation, env, program, isDone]

/-- One step goes on in the order, by at most the session that commits in it. -/
theorem SerialOrder.step {order : List Nat} (serial : SerialOrder sha256 chart machine order)
    (serializing : machine.Serializing sha256) {action : Action}
    (stepped : machine.step sha256 action = some after) (quiet : after.Quiet sha256) :
    ∃ more, SerialOrder sha256 chart after (order ++ more) := by
  rcases step_commits_once stepped with
    keeps | ⟨index, session, snapshot, next, here, looked, isNext, committing, sessions⟩
  · refine ⟨[], ?_⟩
    rw [List.append_nil]
    refine ⟨serial.nodup, fun index => ?_, ?_, fun earlier index rest isOrder =>
      serial.answers_of_step serializing stepped isOrder⟩
    · rw [serial.committed index]
      constructor
      · rintro ⟨session, here, isCommitted⟩
        obtain ⟨later, isThere, _, _, committed, _⟩ :=
          kept_of_step serializing.concluding stepped here isCommitted
        exact ⟨later, isThere, committed⟩
      · rintro ⟨later, isThere, isCommitted⟩
        cases here : machine.sessions[index]? with
        | none =>
            rw [keeps.fresh index later here isThere] at isCommitted
            cases isCommitted
        | some session =>
            obtain ⟨found, isFound, same⟩ := keeps.sessions index session here
            rw [isThere] at isFound
            cases isFound
            exact ⟨session, rfl, same.committed.symm.trans isCommitted⟩
    · rw [serial.operations_of_step serializing stepped (List.Subset.refl order), serial.book,
        keeps.committed]
  · have mine := serializing.concluding index session here
    have inside := (List.getElem?_eq_some_iff.mp here).1
    have isAfter : after.sessions[index]? = some (session.advance (next (.ok ())) .none
        (session.trace ++ [⟨.commit, snapshot, machine.committed⟩])) := by
      rw [sessions, List.getElem?_set_self inside]
    have nowCommitted : (session.advance (next (.ok ())) .none
        (session.trace ++ [⟨.commit, snapshot, machine.committed⟩])).committed = true :=
      (committed_append session _ _ _).mpr (Or.inr rfl)
    obtain ⟨outcome, isDone, isAlone⟩ := serializing.commits here looked isNext fun atLarge => by
      obtain ⟨book, saw⟩ := quiet _ (List.mem_of_getElem? isAfter) nowCommitted atLarge
      have last := saw ⟨.commit, snapshot, machine.committed⟩
        (List.mem_append_right _ (List.mem_singleton_self _))
      exact ⟨book, fun ran member => saw ran (List.mem_append_left _ member), last.1, last.2⟩
    have isNew : index ∉ order := by
      intro isIn
      obtain ⟨found, isThere, isCommitted⟩ := (serial.committed index).mp isIn
      rw [here] at isThere
      cases isThere
      obtain ⟨answer, ended⟩ := mine.ended isCommitted
      rw [isNext] at ended
      cases ended
    have earlierOnes := serial.operations_of_step serializing stepped (List.Subset.refl order)
    refine ⟨[index], ?_, fun other => ?_, ?_, fun earlier other rest isOrder => ?_⟩
    · rw [List.nodup_append]
      refine ⟨serial.nodup, List.nodup_singleton _, fun left isLeft right isRight same => ?_⟩
      rw [List.mem_singleton.mp isRight] at same
      exact isNew (same ▸ isLeft)
    · rw [List.mem_append, List.mem_singleton, serial.committed other]
      constructor
      · rintro (⟨found, isThere, isCommitted⟩ | rfl)
        · obtain ⟨later, isLater, _, _, committed, _⟩ :=
            kept_of_step serializing.concluding stepped isThere isCommitted
          exact ⟨later, isLater, committed⟩
        · exact ⟨_, isAfter, nowCommitted⟩
      · rintro ⟨later, isLater, isCommitted⟩
        by_cases isHere : other = index
        · exact Or.inr isHere
        · rw [sessions, List.getElem?_set_ne (Ne.symm isHere)] at isLater
          exact Or.inl ⟨later, isLater, isCommitted⟩
    · have appended : after.operations (order ++ [index]) =
          machine.operations order ++ [(session.operation, session.env)] := by
        rw [← earlierOnes, Machine.operations, List.filterMap_append, List.filterMap_cons,
          isAfter]
        rfl
      rw [appended, performAll_append, serial.book, committing]
      exact congrArg Prod.snd isAlone
    · rcases List.eq_nil_or_concat rest with rfl | ⟨before, last, rfl⟩
      · obtain ⟨rfl, same⟩ := List.append_inj' isOrder rfl
        cases same
        refine ⟨_, isAfter, ?_⟩
        rw [earlierOnes, serial.book]
        change next (.ok ()) = _
        rw [isDone]
        exact congrArg Program.done (congrArg Prod.fst isAlone).symm
      · rw [List.concat_eq_append, ← List.cons_append, ← List.append_assoc] at isOrder
        obtain ⟨isOrder, _⟩ := List.append_inj' isOrder rfl
        exact serial.answers_of_step serializing stepped isOrder

/-- What is quiet after a run was quiet before it. -/
theorem Machine.Quiet.before_steps (interleaved : Interleaved sha256 chart machine)
    {actions : List Action} {later : Machine}
    (stepped : machine.steps sha256 actions = some later) (quiet : later.Quiet sha256) :
    machine.Quiet sha256 := by
  induction actions generalizing machine with
  | nil =>
      obtain rfl : machine = later := by simpa [Machine.steps] using stepped
      exact quiet
  | cons action actions inductionHypothesis =>
      rw [Machine.steps, List.foldlM_cons] at stepped
      obtain ⟨between, first, rest⟩ := Option.bind_eq_some_iff.mp stepped
      exact (inductionHypothesis (interleaved.step action first) rest).before
        (serializing_of_interleaved interleaved) first

/-- A run goes on in the order. -/
theorem SerialOrder.steps {order : List Nat} (serial : SerialOrder sha256 chart machine order)
    (interleaved : Interleaved sha256 chart machine) {actions : List Action} {later : Machine}
    (stepped : machine.steps sha256 actions = some later) (quiet : later.Quiet sha256) :
    ∃ more, SerialOrder sha256 chart later (order ++ more) := by
  induction actions generalizing machine order with
  | nil =>
      obtain rfl : machine = later := by simpa [Machine.steps] using stepped
      refine ⟨[], ?_⟩
      rw [List.append_nil]
      exact serial
  | cons action actions inductionHypothesis =>
      rw [Machine.steps, List.foldlM_cons] at stepped
      obtain ⟨between, first, rest⟩ := Option.bind_eq_some_iff.mp stepped
      have reached := interleaved.step action first
      obtain ⟨once, goesOn⟩ := serial.step (serializing_of_interleaved interleaved) first
        (quiet.before_steps reached rest)
      obtain ⟨more, further⟩ := inductionHypothesis goesOn reached rest
      refine ⟨once ++ more, ?_⟩
      rw [← List.append_assoc]
      exact further

theorem serialOrder_initial (sha256 : List UInt8 → List UInt8) (chart : Chart) :
    SerialOrder sha256 chart (Machine.initial chart) [] where
  nodup := List.nodup_nil
  committed := fun index => by simp [Machine.initial]
  book := rfl
  answers := fun earlier index rest isOrder => by simp at isOrder

/-- Writers are serializable.  In every interleaving in which nobody commits between the
first statement and the last of a committed close, or of a committed statement of two
commands or more, the committed operations have an order in which, one at a time with
nobody else writing, they leave the committed book and are told what they were told;
and whatever happens next goes on behind them in that order. -/
theorem writers_are_serializable (interleaved : Interleaved sha256 chart machine)
    (quiet : machine.Quiet sha256) :
    ∃ order, SerialOrder sha256 chart machine order ∧
      ∀ (actions : List Action) (later : Machine),
        machine.steps sha256 actions = some later → later.Quiet sha256 →
          ∃ more, SerialOrder sha256 chart later (order ++ more) := by
  have reached : ∃ order, SerialOrder sha256 chart machine order := by
    induction interleaved with
    | initial =>
        exact ⟨[], serialOrder_initial sha256 chart⟩
    | step before action stepped inductionHypothesis =>
        have serializing := serializing_of_interleaved before
        obtain ⟨order, serial⟩ := inductionHypothesis (quiet.before serializing stepped)
        obtain ⟨more, goesOn⟩ := serial.step serializing stepped quiet
        exact ⟨order ++ more, goesOn⟩
  obtain ⟨order, serial⟩ := reached
  exact ⟨order, serial, fun actions later stepped still =>
    serial.steps interleaved stepped still⟩

end Machines

namespace Shop

theorem steps_machineAfter {first rest : List Action}
    (possible : ((Machine.initial chart).steps id (first ++ rest)).isSome = true) :
    (machineAfter first).steps id rest = some (machineAfter (first ++ rest)) := by
  have split : (Machine.initial chart).steps id (first ++ rest) =
      ((Machine.initial chart).steps id first).bind fun between =>
        between.steps id rest := List.foldlM_append
  unfold machineAfter
  cases reached : (Machine.initial chart).steps id first with
  | none =>
      rw [split, reached] at possible
      cases possible
  | some between =>
      rw [reached, Option.bind_some] at split
      obtain ⟨last, isLast⟩ := Option.isSome_iff_exists.mp possible
      rw [isLast, Option.getD_some, Option.getD_some, ← split, isLast]

/-- The rivals, and a fee that has taken its key when a close begins. -/
def beforeClose : List Action :=
  rivals ++
    [.start (.post (command "late" 3000 .posted none 5)) (envOf 8), .assign 7] ++
    statements 7 1 ++
    [.start (closing "first") (envOf 9), .assign 8]

/-- The close runs to its commit, and the fee goes on. -/
def closeAmongRivals : List Action := (beforeClose ++ statements 8 5) ++ statements 7 2

theorem closeAmongRivals_possible :
    ((Machine.initial chart).steps id closeAmongRivals).isSome = true ∧
      ((Machine.initial chart).steps id (beforeClose ++ statements 8 5)).isSome = true := by
  decide +kernel

/-- Nobody came between the statements of the close. -/
theorem close_undisturbed : ∃ session,
    (machineAfter closeAmongRivals).sessions[8]? = some session ∧ session.Undisturbed := by
  have begins : ((machineAfter beforeClose).sessions[8]?.map fun session =>
      (session.trace.isEmpty, session.snapshot.isNone)) = some (true, true) := by
    decide +kernel
  have commits : ((machineAfter (beforeClose ++ statements 8 5)).sessions[8]?.map
      Session.committed) = some true := by
    decide +kernel
  obtain ⟨session, here, begun⟩ := Option.map_eq_some_iff.mp begins
  obtain ⟨after, isThere, isCommitted⟩ := Option.map_eq_some_iff.mp commits
  have leaves := leavesAlone_of_begun here
    (List.isEmpty_iff.mp (congrArg Prod.fst begun)) (Option.isNone_iff_eq_none.mp
      (congrArg Prod.snd begun))
  have own : ∀ action ∈ statements 8 5, action = .look 8 ∨ action = .run 8 := by
    intro action member
    obtain ⟨turn, isTurn, inTurn⟩ := List.mem_flatten.mp member
    rw [List.eq_of_mem_replicate isTurn] at inTurn
    simpa using inTurn
  obtain ⟨found, isFound, saw, _⟩ := leaves.steps (interleaved_machineAfter beforeClose) own
    (steps_machineAfter closeAmongRivals_possible.2)
  rw [isThere] at isFound
  cases isFound
  exact undisturbed_of_steps (interleaved_machineAfter _) isThere isCommitted ⟨_, saw⟩
    (steps_machineAfter closeAmongRivals_possible.1)

theorem quiet_closeAmongRivals : (machineAfter closeAmongRivals).Quiet id := by
  have onlyClose : ∀ pair ∈ (machineAfter closeAmongRivals).sessions.zipIdx,
      pair.1.operation.readsAtLarge id = true → pair.2 = 8 := by decide +kernel
  intro session member _ atLarge
  obtain ⟨index, here⟩ := List.getElem?_of_mem member
  have isHere : (session, index) ∈ (machineAfter closeAmongRivals).sessions.zipIdx :=
    List.mk_mem_zipIdx_iff_getElem?.mpr here
  obtain rfl : index = 8 := onlyClose _ isHere atLarge
  obtain ⟨closed, isThere, undisturbed⟩ := close_undisturbed
  rw [here] at isThere
  cases isThere
  exact undisturbed

/-- The two rivals, a close with a fee posted around it: one after the other they do what
they did. -/
theorem rivals_are_serial :
    (((machineAfter closeAmongRivals).sessions.map fun session =>
        (session.committed, session.operation.readsAtLarge id)) =
      [(true, false), (true, false), (true, false), (true, false), (true, false),
        (true, false), (false, false), (true, false), (true, true)]) ∧
      ∃ order, SerialOrder id chart (machineAfter closeAmongRivals) order := by
  obtain ⟨order, serial, _⟩ :=
    writers_are_serializable (interleaved_machineAfter closeAmongRivals) quiet_closeAmongRivals
  exact ⟨by decide +kernel, order, serial⟩

end Shop

end OpenLedger
