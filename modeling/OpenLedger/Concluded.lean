import OpenLedger.Concluding

/-!
# Sessions that have concluded

What a use-case's answer has to fit is carried to the sessions of any machine: one
that has committed answered what fits what it wrote, and others have only landed
behind it since.
-/

namespace OpenLedger

open Postgres

/-! ## One session -/

section Sessions

variable {sha256 : List UInt8 → List UInt8} {machine after : Machine}
  {fits : Operation → Env → Outcome → Writes → Book → Prop}

/-- Where a session stands on the way to an answer that fits. -/
structure Session.Concluding (fits : Operation → Env → Outcome → Writes → Book → Prop)
    (committed : Book) (session : Session) : Prop where
  stops : session.committed = false →
    session.program.Stops Request.isLast Request.commits Outcome.AcceptsNone
  since : Since session.written (session.snapshot.getD committed) committed
  concludes : Concludes session.env (fits session.operation session.env) session.program
    ⟨session.snapshot.getD committed, session.written⟩
  ended : session.committed = true → ∃ answer, session.program = .done answer

theorem Session.Concluding.later {before after : Book} {session : Session}
    (concluding : session.Concluding fits before) (since : Since session.written before after) :
    session.Concluding fits after := by
  have was := concluding.since
  have concludes := concluding.concludes
  cases looked : session.snapshot with
  | none =>
      rw [looked, Option.getD_none] at concludes
      refine { concluding with since := ?_, concludes := ?_ }
      · rw [looked]
        exact .refl _ _
      · rw [looked]
        exact concludes.later since
  | some snapshot =>
      rw [looked, Option.getD_some] at was concludes
      refine { concluding with since := ?_, concludes := ?_ }
      · rw [looked]
        exact was.trans since
      · rw [looked]
        exact concludes

/-- A session's trace with one more statement behind it. -/
theorem committed_append (session : Session) (program : Program Request Request.Reply Outcome)
    (written : Writes) (ran : Ran) :
    (session.advance program written (session.trace ++ [ran])).committed = true ↔
      session.committed = true ∨ ran.request = .commit := by
  simp only [Session.committed, Session.advance, List.any_append, List.any_cons, List.any_nil,
    Bool.or_false, Bool.or_eq_true]
  refine or_congr Iff.rfl ?_
  cases ran.request <;> simp

/-- A use-case that ends has nothing written, and one that goes on has what its
connection has. -/
theorem written_advance {session : Session} {program : Program Request Request.Reply Outcome}
    {written : Writes} {trace : List Ran} (goesOn : ¬ ∃ answer, program = .done answer) :
    (session.advance program written trace).written = written := by
  cases program with
  | done answer =>
      exact absurd ⟨answer, rfl⟩ goesOn
  | ask request next =>
      rfl

/-- A session with a statement still to run has not committed. -/
theorem Session.Concluding.uncommitted {committed : Book} {session : Session}
    (concluding : session.Concluding fits committed) {request : Request}
    {next : request.Reply → Program Request Request.Reply Outcome}
    (isNext : session.program = .ask request next) : session.committed = false := by
  cases committed : session.committed with
  | false =>
      rfl
  | true =>
      obtain ⟨answer, ended⟩ := concluding.ended committed
      rw [isNext] at ended
      cases ended

/-- A statement leaves its own session on the way. -/
theorem Session.Concluding.run {committed : Book} {session : Session}
    (concluding : session.Concluding fits committed) {snapshot : Book}
    (looked : session.snapshot = some snapshot) {request : Request}
    {next : request.Reply → Program Request Request.Reply Outcome}
    (isNext : session.program = .ask request next) :
    Session.Concluding fits (session.reached snapshot committed request).committed
      (session.advance (next (session.answered snapshot committed request).1)
        (session.reached snapshot committed request).written
        (session.trace ++ [⟨request, snapshot, committed⟩])) := by
  have stops := concluding.stops (concluding.uncommitted isNext)
  have since := concluding.since
  have concludes := concluding.concludes
  rw [isNext] at stops
  rw [looked, Option.getD_some] at since concludes
  rw [isNext] at concludes
  refine ⟨fun isUncommitted => ?_, .refl _ _, ?_, fun isCommitted => ?_⟩
  · refine (stops _).2 fun commits => ?_
    rw [(committed_append session _ _ _).mpr (Or.inr commits.1)] at isUncommitted
    cases isUncommitted
  · have goesOn := concludes.2 snapshot committed (.refl _ _) since
    by_cases isDone : ∃ answer, next (session.answered snapshot committed request).1 = .done answer
    · obtain ⟨answer, isDone⟩ := isDone
      rw [isDone]
      exact concludes_done _ _
    · rw [written_advance isDone]
      exact goesOn
  · rcases (committed_append session _ _ _).mp isCommitted with was | isCommit
    · rw [concluding.uncommitted isNext] at was
      cases was
    · exact (stops _).1 (Or.inl isCommit)

/-- A failed statement ends its use-case. -/
theorem Session.Concluding.fail {committed : Book} {session : Session}
    (concluding : session.Concluding fits committed) {request : Request}
    {next : request.Reply → Program Request Request.Reply Outcome}
    (isNext : session.program = .ask request next) (failure : StorageError) :
    Session.Concluding fits committed
      (session.advance (next (.error failure)) .none session.trace) := by
  have stops := concluding.stops (concluding.uncommitted isNext)
  rw [isNext] at stops
  obtain ⟨answer, isDone⟩ := (stops (.error failure)).1 (Or.inr ⟨failure, rfl⟩)
  refine ⟨fun _ => (stops _).2 ?_, .refl _ _, ?_, fun _ => ⟨answer, isDone⟩⟩
  · rintro ⟨_, answer, isOk⟩
    cases isOk
  · rw [isDone]
    exact concludes_done _ _

/-- A statement that commits has its answer fit what the session wrote. -/
theorem Session.Concluding.commits {committed : Book} {session : Session}
    (concluding : session.Concluding fits committed) {snapshot : Book}
    (looked : session.snapshot = some snapshot)
    {next : Request.commit.Reply → Program Request Request.Reply Outcome}
    (isNext : session.program = .ask .commit next) :
    ∃ outcome, next (.ok ()) = .done outcome ∧
      fits session.operation session.env outcome session.written committed := by
  have since := concluding.since
  have concludes := concluding.concludes
  rw [looked, Option.getD_some] at since concludes
  rw [isNext] at concludes
  obtain ⟨outcome, isDone, isFit⟩ := concludes.1 rfl
  exact ⟨outcome, isDone (), isFit committed since⟩

end Sessions

/-! ## The machine -/

section Machines

variable {sha256 : List UInt8 → List UInt8} {chart : Chart} {machine after : Machine}
  {fits : Operation → Env → Outcome → Writes → Book → Prop}

/-- Every session of a machine is on its way to an answer that fits. -/
def Machine.Concluding (fits : Operation → Env → Outcome → Writes → Book → Prop)
    (machine : Machine) : Prop :=
  ∀ (index : Nat) (session : Session), machine.sessions[index]? = some session →
    session.Concluding fits machine.committed

theorem Machine.Concluding.replace (concluding : machine.Concluding fits) {index : Nat}
    {session : Session} {committed : Book} (next : Xid)
    (here : session.Concluding fits committed)
    (since : ∀ other right, other ≠ index → machine.sessions[other]? = some right →
      Since right.written machine.committed committed) :
    Machine.Concluding fits { machine.replace index session with committed, next } := by
  intro other found isFound
  change (machine.sessions.set index session)[other]? = some found at isFound
  rw [List.getElem?_set] at isFound
  split at isFound
  · split at isFound
    · cases isFound
      exact here
    · cases isFound
  · rename_i elsewhere
    exact (concluding other found isFound).later (since other found (Ne.symm elsewhere) isFound)

/-- To every other session a statement is what others did. -/
theorem since_of_run (sound : machine.Sound) {index : Nat} {session : Session}
    (here : machine.sessions[index]? = some session)
    (ran : machine.runStatement index session = some after) {other : Nat} {right : Session}
    (different : other ≠ index) (isRight : machine.sessions[other]? = some right) :
    Since right.written machine.committed after.committed := by
  obtain ⟨snapshot, request, next, _, _, _, _, rfl, ⟨_, lands, committing⟩ | ⟨_, sameBook⟩⟩ :=
    sound.run_spec here ran
  · rw [committing]
    exact since_of_commit sound.kept lands
      (sound.apart other index right session different isRight here)
  · rw [sameBook]
    exact .refl _ _

/-- Every step keeps a machine concluding. -/
theorem Machine.Concluding.step
    (fresh : ∀ (operation : Operation) (env : Env) (book : Book), Kept book →
      Concludes env (fits operation env) (operation.program sha256) ⟨book, .none⟩)
    (concluding : machine.Concluding fits) (sound : machine.Sound) {action : Action}
    (stepped : machine.step sha256 action = some after) : after.Concluding fits := by
  cases action with
  | start operation env =>
      cases stepped
      intro index session found
      rw [List.getElem?_append] at found
      split at found
      · exact concluding index session found
      · rw [List.getElem?_singleton] at found
        split at found
        · cases found
          exact
          { stops := fun _ => stops_program sha256 operation
            since := .refl _ _
            concludes := fresh operation env machine.committed sound.kept
            ended := fun isCommitted => by cases isCommitted }
        · cases found
  | elsewhere =>
      cases stepped
      exact concluding
  | assign index =>
      obtain ⟨session, here, assigned⟩ := Option.bind_eq_some_iff.mp stepped
      dsimp only at assigned
      split at assigned
      · cases assigned
        have mine := concluding index session here
        exact concluding.replace _ ⟨mine.stops, mine.since, mine.concludes, mine.ended⟩
          fun _ _ _ _ => .refl _ _
      · cases assigned
  | look index =>
      obtain ⟨session, here, rfl⟩ := Option.map_eq_some_iff.mp stepped
      have mine := concluding index session here
      exact concluding.replace machine.next
        ⟨mine.stops, .refl _ _, mine.concludes.later mine.since, mine.ended⟩
        fun _ _ _ _ => .refl _ _
  | run index =>
      obtain ⟨session, here, ran⟩ := Option.bind_eq_some_iff.mp stepped
      have since : ∀ other right, other ≠ index → machine.sessions[other]? = some right →
          Since right.written machine.committed after.committed :=
        fun other right different isRight => since_of_run sound here ran different isRight
      obtain ⟨snapshot, request, next, looked, isNext, _, _, rfl⟩ :=
        Machine.runStatement_eq_some ran
      exact concluding.replace machine.next ((concluding index session here).run looked isNext)
        since
  | fail index failure =>
      obtain ⟨session, here, failed⟩ := Option.bind_eq_some_iff.mp stepped
      split at failed
      · cases failed
      · rename_i request next isNext
        cases failed
        exact concluding.replace machine.next
          ((concluding index session here).fail isNext failure) fun _ _ _ _ => .refl _ _

theorem concluding_of_interleaved
    (fresh : ∀ (operation : Operation) (env : Env) (book : Book), Kept book →
      Concludes env (fits operation env) (operation.program sha256) ⟨book, .none⟩)
    (interleaved : Interleaved sha256 chart machine) : machine.Concluding fits := by
  induction interleaved with
  | initial =>
      intro index session found
      rw [Machine.initial, List.getElem?_nil] at found
      cases found
  | step interleaved _ stepped inductionHypothesis =>
      exact inductionHypothesis.step fresh (sound_of_interleaved interleaved) stepped

/-- A session after a step that was not its commit. -/
structure Session.Keeps (session later : Session) : Prop where
  operation : later.operation = session.operation
  env : later.env = session.env
  committed : later.committed = session.committed
  ended : (∃ answer, session.program = .done answer) →
    later.program = session.program ∧ later.trace = session.trace

theorem Session.Keeps.refl (session : Session) : session.Keeps session :=
  ⟨rfl, rfl, rfl, fun _ => ⟨rfl, rfl⟩⟩

/-- A step that commits nothing: every session is kept, and none has committed that had
not. -/
structure Machine.Keeps (machine after : Machine) : Prop where
  committed : after.committed = machine.committed
  sessions : ∀ (index : Nat) (session : Session), machine.sessions[index]? = some session →
    ∃ later, after.sessions[index]? = some later ∧ session.Keeps later
  fresh : ∀ (index : Nat) (later : Session), machine.sessions[index]? = none →
    after.sessions[index]? = some later → later.committed = false

theorem Machine.Keeps.replace {index : Nat} {session later : Session} (next : Xid)
    (here : machine.sessions[index]? = some session) (keeps : session.Keeps later) :
    machine.Keeps { machine.replace index later with next } where
  committed := rfl
  sessions := fun other right isRight => by
    change ∃ found, (machine.sessions.set index later)[other]? = some found ∧ _
    by_cases isHere : index = other
    · subst isHere
      rw [here] at isRight
      cases isRight
      exact ⟨later, List.getElem?_set_self (List.getElem?_eq_some_iff.mp here).1, keeps⟩
    · exact ⟨right, by rw [List.getElem?_set_ne isHere, isRight], .refl right⟩
  fresh := fun other found isNone isFound => by
    change (machine.sessions.set index later)[other]? = some found at isFound
    have beyond := List.getElem?_eq_none_iff.mp isNone
    rw [List.getElem?_eq_none (by rw [List.length_set]; exact beyond)] at isFound
    cases isFound

/-- What one step does: nothing to the book, or one session's commit. -/
theorem step_commits_once {action : Action}
    (stepped : machine.step sha256 action = some after) :
    machine.Keeps after ∨
      ∃ index session snapshot next, machine.sessions[index]? = some session ∧
        session.snapshot = some snapshot ∧ session.program = .ask .commit next ∧
        after.committed = machine.committed.apply session.written ∧
        after.sessions = machine.sessions.set index (session.advance (next (.ok ())) .none
          (session.trace ++ [⟨.commit, snapshot, machine.committed⟩])) := by
  cases action with
  | start operation env =>
      cases stepped
      refine Or.inl ⟨rfl, fun index session found => ?_, fun index later isNone found => ?_⟩
      · refine ⟨session, ?_, .refl session⟩
        have inside := (List.getElem?_eq_some_iff.mp found).1
        dsimp only
        rw [List.getElem?_append_left inside, found]
      · have beyond := List.getElem?_eq_none_iff.mp isNone
        dsimp only at found
        rw [List.getElem?_append_right beyond, List.getElem?_singleton] at found
        split at found
        · cases found
          rfl
        · cases found
  | elsewhere =>
      cases stepped
      refine Or.inl ⟨rfl, fun index session found => ⟨session, found, .refl session⟩,
        fun index later isNone found => ?_⟩
      rw [isNone] at found
      cases found
  | assign index =>
      obtain ⟨session, here, assigned⟩ := Option.bind_eq_some_iff.mp stepped
      dsimp only at assigned
      split at assigned
      · cases assigned
        exact Or.inl (.replace _ here ⟨rfl, rfl, rfl, fun _ => ⟨rfl, rfl⟩⟩)
      · cases assigned
  | look index =>
      obtain ⟨session, here, rfl⟩ := Option.map_eq_some_iff.mp stepped
      exact Or.inl (.replace machine.next here ⟨rfl, rfl, rfl, fun _ => ⟨rfl, rfl⟩⟩)
  | run index =>
      obtain ⟨session, here, ran⟩ := Option.bind_eq_some_iff.mp stepped
      obtain ⟨snapshot, request, next, looked, isNext, _, _, rfl⟩ :=
        Machine.runStatement_eq_some ran
      rcases Connection.after_cases ⟨machine.committed, session.written⟩ request
        (session.answered snapshot machine.committed request).2 with
        ⟨rfl, committing⟩ | ⟨notCommit, sameBook, _⟩
      · right
        refine ⟨index, session, snapshot, next, here, looked, isNext, ?_, ?_⟩
        · exact congrArg Connection.committed committing
        · rfl
      · left
        have keeps : session.Keeps (session.advance
            (next (session.answered snapshot machine.committed request).1)
            (session.reached snapshot machine.committed request).written
            (session.trace ++ [⟨request, snapshot, machine.committed⟩])) := by
          refine ⟨rfl, rfl, ?_, fun ended => ?_⟩
          · rw [Bool.eq_iff_iff, committed_append]
            exact ⟨fun either => either.resolve_right notCommit, Or.inl⟩
          · obtain ⟨answer, isDone⟩ := ended
            rw [isNext] at isDone
            cases isDone
        have same := Machine.Keeps.replace machine.next here keeps
        exact ⟨sameBook, same.sessions, same.fresh⟩
  | fail index failure =>
      obtain ⟨session, here, failed⟩ := Option.bind_eq_some_iff.mp stepped
      split at failed
      · cases failed
      · rename_i request next isNext
        cases failed
        refine Or.inl (.replace machine.next here ⟨rfl, rfl, rfl, fun ended => ?_⟩)
        obtain ⟨answer, isDone⟩ := ended
        rw [isNext] at isDone
        cases isDone

/-- What a step leaves of a session that has committed. -/
theorem kept_of_step (concluding : machine.Concluding fits) {action : Action}
    (stepped : machine.step sha256 action = some after) {index : Nat} {session : Session}
    (here : machine.sessions[index]? = some session) (isCommitted : session.committed = true) :
    ∃ later, after.sessions[index]? = some later ∧ later.operation = session.operation ∧
      later.env = session.env ∧ later.committed = true ∧ later.program = session.program ∧
      later.trace = session.trace := by
  have ended := (concluding index session here).ended isCommitted
  rcases step_commits_once stepped with keeps | ⟨other, right, _, next, there, _, isNext, _, sessions⟩
  · obtain ⟨later, isThere, keeps⟩ := keeps.sessions index session here
    obtain ⟨program, trace⟩ := keeps.ended ended
    exact ⟨later, isThere, keeps.operation, keeps.env, keeps.committed.trans isCommitted,
      program, trace⟩
  · have different : other ≠ index := by
      rintro rfl
      rw [here] at there
      cases there
      obtain ⟨answer, isDone⟩ := ended
      rw [isNext] at isDone
      cases isDone
    refine ⟨session, ?_, rfl, rfl, isCommitted, rfl, rfl⟩
    rw [sessions, List.getElem?_set_ne different, here]

/-- Nothing is accepted for the first time without a commit. -/
theorem Machine.Concluding.committed_of_accepts (concluding : machine.Concluding fits)
    {session : Session} (member : session ∈ machine.sessions) {outcome : Outcome}
    (isDone : session.program = .done outcome) {eventId : Uuid} {made : Made}
    (accepted : Verdict.accepted eventId made false ∈ outcome.verdicts) :
    session.committed = true := by
  obtain ⟨index, here⟩ := List.getElem?_of_mem member
  cases committed : session.committed with
  | true =>
      rfl
  | false =>
      have stops := (concluding index session here).stops committed
      rw [isDone] at stops
      exact absurd accepted (stops eventId made)

/-- What became of a session that has committed: it answered, its answer fits what it
wrote, and others have landed behind it since. -/
def Session.Concluded (fits : Operation → Env → Outcome → Writes → Book → Prop)
    (committed : Book) (session : Session) : Prop :=
  ∃ book written outcome, session.program = .done outcome ∧
    fits session.operation session.env outcome written book ∧ Kept book ∧ Lands book written ∧
    Landed (fun _ => True) (book.apply written) committed

theorem Session.Concluded.step {session later : Session} {before after : Book}
    (concluded : session.Concluded fits before) (sameOperation : later.operation = session.operation)
    (sameEnv : later.env = session.env) (sameProgram : later.program = session.program)
    (landed : Landed (fun _ => True) before after) : later.Concluded fits after := by
  obtain ⟨book, written, outcome, isDone, isFit, kept, lands, since⟩ := concluded
  refine ⟨book, written, outcome, sameProgram.trans isDone, ?_, kept, lands, since.trans landed⟩
  rw [sameOperation, sameEnv]
  exact isFit

/-- In every interleaving a session that has committed has concluded. -/
theorem concluded_of_interleaved
    (fresh : ∀ (operation : Operation) (env : Env) (book : Book), Kept book →
      Concludes env (fits operation env) (operation.program sha256) ⟨book, .none⟩)
    (interleaved : Interleaved sha256 chart machine) {session : Session}
    (member : session ∈ machine.sessions) (committed : session.committed = true) :
    session.Concluded fits machine.committed := by
  induction interleaved generalizing session with
  | initial =>
      cases member
  | @step machine after interleaved action stepped inductionHypothesis =>
      have sound := sound_of_interleaved interleaved
      have concluding := concluding_of_interleaved fresh interleaved
      have landed := sound.landed_of_step stepped
      obtain ⟨index, isThere⟩ := List.getElem?_of_mem member
      -- a session that had committed stands as it was
      have stood : ∀ earlier, machine.sessions[index]? = some earlier →
          earlier.committed = true → session.Concluded fits after.committed := by
        intro earlier here was
        obtain ⟨later, isLater, operation, env, _, program, _⟩ :=
          kept_of_step concluding stepped here was
        rw [isThere] at isLater
        cases isLater
        exact (inductionHypothesis (List.mem_of_getElem? here) was).step operation env program
          landed
      rcases step_commits_once stepped with
        keeps | ⟨other, right, snapshot, next, here, looked, isNext, committing, sessions⟩
      · cases here : machine.sessions[index]? with
        | none =>
            rw [keeps.fresh index session here isThere] at committed
            cases committed
        | some earlier =>
            obtain ⟨later, isLater, same⟩ := keeps.sessions index earlier here
            rw [isThere] at isLater
            cases isLater
            exact stood earlier here (same.committed.symm.trans committed)
      · by_cases isHere : other = index
        · subst isHere
          have inside := (List.getElem?_eq_some_iff.mp here).1
          rw [sessions, List.getElem?_set_self inside] at isThere
          cases isThere
          obtain ⟨outcome, isDone, isFit⟩ := (concluding other right here).commits looked isNext
          have mine := sound.sessions other right here
          have commits := mine.commits
          rw [isNext] at commits
          refine ⟨machine.committed, right.written, outcome, isDone, isFit, sound.kept,
            mine.grows.lands (commits.1 rfl), ?_⟩
          rw [committing]
          exact .refl
        · have wasThere := isThere
          rw [sessions, List.getElem?_set_ne isHere] at wasThere
          exact stood session wasThere committed

/-- A committed session whose answer fits writes with a transaction row. -/
def Session.Wrote (fits : Operation → Env → Outcome → Writes → Book → Prop) (session : Session)
    (row : TransactionRow) : Prop :=
  session.committed = true ∧ ∃ book written outcome, session.program = .done outcome ∧
    fits session.operation session.env outcome written book ∧ row ∈ written.transactions

/-- In every interleaving a transaction was written by a session that has committed. -/
theorem wrote_of_interleaved
    (fresh : ∀ (operation : Operation) (env : Env) (book : Book), Kept book →
      Concludes env (fits operation env) (operation.program sha256) ⟨book, .none⟩)
    (interleaved : Interleaved sha256 chart machine) {row : TransactionRow}
    (member : row ∈ machine.committed.transactions) :
    ∃ session ∈ machine.sessions, session.Wrote fits row := by
  induction interleaved with
  | initial =>
      cases member
  | @step machine after interleaved action stepped inductionHypothesis =>
      have concluding := concluding_of_interleaved fresh interleaved
      -- a session that had written it stands as it was
      have stood : row ∈ machine.committed.transactions →
          ∃ session ∈ after.sessions, session.Wrote fits row := by
        intro isOld
        obtain ⟨session, isThere, was, book, written, outcome, isDone, isFit, isRow⟩ :=
          inductionHypothesis isOld
        obtain ⟨index, here⟩ := List.getElem?_of_mem isThere
        obtain ⟨later, isLater, operation, env, committed, program, _⟩ :=
          kept_of_step concluding stepped here was
        refine ⟨later, List.mem_of_getElem? isLater, committed, book, written, outcome,
          program.trans isDone, ?_, isRow⟩
        rw [operation, env]
        exact isFit
      rcases step_commits_once stepped with
        keeps | ⟨index, session, snapshot, next, here, looked, isNext, committing, sessions⟩
      · rw [keeps.committed] at member
        exact stood member
      · rw [committing] at member
        rcases List.mem_append.mp member with isOld | isNew
        · exact stood isOld
        · obtain ⟨outcome, isDone, isFit⟩ := (concluding index session here).commits looked isNext
          have inside := (List.getElem?_eq_some_iff.mp here).1
          refine ⟨_, ?_, (committed_append session (next (.ok ())) .none
            ⟨.commit, snapshot, machine.committed⟩).mpr (Or.inr rfl), machine.committed,
            session.written, outcome, isDone, isFit, isNew⟩
          rw [sessions]
          exact List.mem_set inside _

/-- What any further steps do to the book. -/
theorem landed_of_steps (interleaved : Interleaved sha256 chart machine) {actions : List Action}
    {later : Machine} (ran : machine.steps sha256 actions = some later) :
    Landed (fun _ => True) machine.committed later.committed := by
  induction actions generalizing machine with
  | nil =>
      obtain rfl : machine = later := by simpa [Machine.steps] using ran
      exact .refl
  | cons action actions inductionHypothesis =>
      rw [Machine.steps, List.foldlM_cons] at ran
      obtain ⟨between, first, rest⟩ := Option.bind_eq_some_iff.mp ran
      exact ((sound_of_interleaved interleaved).landed_of_step first).trans
        (inductionHypothesis (interleaved.step action first) rest)

end Machines

end OpenLedger
