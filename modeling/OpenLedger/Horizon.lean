import OpenLedger.Interleaved

/-!
# The horizon

The oldest transaction id still in flight, or the next to be given.  Every row
carries its writer's id, and only a writer in flight commits; so nothing commits
below a cursor the horizon has reached.
-/

namespace OpenLedger

open Postgres

/-- What a bracket wrote carries its writer's id. -/
def Writes.Own (xid : Xid) (writes : Writes) : Prop :=
  ∀ x ∈ writes.transactions, x.xactId = xid

theorem Writes.Own.none (xid : Xid) : Writes.none.Own xid := nofun

theorem Writes.Own.append {xid : Xid} {first second : Writes} (firstOwn : first.Own xid)
    (secondOwn : second.Own xid) : (first.append second).Own xid := by
  intro x member
  rcases List.mem_append.mp member with inFirst | inSecond
  · exact firstOwn x inFirst
  · exact secondOwn x inSecond

theorem Writes.eq_none_of_isEmpty {writes : Writes} (isEmpty : writes.isEmpty = true) :
    writes = .none := by
  cases writes
  simp only [Writes.isEmpty, Bool.and_eq_true, List.isEmpty_iff] at isEmpty
  simp [isEmpty, Writes.none]

section Writers

variable {env : Env} {snapshot current : Book}

theorem own_append (command : PostTransaction) (hash : List UInt8) (payload : Json)
    (append : Append) :
    (claimAndAppend env snapshot current command hash payload append).2.Own env.xid := by
  have wrote : (appendWrites env snapshot current command hash payload append).Own env.xid := by
    intro x member
    change x ∈ txn env snapshot command at member
    unfold txn at member
    dsimp only at member
    split at member
    · rw [List.mem_singleton.mp member]
    · cases member
  cases held : current.holderOf command.tenantId command.idempotencyKey with
  | some event =>
      rw [claimAndAppend_held env snapshot current command hash payload append (by rw [held]; rfl)]
      exact .none _
  | none =>
      rw [claimAndAppend_free env snapshot current command hash payload append held]
      split
      · exact .none _
      · split <;> exact .none _
      · exact wrote

theorem own_appendBatch (members : List BatchMember) :
    (claimAndAppendBatch env snapshot current members).2.Own env.xid := by
  have wrote : (batchWrites env snapshot current members).Own env.xid := by
    intro x member
    obtain ⟨row, _, rfl⟩ := List.mem_map.mp member
    rfl
  unfold claimAndAppendBatch
  split
  · exact .none _
  · split
    · exact .none _
    · rename_i rows writes ran
      unfold claimAndAppendBatchStatement at ran
      simp only [bind, Except.bind] at ran
      split at ran
      · cases ran
      · split at ran
        · cases ran
        · split at ran
          · cases ran
          · split at ran
            · cases ran
            · cases ran
              exact wrote

theorem own_openAccount (command : OpenAccount) (hash : List UInt8) (payload : Json)
    (triple : ChartTriple) :
    (claimAndOpenAccount env current command hash payload triple).2.Own env.xid := by
  unfold claimAndOpenAccount
  dsimp only
  split
  · exact .none _
  · split
    · split <;> exact .none _
    · exact nofun

theorem own_definePeriod (command : DefinePeriod) (hash : List UInt8) (payload : Json) :
    (claimAndDefinePeriod env current command hash payload).2.Own env.xid := by
  unfold claimAndDefinePeriod
  dsimp only
  split
  · exact .none _
  · split
    · split <;> exact .none _
    · exact nofun

theorem own_closePeriod (command : ClosePeriod) (hash : List UInt8) (payload : Json)
    (plan : ClosePlan) :
    (claimAndClosePeriod env snapshot current command hash payload plan).2.Own env.xid := by
  have wrote : (closeWrites env snapshot current command hash payload plan).Own env.xid := by
    intro x member
    rw [List.mem_singleton.mp member]
  unfold claimAndClosePeriod
  dsimp only
  split
  · exact .none _
  · split
    · exact .none _
    · split <;> exact .none _
    · exact wrote

/-- A statement writes under its writer's id. -/
theorem own_statement (request : Request) :
    (statement env snapshot current request).2.Own env.xid := by
  cases request with
  | claimAndAppend command hash payload append =>
      exact own_append command hash payload append
  | claimAndAppendBatch members =>
      exact own_appendBatch members
  | claimAndOpenAccount command hash payload triple =>
      exact own_openAccount command hash payload triple
  | claimAndDefinePeriod command hash payload =>
      exact own_definePeriod command hash payload
  | claimAndClosePeriod command hash payload plan =>
      exact own_closePeriod command hash payload plan
  | checkpointTheClose command plan transactionId computedAtXid =>
      unfold statement checkpointTheClose
      dsimp only
      split <;> exact nofun
  | _ =>
      exact .none _

end Writers

/-- What a session has written is its own, and nothing until it has its id. -/
structure Session.Own (session : Session) : Prop where
  own : session.written.Own session.env.xid
  unassigned : session.assigned = false → session.written = .none

/-- A session whose transaction has its id and has not ended: a use-case ends
with its bracket. -/
def Session.isInFlight (session : Session) : Bool :=
  session.assigned &&
    match session.program with
    | .done _ => false
    | .ask _ _ => true

namespace Machine

/-- The oldest transaction id still in flight, or the next to be given. -/
def horizon (machine : Machine) : Xid :=
  ((machine.sessions.filter Session.isInFlight).map fun session => session.env.xid).foldr min
    machine.next

theorem le_horizon_iff {machine : Machine} {cursor : Xid} :
    cursor ≤ machine.horizon ↔ cursor ≤ machine.next ∧
      ∀ session ∈ machine.sessions, session.isInFlight = true → cursor ≤ session.env.xid := by
  rw [horizon]
  generalize machine.sessions = sessions
  induction sessions with
  | nil =>
      simp
  | cons head tail inductionHypothesis =>
      by_cases flying : head.isInFlight = true
      · rw [List.filter_cons_of_pos flying, List.map_cons, List.foldr_cons, le_min_iff,
          inductionHypothesis, List.forall_mem_cons]
        tauto
      · rw [List.filter_cons_of_neg flying, inductionHypothesis, List.forall_mem_cons]
        tauto

end Machine

/-- What is added after a book stands at or above a cursor. -/
structure Book.GrowsAbove (cursor : Xid) (earlier later : Book) : Prop where
  precedes : earlier.Precedes later
  entries : ∃ added, later.entries = earlier.entries ++ added ∧ ∀ e ∈ added, cursor ≤ e.xactId
  closes : ∃ added, later.closes = earlier.closes ++ added ∧
    ∀ k ∈ added, cursor ≤ k.computedAtXid
  periodBalances : ∃ added, later.periodBalances = earlier.periodBalances ++ added ∧
    ∀ row ∈ added, ∃ k ∈ later.closes, row.OfClose k ∧ cursor ≤ k.computedAtXid

namespace Book.GrowsAbove

variable {cursor : Xid}

theorem refl (cursor : Xid) (book : Book) : book.GrowsAbove cursor book where
  precedes := .refl book
  entries := ⟨[], (List.append_nil _).symm, nofun⟩
  closes := ⟨[], (List.append_nil _).symm, nofun⟩
  periodBalances := ⟨[], (List.append_nil _).symm, nofun⟩

theorem trans {first second third : Book} (early : first.GrowsAbove cursor second)
    (late : second.GrowsAbove cursor third) : first.GrowsAbove cursor third where
  precedes := early.precedes.trans late.precedes
  entries := by
    obtain ⟨before, isBefore, aboveBefore⟩ := early.entries
    obtain ⟨after, isAfter, aboveAfter⟩ := late.entries
    refine ⟨before ++ after, by rw [isAfter, isBefore, List.append_assoc], fun e member => ?_⟩
    exact (List.mem_append.mp member).elim (aboveBefore e) (aboveAfter e)
  closes := by
    obtain ⟨before, isBefore, aboveBefore⟩ := early.closes
    obtain ⟨after, isAfter, aboveAfter⟩ := late.closes
    refine ⟨before ++ after, by rw [isAfter, isBefore, List.append_assoc], fun k member => ?_⟩
    exact (List.mem_append.mp member).elim (aboveBefore k) (aboveAfter k)
  periodBalances := by
    obtain ⟨before, isBefore, ofBefore⟩ := early.periodBalances
    obtain ⟨after, isAfter, ofAfter⟩ := late.periodBalances
    refine ⟨before ++ after, by rw [isAfter, isBefore, List.append_assoc], fun row member => ?_⟩
    rcases List.mem_append.mp member with old | new
    · obtain ⟨k, isClose, ofClose, above⟩ := ofBefore row old
      exact ⟨k, late.precedes.closes.subset isClose, ofClose, above⟩
    · exact ofAfter row new

/-- A commit of rows at or above a cursor. -/
theorem commit {book : Book} {writes : Writes} {xid : Xid} (own : writes.Own xid)
    (lands : Lands book writes) (above : cursor ≤ xid) :
    book.GrowsAbove cursor (book.apply writes) where
  precedes := .apply book writes
  entries := by
    refine ⟨writes.entries, rfl, fun e member => ?_⟩
    obtain ⟨x, isThere, belongs⟩ := lands.belongs e member
    rw [belongs.xactId, own x isThere]
    exact above
  closes := by
    refine ⟨writes.closes, rfl, fun k member => ?_⟩
    obtain ⟨x, isThere, closes⟩ := lands.closed k member
    rw [← closes.xactId, own x isThere]
    exact above
  periodBalances := by
    refine ⟨writes.periodBalances, rfl, fun row member => ?_⟩
    obtain ⟨k, isClose, ofClose⟩ := lands.checkpointed row member
    obtain ⟨x, isThere, closes⟩ := lands.closed k isClose
    refine ⟨k, List.mem_append_right _ isClose, ofClose, ?_⟩
    rw [← closes.xactId, own x isThere]
    exact above

end Book.GrowsAbove

namespace Machine

variable {sha256 : List UInt8 → List UInt8} {machine after : Machine}

/-- Every session of a machine has written its own. -/
def Own (machine : Machine) : Prop := ∀ session ∈ machine.sessions, session.Own

theorem mem_set {sessions : List Session} {index : Nat} {replacement found : Session}
    (member : found ∈ sessions.set index replacement) :
    found = replacement ∨ found ∈ sessions :=
  (List.mem_or_eq_of_mem_set member).symm

/-- What a session whose statement ran has written. -/
theorem own_run {index : Nat} {session : Session} (mine : session.Own)
    (ran : machine.runStatement index session = some after) :
    ∃ advanced, after.sessions = machine.sessions.set index advanced ∧
      advanced.env = session.env ∧ advanced.assigned = session.assigned ∧ advanced.Own := by
  obtain ⟨snapshot, request, next, _, _, allowed, _, rfl⟩ := runStatement_eq_some ran
  refine ⟨_, rfl, rfl, rfl, ?_⟩
  have reached : (session.reached snapshot machine.committed request).written.Own
        session.env.xid ∧
      (session.assigned = false →
        (session.reached snapshot machine.committed request).written = .none) := by
    rcases Connection.after_cases ⟨machine.committed, session.written⟩ request
      (session.answered snapshot machine.committed request).2 with
      ⟨_, committing⟩ | ⟨_, _, isNone | isAppended⟩
    · rw [Session.reached, committing]
      exact ⟨.none _, fun _ => rfl⟩
    · rw [Session.reached, isNone]
      exact ⟨.none _, fun _ => rfl⟩
    · rw [Session.reached, isAppended]
      refine ⟨mine.own.append (own_statement request), fun unassigned => ?_⟩
      have isEmpty := allowed.resolve_left (by rw [unassigned]; exact Bool.false_ne_true)
      rw [mine.unassigned unassigned, Writes.none_append, Writes.eq_none_of_isEmpty isEmpty]
  cases next (session.answered snapshot machine.committed request).1 with
  | done answer =>
      exact ⟨.none _, fun _ => rfl⟩
  | ask request next =>
      exact ⟨reached.1, reached.2⟩

/-- Every step keeps every session its own. -/
theorem Own.step (own : machine.Own) {action : Action}
    (stepped : machine.step sha256 action = some after) : after.Own := by
  cases action with
  | start operation env =>
      cases stepped
      intro session member
      rcases List.mem_append.mp member with old | new
      · exact own session old
      · rw [List.mem_singleton.mp new]
        exact ⟨.none _, fun _ => rfl⟩
  | elsewhere =>
      cases stepped
      exact own
  | assign index =>
      obtain ⟨session, here, assigned⟩ := Option.bind_eq_some_iff.mp stepped
      dsimp only at assigned
      split at assigned
      · cases assigned
        intro found member
        rcases mem_set member with rfl | old
        · exact ⟨(own session (List.mem_of_getElem? here)).own, nofun⟩
        · exact own found old
      · cases assigned
  | look index =>
      obtain ⟨session, here, rfl⟩ := Option.map_eq_some_iff.mp stepped
      have mine := own session (List.mem_of_getElem? here)
      intro found member
      rcases mem_set member with rfl | old
      · exact ⟨mine.own, mine.unassigned⟩
      · exact own found old
  | run index =>
      obtain ⟨session, here, ran⟩ := Option.bind_eq_some_iff.mp stepped
      obtain ⟨advanced, isAfter, _, _, isOwn⟩ := own_run (own session (List.mem_of_getElem? here)) ran
      intro found member
      rw [isAfter] at member
      rcases mem_set member with rfl | old
      · exact isOwn
      · exact own found old
  | fail index failure =>
      obtain ⟨session, here, failed⟩ := Option.bind_eq_some_iff.mp stepped
      split at failed
      · cases failed
      · rename_i request next isNext
        cases failed
        intro found member
        rcases mem_set member with rfl | old
        · cases next (.error failure) with
          | done answer =>
              exact ⟨.none _, fun _ => rfl⟩
          | ask request next =>
              exact ⟨.none _, fun _ => rfl⟩
        · exact own found old

theorem own_of_interleaved {chart : Chart} (interleaved : Interleaved sha256 chart machine) :
    machine.Own := by
  induction interleaved with
  | initial =>
      intro session member
      cases member
  | step _ _ stepped inductionHypothesis =>
      exact inductionHypothesis.step stepped

/-- A session that asks a statement is in flight once it has its id. -/
theorem isInFlight_of_asks {session : Session} {request : Request}
    {next : request.Reply → Program Request Request.Reply Outcome}
    (asks : session.program = .ask request next) (assigned : session.assigned = true) :
    session.isInFlight = true := by
  rw [Session.isInFlight, assigned, asks]
  rfl

/-- Replacing a session by one that is in flight only where it was leaves the
horizon at or above a cursor. -/
theorem le_horizon_set {cursor next : Xid} (atOrBelow : cursor ≤ machine.horizon)
    {index : Nat} {replacement : Session} {committed : Book} (rises : machine.next ≤ next)
    (flies : replacement.isInFlight = true → cursor ≤ replacement.env.xid) :
    cursor ≤ Machine.horizon { machine.replace index replacement with committed, next } := by
  obtain ⟨belowNext, belowAll⟩ := le_horizon_iff.mp atOrBelow
  refine le_horizon_iff.mpr ⟨belowNext.trans rises, fun session member flying => ?_⟩
  rcases mem_set member with rfl | old
  · exact flies flying
  · exact belowAll session old flying

/-- A cursor at or below the horizon: a step adds nothing under it, and leaves
the horizon at or above it. -/
theorem Sound.step_above {cursor : Xid} (sound : machine.Sound) (own : machine.Own)
    (atOrBelow : cursor ≤ machine.horizon) {action : Action}
    (stepped : machine.step sha256 action = some after) :
    machine.committed.GrowsAbove cursor after.committed ∧ cursor ≤ after.horizon := by
  obtain ⟨belowNext, belowAll⟩ := le_horizon_iff.mp atOrBelow
  cases action with
  | start operation env =>
      cases stepped
      refine ⟨.refl cursor _, le_horizon_iff.mpr ⟨belowNext, fun session member flying => ?_⟩⟩
      rcases List.mem_append.mp member with old | new
      · exact belowAll session old flying
      · rw [List.mem_singleton.mp new] at flying
        cases flying
  | elsewhere =>
      cases stepped
      exact ⟨.refl cursor _, le_horizon_iff.mpr ⟨belowNext.trans (Nat.le_succ _), belowAll⟩⟩
  | assign index =>
      obtain ⟨session, here, assigned⟩ := Option.bind_eq_some_iff.mp stepped
      dsimp only at assigned
      split at assigned
      · rename_i given
        cases assigned
        refine ⟨.refl cursor _, le_horizon_set atOrBelow (Nat.le_succ _) fun _ => ?_⟩
        change cursor ≤ session.env.xid
        rw [given.2]
        exact belowNext
      · cases assigned
  | look index =>
      obtain ⟨session, here, rfl⟩ := Option.map_eq_some_iff.mp stepped
      refine ⟨.refl cursor _, le_horizon_set atOrBelow (le_refl _) fun flying => ?_⟩
      exact belowAll session (List.mem_of_getElem? here) flying
  | run index =>
      obtain ⟨session, here, ran⟩ := Option.bind_eq_some_iff.mp stepped
      have isThere := List.mem_of_getElem? here
      obtain ⟨snapshot, request, next, _, asks, _, _, rfl, outcome⟩ := sound.run_spec here ran
      refine ⟨?_, le_horizon_set atOrBelow (le_refl _) fun flying => ?_⟩
      · rcases outcome with ⟨_, lands, committing⟩ | ⟨_, sameBook⟩
        · dsimp only
          rw [committing]
          cases assigned : session.assigned with
          | true =>
              exact .commit (own session isThere).own lands
                (belowAll session isThere (isInFlight_of_asks asks assigned))
          | false =>
              rw [(own session isThere).unassigned assigned, Book.apply_none]
              exact .refl cursor _
        · dsimp only
          rw [sameBook]
          exact .refl cursor _
      · have assigned : session.assigned = true := (Bool.and_eq_true_iff.mp flying).1
        exact belowAll session isThere (isInFlight_of_asks asks assigned)
  | fail index failure =>
      obtain ⟨session, here, failed⟩ := Option.bind_eq_some_iff.mp stepped
      have isThere := List.mem_of_getElem? here
      split at failed
      · cases failed
      · rename_i request next asks
        cases failed
        refine ⟨.refl cursor _, le_horizon_set atOrBelow (le_refl _) fun flying => ?_⟩
        have assigned : session.assigned = true := (Bool.and_eq_true_iff.mp flying).1
        exact belowAll session isThere (isInFlight_of_asks asks assigned)

end Machine

/-- In any run of steps, nothing is added under a cursor the horizon had
reached. -/
theorem grows_above {sha256 : List UInt8 → List UInt8} {chart : Chart} {start later : Machine}
    (interleaved : Interleaved sha256 chart start) {cursor : Xid}
    (atOrBelow : cursor ≤ start.horizon) {actions : List Action}
    (ran : start.steps sha256 actions = some later) :
    start.committed.GrowsAbove cursor later.committed ∧ cursor ≤ later.horizon := by
  induction actions generalizing start with
  | nil =>
      obtain rfl : start = later := by simpa [Machine.steps] using ran
      exact ⟨.refl cursor _, atOrBelow⟩
  | cons action actions inductionHypothesis =>
      rw [Machine.steps, List.foldlM_cons] at ran
      obtain ⟨between, first, rest⟩ := Option.bind_eq_some_iff.mp ran
      have sound := sound_of_interleaved interleaved
      obtain ⟨grows, still⟩ :=
        sound.step_above (Machine.own_of_interleaved interleaved) atOrBelow first
      obtain ⟨growsOn, last⟩ := inductionHypothesis (interleaved.step action first) still rest
      exact ⟨grows.trans growsOn, last⟩

end OpenLedger
