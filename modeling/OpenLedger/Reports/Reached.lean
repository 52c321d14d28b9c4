import OpenLedger.Admission
import OpenLedger.Horizon
import OpenLedger.Reports.Moments
import OpenLedger.Reports.ReadBack

/-!
# The moments the writers reach

What reads meet is a book and a horizon.  The writers' machine is at such a moment at
every step: an id is its session's, and a date comes from a command, from what a command
names, from the server's clock or from the end of a period.  The first is refused outside
the years 1 to 9999, and a close writes no leg unless an entry stands before its end.
-/

namespace OpenLedger

open Postgres

/-! ## Dates -/

/-- The first microsecond of the year 1, and of the year 10000. -/
def yearOne : Timestamp := -62135596800000000

def yearTenThousand : Timestamp := 253402300800000000

/-- A column's value within the years 1 to 9999. -/
def InYears (stored : Timestamp) : Prop := yearOne ≤ stored ∧ stored < yearTenThousand

theorem inYears_iff {micros : Int} :
    InYears micros ↔ -62135596800000000 ≤ micros ∧ micros < 253402300800000000 := Iff.rfl

/-- Such a value reads back in those years. -/
theorem InYears.year {stored : Timestamp} (inYears : InYears stored) :
    1 ≤ (OffsetDateTime.ofStored stored).year ∧ (OffsetDateTime.ofStored stored).year < 10000 := by
  have isNanos : (OffsetDateTime.ofStored stored).nanos = stored * 1000 := rfl
  have isOffset : (OffsetDateTime.ofStored stored).offset = 0 := rfl
  have within := inYears_iff.mp inYears
  rw [OffsetDateTime.year, isNanos, isOffset, Instant.yearAt, Instant.le_year_iff,
    Instant.year_lt_iff]
  unfold Instant.firstDayOf Instant.nanosPerSecond
  omega

/-- And so has an RFC 3339 text. -/
theorem InYears.rfc3339 {stored : Timestamp} (inYears : InYears stored) :
    (OffsetDateTime.ofStored stored).rfc3339.isSome = true := by
  have years := inYears.year
  have minutes : (OffsetDateTime.ofStored stored).WholeMinutes := by
    have inUtc : (0 : Int).natAbs / 3600 ≤ 23 ∧ (0 : Int).natAbs % 60 = 0 := by decide
    exact inUtc
  exact OffsetDateTime.rfc3339_isSome_iff.mpr ⟨by omega, by omega, minutes⟩

/-- An instant a command takes is stored in those years. -/
theorem inYears_stored {instant : OffsetDateTime} (inRange : isEffectiveInstant instant = true) :
    InYears instant.stored := by
  have years := yearAt_of_isEffectiveInstant inRange
  have first := Instant.le_year_iff.mp years.1
  have last := Instant.year_lt_iff.mp (Int.lt_add_one_of_le years.2)
  obtain ⟨micros, isStored, either⟩ := instant.stored_cases
  rw [isStored, inYears_iff]
  unfold Instant.firstDayOf Instant.nanosPerSecond at first last
  unfold OffsetDateTime.encodingEpoch at either
  omega

/-- A bound of a defined period is stored before the year 10000. -/
theorem Book.Asked.endsInRange {sha256 : List UInt8 → List UInt8} {book : Book}
    (asked : book.Asked sha256) {row : PeriodRow} (member : row ∈ book.periods) :
    row.endsAt < yearTenThousand := by
  obtain ⟨command, rfl⟩ := asked.periods row member
  have inRange := command.endsInUtc
  rw [OffsetDateTime.checkedToUtc] at inRange
  split at inRange
  · rename_i years
    have last := Instant.year_lt_iff.mp (Int.lt_add_one_of_le years.2)
    obtain ⟨micros, isStored, either⟩ := command.endsAt.stored_cases
    have isEnd : (definedRow command).endsAt = micros := isStored
    rw [isEnd]
    change micros < 253402300800000000
    unfold Instant.firstDayOf Instant.nanosPerSecond at last
    unfold OffsetDateTime.encodingEpoch at either
    omega
  · cases inRange

/-! ## What a close answers -/

/-- A close's answer against the book it is committed to: its cursor is its own id, and a
sweep that took anything read an entry below it that the close is not dated before. -/
structure PeriodClosed.FollowsIn (env : Env) (book : Book) (answer : PeriodClosed) : Prop where
  computedAtXid : answer.computedAtXid = env.xid
  earlier : answer.swept ≠ [] → ∃ e ∈ book.entries,
    e.xactId < answer.computedAtXid ∧ e.effectiveAt ≤ answer.effectiveAt

section Closing

variable {env : Env} (sha256 : List UInt8 → List UInt8)

theorem concludes_follows_close (command : ClosePeriod) {book : Book} (kept : Kept book) :
    Concludes env (fun answer _ book => ∀ closed, answer = .ok closed → closed.FollowsIn env book)
      (closePeriod sha256 command).run ⟨book, .none⟩ := by
  refine concludes_closePeriod sha256 command kept
    fun snapshot current plan writes periodBalances checkpointRows later wrote precedes _ => ?_
  intro closed isClosed
  obtain rfl := Except.ok.inj isClosed
  refine ⟨rfl, fun swept => ?_⟩
  obtain ⟨position, isSwept⟩ := List.exists_mem_of_ne_nil _ swept
  obtain ⟨e, isThere, admitted, _⟩ := entry_of_mem_position isSwept
  simp only [sweepAdmits, Bool.and_eq_true, decide_eq_true_eq] at admitted
  have inside := eq_of_theLastInstantInside wrote.fits.instant
  refine ⟨e, precedes.entries.subset isThere, admitted.2, ?_⟩
  have before : (e.effectiveAt : Int) < plan.endsAt := admitted.1.2
  change (e.effectiveAt : Int) ≤ plan.closesAt
  rw [inside]
  exact Int.le_sub_one_of_lt before

/-- Whatever else commits, an operation that closes answers so. -/
theorem concludes_follows (operation : Operation) {book : Book} (kept : Kept book) :
    Concludes env (fun outcome _ book => ∀ closed, outcome = .closed (.ok closed) →
        closed.FollowsIn env book)
      (operation.program sha256) ⟨book, .none⟩ := by
  cases operation with
  | post command =>
      exact concludes_map Outcome.posted (fun _ _ _ _ _ isClosed => by cases isClosed)
        (concludes_of_stops (fun _ _ _ => trivial) (stops_post sha256 command) _)
  | postBatch commands =>
      exact concludes_map Outcome.postedBatch (fun _ _ _ _ _ isClosed => by cases isClosed)
        (concludes_of_stops (fun _ _ _ => trivial) (stops_postBatch sha256 commands) _)
  | openAccount command =>
      exact concludes_map Outcome.opened (fun _ _ _ _ _ isClosed => by cases isClosed)
        (concludes_of_stops (fun _ _ _ => trivial) (stops_openAccount sha256 command) _)
  | definePeriod command =>
      exact concludes_map Outcome.defined (fun _ _ _ _ _ isClosed => by cases isClosed)
        (concludes_of_stops (fun _ _ _ => trivial) (stops_definePeriod sha256 command) _)
  | closePeriod command =>
      refine concludes_map Outcome.closed (fun answer _ _ follows closed isClosed => ?_)
        (concludes_follows_close sha256 command kept)
      exact follows closed (Outcome.closed.inj isClosed)

/-- Who is told of a close was answered it. -/
theorem closed_of_acknowledged {operation : Operation} {outcome : Outcome}
    {command : ClosePeriod} {answer : PeriodClosed}
    (isTold : .closed command answer ∈ operation.acknowledgements outcome) :
    outcome = .closed (.ok answer) := by
  unfold Operation.acknowledgements at isTold
  split at isTold
  · rw [Option.mem_toList] at isTold
    obtain ⟨_, _, _, isPosted⟩ := acknowledgedPost_eq_some isTold
    cases isPosted
  · obtain ⟨_, _, isOne⟩ := List.mem_filterMap.mp isTold
    obtain ⟨_, _, _, isPosted⟩ := acknowledgedPost_eq_some isOne
    cases isPosted
  · obtain ⟨_, rfl⟩ := Acknowledgement.closed.inj (List.mem_singleton.mp isTold)
    rfl
  · cases isTold

end Closing

/-! ## What a machine holds -/

section Rows

variable {env : Env} {book : Book} {command : PostTransaction}

/-- A post is dated by its caller, by what it names or by the clock. -/
theorem inYears_effective {target : Option SupersedeTarget} (clock : InYears env.now)
    (named : ∀ g ∈ target, InYears g.effectiveAt) : InYears (effective env command target) := by
  unfold effective
  cases given : command.effectiveAt with
  | some instant =>
      exact inYears_stored (command.effectiveInRange instant given)
  | none =>
      cases target with
      | none =>
          exact clock
      | some g =>
          exact named g rfl

/-- What a transaction supersedes is a posting that supersedes nothing. -/
theorem Kept.plain_of_superseded (kept : Kept book) {row target : TransactionRow} {id : Uuid}
    (member : row ∈ book.transactions) (names : row.supersedes = some id)
    (found : book.transaction? row.tenantId id = some target) :
    target.kind = "posting" ∧ target.supersedes = none := by
  rcases Option.or_eq_some_iff.mp names with resolves | ⟨_, reverses⟩
  · obtain ⟨other, isOther, isPending⟩ := (kept.supersedes row member).resolves id resolves
    rw [found] at isOther
    obtain rfl := Option.some.inj isOther
    exact kept.pendingPlain target (Kept.mem_of_transaction? found).1 isPending
  · obtain ⟨other, isOther, plain⟩ := (kept.supersedes row member).reverses id reverses
    rw [found] at isOther
    obtain rfl := Option.some.inj isOther
    exact plain

end Rows

section Machines

variable {sha256 : List UInt8 → List UInt8} {chart : Chart} {machine : Machine}

/-- What the server gives the transactions of a machine: ids from 3 on that an `xid8`
holds, and a clock within the years 1 to 9999. -/
structure Machine.Timely (machine : Machine) : Prop where
  counted : ∀ session ∈ machine.sessions, 3 ≤ session.env.xid
  isXid8 : ∀ session ∈ machine.sessions, session.env.xid < 18446744073709551616
  horizonIsXid8 : machine.horizon < 18446744073709551616
  clocks : ∀ session ∈ machine.sessions, InYears session.env.now

/-- In every interleaving a close that was told of follows what it read. -/
theorem follows_of_told (interleaved : Interleaved sha256 chart machine) {session : Session}
    (member : session ∈ machine.sessions) {outcome : Outcome}
    (isDone : session.program = .done outcome) {command : ClosePeriod} {answer : PeriodClosed}
    (isTold : .closed command answer ∈ session.operation.acknowledgements outcome) :
    answer.FollowsIn session.env machine.committed := by
  have fresh := fun (operation : Operation) (env : Env) (book : Book) (kept : Kept book) =>
    @concludes_follows env sha256 operation book kept
  have committed := (concluding_of_interleaved fresh interleaved).committed_of_accepts member
    isDone (accepted_of_acknowledged isTold)
  obtain ⟨book, written, answered, isAnswered, follows, kept, lands, landed⟩ :=
    concluded_of_interleaved fresh interleaved member committed
  rw [isDone] at isAnswered
  obtain rfl := Program.done.inj isAnswered
  obtain ⟨isXid, earlier⟩ := follows answer (closed_of_acknowledged isTold)
  refine ⟨isXid, fun swept => ?_⟩
  obtain ⟨e, isThere, below, before⟩ := earlier swept
  have precedes := (Book.Precedes.apply book written).trans landed.precedes
  exact ⟨e, precedes.entries.subset isThere, below, before⟩

/-- In every interleaving a transaction's id is a session's. -/
theorem session_of_row (interleaved : Interleaved sha256 chart machine) {row : TransactionRow}
    (member : row ∈ machine.committed.transactions) :
    ∃ session ∈ machine.sessions, row.xactId = session.env.xid := by
  obtain ⟨session, isThere, outcome, isDone, told, isTold, book, _, _, rfl, _⟩ :=
    row_of_told interleaved member
  cases told with
  | posted command eventId id =>
      exact ⟨session, isThere, rfl⟩
  | closed command answer =>
      exact ⟨session, isThere, (follows_of_told interleaved isThere isDone isTold).computedAtXid⟩

variable (interleaved : Interleaved sha256 chart machine)
  (clocks : ∀ session ∈ machine.sessions, InYears session.env.now)

include interleaved clocks

/-- A posting that names no other is dated by its caller or by the clock. -/
theorem inYears_of_plain {row : TransactionRow} (member : row ∈ machine.committed.transactions)
    (isPosting : row.kind = "posting") (plain : row.supersedes = none) :
    InYears row.effectiveAt := by
  obtain ⟨session, isThere, _, _, told, _, book, _, _, rfl, _⟩ := row_of_told interleaved member
  cases told with
  | posted command eventId id =>
      refine inYears_effective (clocks session isThere) fun g isTarget => ?_
      have nothing : supersededId command = none := plain
      rw [supersedeTarget, nothing] at isTarget
      cases isTarget
  | closed command answer =>
      have isClose : "period_close" = "posting" := isPosting
      exact absurd isClose (by decide)

/-- One that names another is dated by its caller or on the other's date. -/
theorem inYears_of_posting {row : TransactionRow} (member : row ∈ machine.committed.transactions)
    (isPosting : row.kind = "posting") : InYears row.effectiveAt := by
  have kept := (sound_of_interleaved interleaved).kept
  obtain ⟨session, isThere, _, _, told, _, book, _, landed, rfl, _⟩ :=
    row_of_told interleaved member
  cases told with
  | posted command eventId id =>
      refine inYears_effective (clocks session isThere) fun g isTarget => ?_
      obtain ⟨named, names, found⟩ := Option.bind_eq_some_iff.mp isTarget
      obtain ⟨target, isRow, rfl⟩ := Option.map_eq_some_iff.mp found
      have foundLater := landed.precedes.transaction? isRow
      obtain ⟨targetPosting, plain⟩ := kept.plain_of_superseded member names foundLater
      exact inYears_of_plain interleaved clocks (Kept.mem_of_transaction? foundLater).1
        targetPosting plain
  | closed command answer =>
      have isClose : "period_close" = "posting" := isPosting
      exact absurd isClose (by decide)

/-- An entry is dated within those years, or is of a close: before the year 10000 and not
before an entry of a lower id. -/
theorem dated_cases {e : EntryRow} (member : e ∈ machine.committed.entries) :
    InYears e.effectiveAt ∨ e.effectiveAt < yearTenThousand ∧
      ∃ earlier ∈ machine.committed.entries,
        earlier.xactId < e.xactId ∧ earlier.effectiveAt ≤ e.effectiveAt := by
  have kept := (sound_of_interleaved interleaved).kept
  obtain ⟨row, isRow, belongs⟩ := kept.belongs e member
  obtain ⟨session, isThere, outcome, isDone, told, isTold, book, _, _, sameRow, records⟩ :=
    row_of_told interleaved isRow
  have date := belongs.effectiveAt
  have writer := belongs.xactId
  cases told with
  | posted command eventId id =>
      left
      rw [date]
      exact inYears_of_posting interleaved clocks isRow (by rw [← sameRow]; rfl)
  | closed command answer =>
      right
      constructor
      · obtain ⟨close, isClose, closedBy⟩ := kept.named row isRow (by rw [← sameRow]; rfl)
        obtain ⟨period, isPeriod, closes⟩ := kept.ofPeriod close isClose
        have ends := (asked_of_interleaved interleaved).endsInRange isPeriod
        have inside := (kept.closesInPeriod close isClose).2
        rw [date, closedBy.effectiveAt]
        rw [closes.endsAt] at ends
        exact Int.lt_trans inside ends
      · have follows := follows_of_told interleaved isThere isDone isTold
        rw [date, writer, ← sameRow]
        refine follows.earlier fun noneSwept => ?_
        have isMine : e.isOf row.tenantId row.id = true :=
          EntryRow.isOf_iff.mpr ⟨belongs.tenant.symm, belongs.id.symm⟩
        have isLeg : e.leg ∈ (entriesOf machine.committed row.tenantId row.id).map EntryRow.leg :=
          List.mem_map_of_mem (List.mem_filter.mpr ⟨member, isMine⟩)
        have isLanded := records.legs.subset isLeg
        rw [Acknowledgement.legs] at isLanded
        split at isLanded
        · rw [noneSwept] at isLanded
          cases isLanded
        · cases isLanded

/-- In every interleaving whose servers' clocks stand in the years 1 to 9999, every entry
is dated within them. -/
theorem dated_of_interleaved : ∀ e ∈ machine.committed.entries, InYears e.effectiveAt := by
  -- what a close reads is below its own id
  have below : ∀ bound : Nat, ∀ e ∈ machine.committed.entries, e.xactId < bound →
      InYears e.effectiveAt := by
    intro bound
    induction bound with
    | zero =>
        intro e _ isBelow
        exact absurd isBelow (Nat.not_lt_zero e.xactId)
    | succ bound inductionHypothesis =>
        intro e member isBelow
        rcases dated_cases interleaved clocks member with
          inYears | ⟨before, earlier, isThere, lower, after⟩
        · exact inYears
        · have stillLower : earlier.xactId < bound :=
            Nat.lt_of_lt_of_le lower (Nat.le_of_lt_succ isBelow)
          have since := (inductionHypothesis earlier isThere stillLower).1
          exact ⟨Int.le_trans since after, before⟩
  intro e member
  exact below (e.xactId + 1) e member (Nat.lt_succ_self _)

end Machines

/-! ## The moments -/

section Moments

variable {sha256 : List UInt8 → List UInt8} {chart : Chart} {machine after : Machine}

/-- What reads meet of a machine: its committed book and its horizon. -/
def momentOf (interleaved : Interleaved sha256 chart machine) (timely : machine.Timely) :
    Moment where
  book := machine.committed
  horizon := machine.horizon
  horizonIsXid8 := timely.horizonIsXid8
  counted := by
    intro e member
    obtain ⟨row, isRow, belongs⟩ := (sound_of_interleaved interleaved).kept.belongs e member
    obtain ⟨session, isThere, isXid⟩ := session_of_row interleaved isRow
    rw [belongs.xactId, isXid]
    exact timely.counted session isThere
  xactIsXid8 := by
    intro e member
    obtain ⟨row, isRow, belongs⟩ := (sound_of_interleaved interleaved).kept.belongs e member
    obtain ⟨session, isThere, isXid⟩ := session_of_row interleaved isRow
    rw [belongs.xactId, isXid]
    exact timely.isXid8 session isThere
  pkAccounts := (sound_of_interleaved interleaved).kept.pkAccounts
  pkEntries := (sound_of_interleaved interleaved).kept.pkEntries
  fkEntriesTxn := by
    intro e member
    have kept := (sound_of_interleaved interleaved).kept
    obtain ⟨row, isRow, belongs⟩ := kept.belongs e member
    rw [kept.statusOf_of_belongs isRow belongs]
    rfl
  dated := fun e member => (dated_of_interleaved interleaved timely.clocks e member).rfc3339

/-- No entry the writers reach is dated before the year 1. -/
theorem fromYearOne_of_interleaved (interleaved : Interleaved sha256 chart machine)
    (timely : machine.Timely) :
    ∀ e ∈ (momentOf interleaved timely).book.entries,
      1 ≤ (OffsetDateTime.ofStored e.effectiveAt).year :=
  fun e member => (dated_of_interleaved interleaved timely.clocks e member).year.1

/-- A session is there after a step, with what it was given. -/
theorem session_of_step {action : Action} (stepped : machine.step sha256 action = some after)
    {session : Session} (member : session ∈ machine.sessions) :
    ∃ later ∈ after.sessions, later.env = session.env := by
  obtain ⟨index, here⟩ := List.getElem?_of_mem member
  rcases step_commits_once stepped with
    keeps | ⟨other, right, snapshot, next, there, _, _, _, sessions⟩
  · obtain ⟨later, isLater, same⟩ := keeps.sessions index session here
    exact ⟨later, List.mem_of_getElem? isLater, same.env⟩
  · rw [sessions]
    by_cases isHere : other = index
    · subst isHere
      rw [here] at there
      obtain rfl := Option.some.inj there
      exact ⟨_, List.mem_set (List.getElem?_eq_some_iff.mp here).1 _, rfl⟩
    · refine ⟨session, List.mem_of_getElem? (i := index) ?_, rfl⟩
      rw [List.getElem?_set_ne isHere, here]

/-- What a machine was given it had been given before. -/
theorem Machine.Timely.earlier (timely : after.Timely)
    (interleaved : Interleaved sha256 chart machine) {action : Action}
    (stepped : machine.step sha256 action = some after) : machine.Timely := by
  have rises := ((sound_of_interleaved interleaved).step_above
    (Machine.own_of_interleaved interleaved) le_rfl stepped).2
  constructor
  · intro session member
    obtain ⟨later, isThere, same⟩ := session_of_step stepped member
    exact same ▸ timely.counted later isThere
  · intro session member
    obtain ⟨later, isThere, same⟩ := session_of_step stepped member
    exact same ▸ timely.isXid8 later isThere
  · exact Nat.lt_of_le_of_lt rises timely.horizonIsXid8
  · intro session member
    obtain ⟨later, isThere, same⟩ := session_of_step stepped member
    exact same ▸ timely.clocks later isThere

/-- A step of the machine is a run of moments: the horizon rises, or a transaction at or
above it commits and then it does. -/
theorem later_of_step (interleaved : Interleaved sha256 chart machine) {action : Action}
    (stepped : machine.step sha256 action = some after) (timely : after.Timely) :
    Moment.Later (momentOf interleaved (timely.earlier interleaved stepped))
      (momentOf (interleaved.step action stepped) timely) := by
  obtain ⟨grows, rises⟩ := (sound_of_interleaved interleaved).step_above
    (Machine.own_of_interleaved interleaved) le_rfl stepped
  rcases step_commits_once stepped with keeps | ⟨_, session, _, _, _, _, _, committing, _⟩
  · exact .single (.advance keeps.committed rises)
  · let landed : Moment :=
      { momentOf (interleaved.step action stepped) timely with
        horizon := machine.horizon
        horizonIsXid8 := (timely.earlier interleaved stepped).horizonIsXid8 }
    have inFlight : ∀ e ∈ session.written.entries, machine.horizon ≤ e.xactId := by
      obtain ⟨added, isAdded, above⟩ := grows.entries
      rw [committing, Book.entries_apply] at isAdded
      exact List.append_cancel_left isAdded ▸ above
    have commits : Moment.Step (momentOf interleaved (timely.earlier interleaved stepped)) landed :=
      .commit session.written committing rfl inFlight
    exact .tail (.single commits) (.advance rfl rises)

/-- In any run of the writers, what reads meet later is what the moments allow. -/
theorem later_of_steps (interleaved : Interleaved sha256 chart machine) {actions : List Action}
    {later : Machine} (ran : machine.steps sha256 actions = some later) (timely : later.Timely) :
    ∃ earlier : machine.Timely,
      Moment.Later (momentOf interleaved earlier) (momentOf (interleaved.steps ran) timely) := by
  induction actions generalizing machine with
  | nil =>
      obtain rfl : machine = later := by simpa [Machine.steps] using ran
      exact ⟨timely, .refl⟩
  | cons action actions inductionHypothesis =>
      rw [Machine.steps, List.foldlM_cons] at ran
      obtain ⟨between, first, rest⟩ := Option.bind_eq_some_iff.mp ran
      obtain ⟨middle, run⟩ := inductionHypothesis (interleaved.step action first) rest
      exact ⟨middle.earlier interleaved first, (later_of_step interleaved first middle).trans run⟩

end Moments

end OpenLedger
