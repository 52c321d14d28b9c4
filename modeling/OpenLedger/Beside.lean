import OpenLedger.Sweep
import OpenLedger.Traces

/-!
# A close beside other writers

A close reads twice: the sweep from the snapshot of its closing statement, which may wait
before it runs, and the checkpoint from a later one.  Others commit before, between and
behind the two.
-/

namespace OpenLedger

open Postgres

/-- What a close asked, saw and wrote by the time it commits: it swept from one snapshot,
and stored the sums of a later one with its legs behind it. -/
structure ClosedBeside (sha256 : List UInt8 → List UInt8) (command : ClosePeriod) (env : Env)
    (plan : ClosePlan) (writes : Writes) (claimed checkpointed : Ran) (tracked : Tracked) :
    Prop where
  isTrace : ∃ begun read, tracked.trace = [begun, read, claimed, checkpointed]
  claims : claimed.request = .claimAndClosePeriod command (command.idempotencyHash sha256)
    command.payload plan
  checkpoints : checkpointed.request = .checkpointTheClose command plan (env.transactionId 0)
    env.xid
  keptFirst : Kept claimed.snapshot
  wrote : SweepWrites sha256 env claimed.snapshot claimed.current command plan writes
  between : claimed.snapshot.Precedes checkpointed.snapshot
  keptLast : Kept checkpointed.snapshot
  behind : Lands checkpointed.snapshot writes
  isWritten : tracked.written = writes.append
    { periodBalances := checkpointRows (checkpointed.snapshot.apply writes) command plan
        (env.transactionId 0) env.xid }
  since : checkpointed.snapshot.Precedes tracked.committed

/-- The commit of a close finds it so. -/
def ClosesBeside (sha256 : List UInt8 → List UInt8) (command : ClosePeriod) (env : Env)
    (tracked : Tracked) : Prop :=
  ∃ plan writes claimed checkpointed,
    ClosedBeside sha256 command env plan writes claimed checkpointed tracked

theorem steady_closesBeside (sha256 : List UInt8 → List UInt8) (command : ClosePeriod) :
    Steady (ClosesBeside sha256 command) := by
  rintro env written trace before after grows ⟨plan, writes, claimed, checkpointed, closed⟩
  exact ⟨plan, writes, claimed, checkpointed,
    { closed with since := closed.since.trans grows.precedes }⟩

section Statements

variable {env : Env} {atCommit : Tracked → Prop} {ε α : Type} {tracked : Tracked}

/-- Any end of a use-case: what an answer followed. -/
def anyEnd {β : Type} : β → List Ran → Prop := fun _ _ => True

/-- A statement that is no commit, followed to what comes behind it. -/
theorem tracks_statement (storage : StorageError → ε) (request : Request)
    (next : request.Answer → UseCase ε α) (notCommit : request ≠ .commit)
    (continues : ∀ (snapshot committed : Book) (answer : request.Answer),
      Grows tracked.written tracked.committed snapshot →
      Grows tracked.written snapshot committed →
      (statement env (snapshot.apply tracked.written)
        (committed.apply tracked.written) request).1 = .ok answer →
      Tracks env atCommit anyEnd (next answer).run
        ⟨Connection.after ⟨committed, tracked.written⟩ request
            (statement env (snapshot.apply tracked.written)
              (committed.apply tracked.written) request).2,
          tracked.trace ++ [⟨request, snapshot, committed⟩]⟩) :
    Tracks env atCommit anyEnd (ask storage request >>= next).run tracked :=
  tracks_ask storage request next (fun isCommit => absurd isCommit notCommit)
    (fun _ _ _ => trivial) continues

/-- A refusal asks for no commit. -/
theorem tracks_refused (storage : StorageError → ε) (refusal : ε) :
    Tracks env atCommit anyEnd
      (do ask storage .rollback; refuse refusal : UseCase ε α).run tracked :=
  tracks_statement _ _ _ (by simp) fun _ _ _ _ _ _ => trivial

end Statements

section UseCase

variable {env : Env} (sha256 : List UInt8 → List UInt8)

/-- A close asks for its commit behind its two statements only. -/
theorem tracks_closePeriod (command : ClosePeriod) {book : Book} (kept : Kept book) :
    Tracks env (ClosesBeside sha256 command env) anyEnd (closePeriod sha256 command).run
      ⟨⟨book, .none⟩, []⟩ := by
  unfold closePeriod
  refine tracks_statement _ _ _ (by simp) fun _ begun _ seen grown _ => ?_
  have keptBegun : Kept begun := grown.kept (seen.kept kept)
  refine tracks_statement _ _ _ (by simp) fun read afterRead context? seen grown answered => ?_
  have keptRead : Kept afterRead := grown.kept (seen.kept keptBegun)
  have readPrecedes := grown.precedes
  change (statement env (read.apply .none) (afterRead.apply .none)
    (.periodCloseContext command)).1 = .ok context? at answered
  rw [Book.apply_none, Book.apply_none] at answered
  cases context? with
  | none =>
      exact tracks_refused _ _
  | some context =>
      have isContext : periodCloseContext read command = some context := Except.ok.inj answered
      dsimp only
      split
      · exact tracks_refused _ _
      · rename_i retainedEarnings destination
        split
        · exact tracks_refused _ _
        · rename_i closesAt instant
          have fitsRead := planFits_of_context isContext destination instant
          refine tracks_statement _ _ _ (by simp) fun snapshot current claimed? seen grown ran => ?_
          have keptSnapshot : Kept snapshot := seen.kept keptRead
          have keptCurrent : Kept current := grown.kept keptSnapshot
          have fits := (fitsRead.later readPrecedes).later seen.precedes
          change (statement env (snapshot.apply .none) (current.apply .none) _).1 = _ at ran
          rw [Book.apply_none, Book.apply_none] at ran
          rcases claimed? with - | (⟨eventId, transactionId, computedAtXid, swept⟩ | -)
          · refine tracks_statement _ _ _ (by simp) fun _ _ held _ _ _ => ?_
            refine tracks_statement _ _ _ (by simp) fun _ _ _ _ _ _ => ?_
            split <;> exact trivial
          · obtain ⟨free, allowed, _, rfl, rfl, _, isWrites⟩ := claimAndClosePeriod_closed
              (Prod.ext ran rfl : claimAndClosePeriod env snapshot current command
                (command.idempotencyHash sha256) command.payload
                ⟨context.startsAt, context.endsAt, retainedEarnings, closesAt⟩ = (_, _))
            have lands := closeWrites_lands (command.idempotencyHash sha256) command.payload
              grown.precedes fits free allowed
            change Tracks env _ _ _ ⟨⟨current, Writes.none.append (statement env
              (snapshot.apply .none) (current.apply .none) _).2⟩, _⟩
            have wrote : (statement env snapshot current (.claimAndClosePeriod command
                (command.idempotencyHash sha256) command.payload
                ⟨context.startsAt, context.endsAt, retainedEarnings, closesAt⟩)).2 =
              closeWrites env snapshot current command (command.idempotencyHash sha256)
                command.payload
                ⟨context.startsAt, context.endsAt, retainedEarnings, closesAt⟩ := isWrites
            rw [Book.apply_none, Book.apply_none, Writes.none_append, wrote]
            refine tracks_statement _ _ _ (by simp)
              fun sight later rows seenLater grownLater checkpointed => ?_
            obtain ⟨_, _, wroteRows⟩ := checkpointTheClose_answered checkpointed
            refine tracks_ask _ _ _ (fun _ => ?_) (fun _ _ _ => trivial) fun _ _ _ _ _ _ => trivial
            refine ⟨_, _, _, _, ⟨_, _, rfl⟩, rfl, rfl, keptSnapshot, ⟨fits, rfl, lands⟩,
              grown.precedes.trans seenLater.precedes, seenLater.kept keptCurrent,
              seenLater.lands lands, ?_, grownLater.precedes⟩
            exact congrArg (Writes.append _) wroteRows
          · exact tracks_refused _ _

theorem tracks_close (command : ClosePeriod) {book : Book} (kept : Kept book) :
    Tracks env (ClosesBeside sha256 command env) anyEnd
      ((Operation.closePeriod command).program sha256) ⟨⟨book, .none⟩, []⟩ :=
  tracks_bind (tracks_closePeriod sha256 command kept) fun _ _ _ => trivial

end UseCase

section Interleavings

variable {sha256 : List UInt8 → List UInt8} {chart : Chart} {machine : Machine}

/-- Whether a session committed. -/
def Session.committed (session : Session) : Bool :=
  session.trace.any fun ran =>
    match ran.request with
    | .commit => true
    | _ => false

theorem Session.commit_of_committed {session : Session} (committed : session.committed = true) :
    ∃ before ran after, session.trace = before ++ ran :: after ∧ ran.request = .commit := by
  obtain ⟨ran, member, isCommit⟩ := List.any_eq_true.mp committed
  obtain ⟨before, after, isTrace⟩ := List.append_of_mem member
  refine ⟨before, ran, after, isTrace, ?_⟩
  cases request : ran.request with
  | commit =>
      rfl
  | _ =>
      rw [request] at isCommit
      cases isCommit

/-- Whether a session is a close. -/
def Session.isClosing (session : Session) : Bool :=
  match session.operation with
  | .closePeriod _ => true
  | _ => false

theorem Session.closes_of_isClosing {session : Session} (isClosing : session.isClosing = true) :
    ∃ command, session.operation = .closePeriod command := by
  unfold Session.isClosing at isClosing
  split at isClosing
  · rename_i command isClose
    exact ⟨command, isClose⟩
  · cases isClosing

/-- In every interleaving a close that committed did so from such a bracket, and others have
landed behind it since. -/
theorem closedBeside_of_interleaved (interleaved : Interleaved sha256 chart machine)
    {session : Session} (member : session ∈ machine.sessions) {command : ClosePeriod}
    (isClose : session.operation = .closePeriod command) (committed : session.committed = true) :
    ∃ plan writes claimed checkpointed current written before,
      ClosedBeside sha256 command session.env plan writes claimed checkpointed
        ⟨⟨current, written⟩, before⟩ ∧
      before <+: session.trace ∧ Kept current ∧ Lands current written ∧
      Landed (fun _ => True) (current.apply written) machine.committed := by
  have tracked := tracks_of_interleaved (steady_closesBeside sha256 command)
    (fun _ _ kept => tracks_close sha256 command kept) interleaved member isClose
  obtain ⟨before, ran, after, isTrace, isCommit⟩ := session.commit_of_committed committed
  obtain ⟨written, ⟨plan, writes, claimed, checkpointed, closed⟩, kept, lands, landed⟩ :=
    tracked.history before ran after isTrace isCommit
  exact ⟨plan, writes, claimed, checkpointed, ran.current, written, before, closed,
    ⟨ran :: after, isTrace.symm⟩, kept, lands, landed⟩

end Interleavings

/-! ## What a later book holds of a close -/

/-- The entries of a later book a close's checkpoint did not see: behind its snapshot, and
not its own. -/
def CloseRow.late (c : CloseRow) (seen later : Book) : List EntryRow :=
  (later.entries.drop seen.entries.length).filter fun e => !e.isOf c.tenantId c.transactionId

/-- A close in a later book: its own entries beside what its checkpoint saw, and the rows
that hold what it claims of the two. -/
structure StoredBeside (close : CloseRow) (seen : Book) (writes : Writes) (later : Book) :
    Prop where
  kept : Kept later
  keptSeen : Kept seen
  lands : Lands seen writes
  precedes : seen.Precedes later
  isClose : close ∈ later.closes
  unseen : ∀ e ∈ seen.entries, e.isOf close.tenantId close.transactionId = false
  own : ∀ e ∈ writes.entries, e.isOf close.tenantId close.transactionId = true ∧
    e.currency = close.currency ∧ e.effectiveAt < close.endsAt ∧
      (seen.apply writes).isPosted e = true ∧ later.isPosted e = true
  split : ∃ between since,
    later.entries = seen.entries ++ (between ++ (writes.entries ++ since)) ∧
      ∀ e ∈ between ++ since, e.isOf close.tenantId close.transactionId = false
  stored : ∀ row, row.OfClose close →
    (row ∈ later.periodBalances ↔ row ∈ close.rowsIn (seen.apply writes))

/-- What a close claims that is not its own it claims for its id. -/
theorem CloseRow.claims_eq_reads {book : Book} {c : CloseRow} {e : EntryRow}
    (notOwn : e.isOf c.tenantId c.transactionId = false) : c.claims book e = c.reads book e := by
  rw [Bool.eq_iff_iff, CloseRow.claims_iff, CloseRow.reads_iff]
  constructor
  · rintro ⟨ofTenant, ofCurrency, posted, before, below | isMine⟩
    · exact ⟨ofTenant, ofCurrency, posted, before, below⟩
    · rw [EntryRow.isOf_iff.mpr ⟨ofTenant, isMine⟩] at notOwn
      cases notOwn
  · rintro ⟨ofTenant, ofCurrency, posted, before, below⟩
    exact ⟨ofTenant, ofCurrency, posted, before, Or.inl below⟩

namespace StoredBeside

variable {close : CloseRow} {seen later : Book} {writes : Writes}
  (beside : StoredBeside close seen writes later)

include beside

/-- The later book's entries are those the checkpoint summed and the late ones. -/
theorem sum_later (keep : EntryRow → Bool) (amount : EntryRow → Int) :
    Tally.sumWhere keep amount later.entries =
      Tally.sumWhere keep amount (seen.apply writes).entries +
        Tally.sumWhere keep amount (close.late seen later) := by
  obtain ⟨between, since, areEntries, others⟩ := beside.split
  have isLate : close.late seen later = between ++ since := by
    have allOwn : writes.entries.filter
        (fun e => !e.isOf close.tenantId close.transactionId) = [] := by
      rw [List.filter_eq_nil_iff]
      intro e member
      rw [(beside.own e member).1]
      exact Bool.false_ne_true
    have noneOwn : ∀ entries : List EntryRow,
        (∀ e ∈ entries, e.isOf close.tenantId close.transactionId = false) →
          entries.filter (fun e => !e.isOf close.tenantId close.transactionId) = entries := by
      intro entries areOthers
      refine List.filter_eq_self.mpr fun e member => ?_
      rw [areOthers e member]
      rfl
    rw [CloseRow.late, areEntries, List.drop_left, List.filter_append, List.filter_append, allOwn,
      noneOwn between fun e member => others e (List.mem_append_left _ member),
      noneOwn since fun e member => others e (List.mem_append_right _ member), List.nil_append]
  rw [isLate, areEntries, Book.entries_apply]
  simp only [Tally.sumWhere_append]
  ring

/-- What the close claims of what it summed it claims later. -/
theorem claims_later {e : EntryRow} (member : e ∈ (seen.apply writes).entries) :
    close.claims later e = close.claims (seen.apply writes) e := by
  have samePosted : later.isPosted e = (seen.apply writes).isPosted e := by
    rcases List.mem_append.mp member with isSeen | isOwn
    · rw [beside.keptSeen.isPosted_later beside.precedes isSeen,
        beside.keptSeen.isPosted_later (Book.Precedes.apply seen writes) isSeen]
    · obtain ⟨_, _, _, posted, postedLater⟩ := beside.own e isOwn
      rw [posted, postedLater]
  rw [Bool.eq_iff_iff, CloseRow.claims_iff, CloseRow.claims_iff, samePosted]

/-- What the close claims in the later book is what its checkpoint summed and what it claims
of the late entries. -/
theorem claimedSide_later (direction : Direction) (accountId : Uuid) :
    claimedSide later close direction accountId =
      claimedSide (seen.apply writes) close direction accountId +
        Tally.sumWhere (fun e => close.claims later e && decide (e.accountId = accountId))
          (fun e => e.on direction) (close.late seen later) := by
  rw [claimedSide, beside.sum_later, claimedSide]
  congr 1
  refine Tally.sumWhere_congr (fun e member => ?_) fun _ _ _ => rfl
  rw [beside.claims_later member]

/-- What the checkpoint summed has a row. -/
theorem row_of_summed {e : EntryRow} (member : e ∈ (seen.apply writes).entries)
    (claimed : close.claims (seen.apply writes) e = true) :
    ∃ row ∈ later.periodBalances, row.OfClose close ∧ row.accountId = e.accountId := by
  refine ⟨⟨close.tenantId, close.periodCode, close.currency, e.accountId,
    claimedSide (seen.apply writes) close .debit e.accountId,
    claimedSide (seen.apply writes) close .credit e.accountId⟩, ?_, ⟨rfl, rfl, rfl⟩, rfl⟩
  refine (beside.stored _ ⟨rfl, rfl, rfl⟩).mpr (CloseRow.mem_rowsIn.mpr ?_)
  exact ⟨⟨rfl, rfl, rfl⟩, ⟨e, member, claimed, rfl⟩, rfl, rfl⟩

/-- A row of the close holds what it claimed of what it saw. -/
theorem sums_of_row {row : PeriodBalanceRow} (member : row ∈ later.periodBalances)
    (ofClose : row.OfClose close) :
    row.input = claimedSide (seen.apply writes) close .debit row.accountId ∧
      row.output = claimedSide (seen.apply writes) close .credit row.accountId :=
  (CloseRow.mem_rowsIn.mp ((beside.stored row ofClose).mp member)).2.2

/-- The stored rows hold what the close claimed of what it saw. -/
theorem storedSide_later (direction : Direction) (accountId : Uuid) :
    storedSide later close direction accountId =
      claimedSide (seen.apply writes) close direction accountId := by
  have exact_ : close.Exact { seen.apply writes with periodBalances := later.periodBalances } :=
    ⟨fun _ member ofClose => beside.sums_of_row member ofClose,
      fun _ member claimed => beside.row_of_summed member claimed⟩
  exact @storedSide_of_exact { seen.apply writes with periodBalances := later.periodBalances }
    beside.kept.pkPeriodBalances close exact_ direction accountId

omit beside in
theorem late_mem {e : EntryRow} (member : e ∈ close.late seen later) : e ∈ later.entries :=
  List.mem_of_mem_drop (List.mem_filter.mp member).1

/-- An entry of the later book was summed, or is late. -/
theorem mem_cases {e : EntryRow} (member : e ∈ later.entries) :
    e ∈ (seen.apply writes).entries ∨ e ∈ close.late seen later := by
  by_contra neither
  push Not at neither
  have counted := beside.sum_later (fun other => decide (other = e)) (fun _ => 1)
  have positive := @Tally.sumWhere_pos _ (fun other => decide (other = e)) (fun _ => (1 : Int))
    later.entries (fun _ _ _ => Int.one_pos) e member (decide_eq_true rfl)
  have noneOf : ∀ entries : List EntryRow, e ∉ entries →
      Tally.sumWhere (fun other => decide (other = e)) (fun _ => 1) entries = 0 := by
    intro entries absent
    refine Tally.sumWhere_eq_zero fun other isThere => ?_
    rw [decide_eq_false_iff_not]
    rintro rfl
    exact absent isThere
  rw [noneOf _ neither.1, noneOf _ neither.2] at counted
  omega

/-- The checkpoint holds exactly what it claims just when it claims no late entry. -/
theorem exact_iff : close.Exact later ↔
    ∀ e ∈ close.late seen later, close.claims later e = false := by
  constructor
  · intro exact_ e member
    rw [Bool.eq_false_iff]
    intro claimed
    obtain ⟨row, isRow, ofClose, onAccount⟩ := exact_.complete e (late_mem member) claimed
    have stored := exact_.sums row isRow ofClose
    have summed := beside.sums_of_row isRow ofClose
    have noSide : ∀ direction, Tally.sumWhere
        (fun e => close.claims later e && decide (e.accountId = row.accountId))
          (fun e => e.on direction) (close.late seen later) = 0 := by
      intro direction
      have claims := beside.claimedSide_later direction row.accountId
      cases direction
      · rw [← stored.1, ← summed.1] at claims
        omega
      · rw [← stored.2, ← summed.2] at claims
        omega
    have mine := noSide e.direction
    rw [sumWhere_on] at mine
    have positive := @Tally.sumWhere_pos _ (fun other => close.claims later other &&
      decide (other.accountId = row.accountId) && decide (other.direction = e.direction))
      EntryRow.amountMinor (close.late seen later)
      (fun other isLate _ => beside.kept.positive other (late_mem isLate)) e member
      (by rw [claimed, onAccount, decide_eq_true rfl, decide_eq_true rfl]; rfl)
    omega
  · intro unclaimed
    have sameSides : ∀ direction accountId, claimedSide later close direction accountId =
        claimedSide (seen.apply writes) close direction accountId := by
      intro direction accountId
      have noLate : Tally.sumWhere
          (fun e => close.claims later e && decide (e.accountId = accountId))
            (fun e => e.on direction) (close.late seen later) = 0 :=
        Tally.sumWhere_eq_zero fun e member => by rw [unclaimed e member, Bool.false_and]
      rw [beside.claimedSide_later, noLate, add_zero]
    constructor
    · intro row member ofClose
      rw [sameSides, sameSides]
      exact beside.sums_of_row member ofClose
    · intro e member claimed
      rcases beside.mem_cases member with isSummed | isLate
      · rw [beside.claims_later isSummed] at claimed
        exact beside.row_of_summed isSummed claimed
      · rw [unclaimed e isLate] at claimed
        cases claimed

end StoredBeside

section Committed

variable {sha256 : List UInt8 → List UInt8} {chart : Chart} {machine : Machine}

/-- A close that committed beside others is stored beside them. -/
theorem storedBeside_of_closed {command : ClosePeriod} {env : Env} {plan : ClosePlan}
    {writes written : Writes} {claimed checkpointed : Ran} {current later : Book}
    {trace : List Ran}
    (closed : ClosedBeside sha256 command env plan writes claimed checkpointed
      ⟨⟨current, written⟩, trace⟩) (kept : Kept current) (lands : Lands current written)
    (landed : Landed (fun _ => True) (current.apply written) later) (keptLater : Kept later) :
    StoredBeside (closeRowOf env command plan) checkpointed.snapshot writes later := by
  obtain ⟨entries, rows, areEntries, areRows, entriesApart, rowsApart⟩ := landed.behind
  have isWritten := closed.isWritten
  dsimp only at isWritten
  have writtenEntries : written.entries = writes.entries := by
    rw [isWritten]
    exact List.append_nil _
  have isClosing : closingTxn env command plan ∈ written.transactions := by
    rw [isWritten]
    exact List.mem_append_left _ closed.wrote.closing_mem
  have isWrittenRecord : closeRowOf env command plan ∈ written.closes := by
    rw [isWritten]
    refine List.mem_append_left _ ?_
    rw [closed.wrote.isClose]
    exact List.mem_singleton_self _
  have isRecord : closeRowOf env command plan ∈ (current.apply written).closes :=
    List.mem_append_right _ isWrittenRecord
  have unseen := closed.keptLast.not_isOf (closed.behind.unknown closed.wrote.closing_mem)
  obtain ⟨between, isBetween⟩ := closed.since.entries
  dsimp only at isBetween
  have seenLater : checkpointed.snapshot.Precedes later :=
    (closed.since.trans (Book.Precedes.apply current written)).trans landed.precedes
  have postedOwn : ∀ book, Kept book → Lands book writes → ∀ e ∈ writes.entries,
      (book.apply writes).isPosted e = true := by
    intro book keptBook landsBook e member
    have belongs := closed.wrote.belongs member
    have found := (landsBook.transaction?_apply keptBook closed.wrote.closing_mem).1
    rw [belongs.tenant, belongs.id] at found
    rw [Book.isPosted, Book.statusOf, found]
    rfl
  refine ⟨keptLater, closed.keptLast, closed.behind, seenLater,
    landed.precedes.closes.subset isRecord, unseen, fun e member => ?_, ⟨between, entries, ?_, ?_⟩,
    fun row ofClose => ?_⟩
  · obtain ⟨ofTenant, ofCurrency⟩ := closed.wrote.ofCurrency member
    have belongs := closed.wrote.belongs member
    refine ⟨EntryRow.isOf_iff.mpr ⟨belongs.tenant.symm, belongs.id.symm⟩, ofCurrency,
      (closed.wrote.dated member).2.2, postedOwn _ closed.keptLast closed.behind e member, ?_⟩
    have isThere := landed.precedes.transactions.subset
      (List.mem_append_right current.transactions isClosing)
    rw [Book.isPosted, keptLater.statusOf_of_belongs isThere belongs]
    rfl
  · rw [areEntries, Book.entries_apply, writtenEntries, ← isBetween]
    simp only [List.append_assoc]
  · intro e member
    rcases List.mem_append.mp member with isBetweenThem | isSince
    · refine kept.not_isOf (lands.unknown isClosing) e ?_
      rw [← isBetween]
      exact List.mem_append_right _ isBetweenThem
    · rw [Bool.eq_false_iff]
      intro isOwn
      obtain ⟨ofTenant, isMine⟩ := EntryRow.isOf_iff.mp isOwn
      exact entriesApart e isSince (closingTxn env command plan)
        (List.mem_append_right _ isClosing) ofTenant isMine
  · rw [areRows, Book.periodBalances_apply, isWritten, ← checkpointRows_eq, List.mem_append,
      List.mem_append]
    have noneBefore : row ∉ current.periodBalances := by
      intro isOld
      obtain ⟨k, isThere, ofOld⟩ := kept.checkpointed row isOld
      exact lands.close_apart isWrittenRecord isThere (ofClose.same ofOld)
    have noneSince : row ∉ rows := fun isNew =>
      rowsApart row isNew _ isRecord ofClose
    have noneOwn : writes.periodBalances = [] := by
      rw [closed.wrote.isWrites]
      rfl
    rw [Writes.append, noneOwn, List.nil_append]
    tauto

end Committed

end OpenLedger
