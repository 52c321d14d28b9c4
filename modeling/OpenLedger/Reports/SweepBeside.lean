import OpenLedger.Beside
import OpenLedger.Reports.SweptOnce

/-!
# A sweep and the checkpoint behind it

A close sweeps what the snapshot of its first statement shows and stores what that of its
second one does.  A writer with a lower id that commits between the two is in the stored
rows and not in the sweep, so the temporary accounts come to zero just when what arrived
there between the two does.
-/

namespace OpenLedger

open Postgres

/-- What a close reads of an account in a part of the journal, debit-positive. -/
def CloseRow.readOn (book : Book) (c : CloseRow) (entries : List EntryRow) (accountId : Uuid) :
    Int :=
  Tally.sumWhere (fun e => c.reads book e && decide (e.accountId = accountId)) EntryRow.signed
    entries

/-- What arrived on an account between the snapshot a close swept from and the one its
checkpoint summed, dated before its end and below its cursor. -/
def CloseRow.arrivedBetween (c : CloseRow) (swept seen : Book) (accountId : Uuid) : Int :=
  c.readOn seen (seen.entries.drop swept.entries.length) accountId

/-- A close whose stored rows leave every temporary account at zero and retained earnings
with what was swept, and which the view of close breaks lets pass. -/
structure SweptToZero (book seen : Book) (c : CloseRow) (retainedEarnings : Uuid)
    (swept : List SweptPosition) : Prop where
  zeroed : ∀ row ∈ book.periodBalances, row.OfClose c →
    book.isTemporaryAccount c.tenantId c.currency row.accountId = true → row.input = row.output
  earned : storedSide book c .debit retainedEarnings - storedSide book c .credit retainedEarnings =
    c.readOn seen seen.entries retainedEarnings + (swept.map SweptPosition.positionMinor).sum
  unreported : ∀ xmax, ∀ b ∈ reconCloseBreaks book xmax, b.tenantId = c.tenantId →
    b.periodCode = some c.periodCode → b.currency = some c.currency →
      b.reason ≠ "close_does_not_sweep"

section Reading

variable {book later : Book} {c : CloseRow}

/-- A close reads later what it read. -/
theorem CloseRow.readOn_later (kept : Kept book) (precedes : book.Precedes later)
    {entries : List EntryRow} (areThere : ∀ e ∈ entries, e ∈ book.entries) (accountId : Uuid) :
    c.readOn later entries accountId = c.readOn book entries accountId := by
  refine Tally.sumWhere_congr (fun e member => ?_) fun _ _ _ => rfl
  have same : c.reads later e = c.reads book e := by
    rw [Bool.eq_iff_iff, CloseRow.reads_iff, CloseRow.reads_iff,
      kept.isPosted_later precedes (areThere e member)]
  rw [same]

/-- A temporary account stays one. -/
theorem temporary_later (precedes : book.Precedes later) {tenantId currency : String}
    {accountId : Uuid} (temporary : book.isTemporaryAccount tenantId currency accountId = true) :
    later.isTemporaryAccount tenantId currency accountId = true := by
  rw [Book.isTemporaryAccount, Option.any_eq_true] at temporary
  obtain ⟨account, found, category⟩ := temporary
  rw [Book.isTemporaryAccount, precedes.account? found]
  exact category

/-- A temporary account was one, or had no entry. -/
theorem CloseRow.readOn_of_untyped (kept : Kept book) (precedes : book.Precedes later)
    {entries : List EntryRow} (areThere : ∀ e ∈ entries, e ∈ book.entries) {accountId : Uuid}
    (temporary : later.isTemporaryAccount c.tenantId c.currency accountId = true)
    (wasNot : book.isTemporaryAccount c.tenantId c.currency accountId ≠ true) :
    c.readOn book entries accountId = 0 := by
  refine Tally.sumWhere_eq_zero fun e isListed => ?_
  have member := areThere e isListed
  rw [Bool.eq_false_iff]
  intro isRead
  rw [Bool.and_eq_true, CloseRow.reads_iff, decide_eq_true_eq] at isRead
  obtain ⟨⟨ofTenant, ofCurrency, _⟩, rfl⟩ := isRead
  rw [← ofTenant, ← ofCurrency] at temporary wasNot
  rw [Book.isTemporaryAccount, kept.account?_entry precedes member] at temporary
  exact wasNot temporary

/-- A row of the view that says a close does not sweep is of a close that does not. -/
theorem doesNotSweep_of_reported (kept : Kept book) (member : c ∈ book.closes) {xmax : Xid}
    {b : CloseBreak} (reported : b ∈ reconCloseBreaks book xmax) (ofTenant : b.tenantId = c.tenantId)
    (ofCode : b.periodCode = some c.periodCode) (ofCurrency : b.currency = some c.currency)
    (reason : b.reason = "close_does_not_sweep") : doesNotSweep book c = true := by
  rw [reconCloseBreaks, closeOrphans_eq_nil kept, List.append_nil] at reported
  obtain ⟨paired, isPaired, isReason⟩ := List.mem_flatMap.mp reported
  obtain ⟨text, isText, rfl⟩ := List.mem_map.mp isReason
  obtain ⟨partition, _, inPartition⟩ := List.mem_flatMap.mp isPaired
  obtain ⟨pair, inLag, rfl⟩ := List.mem_map.mp inPartition
  have isClose : pair.1.1 ∈ book.closes := by
    have isRow := (List.of_mem_zip inLag).1
    rw [closesInOrder, List.mem_insertionSort] at isRow
    obtain ⟨k, isThere, isPair⟩ := List.mem_filterMap.mp isRow
    obtain ⟨x, _, isSame⟩ := Option.map_eq_some_iff.mp isPair
    rw [← isSame]
    exact (List.mem_filter.mp isThere).1
  have same : pair.1.1 = c := by
    have code := Option.some.inj ofCode
    have currency := Option.some.inj ofCurrency
    dsimp only at ofTenant code currency
    refine UniqueIndex.holds_eq kept.pkCloses isClose member rfl ?_
    simp only [CloseRow.primaryKey, ofTenant, code, currency]
  by_contra sweeps
  rw [Bool.not_eq_true] at sweeps
  dsimp only at reason
  rw [PairedClose.reasons, same, sweeps, reason] at isText
  simp at isText

end Reading

namespace StoredBeside

variable {close : CloseRow} {seen later : Book} {writes : Writes}
  (beside : StoredBeside close seen writes later)

include beside

/-- What the rows of an account hold is what the close read there and what its own legs
moved. -/
theorem position_stored (accountId : Uuid) :
    claimedSide (seen.apply writes) close .debit accountId -
        claimedSide (seen.apply writes) close .credit accountId =
      close.readOn seen seen.entries accountId +
        Tally.sumWhere (fun e : EntryRow => decide (e.accountId = accountId)) EntryRow.signed
          writes.entries := by
  have read : Tally.sumWhere
      (fun e => close.claims (seen.apply writes) e && decide (e.accountId = accountId))
        EntryRow.signed seen.entries = close.readOn seen seen.entries accountId := by
    refine Tally.sumWhere_congr (fun e member => ?_) fun _ _ _ => rfl
    have samePosted := beside.keptSeen.isPosted_later (Book.Precedes.apply seen writes) member
    have same : close.claims (seen.apply writes) e = close.reads seen e := by
      rw [CloseRow.claims_eq_reads (beside.unseen e member), Bool.eq_iff_iff, CloseRow.reads_iff,
        CloseRow.reads_iff, samePosted]
    rw [same]
  have moved : Tally.sumWhere
      (fun e => close.claims (seen.apply writes) e && decide (e.accountId = accountId))
        EntryRow.signed writes.entries =
      Tally.sumWhere (fun e : EntryRow => decide (e.accountId = accountId)) EntryRow.signed
        writes.entries := by
    refine Tally.sumWhere_congr (fun e member => ?_) fun _ _ _ => rfl
    obtain ⟨isOwn, ofCurrency, before, posted, _⟩ := beside.own e member
    obtain ⟨ofTenant, isMine⟩ := EntryRow.isOf_iff.mp isOwn
    rw [CloseRow.claims_iff.mpr ⟨ofTenant, ofCurrency, posted, before, Or.inr isMine⟩,
      Bool.true_and]
  rw [claimedSide, claimedSide, ← sumWhere_signed, Book.entries_apply, Tally.sumWhere_append, read,
    moved]

/-- The rows of a close differ on the two sides just where it claimed more on one. -/
theorem zeroed_iff (keep : Uuid → Bool) :
    (∀ row ∈ later.periodBalances, row.OfClose close → keep row.accountId = true →
        row.input = row.output) ↔
      ∀ accountId, keep accountId = true →
        claimedSide (seen.apply writes) close .debit accountId -
          claimedSide (seen.apply writes) close .credit accountId = 0 := by
  constructor
  · intro zeroed accountId isKept
    by_cases summed : ∃ e ∈ (seen.apply writes).entries,
        close.claims (seen.apply writes) e = true ∧ e.accountId = accountId
    · obtain ⟨e, member, claimed, rfl⟩ := summed
      obtain ⟨row, isRow, ofClose, onAccount⟩ := beside.row_of_summed member claimed
      obtain ⟨input, output⟩ := beside.sums_of_row isRow ofClose
      rw [← onAccount] at isKept ⊢
      rw [← input, ← output, zeroed row isRow ofClose isKept, sub_self]
    · have nothing : ∀ direction,
          claimedSide (seen.apply writes) close direction accountId = 0 := by
        intro direction
        refine Tally.sumWhere_eq_zero fun e member => ?_
        rw [Bool.eq_false_iff]
        intro both
        rw [Bool.and_eq_true, decide_eq_true_eq] at both
        exact summed ⟨e, member, both⟩
      rw [nothing, nothing, sub_self]
  · intro cancels row isRow ofClose isKept
    obtain ⟨input, output⟩ := beside.sums_of_row isRow ofClose
    rw [input, output]
    exact Int.eq_of_sub_eq_zero (cancels row.accountId isKept)

end StoredBeside

section Between

variable {sha256 : List UInt8 → List UInt8} {env : Env} {swept current seen later : Book}
  {command : ClosePeriod} {plan : ClosePlan} {writes : Writes}
  (wrote : SweepWrites sha256 env swept current command plan writes)
  (kept : Kept swept) (keepsEarnings : later.chart.KeepsEarnings)
  (between : swept.Precedes seen)
  (beside : StoredBeside (closeRowOf env command plan) seen writes later)

include wrote kept keepsEarnings between beside

/-- What a close read of an account it swept, or has no entries on, it moved out. -/
theorem moved_of_temporary {accountId : Uuid}
    (temporary : later.isTemporaryAccount command.tenantId command.currency accountId = true) :
    Tally.sumWhere (fun e : EntryRow => decide (e.accountId = accountId)) EntryRow.signed
        writes.entries =
      -(closeRowOf env command plan).readOn swept swept.entries accountId := by
  have precedes := between.trans beside.precedes
  have permanent := permanent_of_fits wrote.fits kept (precedes.chart ▸ keepsEarnings)
  have apart : accountId ≠ plan.retainedEarnings := by
    rintro rfl
    rw [permanent_of_fits (wrote.fits.later precedes) beside.kept keepsEarnings] at temporary
    cases temporary
  rw [wrote.moved apart, netOf_eq_below, Book.sweeps_of_permanent permanent]
  congr 1
  by_cases was : swept.isTemporaryAccount command.tenantId command.currency accountId = true
  · rw [if_pos was]
    refine Tally.sumWhere_congr (fun e _ => ?_) fun _ _ _ => rfl
    rw [Bool.eq_iff_iff, Bool.and_eq_true, Bool.and_eq_true, Book.postedBefore_iff,
      CloseRow.reads_iff, decide_eq_true_eq, decide_eq_true_eq]
    exact ⟨fun ⟨⟨ofTenant, ofCurrency, posted, before, onAccount⟩, below⟩ =>
        ⟨⟨ofTenant, ofCurrency, posted, before, below⟩, onAccount⟩,
      fun ⟨⟨ofTenant, ofCurrency, posted, before, below⟩, onAccount⟩ =>
        ⟨⟨ofTenant, ofCurrency, posted, before, onAccount⟩, below⟩⟩
  · rw [if_neg was]
    exact (CloseRow.readOn_of_untyped (c := closeRowOf env command plan) kept precedes
      (fun _ member => member) temporary was).symm

/-- So what its rows are left with there is what arrived between its two snapshots. -/
theorem left_on_temporary {accountId : Uuid}
    (temporary : later.isTemporaryAccount command.tenantId command.currency accountId = true) :
    claimedSide (seen.apply writes) (closeRowOf env command plan) .debit accountId -
        claimedSide (seen.apply writes) (closeRowOf env command plan) .credit accountId =
      (closeRowOf env command plan).arrivedBetween swept seen accountId := by
  have moved := moved_of_temporary wrote kept keepsEarnings between beside temporary
  obtain ⟨arrived, areEntries⟩ := between.entries
  have parts : (closeRowOf env command plan).readOn seen seen.entries accountId =
      (closeRowOf env command plan).readOn swept swept.entries accountId +
        (closeRowOf env command plan).arrivedBetween swept seen accountId := by
    rw [← CloseRow.readOn_later kept between (fun _ member => member), CloseRow.arrivedBetween,
      ← areEntries, List.drop_left, CloseRow.readOn, Tally.sumWhere_append]
    rfl
  rw [beside.position_stored, moved, parts]
  ring

end Between

section Committed

variable {sha256 : List UInt8 → List UInt8} {env : Env} {command : ClosePeriod} {plan : ClosePlan}
  {writes written : Writes} {claimed checkpointed : Ran} {current later : Book} {trace : List Ran}

/-- A committed close sweeps to zero just when nothing arrived on a temporary account between
its two snapshots. -/
theorem sweptToZero_iff
    (closed : ClosedBeside sha256 command env plan writes claimed checkpointed
      ⟨⟨current, written⟩, trace⟩) (keepsEarnings : later.chart.KeepsEarnings)
    (beside : StoredBeside (closeRowOf env command plan) checkpointed.snapshot writes later) :
    SweptToZero later checkpointed.snapshot (closeRowOf env command plan) plan.retainedEarnings
        (sweptBy env claimed.snapshot command plan) ↔
      ∀ accountId, checkpointed.snapshot.isTemporaryAccount command.tenantId command.currency
          accountId = true →
        (closeRowOf env command plan).arrivedBetween claimed.snapshot checkpointed.snapshot
          accountId = 0 := by
  have wasTemporary : (∀ accountId, later.isTemporaryAccount command.tenantId command.currency
      accountId = true → (closeRowOf env command plan).arrivedBetween claimed.snapshot
        checkpointed.snapshot accountId = 0) ↔
      ∀ accountId, checkpointed.snapshot.isTemporaryAccount command.tenantId command.currency
          accountId = true →
        (closeRowOf env command plan).arrivedBetween claimed.snapshot checkpointed.snapshot
          accountId = 0 := by
    constructor
    · intro noneArrived accountId temporary
      exact noneArrived accountId (temporary_later beside.precedes temporary)
    · intro noneArrived accountId temporary
      by_cases was : checkpointed.snapshot.isTemporaryAccount command.tenantId command.currency
          accountId = true
      · exact noneArrived accountId was
      · exact CloseRow.readOn_of_untyped (c := closeRowOf env command plan) beside.keptSeen
          beside.precedes (fun _ member => List.mem_of_mem_drop member) temporary was
  have cancels : (∀ row ∈ later.periodBalances, row.OfClose (closeRowOf env command plan) →
      later.isTemporaryAccount command.tenantId command.currency row.accountId = true →
        row.input = row.output) ↔
      ∀ accountId, later.isTemporaryAccount command.tenantId command.currency accountId = true →
        (closeRowOf env command plan).arrivedBetween claimed.snapshot checkpointed.snapshot
          accountId = 0 := by
    rw [beside.zeroed_iff]
    refine forall₂_congr fun accountId temporary => ?_
    rw [left_on_temporary closed.wrote closed.keptFirst keepsEarnings closed.between beside
      temporary]
  rw [← wasTemporary, ← cancels]
  constructor
  · exact SweptToZero.zeroed
  · intro zeroed
    refine ⟨zeroed, ?_, fun xmax b reported ofTenant ofCode ofCurrency reason => ?_⟩
    · rw [beside.storedSide_later, beside.storedSide_later, beside.position_stored,
        closed.wrote.arrived]
    · have unswept := doesNotSweep_of_reported beside.kept beside.isClose reported ofTenant ofCode
        ofCurrency reason
      obtain ⟨row, member, isUnswept⟩ := List.any_eq_true.mp unswept
      simp only [Bool.and_eq_true, decide_eq_true_eq, Option.any_map] at isUnswept
      obtain ⟨⟨⟨⟨rowTenant, rowCode⟩, rowCurrency⟩, temporary⟩, differs⟩ := isUnswept
      rw [rowTenant, rowCurrency] at temporary
      exact differs (zeroed row member ⟨rowTenant, rowCode, rowCurrency⟩ temporary)

end Committed

/-- In every interleaving under a chart that keeps retained earnings in equity, a close that
committed stores every temporary account at zero, with what it swept in retained earnings and
no row in the view of close breaks, just when what landed between its two snapshots, below its
cursor and dated before its end, comes to zero on every temporary account. -/
theorem close_beside_sweeps_iff {sha256 : List UInt8 → List UInt8} {chart : Chart}
    (keepsEarnings : chart.KeepsEarnings) {machine : Machine}
    (interleaved : Interleaved sha256 chart machine) :
    ∀ session ∈ machine.sessions, ∀ command, session.operation = .closePeriod command →
      session.committed = true →
        ∃ plan begun read claimed checkpointed,
          [begun, read, claimed, checkpointed] <+: session.trace ∧
          claimed.request = .claimAndClosePeriod command (command.idempotencyHash sha256)
            command.payload plan ∧
          checkpointed.request = .checkpointTheClose command plan (session.env.transactionId 0)
            session.env.xid ∧
          closeRowOf session.env command plan ∈ machine.committed.closes ∧
          (SweptToZero machine.committed checkpointed.snapshot
              (closeRowOf session.env command plan) plan.retainedEarnings
              (sweptBy session.env claimed.snapshot command plan) ↔
            ∀ accountId, checkpointed.snapshot.isTemporaryAccount command.tenantId
                command.currency accountId = true →
              (closeRowOf session.env command plan).arrivedBetween claimed.snapshot
                checkpointed.snapshot accountId = 0) := by
  intro session member command isClose committed
  obtain ⟨plan, writes, claimed, checkpointed, current, written, before, closed, isPrefix, kept,
    lands, landed⟩ := closedBeside_of_interleaved interleaved member isClose committed
  obtain ⟨begun, read, isBefore⟩ := closed.isTrace
  dsimp only at isBefore
  rw [isBefore] at isPrefix
  have stored := storedBeside_of_closed closed kept lands landed
    (sound_of_interleaved interleaved).kept
  have isChart : machine.committed.chart.KeepsEarnings := by
    rw [chart_of_interleaved interleaved]
    exact keepsEarnings
  exact ⟨plan, begun, read, claimed, checkpointed, isPrefix, closed.claims, closed.checkpoints,
    stored.isClose, sweptToZero_iff closed isChart stored⟩

namespace Shop

theorem feeBesideClose_sweeps_iff :
    (machineAfter feeBesideClose).sessions.any (fun s => s.isClosing && s.committed) = true ∧
      ∃ c ∈ (machineAfter feeBesideClose).committed.closes, ∃ first seen retainedEarnings swept,
        SweptToZero (machineAfter feeBesideClose).committed seen c retainedEarnings swept ↔
          ∀ accountId, seen.isTemporaryAccount c.tenantId c.currency accountId = true →
            c.arrivedBetween first seen accountId = 0 := by
  have closed : (machineAfter feeBesideClose).sessions.any
      (fun s => s.isClosing && s.committed) = true := by
    decide +kernel
  refine ⟨closed, ?_⟩
  obtain ⟨session, member, both⟩ := List.any_eq_true.mp closed
  rw [Bool.and_eq_true] at both
  obtain ⟨command, isClose⟩ := session.closes_of_isClosing both.1
  obtain ⟨plan, _, _, claimed, checkpointed, _, _, _, isThere, sweeps⟩ :=
    close_beside_sweeps_iff chart_keepsEarnings (interleaved_machineAfter feeBesideClose) session
      member command isClose both.2
  exact ⟨_, isThere, _, _, _, _, sweeps⟩

/-- The fee is in the rows the close stored and not in what it swept, and the view reports the
close. -/
theorem feeBesideClose_does_not_sweep :
    (chart.KeepsEarnings ∧ Interleaved id chart (machineAfter feeBesideClose) ∧
        (machineAfter feeBesideClose).sessions.all Session.committed = true) ∧
      ((machineAfter feeBesideClose).committed.periodBalances.map fun row =>
          (row.accountId, row.input, row.output)) = [(fees, 0, 70), (till, 70, 0)] ∧
      ((machineAfter feeBesideClose).committed.isTemporaryAccount "shop" "USD" fees) = true ∧
      (reconCloseBreaks (machineAfter feeBesideClose).committed 7).map CloseBreak.reason =
        ["close_does_not_sweep"] :=
  ⟨⟨chart_keepsEarnings, interleaved_machineAfter feeBesideClose, by decide +kernel⟩,
    by decide +kernel, by decide +kernel, by decide +kernel⟩

end Shop

end OpenLedger
