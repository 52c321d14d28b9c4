import OpenLedger.Beside

/-!
# What a checkpoint misses

The cursor of a close is an id, not a place in the order of commits: a writer with a lower
id may commit behind the checkpoint's snapshot.  What it wrote is in neither the checkpoint
nor a tail, and nothing else is.
-/

namespace OpenLedger

open Postgres

/-- One side of what a close reads of an account among the late entries. -/
def lateSide (close : CloseRow) (seen later : Book) (direction : Direction) (accountId : Uuid) :
    Int :=
  Tally.sumWhere (fun e => close.reads later e && decide (e.accountId = accountId))
    (fun e => e.on direction) (close.late seen later)

/-- What a checkpoint holds in a later book: all it claims but the late entries, which are
what the reports that it anchors miss as well. -/
structure HoldsButLate (close : CloseRow) (seen later : Book) : Prop where
  isClose : close ∈ later.closes
  exact_iff : close.Exact later ↔
    ∀ e ∈ close.late seen later, close.reads later e = false
  stored : ∀ direction accountId, claimedSide later close direction accountId =
    storedSide later close direction accountId + lateSide close seen later direction accountId
  anchored : ∀ asOf cursor,
    anchorOf later close.tenantId close.currency asOf cursor = some close →
      ∀ direction accountId,
        inceptionSide later close.tenantId asOf cursor direction close.currency accountId =
          sideAt (checkpointPosition later close.tenantId asOf cursor) direction close.currency
              accountId +
            lateSide close seen later direction accountId
  unanchored : ∀ asOf cursor,
    anchorOf later close.tenantId close.currency asOf cursor = none →
      ∀ direction accountId,
        sideAt (checkpointPosition later close.tenantId asOf cursor) direction close.currency
            accountId =
          inceptionSide later close.tenantId asOf cursor direction close.currency accountId

namespace StoredBeside

variable {close : CloseRow} {seen later : Book} {writes : Writes}
  (beside : StoredBeside close seen writes later)

/-- What a close claims of a late entry it claims for its id. -/
theorem claims_late {e : EntryRow} (member : e ∈ close.late seen later) :
    close.claims later e = close.reads later e := by
  have notOwn := (List.mem_filter.mp member).2
  rw [Bool.not_eq_true'] at notOwn
  exact CloseRow.claims_eq_reads notOwn

include beside

theorem claimedSide_eq (direction : Direction) (accountId : Uuid) :
    claimedSide later close direction accountId =
      storedSide later close direction accountId +
        lateSide close seen later direction accountId := by
  rw [beside.claimedSide_later, beside.storedSide_later, lateSide]
  congr 1
  refine Tally.sumWhere_congr (fun e member => ?_) fun _ _ _ => rfl
  rw [claims_late member]

/-- Nothing is late in a currency the tenant holds no account of. -/
theorem lateSide_of_not_held
    (held : ¬ ∃ l ∈ later.accounts, l.tenantId = close.tenantId ∧ l.currency = close.currency)
    (direction : Direction) (accountId : Uuid) :
    lateSide close seen later direction accountId = 0 := by
  refine Tally.sumWhere_eq_zero fun e member => ?_
  rw [Bool.eq_false_iff]
  intro isLate
  rw [Bool.and_eq_true, CloseRow.reads_iff] at isLate
  obtain ⟨⟨ofTenant, ofCurrency, _⟩, _⟩ := isLate
  obtain ⟨a, found⟩ := Option.isSome_iff_exists.mp (beside.kept.onAccount e (late_mem member))
  obtain ⟨isThere, tenant, _, currency⟩ := account?_spec found
  exact held ⟨a, isThere, tenant.trans ofTenant, currency.trans ofCurrency⟩

/-- A report that the close anchors misses the late entries. -/
theorem inceptionSide_eq {asOf : ReportInstant} {cursor : Xid}
    (anchored : anchorOf later close.tenantId close.currency asOf cursor = some close)
    (direction : Direction) (accountId : Uuid) :
    inceptionSide later close.tenantId asOf cursor direction close.currency accountId =
      sideAt (checkpointPosition later close.tenantId asOf cursor) direction close.currency
          accountId +
        lateSide close seen later direction accountId := by
  by_cases held : ∃ l ∈ later.accounts, l.tenantId = close.tenantId ∧ l.currency = close.currency
  · rw [sideAt_of_held held, anchored, claims_and_tails beside.kept.closesOwn anchored,
      beside.claimedSide_eq, anchoredSide, sum_of_checkpointTerms rfl rfl]
    ring
  · rw [sideAt_of_not_held held, inceptionSide_of_not_held beside.kept.joined held,
      beside.lateSide_of_not_held held, add_zero]

/-- One that no close anchors misses nothing. -/
theorem sideAt_of_unanchored {asOf : ReportInstant} {cursor : Xid}
    (unanchored : anchorOf later close.tenantId close.currency asOf cursor = none)
    (direction : Direction) (accountId : Uuid) :
    sideAt (checkpointPosition later close.tenantId asOf cursor) direction close.currency
        accountId =
      inceptionSide later close.tenantId asOf cursor direction close.currency accountId := by
  by_cases held : ∃ l ∈ later.accounts, l.tenantId = close.tenantId ∧ l.currency = close.currency
  · rw [sideAt_of_held held, unanchored, anchoredSide_none]
  · rw [sideAt_of_not_held held, inceptionSide_of_not_held beside.kept.joined held]

theorem holdsButLate : HoldsButLate close seen later where
  isClose := beside.isClose
  exact_iff := by
    rw [beside.exact_iff]
    refine forall₂_congr fun e member => ?_
    rw [claims_late member]
  stored := beside.claimedSide_eq
  anchored := fun _ _ anchored => beside.inceptionSide_eq anchored
  unanchored := fun _ _ unanchored => beside.sideAt_of_unanchored unanchored

end StoredBeside

/-- In every interleaving, from its commit on a close's checkpoint holds what the close
claims of all entries but those that landed behind the snapshot the checkpoint was taken
from, below the cursor and dated before the end.  These are in no report the close
anchors, and every other entry is in all of them. -/
theorem checkpoint_holds_but_late {sha256 : List UInt8 → List UInt8} {chart : Chart}
    {machine : Machine} (interleaved : Interleaved sha256 chart machine) :
    ∀ session ∈ machine.sessions, ∀ command, session.operation = .closePeriod command →
      session.committed = true →
        ∃ plan begun read claimed checkpointed,
          [begun, read, claimed, checkpointed] <+: session.trace ∧
          claimed.request = .claimAndClosePeriod command (command.idempotencyHash sha256)
            command.payload plan ∧
          checkpointed.request = .checkpointTheClose command plan (session.env.transactionId 0)
            session.env.xid ∧
          HoldsButLate (closeRowOf session.env command plan) checkpointed.snapshot
            machine.committed := by
  intro session member command isClose committed
  obtain ⟨plan, writes, claimed, checkpointed, current, written, before, closed, isPrefix, kept,
    lands, landed⟩ := closedBeside_of_interleaved interleaved member isClose committed
  obtain ⟨begun, read, isBefore⟩ := closed.isTrace
  dsimp only at isBefore
  rw [isBefore] at isPrefix
  have stored := storedBeside_of_closed closed kept lands landed
    (sound_of_interleaved interleaved).kept
  exact ⟨plan, begun, read, claimed, checkpointed, isPrefix, closed.claims, closed.checkpoints,
    stored.holdsButLate⟩

namespace Shop

/-- A fee that takes its id before the close of its period does, and commits after it. -/
def feeBehindClose : List Action :=
  ready ++ [.start (.post (command "fee" 1000 .posted none 70)) (envOf 5), .assign 4] ++
    statements 4 2 ++ [.start (closing "first") (envOf 6), .assign 5] ++ statements 5 5 ++
    statements 4 1

theorem feeBehindClose_holds :
    (machineAfter feeBehindClose).sessions.any (fun s => s.isClosing && s.committed) = true ∧
      ∃ close seen, HoldsButLate close seen (machineAfter feeBehindClose).committed := by
  have closed : (machineAfter feeBehindClose).sessions.any
      (fun s => s.isClosing && s.committed) = true := by
    decide +kernel
  refine ⟨closed, ?_⟩
  obtain ⟨session, member, both⟩ := List.any_eq_true.mp closed
  rw [Bool.and_eq_true] at both
  obtain ⟨command, isClose⟩ := session.closes_of_isClosing both.1
  obtain ⟨plan, _, _, _, checkpointed, _, _, _, holds⟩ :=
    checkpoint_holds_but_late (interleaved_machineAfter feeBehindClose) session member command
      isClose both.2
  exact ⟨_, _, holds⟩

/-- All sessions are through, and the fee is in neither the checkpoint nor a tail. -/
theorem feeBehindClose_missed :
    ((machineAfter feeBehindClose).sessions.all Session.committed = true ∧
      Interleaved id chart (machineAfter feeBehindClose)) ∧
      (¬ ∀ close ∈ (machineAfter feeBehindClose).committed.closes,
        close.Exact (machineAfter feeBehindClose).committed) ∧
      sideAt (checkpointPosition (machineAfter feeBehindClose).committed "shop" (.at 1000) 7)
        .credit "USD" fees = 0 ∧
      inceptionSide (machineAfter feeBehindClose).committed "shop" (.at 1000) 7
        .credit "USD" fees = 70 :=
  ⟨⟨by decide +kernel, interleaved_machineAfter feeBehindClose⟩, by decide +kernel,
    by decide +kernel, by decide +kernel⟩

end Shop

end OpenLedger
