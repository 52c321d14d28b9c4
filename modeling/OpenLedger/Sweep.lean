import OpenLedger.Landed
import OpenLedger.Reports.Checkpoint

/-!
# The sweep

What the closing statement writes where it meets no constraint, from its snapshot and
against what is committed by the time it runs: a leg out of every temporary account of
the position the snapshot showed, and a leg into retained earnings each.
-/

namespace OpenLedger

open Postgres

namespace Book

/-- Whether an account is an income-statement account of its currency. -/
def isTemporaryAccount (book : Book) (tenantId currency : String) (accountId : Uuid) : Bool :=
  (book.account? tenantId accountId currency).any fun account => account.category.isTemporary

/-- Whether a close into a destination sweeps an account: every temporary account but the
destination itself. -/
def sweeps (book : Book) (tenantId currency : String) (retainedEarnings accountId : Uuid) :
    Bool :=
  book.isTemporaryAccount tenantId currency accountId && decide (accountId ≠ retainedEarnings)

/-- The posted entries of an account effective before an instant. -/
def postedBefore (book : Book) (tenantId currency : String) (instant : Timestamp)
    (accountId : Uuid) (e : EntryRow) : Bool :=
  decide (e.tenantId = tenantId) && decide (e.currency = currency) && book.isPosted e &&
    decide (e.effectiveAt < instant) && decide (e.accountId = accountId)

/-- One side of an account before an instant, gross. -/
def grossBefore (book : Book) (tenantId currency : String) (instant : Timestamp)
    (direction : Direction) (accountId : Uuid) : Int :=
  Tally.sumWhere (book.postedBefore tenantId currency instant accountId)
    (fun e => e.on direction) book.entries

/-- An account's position before an instant, debit-positive. -/
def positionBefore (book : Book) (tenantId currency : String) (instant : Timestamp)
    (accountId : Uuid) : Int :=
  Tally.sumWhere (book.postedBefore tenantId currency instant accountId) EntryRow.signed
    book.entries

variable {book : Book} {tenantId currency : String} {instant : Timestamp} {accountId : Uuid}

theorem postedBefore_iff {e : EntryRow} :
    book.postedBefore tenantId currency instant accountId e = true ↔
      e.tenantId = tenantId ∧ e.currency = currency ∧ book.isPosted e = true ∧
        e.effectiveAt < instant ∧ e.accountId = accountId := by
  simp [postedBefore, and_assoc]

/-- A destination that is no temporary account is not swept anyway. -/
theorem sweeps_of_permanent {retainedEarnings : Uuid}
    (permanent : book.isTemporaryAccount tenantId currency retainedEarnings = false) :
    book.sweeps tenantId currency retainedEarnings accountId =
      book.isTemporaryAccount tenantId currency accountId := by
  by_cases same : accountId = retainedEarnings
  · rw [sweeps, same, permanent, Bool.false_and]
  · rw [sweeps, decide_eq_true same, Bool.and_true]

/-- A position is its debits less its credits. -/
theorem positionBefore_eq :
    book.positionBefore tenantId currency instant accountId =
      book.grossBefore tenantId currency instant .debit accountId -
        book.grossBefore tenantId currency instant .credit accountId :=
  sumWhere_signed _ _

end Book

theorem CloseRow.claims_iff {book : Book} {k : CloseRow} {e : EntryRow} :
    k.claims book e = true ↔ e.tenantId = k.tenantId ∧ e.currency = k.currency ∧
      book.isPosted e = true ∧ e.effectiveAt < k.endsAt ∧
        (e.xactId < k.computedAtXid ∨ e.transactionId = k.transactionId) := by
  simp only [claims, checkpointAdmits, Bool.and_eq_true, Bool.or_eq_true, decide_eq_true_eq,
    and_assoc]

/-- The entries a close read: posted, before its end and below its cursor. -/
def CloseRow.reads (book : Book) (c : CloseRow) (e : EntryRow) : Bool :=
  decide (e.tenantId = c.tenantId) && decide (e.currency = c.currency) && book.isPosted e &&
    decide (e.effectiveAt < c.endsAt) && decide (e.xactId < c.computedAtXid)

theorem CloseRow.reads_iff {book : Book} {c : CloseRow} {e : EntryRow} :
    c.reads book e = true ↔ e.tenantId = c.tenantId ∧ e.currency = c.currency ∧
      book.isPosted e = true ∧ e.effectiveAt < c.endsAt ∧ e.xactId < c.computedAtXid := by
  simp only [CloseRow.reads, Bool.and_eq_true, decide_eq_true_eq, and_assoc]

/-- The close row of a command and its plan. -/
def closeRowOf (env : Env) (command : ClosePeriod) (plan : ClosePlan) : CloseRow where
  tenantId := command.tenantId
  periodCode := command.periodCode
  currency := command.currency
  startsAt := plan.startsAt
  endsAt := plan.endsAt
  transactionId := env.transactionId 0
  txnEffectiveAt := plan.closesAt
  computedAtXid := env.xid

section Sweep

variable {book : Book} {tenantId currency : String} {endsAt : Timestamp}
  {retainedEarnings : Uuid} {cursor : Xid}

/-- What a sweep takes of an account is what it reads there below the cursor, if it is
swept. -/
theorem netOf_eq_below (accountId : Uuid) :
    netOf book tenantId currency endsAt retainedEarnings cursor accountId =
      if book.sweeps tenantId currency retainedEarnings accountId then
        Tally.sumWhere (fun e => book.postedBefore tenantId currency endsAt accountId e &&
          decide (e.xactId < cursor)) EntryRow.signed book.entries
      else 0 := by
  have temporary : ∀ e : EntryRow, e.tenantId = tenantId → e.currency = currency →
      e.accountId = accountId →
        isTemporary book e = book.isTemporaryAccount tenantId currency accountId := by
    intro e ofTenant ofCurrency onAccount
    rw [isTemporary, categoryOf, Book.isTemporaryAccount, ofTenant, ofCurrency, onAccount,
      Option.any_map]
  by_cases isSwept : book.sweeps tenantId currency retainedEarnings accountId = true
  · have both := isSwept
    rw [Book.sweeps, Bool.and_eq_true, decide_eq_true_eq] at both
    rw [if_pos isSwept, netOf]
    refine Tally.sumWhere_congr (fun e member => ?_) fun _ _ _ => rfl
    rw [Bool.eq_iff_iff, Bool.and_eq_true, Bool.and_eq_true, Book.postedBefore_iff]
    simp only [sweepAdmits, Bool.and_eq_true, decide_eq_true_eq]
    constructor
    · rintro ⟨⟨⟨⟨⟨⟨⟨ofTenant, ofCurrency⟩, posted⟩, _⟩, _⟩, before⟩, below⟩, onAccount⟩
      exact ⟨⟨ofTenant, ofCurrency, posted, before, onAccount⟩, below⟩
    · rintro ⟨⟨ofTenant, ofCurrency, posted, before, onAccount⟩, below⟩
      have swept := (temporary e ofTenant ofCurrency onAccount).trans both.1
      exact ⟨⟨⟨⟨⟨⟨⟨ofTenant, ofCurrency⟩, posted⟩, swept⟩, onAccount ▸ both.2⟩, before⟩,
        below⟩, onAccount⟩
  · rw [if_neg isSwept, netOf]
    refine Tally.sumWhere_eq_zero fun e _ => ?_
    rw [Bool.eq_false_iff]
    intro enters
    simp only [sweepAdmits, Bool.and_eq_true, decide_eq_true_eq] at enters
    obtain ⟨⟨⟨⟨⟨⟨⟨ofTenant, ofCurrency⟩, _⟩, swept⟩, apart⟩, _⟩, _⟩, onAccount⟩ := enters
    rw [temporary e ofTenant ofCurrency onAccount] at swept
    rw [onAccount] at apart
    exact isSwept (Bool.and_eq_true_iff.mpr ⟨swept, decide_eq_true apart⟩)

/-- With every entry below the cursor, that is its position. -/
theorem netOf_eq (below : ∀ e ∈ book.entries, e.xactId < cursor) (accountId : Uuid) :
    netOf book tenantId currency endsAt retainedEarnings cursor accountId =
      if book.sweeps tenantId currency retainedEarnings accountId then
        book.positionBefore tenantId currency endsAt accountId
      else 0 := by
  have allBelow : Tally.sumWhere (fun e => book.postedBefore tenantId currency endsAt accountId e &&
      decide (e.xactId < cursor)) EntryRow.signed book.entries =
        book.positionBefore tenantId currency endsAt accountId := by
    refine Tally.sumWhere_congr (fun e member => ?_) fun _ _ _ => rfl
    rw [decide_eq_true (below e member), Bool.and_true]
  rw [netOf_eq_below, allBelow]

/-- What a leg out of a position moves, and what its leg in does. -/
theorem legSigned_legOut (p : SweptPosition) :
    legSigned (legOut currency p) = -p.positionMinor := by
  by_cases debit : 0 < p.positionMinor
  · simp [legSigned, legOut, debit, abs_of_pos debit]
  · simp [legSigned, legOut, debit, abs_of_nonpos (not_lt.mp debit)]

theorem legSigned_legIn (p : SweptPosition) :
    legSigned (legIn currency retainedEarnings p) = p.positionMinor := by
  by_cases debit : 0 < p.positionMinor
  · simp [legSigned, legIn, debit, abs_of_pos debit]
  · simp [legSigned, legIn, debit, abs_of_nonpos (not_lt.mp debit)]

end Sweep

/-- The rows that hold what a close claims in a book. -/
def CloseRow.rowsIn (book : Book) (c : CloseRow) : List PeriodBalanceRow :=
  (((book.entries.filter (c.claims book)).map EntryRow.accountId).dedup).map fun accountId =>
    ⟨c.tenantId, c.periodCode, c.currency, accountId, claimedSide book c .debit accountId,
      claimedSide book c .credit accountId⟩

/-- A checkpoint stores them. -/
theorem checkpointRows_eq (book : Book) (env : Env) (command : ClosePeriod) (plan : ClosePlan) :
    checkpointRows book command plan (env.transactionId 0) env.xid =
      (closeRowOf env command plan).rowsIn book := by
  have sides : ∀ direction accountId,
      Tally.sumWhere (fun e => (closeRowOf env command plan).claims book e &&
        decide (e.accountId = accountId) && decide (e.direction = direction))
        EntryRow.amountMinor book.entries =
      claimedSide book (closeRowOf env command plan) direction accountId :=
    fun direction accountId => (sumWhere_on _ _ _).symm
  unfold CloseRow.rowsIn
  simp only [← sides]
  rfl

theorem CloseRow.mem_rowsIn {book : Book} {c : CloseRow} {row : PeriodBalanceRow} :
    row ∈ c.rowsIn book ↔ row.OfClose c ∧
      (∃ e ∈ book.entries, c.claims book e = true ∧ e.accountId = row.accountId) ∧
      row.input = claimedSide book c .debit row.accountId ∧
        row.output = claimedSide book c .credit row.accountId := by
  simp only [rowsIn, List.mem_map, List.mem_dedup, List.mem_filter]
  constructor
  · rintro ⟨accountId, ⟨e, ⟨member, claimed⟩, rfl⟩, rfl⟩
    exact ⟨⟨rfl, rfl, rfl⟩, ⟨e, member, claimed, rfl⟩, rfl, rfl⟩
  · rintro ⟨ofClose, ⟨e, member, claimed, onAccount⟩, input, output⟩
    refine ⟨row.accountId, ⟨e, ⟨member, claimed⟩, onAccount⟩, ?_⟩
    rw [← input, ← output, ← ofClose.tenant, ← ofClose.code, ← ofClose.currency]

/-- What a closing statement wrote that met no constraint: planned and swept from its
snapshot, and landing on what was committed when it ran. -/
structure SweepWrites (sha256 : List UInt8 → List UInt8) (env : Env) (snapshot current : Book)
    (command : ClosePeriod) (plan : ClosePlan) (writes : Writes) : Prop where
  fits : PlanFits snapshot command plan
  isWrites : writes = closeWrites env snapshot current command
    (command.idempotencyHash sha256) command.payload plan
  lands : Lands current writes

namespace SweepWrites

variable {sha256 : List UInt8 → List UInt8} {env : Env} {snapshot current : Book}
  {command : ClosePeriod} {plan : ClosePlan} {writes : Writes}
  (wrote : SweepWrites sha256 env snapshot current command plan writes)

include wrote

/-- Each leg became an entry of the closing transaction. -/
theorem landed : List.Forall₂ (LandedAs env snapshot current
    (closeLegRows env snapshot command plan)) (closeLegRows env snapshot command plan)
      writes.entries := by
  rw [wrote.isWrites]
  exact (close_coheres env wrote.fits).landed env current

theorem closing_mem : closingTxn env command plan ∈ writes.transactions := by
  rw [wrote.isWrites]
  exact List.mem_singleton_self _

theorem own : writes.Own env.xid := by
  intro x member
  rw [wrote.isWrites] at member
  rw [List.mem_singleton.mp member]

theorem isClose : writes.closes = [closeRowOf env command plan] := by
  rw [wrote.isWrites]
  rfl

/-- The entries the close wrote are the closing transaction's. -/
theorem belongs {e : EntryRow} (member : e ∈ writes.entries) :
    e.BelongsTo (closingTxn env command plan) := by
  obtain ⟨x, isThere, belongs⟩ := wrote.lands.belongs e member
  rw [wrote.isWrites] at isThere
  rw [List.mem_singleton.mp isThere] at belongs
  exact belongs

theorem unknown : current.transaction? command.tenantId (env.transactionId 0) = none :=
  wrote.lands.unknown wrote.closing_mem

/-- They are in the currency that is closed. -/
theorem ofCurrency {e : EntryRow} (member : e ∈ writes.entries) :
    e.tenantId = command.tenantId ∧ e.currency = command.currency := by
  obtain ⟨row, isRow, asRow⟩ := Tally.exists_left_of_forall₂ wrote.landed member
  obtain ⟨tenant, _, _, isLeg⟩ := mem_closeLegRows isRow
  exact ⟨asRow.tenantId.trans tenant, asRow.currency.trans (leg_account isLeg).1⟩

/-- The period was not closed in the currency. -/
theorem unclosed {k : CloseRow} (member : k ∈ current.closes) : ¬ k.IsOf command := by
  rintro ⟨tenant, code, currency⟩
  have isRow : closeRowOf env command plan ∈ writes.closes := by
    rw [wrote.isClose]
    exact List.mem_singleton_self _
  refine wrote.lands.close_apart isRow member ?_
  simp only [CloseRow.primaryKey, tenant, code, currency]
  rfl

/-- Its legs: one out of each swept account, and one into retained earnings. -/
theorem legs_perm : (writes.entries.map EntryRow.leg).Perm
    ((sweptBy env snapshot command plan).map (legOut command.currency) ++
      (sweptBy env snapshot command plan).map
        (legIn command.currency plan.retainedEarnings)) := by
  rw [legs_of_landed wrote.landed, closeLegRows_leg]
  exact leg_perm _ _ _

/-- They are dated inside the period. -/
theorem dated {e : EntryRow} (member : e ∈ writes.entries) :
    e.effectiveAt = plan.closesAt ∧ plan.startsAt ≤ e.effectiveAt ∧
      e.effectiveAt < plan.endsAt := by
  obtain ⟨_, admits⟩ := wrote.lands.admitted
  have isRow : closeRowOf env command plan ∈ writes.closes := by
    rw [wrote.isClose]
    exact List.mem_singleton_self _
  have inside := admits.ckClosesTxnInPeriod _ isRow
  have isDate := (wrote.belongs member).effectiveAt
  rw [isDate]
  exact ⟨rfl, inside.1, inside.2⟩

/-- What the close moves on an account is what its legs do. -/
theorem signed_by_leg (accountId : Uuid) :
    Tally.sumWhere (fun e : EntryRow => decide (e.accountId = accountId)) EntryRow.signed
        writes.entries =
      Tally.sumWhere (fun l : Leg => decide (l.accountId = accountId)) legSigned
          ((sweptBy env snapshot command plan).map (legOut command.currency)) +
        Tally.sumWhere (fun l : Leg => decide (l.accountId = accountId)) legSigned
          ((sweptBy env snapshot command plan).map
            (legIn command.currency plan.retainedEarnings)) := by
  have byLeg : Tally.sumWhere (fun e : EntryRow => decide (e.accountId = accountId))
      EntryRow.signed writes.entries =
        Tally.sumWhere (fun l : Leg => decide (l.accountId = accountId)) legSigned
          (writes.entries.map EntryRow.leg) := by
    rw [Tally.sumWhere_map]
    rfl
  rw [byLeg, Tally.sumWhere_perm wrote.legs_perm, Tally.sumWhere_append]

/-- On an account other than retained earnings the close moves what it swept. -/
theorem moved {accountId : Uuid} (apart : accountId ≠ plan.retainedEarnings) :
    Tally.sumWhere (fun e : EntryRow => decide (e.accountId = accountId)) EntryRow.signed
        writes.entries =
      -netOf snapshot command.tenantId command.currency plan.endsAt plan.retainedEarnings
        env.xid accountId := by
  have outs : Tally.sumWhere (fun l : Leg => decide (l.accountId = accountId)) legSigned
      ((sweptBy env snapshot command plan).map (legOut command.currency)) =
        -Tally.sumWhere (fun p : SweptPosition => decide (p.accountId = accountId))
          SweptPosition.positionMinor (sweptBy env snapshot command plan) := by
    rw [Tally.sumWhere_map, ← Tally.sumWhere_neg]
    exact Tally.sumWhere_congr (fun _ _ => rfl) fun p _ _ => legSigned_legOut p
  have ins : Tally.sumWhere (fun l : Leg => decide (l.accountId = accountId)) legSigned
      ((sweptBy env snapshot command plan).map
        (legIn command.currency plan.retainedEarnings)) = 0 := by
    rw [Tally.sumWhere_map]
    exact Tally.sumWhere_eq_zero fun p _ => decide_eq_false apart.symm
  rw [wrote.signed_by_leg, outs, ins, add_zero]
  exact congrArg Neg.neg (sumWhere_position accountId)

/-- Into retained earnings it moves all it swept. -/
theorem arrived :
    Tally.sumWhere (fun e : EntryRow => decide (e.accountId = plan.retainedEarnings))
        EntryRow.signed writes.entries =
      ((sweptBy env snapshot command plan).map SweptPosition.positionMinor).sum := by
  have outs : Tally.sumWhere (fun l : Leg => decide (l.accountId = plan.retainedEarnings))
      legSigned ((sweptBy env snapshot command plan).map (legOut command.currency)) = 0 := by
    rw [Tally.sumWhere_map]
    exact Tally.sumWhere_eq_zero fun p isSwept => decide_eq_false (sweptBy_apart isSwept)
  have ins : Tally.sumWhere (fun l : Leg => decide (l.accountId = plan.retainedEarnings))
      legSigned ((sweptBy env snapshot command plan).map
        (legIn command.currency plan.retainedEarnings)) =
          ((sweptBy env snapshot command plan).map SweptPosition.positionMinor).sum := by
    rw [Tally.sumWhere_map, Tally.sumWhere_eq_sum_map]
    refine congrArg List.sum (List.map_congr_left fun p _ => ?_)
    exact (if_pos (decide_eq_true rfl)).trans (legSigned_legIn p)
  rw [wrote.signed_by_leg, outs, ins, zero_add]

end SweepWrites

end OpenLedger
