import OpenLedger.Acknowledged
import OpenLedger.BalanceCache
import OpenLedger.Concluded
import OpenLedger.Reports.RowReads

/-!
# Reading back what was acknowledged

From the moment a caller is told of a transaction, whoever else writes, reading it
gives what was asked for, and gives it again ever after.  No read gives a transaction
that nobody was told of.
-/

namespace OpenLedger

open Postgres

/-- The same leg the other way round. -/
def Leg.mirror (leg : Leg) : Leg := { leg with direction := leg.direction.flip }

/-- What reading a transaction finds. -/
def readOf (recordedAt : TransactionRow → Timestamp) (book : Book) (tenantId : String)
    (id : Uuid) : Option Transaction :=
  (transaction (transactionAnswer recordedAt book) ⟨tenantId, id⟩).toOption

/-- The legs a post is read back with: its own, or the mirror of what is read of a
posted transaction it reverses. -/
def PostTransaction.legsBeside (command : PostTransaction) (named : Option Transaction) :
    List Leg :=
  match command.reversesId with
  | none => expandPostings command.postings
  | some _ =>
      match named with
      | some target => if target.status = .posted then target.legs.map Leg.mirror else []
      | none => []

/-- A post read back, beside what is read of the transaction it names. -/
structure Transaction.IsPost (env : Env) (command : PostTransaction)
    (named : Option Transaction) (read : Transaction) : Prop where
  found : (supersededId command).isSome = named.isSome
  kind : read.kind = "posting"
  status : read.status = command.status
  effectiveAt : read.effectiveAt = .ofStored (((command.effectiveAt.map OffsetDateTime.stored).or
    (named.map fun target => target.effectiveAt.stored)).getD env.now)
  resolvesId : read.resolvesId = command.resolvesId
  reversesId : read.reversesId = command.reversesId
  legs : read.legs.Perm (command.legsBeside named)

/-- A close read back: what its caller was told it swept, out of each account and into
retained earnings. -/
structure Transaction.IsClose (book : Book) (command : ClosePeriod) (answer : PeriodClosed)
    (read : Transaction) : Prop where
  kind : read.kind = "period_close"
  status : read.status = .posted
  effectiveAt : read.effectiveAt = .ofStored answer.effectiveAt
  resolvesId : read.resolvesId = none
  reversesId : read.reversesId = none
  legs : ∃ plan, closePlan book command = .ok plan ∧
    read.legs.Perm (answer.swept.map (legOut command.currency) ++
      answer.swept.map (legIn command.currency plan.retainedEarnings))

/-- What a caller was told of, read back. -/
structure Acknowledgement.ReadAs (recordedAt : TransactionRow → Timestamp) (book : Book)
    (env : Env) (told : Acknowledgement) (read : Transaction) : Prop where
  transactionId : read.transactionId = told.transactionId
  eventId : read.eventId = told.eventId
  post : ∀ command eventId id, told = .posted command eventId id →
    read.IsPost env command
      ((supersededId command).bind (readOf recordedAt book command.tenantId))
  close : ∀ command answer, told = .closed command answer → read.IsClose book command answer

section Reads

variable {recordedAt : TransactionRow → Timestamp} {book later : Book}

theorem readOf_eq (kept : Kept book) (tenantId : String) (id : Uuid) :
    readOf recordedAt book tenantId id =
      (book.transaction? tenantId id).map fun x => x.readIn recordedAt book := by
  rw [readOf, transaction_eq kept]
  cases book.transaction? tenantId id <;> rfl

@[simp]
theorem status_readIn (x : TransactionRow) : (x.readIn recordedAt book).status = x.status := rfl

/-- The legs read back are the entries'. -/
theorem legs_readIn (x : TransactionRow) :
    (x.readIn recordedAt book).legs.Perm ((entriesOf book x.tenantId x.id).map EntryRow.leg) := by
  have isLeg : TransactionEntry.leg ∘ EntryRow.read = EntryRow.leg := rfl
  rw [Transaction.legs, TransactionRow.readIn, List.map_map, isLeg]
  exact (List.perm_insertionSort _ _).map EntryRow.leg

/-- What others land does not change what is read of a transaction. -/
theorem readIn_landed {wrote : Writes → Prop} (landed : Landed wrote book later)
    {x : TransactionRow} (isThere : x ∈ book.transactions) :
    x.readIn recordedAt later = x.readIn recordedAt book := by
  rw [TransactionRow.readIn, TransactionRow.readIn, entriesOf_landed landed isThere]

/-- An account is of one currency. -/
theorem Kept.currency_of_account (kept : Kept book) {left right : EntryRow}
    (isLeft : left ∈ book.entries) (isRight : right ∈ book.entries)
    (tenant : left.tenantId = right.tenantId) (account : left.accountId = right.accountId) :
    left.currency = right.currency := by
  obtain ⟨leftAccount, leftFound⟩ := Option.isSome_iff_exists.mp (kept.onAccount left isLeft)
  obtain ⟨rightAccount, rightFound⟩ := Option.isSome_iff_exists.mp (kept.onAccount right isRight)
  obtain ⟨leftThere, leftTenant, leftId, leftCurrency⟩ := account?_spec leftFound
  obtain ⟨rightThere, rightTenant, rightId, rightCurrency⟩ := account?_spec rightFound
  have sameAccount : leftAccount = rightAccount := by
    refine UniqueIndex.holds_eq kept.pkAccounts leftThere rightThere
      (k := (right.tenantId, right.accountId)) ?_ ?_
    · rw [AccountRow.primaryKey, leftTenant, leftId, tenant, account]
    · rw [AccountRow.primaryKey, rightTenant, rightId]
  rw [← leftCurrency, ← rightCurrency, sameAccount]

/-- Entries under one counter an account are read in a strict order. -/
theorem ordered_readIn (kept : Kept book) {x : TransactionRow}
    (oneCounter : OneCounter (entriesOf book x.tenantId x.id)) :
    (x.readIn recordedAt book).entries.Pairwise fun left right =>
      toLex (left.accountId, left.accountSeq) < toLex (right.accountId, right.accountSeq) := by
  have mine : ∀ e ∈ entriesOf book x.tenantId x.id, e ∈ book.entries ∧ e.tenantId = x.tenantId := by
    intro e member
    obtain ⟨isThere, isMine⟩ := List.mem_filter.mp member
    exact ⟨isThere, (EntryRow.isOf_iff.mp isMine).1⟩
  have apart : (entriesOf book x.tenantId x.id).Pairwise fun left right =>
      left.accountRank ≠ right.accountRank := by
    have numbered : (entriesOf book x.tenantId x.id).Pairwise fun left right =>
        (left.tenantId, left.accountId, left.stripe, left.accountSeq) ≠
          (right.tenantId, right.accountId, right.stripe, right.accountSeq) :=
      (List.pairwise_map.mp kept.countable.uqAccountSeq).sublist List.filter_sublist
    refine numbered.imp_of_mem fun {left right} isLeft isRight differ same => differ ?_
    obtain ⟨leftThere, leftTenant⟩ := mine left isLeft
    obtain ⟨rightThere, rightTenant⟩ := mine right isRight
    have tenant := leftTenant.trans rightTenant.symm
    have rank := Prod.mk.inj (toLex.injective same)
    have currency := kept.currency_of_account leftThere rightThere tenant rank.1
    rw [tenant, rank.1, rank.2, oneCounter left isLeft right isRight rank.1 currency]
  rw [TransactionRow.readIn, List.pairwise_map]
  have sorted := List.pairwise_insertionSort
    (fun left right : EntryRow => left.accountRank ≤ right.accountRank)
    (entriesOf book x.tenantId x.id)
  have distinct := apart.perm (List.perm_insertionSort (fun left right : EntryRow =>
    left.accountRank ≤ right.accountRank) _).symm fun differ => differ.symm
  exact (sorted.and distinct).imp fun both => lt_of_le_of_ne both.1 both.2

end Reads

section Told

variable {recordedAt : TransactionRow → Timestamp} {book later : Book} {env : Env}
  {written : Writes}

/-- A post that was told of reads back as what it asked for. -/
theorem isPost_of_recorded {command : PostTransaction} {eventId id : Uuid}
    (kept : Kept later) (landed : Landed (fun _ => True) book later)
    (grounded : (Acknowledgement.posted command eventId id).Grounded book)
    (records : later.Records (recordedRow env book command eventId id)
      (recordedLegs book command)) :
    ((recordedRow env book command eventId id).readIn recordedAt later).IsPost env command
      ((supersededId command).bind (readOf recordedAt later command.tenantId)) := by
  have legs := (@legs_readIn recordedAt later (recordedRow env book command eventId id)).trans
    records.legs
  cases named : supersededId command with
  | none =>
      have noTarget : supersedeTarget book command = none := by
        rw [supersedeTarget, named]
        rfl
      have noReversal : command.reversesId = none := by
        rw [supersededId, Option.or_eq_none_iff] at named
        exact named.2
      refine ⟨by rw [named]; rfl, rfl, rfl, ?_, rfl, rfl, ?_⟩
      · change OffsetDateTime.ofStored (effective env command _) = _
        rw [effective, noTarget]
        rfl
      · unfold PostTransaction.legsBeside
        rw [recordedLegs, noReversal] at legs
        rw [noReversal]
        exact legs
  | some targetId =>
      obtain ⟨target, found⟩ := grounded targetId named
      obtain ⟨isThere, isTenant, isId⟩ := Kept.mem_of_transaction? found
      have isTarget := supersedeTarget_of_found named found
      have isRead : readOf recordedAt later command.tenantId targetId =
          some (target.readIn recordedAt later) := by
        rw [readOf_eq kept, landed.precedes.transaction? found]
        rfl
      rw [Option.bind_some, isRead]
      refine ⟨by rw [named]; rfl, rfl, rfl, ?_, rfl, rfl, ?_⟩
      · change OffsetDateTime.ofStored (effective env command _) = _
        rw [effective, isTarget, Option.map_some, Option.map_some]
        change _ = OffsetDateTime.ofStored (((command.effectiveAt.map OffsetDateTime.stored).or
          (some (OffsetDateTime.ofStored target.effectiveAt).stored)).getD env.now)
        rw [OffsetDateTime.stored_ofStored]
      · refine legs.trans ?_
        rw [recordedLegs, PostTransaction.legsBeside]
        cases reverses : command.reversesId with
        | none =>
            exact .refl _
        | some reversed =>
            have noResolution := command.reversalAlone (by rw [reverses]; rfl)
            obtain rfl : reversed = targetId := by
              simpa [supersededId, noResolution, reverses] using named
            dsimp only
            rw [isTarget, Option.map_some]
            by_cases isPosted : target.status = .posted
            · have same := entriesOf_landed landed isThere
              rw [isTenant, isId] at same
              have targetLegs := @legs_readIn recordedAt later target
              rw [isTenant, isId, same] at targetLegs
              have mirrored := targetLegs.symm.map Leg.mirror
              rw [List.map_map] at mirrored
              rw [if_pos (congrArg some isPosted), status_readIn, if_pos isPosted]
              exact mirrored
            · rw [if_neg fun same => isPosted (Option.some.inj same), status_readIn,
                if_neg isPosted]

/-- A close that was told of reads back as what it swept. -/
theorem isClose_of_recorded {command : ClosePeriod} {answer : PeriodClosed}
    (precedes : book.Precedes later)
    (grounded : (Acknowledgement.closed command answer).Grounded book)
    (records : later.Records ((Acknowledgement.closed command answer).row env book)
      ((Acknowledgement.closed command answer).legs book)) :
    (((Acknowledgement.closed command answer).row env book).readIn recordedAt later).IsClose later
      command answer := by
  obtain ⟨plan, planned⟩ := grounded
  have legs := (@legs_readIn recordedAt later
    ((Acknowledgement.closed command answer).row env book)).trans records.legs
  rw [Acknowledgement.legs, planned] at legs
  exact ⟨rfl, rfl, rfl, rfl, rfl, plan, closePlan_later precedes planned, legs⟩

end Told

section Machines

variable {sha256 : List UInt8 → List UInt8} {chart : Chart} {machine : Machine}
  {recordedAt : TransactionRow → Timestamp}

/-- A machine's reads give what its callers were told, in one order, and nothing else. -/
structure Machine.ReadsBack (recordedAt : TransactionRow → Timestamp) (machine : Machine) :
    Prop where
  told : ∀ session ∈ machine.sessions, ∀ outcome, session.program = .done outcome →
    ∀ told ∈ session.operation.acknowledgements outcome, ∃ read,
      transaction (transactionAnswer recordedAt machine.committed)
          ⟨told.tenantId, told.transactionId⟩ = .ok read ∧
        told.ReadAs recordedAt machine.committed session.env read
  only : ∀ query read,
    transaction (transactionAnswer recordedAt machine.committed) query = .ok read →
    ∃ session ∈ machine.sessions, ∃ outcome, session.program = .done outcome ∧
      ∃ told ∈ session.operation.acknowledgements outcome, told.tenantId = query.tenantId ∧
        told.transactionId = query.transactionId
  ordered : ∀ query read,
    transaction (transactionAnswer recordedAt machine.committed) query = .ok read →
    read.entries.Pairwise fun left right =>
      toLex (left.accountId, left.accountSeq) < toLex (right.accountId, right.accountSeq)
  refused : ∀ query refusal,
    transaction (transactionAnswer recordedAt machine.committed) query = .error refusal →
    refusal = .transactionUnknown query.transactionId

/-- What a session wrote for those it acknowledged, the book holds. -/
theorem records_of_told (interleaved : Interleaved sha256 chart machine) {session : Session}
    (member : session ∈ machine.sessions) {outcome : Outcome}
    (isDone : session.program = .done outcome) {told : Acknowledgement}
    (isTold : told ∈ session.operation.acknowledgements outcome) :
    ∃ book, told.Grounded book ∧ Landed (fun _ => True) book machine.committed ∧
      machine.committed.Records (told.row session.env book) (told.legs book) := by
  have fresh := fun (operation : Operation) (env : Env) (book : Book) (kept : Kept book) =>
    concludes_told sha256 operation env kept
  have committed := (concluding_of_interleaved fresh interleaved).committed_of_accepts member
    isDone (accepted_of_acknowledged isTold)
  obtain ⟨book, written, answered, isAnswered, acknowledges, kept, lands, landed⟩ :=
    concluded_of_interleaved fresh interleaved member committed
  rw [isDone] at isAnswered
  cases isAnswered
  obtain ⟨grounded, records⟩ := acknowledges.recorded told isTold
  exact ⟨book, grounded, (Landed.refl.bracket kept lands trivial).trans landed,
    (records.apply kept lands).later landed⟩

/-- Whatever the book holds of transactions, some caller was told of. -/
theorem told_of_row (interleaved : Interleaved sha256 chart machine) {row : TransactionRow}
    (member : row ∈ machine.committed.transactions) :
    ∃ session ∈ machine.sessions, ∃ outcome, session.program = .done outcome ∧
      ∃ told ∈ session.operation.acknowledgements outcome, told.Names row := by
  obtain ⟨session, isThere, _, book, written, outcome, isDone, acknowledges, isRow⟩ :=
    wrote_of_interleaved (fun operation env _ kept => concludes_told sha256 operation env kept)
      interleaved member
  exact ⟨session, isThere, outcome, isDone, acknowledges.only row isRow⟩

/-- So each row is what a caller was told of, over the book it was accepted in. -/
theorem row_of_told (interleaved : Interleaved sha256 chart machine) {row : TransactionRow}
    (member : row ∈ machine.committed.transactions) :
    ∃ session ∈ machine.sessions, ∃ outcome, session.program = .done outcome ∧
      ∃ told ∈ session.operation.acknowledgements outcome, ∃ book, told.Grounded book ∧
        Landed (fun _ => True) book machine.committed ∧ told.row session.env book = row ∧
          machine.committed.Records row (told.legs book) := by
  have kept := (sound_of_interleaved interleaved).kept
  obtain ⟨session, isThere, outcome, isDone, told, isTold, names⟩ := told_of_row interleaved member
  obtain ⟨book, grounded, landed, records⟩ := records_of_told interleaved isThere isDone isTold
  have sameRow : told.row session.env book = row := by
    refine UniqueIndex.holds_eq kept.pkTxn records.isThere member
      (k := (row.tenantId, row.id)) ?_ rfl
    rw [TransactionRow.primaryKey, told.tenantId_row, told.id_row, names.1, names.2]
  exact ⟨session, isThere, outcome, isDone, told, isTold, book, grounded, landed, sameRow,
    sameRow ▸ records⟩

/-- A read that answers is of a row. -/
theorem row_of_read {book : Book} (kept : Kept book) {query : TransactionQuery}
    {read : Transaction}
    (isRead : transaction (transactionAnswer recordedAt book) query = .ok read) :
    ∃ row ∈ book.transactions, row.tenantId = query.tenantId ∧ row.id = query.transactionId ∧
      read = row.readIn recordedAt book := by
  rw [transaction_eq kept] at isRead
  cases isRow : book.transaction? query.tenantId query.transactionId with
  | none =>
      rw [isRow] at isRead
      cases isRead
  | some row =>
      rw [isRow] at isRead
      obtain ⟨isThere, tenant, isId⟩ := Kept.mem_of_transaction? isRow
      exact ⟨row, isThere, tenant, isId, (Except.ok.inj isRead).symm⟩

/-- What a caller was told of reads back. -/
theorem read_of_told (interleaved : Interleaved sha256 chart machine) {session : Session}
    (member : session ∈ machine.sessions) {outcome : Outcome}
    (isDone : session.program = .done outcome) {told : Acknowledgement}
    (isTold : told ∈ session.operation.acknowledgements outcome) :
    ∃ read, transaction (transactionAnswer recordedAt machine.committed)
        ⟨told.tenantId, told.transactionId⟩ = .ok read ∧
      told.ReadAs recordedAt machine.committed session.env read := by
  have kept := (sound_of_interleaved interleaved).kept
  obtain ⟨book, grounded, landed, records⟩ := records_of_told interleaved member isDone isTold
  have isRow := kept.transaction?_of_mem records.isThere
  refine ⟨(told.row session.env book).readIn recordedAt machine.committed, ?_, ?_⟩
  · rw [transaction_eq kept]
    rw [told.tenantId_row, told.id_row] at isRow
    dsimp only
    rw [isRow]
  · refine ⟨told.id_row session.env book, told.eventId_row session.env book, ?_, ?_⟩
    · rintro command eventId id rfl
      exact isPost_of_recorded kept landed grounded records
    · rintro command answer rfl
      exact isClose_of_recorded landed.precedes grounded records

/-- Every read is in the order of its accounts and their numbers. -/
theorem ordered_of_read (interleaved : Interleaved sha256 chart machine)
    {query : TransactionQuery} {read : Transaction}
    (isRead : transaction (transactionAnswer recordedAt machine.committed) query = .ok read) :
    read.entries.Pairwise fun left right =>
      toLex (left.accountId, left.accountSeq) < toLex (right.accountId, right.accountSeq) := by
  have kept := (sound_of_interleaved interleaved).kept
  obtain ⟨row, isThere, _, _, rfl⟩ := row_of_read kept isRead
  obtain ⟨_, _, _, _, _, _, _, _, _, _, records⟩ := row_of_told interleaved isThere
  exact ordered_readIn kept records.oneCounter

/-- In every interleaving, reading a transaction a caller was told of gives what was
asked for, now and after any further steps, and nothing is read that nobody was told
of. -/
theorem acknowledged_reads_back (recordedAt : TransactionRow → Timestamp)
    (interleaved : Interleaved sha256 chart machine) :
    machine.ReadsBack recordedAt ∧
      ∀ actions later, machine.steps sha256 actions = some later → ∀ query read,
        transaction (transactionAnswer recordedAt machine.committed) query = .ok read →
        transaction (transactionAnswer recordedAt later.committed) query = .ok read := by
  have kept := (sound_of_interleaved interleaved).kept
  constructor
  · refine ⟨fun session member outcome isDone told isTold =>
      read_of_told interleaved member isDone isTold, fun query read isRead => ?_,
      fun query read isRead => ordered_of_read interleaved isRead,
      fun query refusal isRefused => ?_⟩
    · obtain ⟨row, isThere, tenant, isId, _⟩ := row_of_read kept isRead
      obtain ⟨session, member, outcome, isDone, told, isTold, names⟩ :=
        told_of_row interleaved isThere
      exact ⟨session, member, outcome, isDone, told, isTold, names.1.trans tenant,
        names.2.trans isId⟩
    · rw [transaction_eq kept] at isRefused
      split at isRefused
      · exact (Except.error.inj isRefused).symm
      · cases isRefused
  · intro actions later ran query read isRead
    obtain ⟨row, isThere, tenant, isId, rfl⟩ := row_of_read kept isRead
    have landed := landed_of_steps interleaved ran
    have keptLater := (sound_of_interleaved (interleaved.steps ran)).kept
    have isRow := keptLater.transaction?_of_mem (landed.precedes.transactions.subset isThere)
    rw [tenant, isId] at isRow
    rw [transaction_eq keptLater, isRow, ← readIn_landed landed isThere]

end Machines

namespace Shop

/-- A fee posted by writer 5, and reversed by writer 6 while writer 7 posts another. -/
def feeReversed : List Action :=
  ready ++ session 4 5 (.post (command "fee" 1000 .posted none 70)) 3 ++
    [.start (.post (reversal "undo" (uuid 5100))) (envOf 6), .assign 5] ++ statements 5 1 ++
    session 6 7 (.post (command "other" 2000 .posted none 30)) 3 ++ statements 5 2

/-- The reversal reads back on the fee's date, with the fee's legs the other way round. -/
theorem feeReversed_reads_back :
    (machineAfter feeReversed).ReadsBack (fun _ => 0) ∧
      ((transaction (transactionAnswer (fun _ => 0) (machineAfter feeReversed).committed)
        ⟨"shop", uuid 6100⟩).toOption.map fun read =>
          (read.effectiveAt, read.reversesId, read.legs)) =
        some (⟨1000, 0⟩, some (uuid 5100),
          [⟨till, "USD", .credit, 70⟩, ⟨fees, "USD", .debit, 70⟩]) :=
  ⟨(acknowledged_reads_back (fun _ => 0) (interleaved_machineAfter feeReversed)).1,
    by decide +kernel⟩

end Shop

end OpenLedger
