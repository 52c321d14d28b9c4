import Mathlib.Data.Int.ConditionallyCompleteOrder
import OpenLedger.Lib.Join
import OpenLedger.Postgres.Append
import OpenLedger.Reports.Service

/-!
# A transaction read back

The read that pins no cursor: one transaction with its entries.  When the server's clock
stood at a transaction's insert is a parameter.
-/

namespace OpenLedger

open Postgres

structure TransactionQuery where
  tenantId : String
  transactionId : Uuid

/-- One leg of a transaction read back. -/
structure TransactionEntry where
  accountId : Uuid
  direction : Direction
  amountMinor : Int
  currency : String
  accountSeq : Int
deriving DecidableEq, Repr

/-- A transaction read back, with its entries. -/
structure Transaction where
  transactionId : Uuid
  kind : String
  status : TransactionStatus
  effectiveAt : OffsetDateTime
  recordedAt : OffsetDateTime
  resolvesId : Option Uuid
  reversesId : Option Uuid
  eventId : Uuid
  entries : List TransactionEntry
deriving DecidableEq, Repr

/-- One row of `TRANSACTION`'s answer, its entry half NULL where the join found none. -/
structure TransactionSqlRow where
  transactionId : Uuid
  kind : String
  status : TransactionStatus
  effectiveAt : OffsetDateTime
  recordedAt : OffsetDateTime
  resolvesId : Option Uuid
  reversesId : Option Uuid
  eventId : Uuid
  accountId : Option Uuid
  direction : Option Direction
  amountMinor : Option Int
  currency : Option String
  accountSeq : Option Int

/-- `ORDER BY e.account_id, e.account_seq`, where a NULL comes last. -/
def TransactionSqlRow.rank (row : TransactionSqlRow) : WithTop Uuid ×ₗ WithTop Int :=
  toLex (row.accountId.elim ⊤ (↑), row.accountSeq.elim ⊤ (↑))

def transactionSqlRow (recordedAt : TransactionRow → Timestamp) (x : TransactionRow)
    (e : Option EntryRow) : TransactionSqlRow where
  transactionId := x.id
  kind := x.kind
  status := x.status
  effectiveAt := .ofStored x.effectiveAt
  recordedAt := .ofStored (recordedAt x)
  resolvesId := x.resolvesId
  reversesId := x.reversesId
  eventId := x.eventId
  accountId := e.map EntryRow.accountId
  direction := e.map EntryRow.direction
  amountMinor := e.map EntryRow.amountMinor
  currency := e.map EntryRow.currency
  accountSeq := e.map EntryRow.accountSeq

/-- `TRANSACTION`. -/
def transactionRows (recordedAt : TransactionRow → Timestamp) (book : Book)
    (query : TransactionQuery) : List TransactionSqlRow :=
  ((book.transactions.filter fun x =>
      decide (x.tenantId = query.tenantId) && decide (x.id = query.transactionId)).flatMap
    fun x => (Join.leftJoin (fun (x : TransactionRow) (e : EntryRow) =>
      e.isOf x.tenantId x.id) book.entries x).map (transactionSqlRow recordedAt x)).insertionSort
        fun left right => left.rank ≤ right.rank

/-- The entry half of a row, where all of it is there. -/
def transactionEntryFrom (row : TransactionSqlRow) : Option TransactionEntry := do
  let accountId ← row.accountId
  let direction ← row.direction
  let amountMinor ← row.amountMinor
  let currency ← row.currency
  let accountSeq ← row.accountSeq
  return { accountId, direction, amountMinor, currency, accountSeq }

/-- The one transaction the rows describe: the first carries its columns, and the
entries are the rows that have one. -/
def transactionFrom (rows : List TransactionSqlRow) : Option Transaction :=
  rows.head?.map fun first =>
    { transactionId := first.transactionId
      kind := first.kind
      status := first.status
      effectiveAt := first.effectiveAt
      recordedAt := first.recordedAt
      resolvesId := first.resolvesId
      reversesId := first.reversesId
      eventId := first.eventId
      entries := rows.filterMap transactionEntryFrom }

/-- `PgReportStore::transaction`. -/
def transactionAnswer (recordedAt : TransactionRow → Timestamp) (book : Book)
    (query : TransactionQuery) : Except ReportRefusal (Scoped (Option Transaction)) :=
  .ok ⟨query.tenantId, transactionFrom (transactionRows recordedAt book query)⟩

/-- What reading a transaction can answer instead of it: what any read can, and that
there is none. -/
inductive TransactionReadError where
  | read (error : ReadError)
  | transactionUnknown (transactionId : Uuid)
deriving DecidableEq, Repr

/-- One transaction and its entries. -/
def transaction
    (store : TransactionQuery → Except ReportRefusal (Scoped (Option Transaction)))
    (query : TransactionQuery) : Except TransactionReadError Transaction := do
  let inScope ← (store query).mapError fun refusal => .read (refused refusal)
  match ← (answeredForTheTenantThatAsked query.tenantId inScope).mapError .read with
  | some found => return found
  | none => .error (.transactionUnknown query.transactionId)

/-! ## What the rows of a book are read as -/

/-- An entry as its transaction's read hands it on. -/
def EntryRow.read (e : EntryRow) : TransactionEntry :=
  ⟨e.accountId, e.direction, e.amountMinor, e.currency, e.accountSeq⟩

/-- The order a transaction's entries are read in. -/
def EntryRow.accountRank (e : EntryRow) : Uuid ×ₗ Int := toLex (e.accountId, e.accountSeq)

/-- A leg of a transaction read back. -/
def TransactionEntry.leg (e : TransactionEntry) : Leg :=
  ⟨e.accountId, e.currency, e.direction, e.amountMinor⟩

def Transaction.legs (read : Transaction) : List Leg := read.entries.map TransactionEntry.leg

/-- A transaction's row and its entries, read. -/
def TransactionRow.readIn (recordedAt : TransactionRow → Timestamp) (book : Book)
    (x : TransactionRow) : Transaction where
  transactionId := x.id
  kind := x.kind
  status := x.status
  effectiveAt := .ofStored x.effectiveAt
  recordedAt := .ofStored (recordedAt x)
  resolvesId := x.resolvesId
  reversesId := x.reversesId
  eventId := x.eventId
  entries := ((entriesOf book x.tenantId x.id).insertionSort fun left right =>
    left.accountRank ≤ right.accountRank).map EntryRow.read

section Reads

variable {recordedAt : TransactionRow → Timestamp} {book : Book}

theorem rank_le_iff (x : TransactionRow) (left right : EntryRow) :
    (transactionSqlRow recordedAt x (some left)).rank ≤
        (transactionSqlRow recordedAt x (some right)).rank ↔
      left.accountRank ≤ right.accountRank := by
  simp only [TransactionSqlRow.rank, transactionSqlRow, Option.map_some, Option.elim_some,
    EntryRow.accountRank, Prod.Lex.toLex_le_toLex, WithTop.coe_lt_coe, WithTop.coe_inj,
    WithTop.coe_le_coe]

/-- The one row of a transaction, or none. -/
theorem Kept.transactions_filter (kept : Kept book) (tenantId : String) (id : Uuid) :
    (book.transactions.filter fun x => decide (x.tenantId = tenantId) && decide (x.id = id)) =
      (book.transaction? tenantId id).toList := by
  cases found : book.transaction? tenantId id with
  | none =>
      rw [Book.transaction?, List.find?_eq_none] at found
      rw [Option.toList_none, List.filter_eq_nil_iff]
      exact found
  | some x =>
      obtain ⟨member, tenant, isId⟩ := Kept.mem_of_transaction? found
      rw [Option.toList_some]
      refine UniqueIndex.filter_of_mem kept.pkTxn member rfl fun other => ?_
      simp [TransactionRow.primaryKey, tenant, isId]

/-- The rows of a transaction's join, in the order of its entries. -/
theorem transactionFrom_join (x : TransactionRow) :
    transactionFrom (((Join.leftJoin (fun (x : TransactionRow) (e : EntryRow) =>
      e.isOf x.tenantId x.id) book.entries x).map (transactionSqlRow recordedAt x)).insertionSort
        fun left right => left.rank ≤ right.rank) = some (x.readIn recordedAt book) := by
  have isMine : book.entries.filter (fun e => e.isOf x.tenantId x.id) =
      entriesOf book x.tenantId x.id := rfl
  cases mine : entriesOf book x.tenantId x.id with
  | nil =>
      rw [Join.leftJoin_eq_none (isMine.trans mine), TransactionRow.readIn, mine]
      rfl
  | cons first rest =>
      have someMine : book.entries.filter (fun e => e.isOf x.tenantId x.id) ≠ [] := by
        rw [isMine, mine]
        exact List.cons_ne_nil first rest
      have inOrder := List.map_insertionSort
        (fun left right : EntryRow => left.accountRank ≤ right.accountRank)
        (fun left right : TransactionSqlRow => left.rank ≤ right.rank)
        (transactionSqlRow recordedAt x ∘ some) (entriesOf book x.tenantId x.id)
        fun left _ right _ => (@rank_le_iff recordedAt x left right).symm
      rw [Join.leftJoin_of_ne_nil someMine, isMine, List.map_map, ← inOrder]
      have sorted : (entriesOf book x.tenantId x.id).insertionSort (fun left right =>
          left.accountRank ≤ right.accountRank) ≠ [] := by
        rw [← List.length_pos_iff, List.length_insertionSort, mine]
        exact Nat.succ_pos _
      rw [TransactionRow.readIn]
      cases isSorted : (entriesOf book x.tenantId x.id).insertionSort fun left right =>
          left.accountRank ≤ right.accountRank with
      | nil =>
          exact absurd isSorted sorted
      | cons head tail =>
          rw [transactionFrom, List.filterMap_map]
          have each : transactionEntryFrom ∘ (transactionSqlRow recordedAt x ∘ some) =
              fun e => some e.read := rfl
          rw [each, List.filterMap_eq_map']
          rfl

/-- Reading a transaction finds its row and its entries. -/
theorem transaction_eq (kept : Kept book) (query : TransactionQuery) :
    transaction (transactionAnswer recordedAt book) query =
      match book.transaction? query.tenantId query.transactionId with
      | none => .error (.transactionUnknown query.transactionId)
      | some x => .ok (x.readIn recordedAt book) := by
  have rows : transactionFrom (transactionRows recordedAt book query) =
      (book.transaction? query.tenantId query.transactionId).map
        fun x => x.readIn recordedAt book := by
    rw [transactionRows, kept.transactions_filter]
    cases found : book.transaction? query.tenantId query.transactionId with
    | none =>
        rfl
    | some x =>
        rw [Option.toList_some, List.flatMap_singleton, Option.map_some]
        exact transactionFrom_join x
  rw [transaction, transactionAnswer, rows]
  cases book.transaction? query.tenantId query.transactionId with
  | none =>
      simp [Except.mapError, bind, Except.bind]
  | some x =>
      simp [Except.mapError, bind, Except.bind, pure, Except.pure]

end Reads

end OpenLedger
