import Mathlib.Data.Prod.Lex
import Mathlib.Data.String.Basic
import OpenLedger.Accounts
import OpenLedger.Periods
import OpenLedger.Postings

/-!
# The schema

The rows of the ledger's tables, and the book they make up.  A table is the
list of its rows in insertion order.  A lookup by a primary key reads the first
row that matches it, which is the only one.
-/

namespace OpenLedger

/-- A database transaction id, the commit-ordering key of a row. -/
abbrev Xid := Nat

/-- `account_types`: what the chart says an account type is. -/
structure AccountType where
  code : String
  category : Category
  normalBalance : NormalBalance
  counterpartyScope : CounterpartyScope
deriving DecidableEq, Repr

/-- The chart of accounts, one row a code. -/
structure Chart where
  types : List AccountType
  codesNodup : (types.map AccountType.code).Nodup

def Chart.type? (chart : Chart) (code : String) : Option AccountType :=
  chart.types.find? fun type => decide (type.code = code)

/-- `ledger_events`: the idempotency spine. -/
structure EventRow where
  tenantId : String
  id : Uuid
  kind : String
  source : String
  idempotencyKey : String
  idempotencyHash : List UInt8
  payload : Json
  effectiveAt : Timestamp
  xactId : Xid

/-- `ledger_transactions`. -/
structure TransactionRow where
  tenantId : String
  id : Uuid
  eventId : Uuid
  kind : String
  status : TransactionStatus
  effectiveAt : Timestamp
  resolvesId : Option Uuid
  reversesId : Option Uuid
  xactId : Xid
deriving DecidableEq, Repr

namespace TransactionRow

/-- The transaction this one resolves or reverses, if any. -/
def supersedes (transaction : TransactionRow) : Option Uuid :=
  transaction.resolvesId.or transaction.reversesId

/-- Whether this one names `id` by either pointer. -/
def names (transaction : TransactionRow) (id : Uuid) : Bool :=
  decide (transaction.resolvesId = some id) || decide (transaction.reversesId = some id)

end TransactionRow

/-- `ledger_accounts`. -/
structure AccountRow where
  tenantId : String
  id : Uuid
  ownerType : AccountOwnerType
  ownerId : Option String
  purpose : String
  category : Category
  normalBalance : NormalBalance
  counterpartyScope : CounterpartyScope
  currency : String
  stripeCount : Nat
  metadata : Json
  createdAt : Timestamp

/-- The NULL-free copy of the owner id. -/
def AccountRow.ownerIdKey (account : AccountRow) : String := account.ownerId.getD ""

/-- Which counter an entry is numbered by: `pk_balances`. -/
structure StripeKey where
  tenantId : String
  accountId : Uuid
  currency : String
  stripe : Nat
deriving DecidableEq, Repr

/-- The order the balance rows are locked in. -/
def StripeKey.rank (key : StripeKey) : String ×ₗ Uuid ×ₗ String ×ₗ Nat :=
  toLex (key.tenantId, toLex (key.accountId, toLex (key.currency, key.stripe)))

/-- `ledger_account_balances`: `input` the posted debits, `output` the posted
credits, `lastSeq` the number of all entries. -/
structure BalanceRow extends StripeKey where
  input : Int
  output : Int
  lastSeq : Int
deriving DecidableEq, Repr

/-- `ledger_entries`. -/
structure EntryRow where
  tenantId : String
  id : Uuid
  transactionId : Uuid
  accountId : Uuid
  direction : Direction
  amountMinor : Int
  currency : String
  stripe : Nat
  accountSeq : Int
  effectiveAt : Timestamp
  xactId : Xid
deriving DecidableEq, Repr

namespace EntryRow

/-- The counter that issued the entry's number. -/
def stripeKey (entry : EntryRow) : StripeKey :=
  ⟨entry.tenantId, entry.accountId, entry.currency, entry.stripe⟩

/-- Debit-positive: `direction` carries the sign. -/
def signed (entry : EntryRow) : Int :=
  match entry.direction with
  | .debit => entry.amountMinor
  | .credit => -entry.amountMinor

/-- An entry as the leg it was. -/
def leg (e : EntryRow) : Leg := ⟨e.accountId, e.currency, e.direction, e.amountMinor⟩

/-- Whether an entry is one of a transaction's. -/
def isOf (e : EntryRow) (tenantId : String) (id : Uuid) : Bool :=
  decide (e.tenantId = tenantId) && decide (e.transactionId = id)

theorem isOf_iff {e : EntryRow} {tenantId : String} {id : Uuid} :
    e.isOf tenantId id = true ↔ e.tenantId = tenantId ∧ e.transactionId = id := by
  rw [isOf, Bool.and_eq_true, decide_eq_true_eq, decide_eq_true_eq]

end EntryRow

/-- Debit-positive: an entry's signed amount is its leg's. -/
def legSigned (leg : Leg) : Int :=
  match leg.direction with
  | .debit => leg.amountMinor
  | .credit => -leg.amountMinor

/-- `ledger_periods`. -/
structure PeriodRow where
  tenantId : String
  code : String
  startsAt : Timestamp
  endsAt : Timestamp
  tz : String
deriving DecidableEq, Repr

/-- `tstzrange(starts_at, ends_at, '[)') &&` of one tenant's periods. -/
def PeriodRow.Overlaps (left right : PeriodRow) : Prop :=
  left.tenantId = right.tenantId ∧
    left.startsAt < right.endsAt ∧ right.startsAt < left.endsAt

instance (left right : PeriodRow) : Decidable (left.Overlaps right) :=
  inferInstanceAs (Decidable (_ ∧ _))

/-- `ledger_period_closes`. -/
structure CloseRow where
  tenantId : String
  periodCode : String
  currency : String
  startsAt : Timestamp
  endsAt : Timestamp
  transactionId : Uuid
  txnEffectiveAt : Timestamp
  computedAtXid : Xid
deriving DecidableEq, Repr

/-- `ledger_period_balances`: the checkpoint a close stores. -/
structure PeriodBalanceRow where
  tenantId : String
  periodCode : String
  currency : String
  accountId : Uuid
  input : Int
  output : Int
deriving DecidableEq, Repr

/-- The committed content of every table the writer reads or writes. -/
structure Book where
  chart : Chart
  events : List EventRow
  transactions : List TransactionRow
  accounts : List AccountRow
  balances : List BalanceRow
  entries : List EntryRow
  periods : List PeriodRow
  closes : List CloseRow
  periodBalances : List PeriodBalanceRow

namespace Book

/-- A freshly migrated database under a chart. -/
def empty (chart : Chart) : Book :=
  { chart, events := [], transactions := [], accounts := [], balances := [],
    entries := [], periods := [], closes := [], periodBalances := [] }

/-- The event holding an idempotency key: `uq_events__idempotency`. -/
def holderOf (book : Book) (tenantId idempotencyKey : String) : Option EventRow :=
  book.events.find? fun event =>
    decide (event.tenantId = tenantId) && decide (event.idempotencyKey = idempotencyKey)

def transaction? (book : Book) (tenantId : String) (id : Uuid) : Option TransactionRow :=
  book.transactions.find? fun transaction =>
    decide (transaction.tenantId = tenantId) && decide (transaction.id = id)

/-- The transaction an event caused: `uq_txn__one_per_event`. -/
def causedBy (book : Book) (tenantId : String) (eventId : Uuid) : Option TransactionRow :=
  book.transactions.find? fun transaction =>
    decide (transaction.tenantId = tenantId) && decide (transaction.eventId = eventId)

/-- The account, if it exists and holds this currency. -/
def account? (book : Book) (tenantId : String) (id : Uuid) (currency : String) :
    Option AccountRow :=
  book.accounts.find? fun account =>
    decide (account.tenantId = tenantId) && decide (account.id = id) &&
      decide (account.currency = currency)

def balance? (book : Book) (key : StripeKey) : Option BalanceRow :=
  book.balances.find? fun row => decide (row.toStripeKey = key)

def period? (book : Book) (tenantId code : String) : Option PeriodRow :=
  book.periods.find? fun period =>
    decide (period.tenantId = tenantId) && decide (period.code = code)

/-- The status of the transaction an entry belongs to. -/
def statusOf (book : Book) (entry : EntryRow) : Option TransactionStatus :=
  (book.transaction? entry.tenantId entry.transactionId).map TransactionRow.status

/-- The join `x.status = 'posted'` every posted aggregate takes. -/
def isPosted (book : Book) (entry : EntryRow) : Bool :=
  decide (book.statusOf entry = some .posted)

/-- The numbers and sums a balance row holds, zero where there is no row. -/
def inputOn (book : Book) (key : StripeKey) : Int :=
  ((book.balance? key).map BalanceRow.input).getD 0

def outputOn (book : Book) (key : StripeKey) : Int :=
  ((book.balance? key).map BalanceRow.output).getD 0

def lastSeqOn (book : Book) (key : StripeKey) : Int :=
  ((book.balance? key).map BalanceRow.lastSeq).getD 0

/-- The entries one counter numbered, in insertion order. -/
def entriesOn (book : Book) (key : StripeKey) : List EntryRow :=
  book.entries.filter fun entry => decide (entry.stripeKey = key)

/-- The posted amounts of one side on one counter. -/
def postedOn (book : Book) (direction : Direction) (key : StripeKey) : Int :=
  Tally.sumWhere (fun entry =>
    decide (entry.stripeKey = key) && decide (entry.direction = direction) &&
      book.isPosted entry) EntryRow.amountMinor book.entries

end Book

end OpenLedger
