import OpenLedger.Schema
import OpenLedger.Lib.UniqueIndex

/-!
# What a statement writes

The rows one statement inserts and the balance rows it upserts, and the
constraints PostgreSQL checks before it lets them stand.
-/

namespace OpenLedger

/-- One `INSERT … ON CONFLICT DO UPDATE` of a balance row: what is added to
the row under the key, or what a new row starts from. -/
structure UpsertRow extends StripeKey where
  input : Int
  output : Int
  legs : Nat
deriving DecidableEq, Repr

/-- Everything one statement, or one bracket, writes. -/
structure Writes where
  events : List EventRow := []
  transactions : List TransactionRow := []
  accounts : List AccountRow := []
  upserts : List UpsertRow := []
  entries : List EntryRow := []
  periods : List PeriodRow := []
  closes : List CloseRow := []
  periodBalances : List PeriodBalanceRow := []

namespace Writes

def none : Writes := {}

/-- The writes of two statements of one bracket, in order. -/
def append (first second : Writes) : Writes where
  events := first.events ++ second.events
  transactions := first.transactions ++ second.transactions
  accounts := first.accounts ++ second.accounts
  upserts := first.upserts ++ second.upserts
  entries := first.entries ++ second.entries
  periods := first.periods ++ second.periods
  closes := first.closes ++ second.closes
  periodBalances := first.periodBalances ++ second.periodBalances

end Writes

/-- One upsert against the balance table. -/
def upsertBalance (rows : List BalanceRow) (upsert : UpsertRow) : List BalanceRow :=
  if rows.any fun row => decide (row.toStripeKey = upsert.toStripeKey) then
    rows.map fun row =>
      if row.toStripeKey = upsert.toStripeKey then
        { row with
          input := row.input + upsert.input
          output := row.output + upsert.output
          lastSeq := row.lastSeq + upsert.legs }
      else row
  else
    rows ++ [⟨upsert.toStripeKey, upsert.input, upsert.output, upsert.legs⟩]

/-- The book with a statement's writes in it. -/
def Book.apply (book : Book) (writes : Writes) : Book where
  chart := book.chart
  events := book.events ++ writes.events
  transactions := book.transactions ++ writes.transactions
  accounts := book.accounts ++ writes.accounts
  balances := writes.upserts.foldl upsertBalance book.balances
  entries := book.entries ++ writes.entries
  periods := book.periods ++ writes.periods
  closes := book.closes ++ writes.closes
  periodBalances := book.periodBalances ++ writes.periodBalances

/-- The constraints and indexes an insert of the writer's can meet. -/
inductive Constraint where
  | pkEvents
  | pkTxn
  | uqTxnOnePerEvent
  | uqTxnOneSupersession
  | ckTxnNoSelfReference
  | pkAccounts
  | uqAccountsOwned
  | uqAccountsHouse
  | pkEntries
  | pkPeriods
  | ckPeriodsNonEmpty
  | exPeriodsNoOverlap
  | pkCloses
  | uqClosesTxn
  | ckClosesTxnInPeriod
  | pkPeriodBalances
deriving DecidableEq, Repr

/-- An error PostgreSQL raises: a constraint by its catalog name, or one of the
SQLSTATEs that carry none. -/
inductive DbError where
  | constraint (name : Constraint)
  /-- `22023`, from `timezone()`. -/
  | invalidParameterValue
  /-- `22003`. -/
  | numericValueOutOfRange
  /-- `23502`, a NULL in a column that refuses one. -/
  | notNullViolation
  /-- `21000`, one statement upserting a row twice. -/
  | cardinalityViolation
deriving DecidableEq, Repr

/-- A value a `bigint` column or cast can hold. -/
def isBigint (value : Int) : Bool := i64Min ≤ value && value ≤ i64Max

/-- The casts to `bigint` a statement makes of these values. -/
def ensureBigints (values : List Int) : Except DbError Unit :=
  if values.all isBigint then .ok () else .error .numericValueOutOfRange

namespace TransactionRow

def primaryKey (row : TransactionRow) : Option (String × Uuid) := some (row.tenantId, row.id)

def eventKey (row : TransactionRow) : Option (String × Uuid) :=
  some (row.tenantId, row.eventId)

/-- `uq_txn__one_supersession` is partial: only superseding rows are in it. -/
def supersessionKey (row : TransactionRow) : Option (String × Uuid) :=
  row.supersedes.map fun target => (row.tenantId, target)

end TransactionRow

def EventRow.primaryKey (row : EventRow) : Option (String × Uuid) := some (row.tenantId, row.id)

def EventRow.claimKey (row : EventRow) : Option (String × String) :=
  some (row.tenantId, row.idempotencyKey)

namespace AccountRow

def primaryKey (row : AccountRow) : Option (String × Uuid) := some (row.tenantId, row.id)

def ownedKey (row : AccountRow) :
    Option (String × AccountOwnerType × Option String × String × String) :=
  if row.ownerType = .house then none
  else some (row.tenantId, row.ownerType, row.ownerId, row.purpose, row.currency)

def houseKey (row : AccountRow) : Option (String × String × String) :=
  if row.ownerType = .house then some (row.tenantId, row.purpose, row.currency) else none

end AccountRow

def EntryRow.primaryKey (row : EntryRow) : Option (String × Uuid) := some (row.tenantId, row.id)

def PeriodRow.primaryKey (row : PeriodRow) : Option (String × String) :=
  some (row.tenantId, row.code)

namespace CloseRow

def primaryKey (row : CloseRow) : Option (String × String × String) :=
  some (row.tenantId, row.periodCode, row.currency)

def transactionKey (row : CloseRow) : Option (String × Uuid) :=
  some (row.tenantId, row.transactionId)

end CloseRow

def PeriodBalanceRow.primaryKey (row : PeriodBalanceRow) :
    Option (String × String × String × Uuid) :=
  some (row.tenantId, row.periodCode, row.currency, row.accountId)

/-- What every constraint says of writes against the rows already there.  The
foreign keys and the sign checks are not here: the statements' own joins make
them hold. -/
structure Admits (tzKnown : String → Bool) (book : Book) (writes : Writes) : Prop where
  pkEvents : UniqueIndex.Admits EventRow.primaryKey book.events writes.events
  pkTxn : UniqueIndex.Admits TransactionRow.primaryKey book.transactions writes.transactions
  uqTxnOnePerEvent :
    UniqueIndex.Admits TransactionRow.eventKey book.transactions writes.transactions
  uqTxnOneSupersession :
    UniqueIndex.Admits TransactionRow.supersessionKey book.transactions writes.transactions
  ckTxnNoSelfReference : ∀ row ∈ writes.transactions, row.names row.id = false
  pkAccounts : UniqueIndex.Admits AccountRow.primaryKey book.accounts writes.accounts
  uqAccountsOwned : UniqueIndex.Admits AccountRow.ownedKey book.accounts writes.accounts
  uqAccountsHouse : UniqueIndex.Admits AccountRow.houseKey book.accounts writes.accounts
  pkEntries : UniqueIndex.Admits EntryRow.primaryKey book.entries writes.entries
  ckPeriodsNonEmpty : ∀ row ∈ writes.periods, row.startsAt < row.endsAt
  ckPeriodsTzKnown : ∀ row ∈ writes.periods, tzKnown row.tz = true
  pkPeriods : UniqueIndex.Admits PeriodRow.primaryKey book.periods writes.periods
  exPeriodsNoOverlap : ∀ row ∈ writes.periods, ∀ held ∈ book.periods, ¬ row.Overlaps held
  ckClosesTxnInPeriod : ∀ row ∈ writes.closes,
    row.startsAt ≤ row.txnEffectiveAt ∧ row.txnEffectiveAt < row.endsAt
  pkCloses : UniqueIndex.Admits CloseRow.primaryKey book.closes writes.closes
  uqClosesTxn : UniqueIndex.Admits CloseRow.transactionKey book.closes writes.closes
  pkPeriodBalances :
    UniqueIndex.Admits PeriodBalanceRow.primaryKey book.periodBalances writes.periodBalances
  upsertsOnce : (writes.upserts.map UpsertRow.toStripeKey).Nodup
  upsertsFit : ∀ row ∈ writes.upserts,
    isBigint (book.inputOn row.toStripeKey + row.input) = true ∧
      isBigint (book.outputOn row.toStripeKey + row.output) = true ∧
      isBigint (book.lastSeqOn row.toStripeKey + row.legs) = true
  periodBalancesFit : ∀ row ∈ writes.periodBalances,
    isBigint row.input = true ∧ isBigint row.output = true

/-- The constraints in the order they speak, each with the error it raises.
Row checks come before the indexes, and `pk_periods` before the exclusion. -/
def constraintChecks (tzKnown : String → Bool) (book : Book) (writes : Writes) :
    List (Bool × DbError) := [
  (decide (∀ row ∈ writes.periods, row.startsAt < row.endsAt),
    .constraint .ckPeriodsNonEmpty),
  (decide (∀ row ∈ writes.periods, tzKnown row.tz = true), .invalidParameterValue),
  (decide (∀ row ∈ writes.closes,
      row.startsAt ≤ row.txnEffectiveAt ∧ row.txnEffectiveAt < row.endsAt),
    .constraint .ckClosesTxnInPeriod),
  (decide (∀ row ∈ writes.transactions, row.names row.id = false),
    .constraint .ckTxnNoSelfReference),
  (decide (UniqueIndex.Admits EventRow.primaryKey book.events writes.events),
    .constraint .pkEvents),
  (decide (UniqueIndex.Admits TransactionRow.primaryKey book.transactions
      writes.transactions), .constraint .pkTxn),
  (decide (UniqueIndex.Admits TransactionRow.eventKey book.transactions
      writes.transactions), .constraint .uqTxnOnePerEvent),
  (decide (UniqueIndex.Admits TransactionRow.supersessionKey book.transactions
      writes.transactions), .constraint .uqTxnOneSupersession),
  (decide (UniqueIndex.Admits AccountRow.primaryKey book.accounts writes.accounts),
    .constraint .pkAccounts),
  (decide (UniqueIndex.Admits AccountRow.ownedKey book.accounts writes.accounts),
    .constraint .uqAccountsOwned),
  (decide (UniqueIndex.Admits AccountRow.houseKey book.accounts writes.accounts),
    .constraint .uqAccountsHouse),
  (decide (UniqueIndex.Admits PeriodRow.primaryKey book.periods writes.periods),
    .constraint .pkPeriods),
  (decide (∀ row ∈ writes.periods, ∀ held ∈ book.periods, ¬ row.Overlaps held),
    .constraint .exPeriodsNoOverlap),
  (decide (writes.upserts.map UpsertRow.toStripeKey).Nodup, .cardinalityViolation),
  (decide (∀ row ∈ writes.upserts,
      isBigint (book.inputOn row.toStripeKey + row.input) = true ∧
        isBigint (book.outputOn row.toStripeKey + row.output) = true ∧
        isBigint (book.lastSeqOn row.toStripeKey + row.legs) = true),
    .numericValueOutOfRange),
  (decide (UniqueIndex.Admits EntryRow.primaryKey book.entries writes.entries),
    .constraint .pkEntries),
  (decide (UniqueIndex.Admits CloseRow.primaryKey book.closes writes.closes),
    .constraint .pkCloses),
  (decide (UniqueIndex.Admits CloseRow.transactionKey book.closes writes.closes),
    .constraint .uqClosesTxn),
  (decide (∀ row ∈ writes.periodBalances,
      isBigint row.input = true ∧ isBigint row.output = true), .numericValueOutOfRange),
  (decide (UniqueIndex.Admits PeriodBalanceRow.primaryKey book.periodBalances
      writes.periodBalances), .constraint .pkPeriodBalances)]

/-- The first constraint the writes meet, if any. -/
def violation (tzKnown : String → Bool) (book : Book) (writes : Writes) : Option DbError :=
  ((constraintChecks tzKnown book writes).find? fun check => !check.1).map Prod.snd

/-- The constraint a statement met is one its rows failed. -/
theorem failed_of_violation {tzKnown : String → Bool} {book : Book} {writes : Writes}
    {error : DbError} (violated : violation tzKnown book writes = some error) :
    (false, error) ∈ constraintChecks tzKnown book writes := by
  obtain ⟨⟨passed, named⟩, found, isError⟩ := Option.map_eq_some_iff.mp violated
  have member := List.mem_of_find?_eq_some found
  have failed := List.find?_some found
  rw [Bool.not_eq_true'] at failed
  subst failed
  subst isError
  exact member

/-- Writes that meet no constraint are admitted, and the other way round. -/
theorem violation_eq_none_iff (tzKnown : String → Bool) (book : Book) (writes : Writes) :
    violation tzKnown book writes = none ↔ Admits tzKnown book writes := by
  have unfolded : violation tzKnown book writes = none ↔
      ∀ check ∈ constraintChecks tzKnown book writes, check.1 = true := by
    simp [violation]
  rw [unfolded]
  simp only [constraintChecks, List.forall_mem_cons, List.not_mem_nil, false_implies,
    implies_true, and_true, decide_eq_true_eq]
  constructor
  · rintro ⟨nonEmpty, zone, inPeriod, noSelf, events, txn, event, supersession, accounts,
      owned, house, periods, overlap, once, fit, entries, closes, closesTxn, rowsFit, rows⟩
    exact ⟨events, txn, event, supersession, noSelf, accounts, owned, house, entries,
      nonEmpty, zone, periods, overlap, inPeriod, closes, closesTxn, rows, once, fit,
      rowsFit⟩
  · intro admits
    exact ⟨admits.ckPeriodsNonEmpty, admits.ckPeriodsTzKnown, admits.ckClosesTxnInPeriod,
      admits.ckTxnNoSelfReference, admits.pkEvents, admits.pkTxn, admits.uqTxnOnePerEvent,
      admits.uqTxnOneSupersession, admits.pkAccounts, admits.uqAccountsOwned,
      admits.uqAccountsHouse, admits.pkPeriods, admits.exPeriodsNoOverlap,
      admits.upsertsOnce, admits.upsertsFit, admits.pkEntries, admits.pkCloses,
      admits.uqClosesTxn, admits.periodBalancesFit, admits.pkPeriodBalances⟩

end OpenLedger
