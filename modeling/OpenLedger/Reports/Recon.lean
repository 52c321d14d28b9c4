import OpenLedger.Kept
import OpenLedger.Postgres.Close

/-!
# The reconciliation views

Each view lists what contradicts itself in a book: the balance cache against
the journal, a transaction against double entry, the holds nothing has retired,
and the period closes against each other.
-/

namespace OpenLedger

open Postgres

/-- The journal's side of one counter: the grouped entries, joined to their
transactions for the status. -/
structure JournalRow extends StripeKey where
  postedInput : Int
  postedOutput : Int
  pendingInput : Int
  pendingOutput : Int
  entryCount : Nat
  maxSeq : Int
deriving DecidableEq, Repr

/-- The entries a join to `ledger_transactions` keeps. -/
def Book.joinedEntries (book : Book) : List EntryRow :=
  book.entries.filter fun e => (book.statusOf e).isSome

def journalRow (book : Book) (key : StripeKey) : JournalRow :=
  let mine := book.joinedEntries.filter fun e => decide (e.stripeKey = key)
  let side (direction : Direction) (posted : Bool) : Int :=
    Tally.sumWhere (fun e => decide (e.direction = direction) && (book.isPosted e == posted))
      EntryRow.amountMinor mine
  { toStripeKey := key
    postedInput := side .debit true
    postedOutput := side .credit true
    pendingInput := side .debit false
    pendingOutput := side .credit false
    entryCount := mine.length
    maxSeq := ((mine.map EntryRow.accountSeq).max?).getD 0 }

/-- `j`: one row a counter that has entries. -/
def journalRows (book : Book) : List JournalRow :=
  ((book.joinedEntries.map EntryRow.stripeKey).dedup).map (journalRow book)

/-- A balance row beside its journal row, either of them possibly missing. -/
structure CacheRow extends StripeKey where
  cacheMissing : Bool
  journalEmpty : Bool
  cacheInput : Int
  cacheOutput : Int
  cacheLastSeq : Int
  postedInput : Int
  postedOutput : Int
  pendingInput : Int
  pendingOutput : Int
  entryCount : Nat
  maxSeq : Int
deriving DecidableEq, Repr

def cacheRow (key : StripeKey) (cached : Option BalanceRow) (journal : Option JournalRow) :
    CacheRow where
  toStripeKey := key
  cacheMissing := cached.isNone
  journalEmpty := journal.isNone
  cacheInput := (cached.map BalanceRow.input).getD 0
  cacheOutput := (cached.map BalanceRow.output).getD 0
  cacheLastSeq := (cached.map BalanceRow.lastSeq).getD 0
  postedInput := (journal.map JournalRow.postedInput).getD 0
  postedOutput := (journal.map JournalRow.postedOutput).getD 0
  pendingInput := (journal.map JournalRow.pendingInput).getD 0
  pendingOutput := (journal.map JournalRow.pendingOutput).getD 0
  entryCount := (journal.map JournalRow.entryCount).getD 0
  maxSeq := (journal.map JournalRow.maxSeq).getD 0

/-- `joined`: the balances full-joined to the journal. -/
def cacheRows (book : Book) : List CacheRow :=
  (book.balances.map fun cached =>
      cacheRow cached.toStripeKey (some cached)
        ((journalRows book).find? fun j => decide (j.toStripeKey = cached.toStripeKey))) ++
    ((journalRows book).filter fun j => (book.balance? j.toStripeKey).isNone).map fun j =>
      cacheRow j.toStripeKey none (some j)

namespace CacheRow

/-- The `WHERE` of the view. -/
def breaks (row : CacheRow) : Bool :=
  decide (row.cacheInput ≠ row.postedInput) || decide (row.cacheOutput ≠ row.postedOutput) ||
    row.cacheMissing || (!row.cacheMissing && decide (row.cacheLastSeq ≠ row.maxSeq)) ||
    decide ((row.entryCount : Int) ≠ row.maxSeq) ||
    (row.journalEmpty && (decide (row.cacheInput ≠ 0) || decide (row.cacheOutput ≠ 0) ||
      decide (row.cacheLastSeq ≠ 0)))

def reasons (row : CacheRow) : List String :=
  (if row.cacheInput ≠ row.postedInput ∨ row.cacheOutput ≠ row.postedOutput then
      ["balance_drift"] else []) ++
    (if !row.cacheMissing ∧ row.cacheLastSeq < row.maxSeq then ["seq_behind"] else []) ++
    (if !row.cacheMissing ∧ row.maxSeq < row.cacheLastSeq then ["seq_ahead"] else []) ++
    (if (row.entryCount : Int) ≠ row.maxSeq then ["seq_gap"] else []) ++
    (if row.cacheMissing then ["no_cache_row"] else []) ++
    (if row.journalEmpty ∧ (row.cacheInput ≠ 0 ∨ row.cacheOutput ≠ 0 ∨ row.cacheLastSeq ≠ 0)
      then ["no_entries"] else [])

end CacheRow

/-- One row of `recon_balance_breaks`. -/
structure BalanceBreak extends CacheRow where
  cacheBalanceMinor : Int
  postedBalanceMinor : Int
  driftMinor : Int
  driftTurnoverMinor : Int
  reasons : List String
deriving DecidableEq, Repr

/-- `recon_balance_breaks`. -/
def reconBalanceBreaks (book : Book) : List BalanceBreak :=
  ((cacheRows book).filter CacheRow.breaks).map fun row =>
    { toCacheRow := row
      cacheBalanceMinor := row.cacheInput - row.cacheOutput
      postedBalanceMinor := row.postedInput - row.postedOutput
      driftMinor := row.cacheInput - row.cacheOutput - (row.postedInput - row.postedOutput)
      driftTurnoverMinor :=
        row.cacheInput + row.cacheOutput - (row.postedInput + row.postedOutput)
      reasons := row.reasons }

/-- A transaction's legs in one currency. -/
structure TransactionLegs where
  tenantId : String
  transactionId : Uuid
  currency : String
  debits : Int
  credits : Int
  legCount : Nat
deriving DecidableEq, Repr

/-- `legs`: one row a transaction and currency that has entries. -/
def transactionLegs (book : Book) : List TransactionLegs :=
  ((book.entries.map fun e => (e.tenantId, e.transactionId, e.currency)).dedup).map fun key =>
    { tenantId := key.1
      transactionId := key.2.1
      currency := key.2.2
      debits := sideOf key.1 key.2.1 key.2.2 .debit book.entries
      credits := sideOf key.1 key.2.1 key.2.2 .credit book.entries
      legCount := book.entries.countP fun e =>
        decide ((e.tenantId, e.transactionId, e.currency) = key) }

/-- One row of `recon_transaction_breaks`. -/
structure TransactionBreak where
  tenantId : String
  transactionId : Uuid
  status : TransactionStatus
  kind : String
  effectiveAt : Timestamp
  currency : Option String
  debits : Int
  credits : Int
  imbalanceMinor : Int
  legCount : Nat
  reason : String
deriving DecidableEq, Repr

/-- The void carve-out: an entryless reversal of a pending transaction. -/
def isVoid (book : Book) (x : TransactionRow) : Bool :=
  x.reversesId.any fun reversed => book.transactions.any fun v =>
    decide (v.tenantId = x.tenantId) && decide (v.id = reversed) &&
      decide (v.status = .pending)

/-- The empty-close carve-out: a close a period record names. -/
def isNamedClose (book : Book) (x : TransactionRow) : Bool :=
  decide (x.kind = "period_close") && book.closes.any fun c =>
    decide (c.tenantId = x.tenantId) && decide (c.transactionId = x.id)

/-- The left join of a transaction to its legs. -/
def joinedLegs (book : Book) (x : TransactionRow) : List (Option TransactionLegs) :=
  match (transactionLegs book).filter fun g =>
      decide (g.tenantId = x.tenantId) && decide (g.transactionId = x.id) with
  | [] => [none]
  | mine => mine.map some

/-- `recon_transaction_breaks`. -/
def reconTransactionBreaks (book : Book) : List TransactionBreak :=
  book.transactions.flatMap fun x =>
    ((joinedLegs book x).filter fun g =>
      (g.isNone || g.any fun g => decide (g.debits ≠ g.credits)) &&
        !(g.isNone && isVoid book x) && !(g.isNone && isNamedClose book x)).map fun g =>
      { tenantId := x.tenantId
        transactionId := x.id
        status := x.status
        kind := x.kind
        effectiveAt := x.effectiveAt
        currency := g.map TransactionLegs.currency
        debits := (g.map TransactionLegs.debits).getD 0
        credits := (g.map TransactionLegs.credits).getD 0
        imbalanceMinor := (g.map TransactionLegs.debits).getD 0 -
          (g.map TransactionLegs.credits).getD 0
        legCount := (g.map TransactionLegs.legCount).getD 0
        reason :=
          match g with
          | none => "no_entries"
          | some g => if g.legCount = 1 then "single_leg" else "debits_ne_credits" }

/-- A pending entry whose transaction nothing resolves or reverses. -/
def isOutstanding (book : Book) (e : EntryRow) : Bool :=
  (book.transaction? e.tenantId e.transactionId).any fun x =>
    decide (x.status ≠ .posted) &&
      !book.transactions.any fun rr => decide (rr.tenantId = x.tenantId) && rr.names x.id

/-- One row of `recon_pending_bridge`. -/
structure PendingBridgeRow where
  tenantId : String
  accountId : Uuid
  purpose : String
  currency : String
  postedBalanceMinor : Int
  pendingBalanceMinor : Int
  availableBalanceMinor : Int
  pendingDebits : Int
  pendingCredits : Int
  pendingTxns : Nat
  oldestPendingEffectiveAt : Option Timestamp
deriving DecidableEq, Repr

/-- The account and currency a bridge row is about. -/
def EntryRow.accountKey (e : EntryRow) : String × Uuid × String :=
  (e.tenantId, e.accountId, e.currency)

/-- `cache`: the posted balance over an account's stripes. -/
def cachedBalance (book : Book) (key : String × Uuid × String) : Int :=
  Tally.sumWhere (fun row => decide ((row.tenantId, row.accountId, row.currency) = key))
    (fun row => row.input - row.output) book.balances

/-- `recon_pending_bridge`. -/
def reconPendingBridge (book : Book) : List PendingBridgeRow :=
  let outstanding := book.entries.filter (isOutstanding book)
  ((outstanding.map EntryRow.accountKey).dedup).filterMap fun key =>
    (book.account? key.1 key.2.1 key.2.2).map fun a =>
      let mine := outstanding.filter fun e => decide (e.accountKey = key)
      let side (direction : Direction) : Int :=
        Tally.sumWhere (fun e => decide (e.direction = direction)) EntryRow.amountMinor mine
      { tenantId := key.1
        accountId := key.2.1
        purpose := a.purpose
        currency := key.2.2
        postedBalanceMinor := cachedBalance book key
        pendingBalanceMinor := side .debit - side .credit
        availableBalanceMinor := cachedBalance book key + (side .debit - side .credit)
        pendingDebits := side .debit
        pendingCredits := side .credit
        pendingTxns := ((mine.map EntryRow.transactionId).dedup).length
        oldestPendingEffectiveAt := (mine.filterMap fun e =>
          (book.transaction? e.tenantId e.transactionId).map TransactionRow.effectiveAt).min? }

/-- `indexed`, one partition of it: a tenant's closes of one currency in the
order their periods end, each joined to its transaction. -/
def closesInOrder (book : Book) (tenantId currency : String) :
    List (CloseRow × TransactionRow) :=
  ((book.closes.filter fun c =>
      decide (c.tenantId = tenantId) && decide (c.currency = currency)).filterMap fun c =>
    (book.transaction? c.tenantId c.transactionId).map fun x => (c, x)).insertionSort
      fun left right => left.1.endsAt ≤ right.1.endsAt

/-- `lag(…) OVER w`: each row beside the one before it. -/
def lagged {Row : Type} (rows : List Row) : List (Row × Option Row) :=
  rows.zip (none :: rows.map some)

/-- A close beside the close before it: `paired`. -/
structure PairedClose where
  close : CloseRow
  txnXactId : Xid
  prevCursor : Option Xid
  prevTxnXactId : Option Xid
deriving DecidableEq, Repr

/-- The previous close is found again by its period's code. -/
def previousTransaction (book : Book) (previous : CloseRow) : Option TransactionRow :=
  (book.closes.find? fun p =>
    decide (p.tenantId = previous.tenantId) && decide (p.currency = previous.currency) &&
      decide (p.periodCode = previous.periodCode)).bind fun p =>
        book.transaction? p.tenantId p.transactionId

def pairedCloses (book : Book) : List PairedClose :=
  ((book.closes.map fun c => (c.tenantId, c.currency)).dedup).flatMap fun partition =>
    (lagged (closesInOrder book partition.1 partition.2)).map fun pair =>
      { close := pair.1.1
        txnXactId := pair.1.2.xactId
        prevCursor := pair.2.map fun previous => previous.1.computedAtXid
        prevTxnXactId := (pair.2.bind fun previous => previousTransaction book previous.1).map
          TransactionRow.xactId }

/-- Whether a stored checkpoint leaves a temporary account unswept. -/
def doesNotSweep (book : Book) (close : CloseRow) : Bool :=
  book.periodBalances.any fun s =>
    decide (s.tenantId = close.tenantId) && decide (s.periodCode = close.periodCode) &&
      decide (s.currency = close.currency) &&
      ((book.account? s.tenantId s.accountId s.currency).map AccountRow.category).any
        Category.isTemporary &&
      decide (s.input ≠ s.output)

/-- The reasons one close gives, against the server's `xmax`. -/
def PairedClose.reasons (book : Book) (xmax : Xid) (p : PairedClose) : List String :=
  (if p.close.computedAtXid < p.txnXactId then ["cursor_precedes_close"] else []) ++
    (if xmax ≤ p.close.computedAtXid then ["cursor_above_assigned"] else []) ++
    (if p.prevCursor.any (fun cursor => decide (p.close.computedAtXid < cursor)) ∨
        p.prevTxnXactId.any (fun xid => decide (p.close.computedAtXid ≤ xid)) then
      ["recon_close_order"] else []) ++
    (if doesNotSweep book p.close then ["close_does_not_sweep"] else [])

/-- One row of `recon_close_breaks`. -/
structure CloseBreak where
  tenantId : String
  periodCode : Option String
  currency : Option String
  transactionId : Uuid
  computedAtXid : Option Xid
  txnXactId : Xid
  prevCursor : Option Xid
  prevTxnXactId : Option Xid
  reason : String
deriving DecidableEq, Repr

/-- A posted close that no period record names. -/
def closeOrphans (book : Book) : List CloseBreak :=
  (book.transactions.filter fun x =>
    decide (x.kind = "period_close") && decide (x.status = .posted) &&
      !book.closes.any fun c =>
        decide (c.tenantId = x.tenantId) && decide (c.transactionId = x.id)).map fun x =>
    { tenantId := x.tenantId
      periodCode := none
      currency := none
      transactionId := x.id
      computedAtXid := none
      txnXactId := x.xactId
      prevCursor := none
      prevTxnXactId := none
      reason := "close_orphan" }

/-- `recon_close_breaks`. -/
def reconCloseBreaks (book : Book) (xmax : Xid) : List CloseBreak :=
  ((pairedCloses book).flatMap fun p =>
    (p.reasons book xmax).map fun reason =>
      { tenantId := p.close.tenantId
        periodCode := some p.close.periodCode
        currency := some p.close.currency
        transactionId := p.close.transactionId
        computedAtXid := some p.close.computedAtXid
        txnXactId := p.txnXactId
        prevCursor := p.prevCursor
        prevTxnXactId := p.prevTxnXactId
        reason }) ++
    closeOrphans book

end OpenLedger
