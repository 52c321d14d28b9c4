import OpenLedger.Reports.Recon

/-!
# Positions

The trial balance over an effective range, and the position as at an instant
read from the newest checkpoint plus two tails.  Both are pinned by a cursor:
an entry at or above it is not there yet.
-/

namespace OpenLedger

open Postgres

/-- An entry's amount on one side, zero on the other. -/
def EntryRow.on (e : EntryRow) (direction : Direction) : Int :=
  if e.direction = direction then e.amountMinor else 0

/-- An entry beside its account and its account's type. -/
structure TrialEntry where
  entry : EntryRow
  account : AccountRow
  type : AccountType

/-- The joins and the `WHERE` of `trial_balance_at`. -/
def trialEntries (book : Book) (tenantId : String) (fromAt toAt : ReportInstant)
    (cursor : Xid) : List TrialEntry :=
  (book.entries.filter fun e =>
      book.isPosted e && fromAt.isReachedBy e.effectiveAt && toAt.isAfter e.effectiveAt &&
        decide (e.xactId < cursor)).filterMap
    fun e =>
      (book.account? e.tenantId e.accountId e.currency).bind fun a =>
        if a.tenantId = tenantId then
          (book.chart.type? a.purpose).map fun t => ⟨e, a, t⟩
        else none

/-- What `trial_balance_at` groups by. -/
structure TrialKey where
  tenantId : String
  accountId : Uuid
  purpose : String
  category : Category
  currency : String
deriving DecidableEq, Repr

def TrialEntry.key (joined : TrialEntry) : TrialKey :=
  ⟨joined.account.tenantId, joined.account.id, joined.account.purpose, joined.type.category,
    joined.entry.currency⟩

/-- One row of `trial_balance_at`. -/
structure TrialBalanceRow extends TrialKey where
  debits : Int
  credits : Int
  balanceDebitPositive : Int
deriving DecidableEq, Repr

/-- `trial_balance_at`. -/
def trialBalanceAt (book : Book) (tenantId : String) (fromAt toAt : ReportInstant)
    (cursor : Xid) : List TrialBalanceRow :=
  let joined := trialEntries book tenantId fromAt toAt cursor
  ((joined.map TrialEntry.key).dedup).map fun key =>
    let mine := fun row : TrialEntry => decide (row.key = key)
    { toTrialKey := key
      debits := Tally.sumWhere mine (fun row => row.entry.on .debit) joined
      credits := Tally.sumWhere mine (fun row => row.entry.on .credit) joined
      balanceDebitPositive := Tally.sumWhere mine (fun row => row.entry.signed) joined }

/-- Whether a report at this instant and cursor may read a close's checkpoint. -/
def mayAnchor (book : Book) (tenantId currency : String) (asOf : ReportInstant)
    (cursor : Xid) (k : CloseRow) : Bool :=
  decide (k.tenantId = tenantId) && decide (k.currency = currency) &&
    asOf.covers k.endsAt && decide (k.computedAtXid ≤ cursor) &&
    (book.transaction? k.tenantId k.transactionId).any fun kx => decide (kx.xactId < cursor)

/-- The close a currency is read from: the latest it may. -/
def anchorOf (book : Book) (tenantId currency : String) (asOf : ReportInstant)
    (cursor : Xid) : Option CloseRow :=
  ((book.closes.filter (mayAnchor book tenantId currency asOf cursor)).insertionSort
    fun left right => right.endsAt ≤ left.endsAt).head?

/-- One row of `checkpoint_anchor`. -/
structure Anchor where
  currency : String
  periodCode : Option String
  boundary : ReportInstant
  ckptCursor : Xid
  closeTxn : Option Uuid
deriving DecidableEq

/-- A close as an anchor; no close is a boundary at `-infinity` and
cursor 0. -/
def Anchor.of (currency : String) (close : Option CloseRow) : Anchor where
  currency := currency
  periodCode := close.map CloseRow.periodCode
  boundary := (close.map fun c => .at c.endsAt).getD .minusInfinity
  ckptCursor := (close.map CloseRow.computedAtXid).getD 0
  closeTxn := close.map CloseRow.transactionId

/-- `checkpoint_anchor`: one row a currency the tenant holds an account in. -/
def checkpointAnchor (book : Book) (tenantId : String) (asOf : ReportInstant)
    (cursor : Xid) : List Anchor :=
  (((book.accounts.filter fun l => decide (l.tenantId = tenantId)).map
    AccountRow.currency).dedup).map fun currency =>
      Anchor.of currency (anchorOf book tenantId currency asOf cursor)

/-- A position row, and each of the terms it is summed from. -/
structure PositionRow where
  currency : String
  accountId : Uuid
  debits : Int
  credits : Int
deriving DecidableEq, Repr

def EntryRow.term (e : EntryRow) : PositionRow :=
  ⟨e.currency, e.accountId, e.on .debit, e.on .credit⟩

/-- The stored checkpoint of the anchor's close. -/
def checkpointTerms (book : Book) (tenantId : String) (a : Anchor) : List PositionRow :=
  (book.periodBalances.filter fun b =>
    decide (b.tenantId = tenantId) && decide (b.currency = a.currency) &&
      decide (some b.periodCode = a.periodCode)).map fun b =>
        ⟨b.currency, b.accountId, b.input, b.output⟩

/-- Tail A: effective at or after the boundary, before the instant. -/
def tailA (book : Book) (tenantId : String) (asOf : ReportInstant) (cursor : Xid)
    (a : Anchor) : List PositionRow :=
  (book.entries.filter fun e =>
    decide (e.tenantId = tenantId) && decide (e.currency = a.currency) &&
      a.boundary.isReachedBy e.effectiveAt && asOf.isAfter e.effectiveAt &&
      decide (e.xactId < cursor) &&
      book.isPosted e).map EntryRow.term

/-- Tail B: effective before the boundary, arrived at or after the anchor's
cursor, and not the close itself. -/
def tailB (book : Book) (tenantId : String) (cursor : Xid) (a : Anchor) : List PositionRow :=
  (book.entries.filter fun e =>
    decide (e.tenantId = tenantId) && decide (e.currency = a.currency) &&
      a.boundary.isAfter e.effectiveAt && decide (a.ckptCursor ≤ e.xactId) &&
      decide (e.xactId < cursor) &&
      (a.closeTxn.isNone || decide (some e.transactionId ≠ a.closeTxn)) &&
      book.isPosted e).map EntryRow.term

def positionTerms (book : Book) (tenantId : String) (asOf : ReportInstant) (cursor : Xid) :
    List PositionRow :=
  let anchors := checkpointAnchor book tenantId asOf cursor
  anchors.flatMap (checkpointTerms book tenantId) ++
    anchors.flatMap (tailA book tenantId asOf cursor) ++
    anchors.flatMap (tailB book tenantId cursor)

/-- `checkpoint_position`: the terms summed per currency and account. -/
def checkpointPosition (book : Book) (tenantId : String) (asOf : ReportInstant)
    (cursor : Xid) : List PositionRow :=
  let terms := positionTerms book tenantId asOf cursor
  ((terms.map fun t => (t.currency, t.accountId)).dedup).map fun key =>
    let mine := fun t : PositionRow => decide ((t.currency, t.accountId) = key)
    ⟨key.1, key.2, Tally.sumWhere mine PositionRow.debits terms,
      Tally.sumWhere mine PositionRow.credits terms⟩

/-- One side of a position, zero where it has no row. -/
def PositionRow.side (direction : Direction) (row : PositionRow) : Int :=
  match direction with
  | .debit => row.debits
  | .credit => row.credits

def sideAt (position : List PositionRow) (direction : Direction) (currency : String)
    (accountId : Uuid) : Int :=
  ((position.find? fun row =>
    decide (row.currency = currency) && decide (row.accountId = accountId)).map
      (PositionRow.side direction)).getD 0

/-- What a from-inception report sums: the posted entries of a tenant effective
before the instant and below the cursor. -/
def inceptionAdmits (book : Book) (tenantId : String) (asOf : ReportInstant) (cursor : Xid)
    (e : EntryRow) : Bool :=
  decide (e.tenantId = tenantId) && book.isPosted e && asOf.isAfter e.effectiveAt &&
    decide (e.xactId < cursor)

/-- One side of an account summed from inception. -/
def inceptionSide (book : Book) (tenantId : String) (asOf : ReportInstant) (cursor : Xid)
    (direction : Direction) (currency : String) (accountId : Uuid) : Int :=
  Tally.sumWhere (fun e =>
    inceptionAdmits book tenantId asOf cursor e && decide (e.currency = currency) &&
      decide (e.accountId = accountId)) (fun e => e.on direction) book.entries

end OpenLedger
