import OpenLedger.Lib.Bucket
import OpenLedger.Lib.Join
import OpenLedger.Reports.Checkpoint
import OpenLedger.Reports.Recon

/-!
# The bounded check of the checkpoints

`recon_checkpoint_breaks` numbers the closes of a tenant and currency, puts each
entry at the first close that contains it, and compares what arrived at a close
with the difference of its stored row and the one before.
-/

namespace OpenLedger

open Join

/-- The tenant and currency a close, an entry or a stored row is of. -/
abbrev Partition := String × String

/-- An account within its partition, as `EntryRow.accountKey` has it. -/
abbrev LevelKey := String × Uuid × String

def LevelKey.partition (key : LevelKey) : Partition := (key.1, key.2.2)

def CloseRow.partition (c : CloseRow) : Partition := (c.tenantId, c.currency)

def EntryRow.partition (e : EntryRow) : Partition := (e.tenantId, e.currency)

/-- A partition's closes in the order their periods end. -/
def closesByEnd (book : Book) (partition : Partition) : List CloseRow :=
  (book.closes.filter fun c => decide (c.partition = partition)).insertionSort
    fun left right => left.endsAt ≤ right.endsAt

/-- The partitions that have a close. -/
def closedPartitions (book : Book) : List Partition :=
  (book.closes.map CloseRow.partition).dedup

/-- A close and its `row_number()`. -/
structure NumberedClose where
  close : CloseRow
  k : Nat
deriving DecidableEq, Repr

/-- `cl`, one partition of it. -/
def numberedCloses (book : Book) (partition : Partition) : List NumberedClose :=
  ((closesByEnd book partition).zipIdx 1).map fun numbered => ⟨numbered.1, numbered.2⟩

/-- `cl`. -/
def cl (book : Book) : List NumberedClose :=
  (closedPartitions book).flatMap (numberedCloses book)

/-- The ends and the cursors of a partition's closes, in order. -/
structure CloseArrays where
  partition : Partition
  n : Nat
  ends : List Timestamp
  curs : List Xid
deriving DecidableEq, Repr

def closeArrays (book : Book) (partition : Partition) : CloseArrays where
  partition := partition
  n := (closesByEnd book partition).length
  ends := (closesByEnd book partition).map CloseRow.endsAt
  curs := (closesByEnd book partition).map CloseRow.computedAtXid

/-- `arr`. -/
def arr (book : Book) : List CloseArrays := (closedPartitions book).map (closeArrays book)

/-- `last_k`: a partition and its greatest number. -/
def lastK (book : Book) : List (Partition × Nat) :=
  (closedPartitions book).map fun partition =>
    (partition, (((numberedCloses book partition).map NumberedClose.k).max?).getD 0)

/-- `NULLIF`. -/
def nullIf (value excluded : Nat) : Option Nat :=
  if value = excluded then none else some value

/-- `LEAST(NULLIF(GREATEST(…), n + 1), ci.k)`: `LEAST` ignores a null. -/
def firstClose (e : EntryRow) (a : CloseArrays) (ci : Option NumberedClose) : Option Nat :=
  Option.merge min
    (nullIf (max (Bucket.widthBucket e.effectiveAt a.ends + 1)
      (Bucket.widthBucket e.xactId a.curs + 1)) (a.n + 1))
    (ci.map NumberedClose.k)

/-- `ci`: the close an entry is a leg of. -/
def isLegOf (e : EntryRow) (ci : NumberedClose) : Bool :=
  decide (ci.close.tenantId = e.tenantId) && decide (ci.close.currency = e.currency) &&
    decide (ci.close.transactionId = e.transactionId)

/-- An entry's sides at the first close that contains it. -/
structure Banded where
  account : LevelKey
  dr : Int
  cr : Int
  j : Option Nat
deriving DecidableEq, Repr

/-- `banded`. -/
def banded (book : Book) : List Banded :=
  (book.entries.filter book.isPosted).flatMap fun e =>
    ((arr book).filter fun a => decide (a.partition = e.partition)).flatMap fun a =>
      (leftJoin isLegOf (cl book) e).map fun ci =>
        { account := e.accountKey
          dr := e.on .debit
          cr := e.on .credit
          j := firstClose e a ci }

/-- What `arrivals` groups by; a row no close contains is left out. -/
def Banded.key (row : Banded) : Option (LevelKey × Nat) := row.j.map fun j => (row.account, j)

/-- An account's sums at the first close that contains them. -/
structure Arrival where
  account : LevelKey
  j : Nat
  dr : Int
  cr : Int
deriving DecidableEq, Repr

/-- `arrivals`. -/
def arrivals (book : Book) : List Arrival :=
  (((banded book).filterMap Banded.key).dedup).map fun key =>
    { account := key.1
      j := key.2
      dr := Tally.sumWhere (fun row => decide (row.key = some key)) Banded.dr (banded book)
      cr := Tally.sumWhere (fun row => decide (row.key = some key)) Banded.cr (banded book) }

/-- A stored row beside the number of its close. -/
structure StoredLevel where
  account : LevelKey
  periodCode : String
  k : Nat
  input : Int
  output : Int
deriving DecidableEq, Repr

/-- The key a stored row is joined to its close by. -/
def isRowOf (b : PeriodBalanceRow) (n : NumberedClose) : Bool :=
  decide (n.close.tenantId = b.tenantId) && decide (n.close.currency = b.currency) &&
    decide (n.close.periodCode = b.periodCode)

def storedLevels (book : Book) : List StoredLevel :=
  book.periodBalances.flatMap fun b =>
    ((cl book).filter (isRowOf b)).map fun n =>
      { account := (b.tenantId, b.accountId, b.currency)
        periodCode := b.periodCode
        k := n.k
        input := b.input
        output := b.output }

/-- One partition of the window: an account's rows in the order of their closes. -/
def levelsOf (book : Book) (account : LevelKey) : List StoredLevel :=
  ((storedLevels book).filter fun row => decide (row.account = account)).insertionSort
    fun left right => left.k ≤ right.k

/-- A stored row and what it differs by from the account's row before it. -/
structure StoredRow extends StoredLevel where
  dIn : Int
  dOut : Int
deriving DecidableEq, Repr

def storedRow (pair : StoredLevel × Option StoredLevel) : StoredRow where
  toStoredLevel := pair.1
  dIn := pair.1.input - (pair.2.map StoredLevel.input).getD 0
  dOut := pair.1.output - (pair.2.map StoredLevel.output).getD 0

/-- `stored`. -/
def stored (book : Book) : List StoredRow :=
  (((storedLevels book).map StoredLevel.account).dedup).flatMap fun account =>
    (lagged (levelsOf book account)).map storedRow

/-- Which closes an account has a row at. -/
structure Span where
  account : LevelKey
  firstK : Nat
  rowsPresent : Nat
  lastK : Nat
deriving DecidableEq, Repr

/-- `span`: the presence half. -/
def spans (book : Book) : List Span :=
  (((stored book).map fun s => s.account).dedup).flatMap fun account =>
    let rows := (stored book).filter fun s => decide (s.account = account)
    ((lastK book).filter fun lk => decide (lk.1 = account.partition)).map fun lk =>
      { account
        firstK := ((rows.map fun s => s.k).min?).getD 0
        rowsPresent := rows.length
        lastK := lk.2 }

/-- One row of `recon_checkpoint_breaks`. -/
structure CheckpointBreak where
  tenantId : String
  periodCode : Option String
  currency : String
  accountId : Uuid
  storedInput : Int
  storedOutput : Int
  recomputedInput : Int
  recomputedOutput : Int
  reason : String
deriving DecidableEq, Repr

/-- The `WHERE` over the joined rows. -/
def differs (s : Option StoredRow) (r : Option Arrival) : Bool :=
  decide ((s.map StoredRow.dIn).getD 0 ≠ (r.map Arrival.dr).getD 0) ||
    decide ((s.map StoredRow.dOut).getD 0 ≠ (r.map Arrival.cr).getD 0)

/-- The number of a partition's close is what `rk` and `spk` are joined by. -/
def isNumbered (partition : Partition) (k : Nat) (n : NumberedClose) : Bool :=
  decide (n.close.partition = partition) && decide (n.k = k)

/-- What the view lists of a stored row, an arrival, or both. -/
def valueBreak (account : LevelKey) (s : Option StoredRow) (r : Option Arrival)
    (rk : Option NumberedClose) : CheckpointBreak where
  tenantId := account.1
  periodCode := (s.map fun s => s.periodCode).or (rk.map fun n => n.close.periodCode)
  currency := account.2.2
  accountId := account.2.1
  storedInput := (s.map StoredRow.dIn).getD 0
  storedOutput := (s.map StoredRow.dOut).getD 0
  recomputedInput := (r.map Arrival.dr).getD 0
  recomputedOutput := (r.map Arrival.cr).getD 0
  reason :=
    if s.isNone then "missing_row" else if r.isNone then "spurious_row" else "value_drift"

/-- The value half of the view. -/
def valueBreaks (book : Book) : List CheckpointBreak :=
  ((fullJoin (fun s r => decide (r.account = s.account) && decide (r.j = s.k)) (stored book)
      (arrivals book)).filter fun pair => differs pair.1 pair.2).flatMap fun pair =>
    (leftJoin (fun r n => r.any fun r => isNumbered r.account.partition r.j n) (cl book)
      pair.2).filterMap fun rk =>
        ((pair.1.map fun s => s.account).or (pair.2.map Arrival.account)).map fun account =>
          valueBreak account pair.1 pair.2 rk

/-- The presence half of the view. -/
def spanBreaks (book : Book) : List CheckpointBreak :=
  ((spans book).filter fun sp =>
      decide ((sp.rowsPresent : Int) ≠ sp.lastK - sp.firstK + 1)).flatMap fun sp =>
    (leftJoin (fun sp n => isNumbered sp.account.partition sp.lastK n) (cl book) sp).map
      fun spk =>
        { tenantId := sp.account.1
          periodCode := spk.map fun n => n.close.periodCode
          currency := sp.account.2.2
          accountId := sp.account.2.1
          storedInput := sp.rowsPresent
          storedOutput := sp.lastK - sp.firstK + 1
          recomputedInput := 0
          recomputedOutput := 0
          reason := "row_span" }

/-- `recon_checkpoint_breaks`. -/
def reconCheckpointBreaks (book : Book) : List CheckpointBreak :=
  valueBreaks book ++ spanBreaks book

end OpenLedger
