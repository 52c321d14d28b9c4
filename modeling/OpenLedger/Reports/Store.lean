import Mathlib.Data.List.Infix
import OpenLedger.Reports.AccountStatement
import OpenLedger.Reports.Moments
import OpenLedger.Reports.Statements

/-!
# The read path's outbound port

What the report service asks of storage, one request a statement, and what the
Postgres store answers each at a moment.  What the `timestamptz` cast reads of a text,
if it reads it, is a parameter.
-/

namespace OpenLedger

open Postgres

/-- What a storage failure was made of, opaque to the service. -/
inductive ReadFailure where
  | backend (code message : String)
  /-- The database answered a column that is not an `xid8`. -/
  | notAnXid8 (column text : String)
  /-- An instant RFC 3339 cannot hold. -/
  | notRendered (instant : OffsetDateTime)
deriving DecidableEq, Repr

/-- Why storage refused a read. -/
inductive ReportRefusal where
  | chartVersionUnknown (detail : String)
  | chartVersionIncomplete (detail : String)
  | invalidRequest (detail : String)
  | timedOut
  | storage (failure : ReadFailure)
deriving DecidableEq, Repr

/-- An answer, beside the tenant the session was scoped to. -/
structure Scoped (α : Type) where
  tenantId : String
  answer : α

/-- What the read path has to know before it may pin a report. -/
structure ReadBounds where
  horizon : Cursor
  oldestEntry : Option Cursor
  chartVersion : Option Int
deriving DecidableEq, Repr

structure TrialBalanceRead where
  tenantId : String
  effectiveFrom : OffsetDateTime
  effectiveTo : OffsetDateTime
  cursor : Cursor

structure BalanceSheetRead where
  tenantId : String
  asOf : OffsetDateTime
  cursor : Cursor
  chartVersion : Int

structure IncomeStatementRead where
  tenantId : String
  effectiveFrom : OffsetDateTime
  effectiveTo : OffsetDateTime
  cursor : Cursor
  chartVersion : Int

structure AccountStatementRead where
  tenantId : String
  accountId : Uuid
  axis : StatementAxis
  cursor : Cursor
  effectiveFrom : Option OffsetDateTime
  effectiveTo : Option OffsetDateTime
  limit : Int
  after : Option StatementKey

/-- One row of a trial balance, its amounts as exact text. -/
structure TrialBalanceLine where
  accountId : Uuid
  purpose : String
  category : String
  currency : String
  debits : String
  credits : String
  balanceDebitPositive : String
deriving DecidableEq, Repr

/-- One line of a statement face. -/
structure StatementLine where
  currency : String
  fsLine : String
  caption : String
  sortOrder : Int
  amountMinor : String
  side : String
deriving DecidableEq, Repr

/-- One statement of the read path. -/
inductive ReadRequest where
  | reportCursor (tenantId : String)
  | readBounds (tenantId : String)
  | trialBalance (read : TrialBalanceRead)
  | balanceSheet (read : BalanceSheetRead)
  | incomeStatement (read : IncomeStatementRead)
  | accountStatement (read : AccountStatementRead)

namespace ReadRequest

def Answer : ReadRequest → Type
  | reportCursor _ => Cursor
  | readBounds _ => ReadBounds
  | trialBalance _ => List TrialBalanceLine
  | balanceSheet _ => List StatementLine
  | incomeStatement _ => List StatementLine
  | accountStatement _ => Option (List AccountStatementEntry)

abbrev Reply (request : ReadRequest) : Type := Except ReportRefusal (Scoped request.Answer)

end ReadRequest

def statementTimeout : String := "57014"

def invalidText : String := "22P02"

/-- The marker that tells the two `23514` arms apart. -/
def typeUnpresented : String := "chart_lint.type_unpresented"

/-- The backend's answer in the port's grammar. -/
def refusal (code message : String) : ReportRefusal :=
  if code = statementTimeout then .timedOut
  else if code = checkViolation then
    if typeUnpresented.toList <:+: message.toList then .chartVersionIncomplete message
    else .chartVersionUnknown message
  else if code = invalidText then .invalidRequest message
  else .storage (.backend code message)

/-- `xid8::text`. -/
def xidText (xid : Xid) : String := String.ofList (Nat.toDigits 10 xid)

/-- `numeric::text` of a whole amount. -/
def amountText (amount : Int) : String := String.ofList (Decimal.render amount)

def categoryText : Category → String
  | .asset => "asset"
  | .liability => "liability"
  | .equity => "equity"
  | .revenue => "revenue"
  | .expense => "expense"

/-- A cursor the database produced, read back from text. -/
def cursorFrom (column text : String) : Except ReportRefusal Cursor :=
  match Cursor.parse text with
  | some cursor => .ok cursor
  | none => .error (.storage (.notAnXid8 column text))

def theBeginningOfTime : String := "-infinity"

def theEndOfTime : String := "infinity"

/-- An instant as the text a bound is cast from, or the sentinel where there is none.
The text is RFC 3339, which not every instant has. -/
def asBoundInstant (instant : Option OffsetDateTime) (whenUnbounded : String) :
    Except ReportRefusal String :=
  match instant with
  | none => .ok whenUnbounded
  | some instant =>
      match instant.rfc3339 with
      | none => .error (.storage (.notRendered instant))
      | some text => .ok text

/-- Why a text is no `timestamptz`. -/
inductive NotATimestamp where
  /-- `22007`. -/
  | invalidDatetimeFormat (message : String)
  /-- `22008`. -/
  | datetimeFieldOverflow (message : String)
  /-- `22009`. -/
  | invalidTimeZoneDisplacement (message : String)
deriving DecidableEq, Repr

/-- What the statement raises for it. -/
def NotATimestamp.raised : NotATimestamp → Raised
  | invalidDatetimeFormat message => ⟨"22007", message⟩
  | datetimeFieldOverflow message => ⟨"22008", message⟩
  | invalidTimeZoneDisplacement message => ⟨"22009", message⟩

/-- `::timestamptz` of a bound: an infinity, or the instant the cast reads, if it reads
one. -/
def castBound (timestamptz : String → Except NotATimestamp Timestamp) (text : String) :
    Except ReportRefusal ReportInstant :=
  if text = theBeginningOfTime then .ok .minusInfinity
  else if text = theEndOfTime then .ok .infinity
  else
    match timestamptz text with
    | .ok instant => .ok (.at instant)
    | .error unread => .error (refusal unread.raised.errcode unread.raised.message)

/-- `SELECT min(e.xact_id)`. -/
def oldestEntryOf (book : Book) (tenantId : String) : Option Xid :=
  ((book.entries.filter fun e => decide (e.tenantId = tenantId)).map EntryRow.xactId).min?

/-- `READ_BOUNDS`. -/
def readBoundsAt (presentation : Presentation) (moment : Moment) (tenantId : String) :
    Except ReportRefusal ReadBounds := do
  let horizon ← cursorFrom "report_cursor()" (xidText moment.horizon)
  let oldestEntry ← (oldestEntryOf moment.book tenantId).mapM fun oldest =>
    cursorFrom "min(xact_id)" (xidText oldest)
  return ⟨horizon, oldestEntry, presentation.current⟩

def TrialBalanceRow.line (row : TrialBalanceRow) : TrialBalanceLine where
  accountId := row.accountId
  purpose := row.purpose
  category := categoryText row.category
  currency := row.currency
  debits := amountText row.debits
  credits := amountText row.credits
  balanceDebitPositive := amountText row.balanceDebitPositive

/-- `TRIAL_BALANCE`. -/
def trialBalanceLines (book : Book) (read : TrialBalanceRead) : List TrialBalanceLine :=
  ((trialBalanceAt book read.tenantId (.at read.effectiveFrom.stored)
      (.at read.effectiveTo.stored) read.cursor.val).insertionSort fun left right =>
    toLex (left.accountId, left.currency) ≤ toLex (right.accountId, right.currency)).map
      TrialBalanceRow.line

def StatementRow.line (row : StatementRow) : StatementLine where
  currency := row.currency
  fsLine := row.fsLine
  caption := row.caption
  sortOrder := row.sortOrder
  amountMinor := amountText row.amountMinor
  side := row.side.canonical

/-- `face_from`, after `ORDER BY currency, sort_order, fs_line`. -/
def faceFrom (rows : List StatementRow) : List StatementLine :=
  (rows.insertionSort fun left right =>
    toLex (left.currency, toLex (left.sortOrder, left.fsLine)) ≤
      toLex (right.currency, toLex (right.sortOrder, right.fsLine))).map StatementRow.line

/-- A statement function's rows, or what it raised. -/
def faceOrRefusal (answered : Except Raised (List StatementRow)) :
    Except ReportRefusal (List StatementLine) :=
  match answered with
  | .ok rows => .ok (faceFrom rows)
  | .error raised => .error (refusal raised.errcode raised.message)

/-- One row as an entry, or nothing where the entry half is NULL. -/
def statementEntryFrom (row : AccountStatementSqlRow) :
    Except ReportRefusal (Option AccountStatementEntry) :=
  match row.entry, row.status with
  | some e, some status => do
      let xactId ← cursorFrom "ledger_entries.xact_id" (xidText e.xactId)
      return some
        { entryId := e.id
          transactionId := e.transactionId
          status
          direction := e.direction
          amountMinor := e.amountMinor
          currency := e.currency
          effectiveAt := OffsetDateTime.ofStored e.effectiveAt
          accountSeq := e.accountSeq
          xactId }
  | _, _ => .ok none

/-- The page in the port's own shape; `none` is no such account. -/
def statementPageFrom (rows : List AccountStatementSqlRow) :
    Except ReportRefusal (Option (List AccountStatementEntry)) :=
  if rows.isEmpty then .ok none
  else do
    let entries ← rows.mapM statementEntryFrom
    return some (entries.filterMap id)

/-- The account's page, the axis choosing the statement. -/
def accountStatementAt (timestamptz : String → Except NotATimestamp Timestamp) (book : Book)
    (read : AccountStatementRead) :
    Except ReportRefusal (Option (List AccountStatementEntry)) :=
  match read.axis with
  | .recorded =>
      let after : Xid × Uuid :=
        match read.after with
        | some (.recorded xactId entryId) => (xactId.val, entryId)
        | _ => (bottomOfTheCommitOrder, bottomOfTheEntryOrder)
      statementPageFrom <| accountStatementByRecorded book read.tenantId read.accountId
        ⟨read.cursor.val, after.1, after.2, read.limit.toNat⟩
  | .effective => do
      let after : Option OffsetDateTime × Xid × Uuid :=
        match read.after with
        | some (.effective effectiveAt xactId entryId) =>
            (some effectiveAt, xactId.val, entryId)
        | _ => (none, bottomOfTheCommitOrder, bottomOfTheEntryOrder)
      let effectiveFrom ← asBoundInstant read.effectiveFrom theBeginningOfTime
      let effectiveTo ← asBoundInstant read.effectiveTo theEndOfTime
      let afterEffective ← asBoundInstant after.1 theBeginningOfTime
      -- The texts are bound; what follows is the statement's.
      let effectiveFrom ← castBound timestamptz effectiveFrom
      let effectiveTo ← castBound timestamptz effectiveTo
      let afterEffective ← castBound timestamptz afterEffective
      statementPageFrom <| accountStatementByEffective book read.tenantId read.accountId
        ⟨read.cursor.val, effectiveFrom, effectiveTo, afterEffective, after.2.1, after.2.2,
          read.limit.toNat⟩

/-- `PgReportStore`: each request scoped to the tenant it names. -/
def storeAnswer (presentation : Presentation) (timestamptz : String → Except NotATimestamp Timestamp)
    (moment : Moment) : (request : ReadRequest) → request.Reply
  | .reportCursor tenantId =>
      (cursorFrom "report_cursor()" (xidText moment.horizon)).map (Scoped.mk tenantId)
  | .readBounds tenantId =>
      (readBoundsAt presentation moment tenantId).map (Scoped.mk tenantId)
  | .trialBalance read =>
      .ok ⟨read.tenantId, trialBalanceLines moment.book read⟩
  | .balanceSheet read =>
      (faceOrRefusal (balanceSheetAt presentation moment.book read.tenantId
        (.at read.asOf.stored) read.cursor.val (some read.chartVersion))).map
          (Scoped.mk read.tenantId)
  | .incomeStatement read =>
      (faceOrRefusal (incomeStatementFor presentation moment.book read.tenantId
        (.at read.effectiveFrom.stored) (.at read.effectiveTo.stored) read.cursor.val
        (some read.chartVersion))).map (Scoped.mk read.tenantId)
  | .accountStatement read =>
      (accountStatementAt timestamptz moment.book read).map (Scoped.mk read.tenantId)

/-- What a read may be answered at a moment: the statement's rows, unless the
backend timed out or failed. -/
def MayAnswer (presentation : Presentation) (timestamptz : String → Except NotATimestamp Timestamp)
    (moment : Moment) (request : ReadRequest) (reply : request.Reply) : Prop :=
  reply = storeAnswer presentation timestamptz moment request ∨
    reply = .error .timedOut ∨ ∃ failure, reply = .error (.storage failure)

@[simp]
theorem cursorFrom_xidText {column : String} {xid : Xid}
    (isXid8 : xid < 18446744073709551616) :
    cursorFrom column (xidText xid) = .ok ⟨xid, isXid8⟩ := by
  have reads : Cursor.parse (xidText xid) = some ⟨xid, isXid8⟩ := Cursor.parse_text ⟨xid, isXid8⟩
  rw [cursorFrom, reads]

theorem mem_of_oldestEntryOf {book : Book} {tenantId : String} {oldest : Xid}
    (isOldest : oldestEntryOf book tenantId = some oldest) :
    ∃ e ∈ book.entries, e.tenantId = tenantId ∧ e.xactId = oldest := by
  have member := List.min?_mem isOldest
  obtain ⟨e, listed, isXid⟩ := List.mem_map.mp member
  have isThere := List.mem_filter.mp listed
  exact ⟨e, isThere.1, of_decide_eq_true isThere.2, isXid⟩

theorem oldestEntryOf_le {book : Book} {tenantId : String} {oldest : Xid}
    (isOldest : oldestEntryOf book tenantId = some oldest) {e : EntryRow}
    (member : e ∈ book.entries) (ofTenant : e.tenantId = tenantId) : oldest ≤ e.xactId := by
  have least := (List.min?_eq_some_iff.mp isOldest).2
  exact least _ <| List.mem_map_of_mem <| List.mem_filter.mpr ⟨member, decide_eq_true ofTenant⟩

theorem oldestEntryOf_eq_none_iff {book : Book} {tenantId : String} :
    oldestEntryOf book tenantId = none ↔ ∀ e ∈ book.entries, e.tenantId ≠ tenantId := by
  rw [oldestEntryOf, List.min?_eq_none_iff, List.map_eq_nil_iff, List.filter_eq_nil_iff]
  simp only [decide_eq_true_eq]

/-- The oldest entry's cursor. -/
def Moment.oldest (moment : Moment) (tenantId : String) : Option Cursor :=
  match isOldest : oldestEntryOf moment.book tenantId with
  | none => none
  | some oldest => some ⟨oldest, by
      obtain ⟨e, member, _, isXid⟩ := mem_of_oldestEntryOf isOldest
      exact isXid ▸ moment.xactIsXid8 e member⟩

/-- The bounds a moment has. -/
def Moment.bounds (presentation : Presentation) (moment : Moment) (tenantId : String) :
    ReadBounds :=
  ⟨⟨moment.horizon, moment.horizonIsXid8⟩, moment.oldest tenantId, presentation.current⟩

theorem oldest_reads (moment : Moment) (tenantId : String) :
    ((oldestEntryOf moment.book tenantId).mapM fun oldest =>
      cursorFrom "min(xact_id)" (xidText oldest)) = .ok (moment.oldest tenantId) := by
  unfold Moment.oldest
  split
  · rename_i none
    rw [none]
    rfl
  · rename_i oldest isOldest
    obtain ⟨e, member, _, isXid⟩ := mem_of_oldestEntryOf isOldest
    have isXid8 : oldest < 18446744073709551616 := isXid ▸ moment.xactIsXid8 e member
    refine (congrArg _ isOldest).trans ?_
    change (cursorFrom "min(xact_id)" (xidText oldest)).map some = _
    rw [cursorFrom_xidText isXid8]
    rfl

/-- Reading the bounds does not fail: both are an `xid8`'s own text. -/
theorem readBoundsAt_eq (presentation : Presentation) (moment : Moment) (tenantId : String) :
    readBoundsAt presentation moment tenantId = .ok (moment.bounds presentation tenantId) := by
  rw [readBoundsAt, cursorFrom_xidText moment.horizonIsXid8, oldest_reads]
  rfl

end OpenLedger
