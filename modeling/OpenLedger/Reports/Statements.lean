import OpenLedger.Reports.Position

/-!
# The statements

The chart's presentation, the balance sheet as at an instant and the income
statement over a range.  Both enumerate their lines from the chart outward, and
both refuse a chart version that does not present a type with posted entries.
-/

namespace OpenLedger

open Postgres

/-- `fs_lines.statement`. -/
inductive FsStatement where
  | balanceSheet
  | incomeStatement
deriving DecidableEq, Repr

/-- `fs_lines.side`. -/
inductive FsSide where
  | asset
  | liability
  | equity
  | credit
  | debit
deriving DecidableEq, Repr

namespace FsSide

def canonical : FsSide → String
  | asset => "asset"
  | liability => "liability"
  | equity => "equity"
  | credit => "credit"
  | debit => "debit"

/-- `ck_fs_lines__side_matches_statement`. -/
def matchesStatement : FsSide → FsStatement → Bool
  | asset, .balanceSheet => true
  | liability, .balanceSheet => true
  | equity, .balanceSheet => true
  | credit, .incomeStatement => true
  | debit, .incomeStatement => true
  | _, _ => false

end FsSide

/-- `fs_lines`. -/
structure FsLine where
  chartVersion : Int
  code : String
  caption : String
  statement : FsStatement
  side : FsSide
  sortOrder : Int
deriving DecidableEq, Repr

def FsLine.primaryKey (line : FsLine) : Option (Int × String) :=
  some (line.chartVersion, line.code)

/-- `chart_presentation`. -/
structure PresentationRow where
  chartVersion : Int
  typeCode : String
  category : Category
  counterpartyScope : CounterpartyScope
  fsLine : String
  fsLineContra : Option String
deriving DecidableEq, Repr

namespace PresentationRow

def primaryKey (row : PresentationRow) : Option (Int × String) :=
  some (row.chartVersion, row.typeCode)

/-- `fs_statement`, generated. -/
def fsStatement (row : PresentationRow) : FsStatement :=
  if row.category.isTemporary then .incomeStatement else .balanceSheet

/-- `fs_side`, generated. -/
def fsSide (row : PresentationRow) : FsSide :=
  match row.category with
  | .revenue => .credit
  | .expense => .debit
  | .asset => .asset
  | .liability => .liability
  | .equity => .equity

/-- `fs_side_contra`, generated. -/
def fsSideContra (row : PresentationRow) : Option FsSide :=
  match row.fsLineContra, row.category with
  | none, _ => none
  | some _, .asset => some .liability
  | some _, .liability => some .asset
  | some _, _ => none

end PresentationRow

/-- A category that can swing to the other side of the balance sheet. -/
def Category.swings : Category → Bool
  | .asset => true
  | .liability => true
  | _ => false

/-- The chart versions and what each presents where, under the keys and checks
of their tables. -/
structure Presentation where
  versions : List Int
  lines : List FsLine
  rows : List PresentationRow
  pkFsLines : UniqueIndex.Holds FsLine.primaryKey lines
  fkFsLinesVersion : ∀ line ∈ lines, line.chartVersion ∈ versions
  ckFsLinesCodeReserved : ∀ line ∈ lines, line.code ≠ "current_year_earnings"
  ckFsLinesSideMatchesStatement : ∀ line ∈ lines,
    line.side.matchesStatement line.statement = true
  pkPresentation : UniqueIndex.Holds PresentationRow.primaryKey rows
  fkPresentationVersion : ∀ row ∈ rows, row.chartVersion ∈ versions
  fkPresentationFsLine : ∀ row ∈ rows, ∃ line ∈ lines,
    line.chartVersion = row.chartVersion ∧ line.code = row.fsLine ∧
      line.statement = row.fsStatement ∧ line.side = row.fsSide
  fkPresentationFsLineContra : ∀ row ∈ rows, ∀ contra, row.fsLineContra = some contra →
    ∀ side, row.fsSideContra = some side → ∃ line ∈ lines,
      line.chartVersion = row.chartVersion ∧ line.code = contra ∧
        line.statement = row.fsStatement ∧ line.side = side
  ckContraRequiredForPerShard : ∀ row ∈ rows,
    row.counterpartyScope = .perShard → row.fsLineContra.isSome = true
  ckContraIsBalanceSheet : ∀ row ∈ rows,
    row.fsLineContra.isSome = true → row.category.swings = true
  ckPerShardIsBalanceSheet : ∀ row ∈ rows,
    row.counterpartyScope = .perShard → row.category.swings = true

namespace Presentation

/-- `fk_presentation__type`: a presented type is the chart's own. -/
def Presents (presentation : Presentation) (chart : Chart) : Prop :=
  ∀ row ∈ presentation.rows, ∃ type ∈ chart.types,
    type.code = row.typeCode ∧ type.category = row.category ∧
      type.counterpartyScope = row.counterpartyScope

/-- `SELECT max(version) FROM chart_versions`. -/
def current (presentation : Presentation) : Option Int := presentation.versions.max?

/-- The row presenting a type at a version. -/
def row? (presentation : Presentation) (version : Int) (typeCode : String) :
    Option PresentationRow :=
  presentation.rows.find? fun row =>
    decide (row.chartVersion = version) && decide (row.typeCode = typeCode)

/-- The lines of one statement at a version. -/
def linesOf (presentation : Presentation) (version : Int) (statement : FsStatement) :
    List FsLine :=
  presentation.lines.filter fun line =>
    decide (line.chartVersion = version) && decide (line.statement = statement)

end Presentation

/-- What a report function raises. -/
structure Raised where
  errcode : String
  message : String
deriving DecidableEq, Repr

def checkViolation : String := "23514"

namespace Raised

def noChartVersion : Raised :=
  ⟨checkViolation, "no chart version exists: seed a chart before running a statement"⟩

def chartVersionUnknown (version : Int) : Raised :=
  ⟨checkViolation, "chart version " ++ toString version ++ " does not exist"⟩

/-- The A14 refusal, `scope` being the statement's own words. -/
def typeUnpresented (version : Int) (scope : String) : Raised :=
  ⟨checkViolation, "chart version " ++ toString version ++
    " does not present every account type with posted entries " ++ scope ++
      " (chart_lint.type_unpresented)"⟩

end Raised

/-- The version a statement runs at: the one named, or the current one. -/
def resolveVersion (presentation : Presentation) (version : Option Int) : Except Raised Int :=
  match version.or presentation.current with
  | none => .error Raised.noChartVersion
  | some resolved =>
      if resolved ∈ presentation.versions then .ok resolved
      else .error (Raised.chartVersionUnknown resolved)

/-- The currencies a tenant holds an account in: `scopes`. -/
def scopesOf (book : Book) (tenantId : String) : List String :=
  ((book.accounts.filter fun l => decide (l.tenantId = tenantId)).map AccountRow.currency).dedup

/-- One row of a statement face. -/
structure StatementRow where
  tenantId : String
  currency : String
  chartVersion : Int
  fsLine : String
  caption : String
  sortOrder : Int
  amountMinor : Int
  side : FsSide
  pinnedCursor : Xid
deriving DecidableEq, Repr

/-- `ORDER BY 1, 2, 6`. -/
def StatementRow.rank (row : StatementRow) : String ×ₗ String ×ₗ Int :=
  toLex (row.tenantId, toLex (row.currency, row.sortOrder))

def orderedFace (rows : List StatementRow) : List StatementRow :=
  rows.insertionSort fun left right => left.rank ≤ right.rank

/-- A position beside what the chart presents its account's type as. -/
structure PresentedPosition where
  currency : String
  accountId : Uuid
  category : Category
  counterpartyScope : CounterpartyScope
  fsLine : String
  fsLineContra : Option String
  v : Int
deriving DecidableEq, Repr

namespace PresentedPosition

/-- Whether the position stands against its category. -/
def isSwung (pos : PresentedPosition) : Bool :=
  pos.fsLineContra.isSome &&
    ((decide (pos.category = .asset) && decide (pos.v < 0)) ||
      (decide (pos.category = .liability) && decide (0 < pos.v)))

/-- `dp.fs_line`: the contra line once the position has swung. -/
def presentedOn (pos : PresentedPosition) : String :=
  if pos.isSwung then pos.fsLineContra.getD pos.fsLine else pos.fsLine

end PresentedPosition

/-- `pos`: the position joined to its accounts and to the chart. -/
def presentedPositions (presentation : Presentation) (book : Book) (tenantId : String)
    (asOf : ReportInstant) (cursor : Xid) (version : Int) : List PresentedPosition :=
  (checkpointPosition book tenantId asOf cursor).filterMap fun q =>
    (book.account? tenantId q.accountId q.currency).bind fun a =>
      (presentation.row? version a.purpose).map fun p =>
        { currency := q.currency
          accountId := q.accountId
          category := p.category
          counterpartyScope := p.counterpartyScope
          fsLine := p.fsLine
          fsLineContra := p.fsLineContra
          v := q.debits - q.credits }

/-- Whether a position with posted entries has no presentation: the A14 guard of
the balance sheet. -/
def hasUnpresentedPosition (presentation : Presentation) (book : Book) (tenantId : String)
    (asOf : ReportInstant) (cursor : Xid) (version : Int) : Bool :=
  (checkpointPosition book tenantId asOf cursor).any fun q =>
    decide (0 < q.debits + q.credits) &&
      (book.account? tenantId q.accountId q.currency).any fun a =>
        (presentation.row? version a.purpose).isNone

/-- `lines`: what one line of the face holds of one currency. -/
def faceAmount (positions : List PresentedPosition) (currency : String) (line : FsLine) : Int :=
  Tally.sumWhere (fun d => decide (d.currency = currency) && decide (d.presentedOn = line.code))
    (fun d => if line.side = .asset then d.v else -d.v) positions

/-- `plug`: the undistributed earnings of one currency. -/
def plugAmount (positions : List PresentedPosition) (currency : String) : Int :=
  -Tally.sumWhere (fun pp => decide (pp.currency = currency) && pp.category.isTemporary)
    PresentedPosition.v positions

/-- The rows of the balance-sheet face. -/
def balanceSheetFace (presentation : Presentation) (tenantId : String) (cursor : Xid)
    (version : Int) (scopes : List String) (positions : List PresentedPosition) :
    List StatementRow :=
  (scopes.flatMap fun currency =>
    (presentation.linesOf version .balanceSheet).map fun f =>
      { tenantId, currency, chartVersion := version, fsLine := f.code, caption := f.caption
        sortOrder := f.sortOrder, amountMinor := faceAmount positions currency f
        side := f.side, pinnedCursor := cursor }) ++
    scopes.map fun currency =>
      { tenantId, currency, chartVersion := version, fsLine := "current_year_earnings"
        caption := "Undistributed earnings (since inception)", sortOrder := 9000
        amountMinor := plugAmount positions currency, side := .equity, pinnedCursor := cursor }

/-- `balance_sheet_at`. -/
def balanceSheetAt (presentation : Presentation) (book : Book) (tenantId : String)
    (asOf : ReportInstant) (cursor : Xid) (chartVersion : Option Int) :
    Except Raised (List StatementRow) :=
  match resolveVersion presentation chartVersion with
  | .error raised => .error raised
  | .ok version =>
      if hasUnpresentedPosition presentation book tenantId asOf cursor version then
        .error (Raised.typeUnpresented version "as at this instant")
      else
        .ok <| orderedFace <|
          balanceSheetFace presentation tenantId cursor version (scopesOf book tenantId)
            (presentedPositions presentation book tenantId asOf cursor version)

/-- Whether an entry is in an income statement's window. -/
def inWindow (book : Book) (tenantId : String) (fromAt toAt : ReportInstant) (cursor : Xid)
    (e : EntryRow) : Bool :=
  book.isPosted e && decide (e.tenantId = tenantId) && fromAt.isReachedBy e.effectiveAt &&
    toAt.isAfter e.effectiveAt && decide (e.xactId < cursor)

/-- Whether an entry is a leg of some period's close. -/
def isClosingLeg (book : Book) (e : EntryRow) : Bool :=
  book.closes.any fun c =>
    decide (c.tenantId = e.tenantId) && decide (c.transactionId = e.transactionId)

/-- An entry of a window beside what the chart presents its account's type as. -/
structure PresentedFlow where
  entry : EntryRow
  presented : PresentationRow

/-- The joins and the `WHERE` of the income statement's `dp`. -/
def presentedFlows (presentation : Presentation) (book : Book) (tenantId : String)
    (fromAt toAt : ReportInstant) (cursor : Xid) (version : Int) : List PresentedFlow :=
  (book.entries.filter fun e =>
      inWindow book tenantId fromAt toAt cursor e && !isClosingLeg book e).filterMap
    fun e =>
      (book.account? e.tenantId e.accountId e.currency).bind fun a =>
        (presentation.row? version a.purpose).map fun p => ⟨e, p⟩

/-- Whether an account with an entry in the window has no presentation: the A14
guard of the income statement. -/
def hasUnpresentedFlow (presentation : Presentation) (book : Book) (tenantId : String)
    (fromAt toAt : ReportInstant) (cursor : Xid) (version : Int) : Bool :=
  book.entries.any fun e =>
    inWindow book tenantId fromAt toAt cursor e &&
      (book.account? e.tenantId e.accountId e.currency).any fun a =>
        (presentation.row? version a.purpose).isNone

/-- What one line of the income statement holds of one currency.  `dp` groups by
line before the outer join sums the groups: one sum either way. -/
def flowAmount (flows : List PresentedFlow) (currency : String) (line : FsLine) : Int :=
  (if line.side = .credit then -1 else 1) *
    Tally.sumWhere (fun d =>
      decide (d.entry.currency = currency) && decide (d.presented.fsLine = line.code))
      (fun d => d.entry.signed) flows

/-- The rows of the income statement. -/
def incomeStatementFace (presentation : Presentation) (tenantId : String) (cursor : Xid)
    (version : Int) (scopes : List String) (flows : List PresentedFlow) : List StatementRow :=
  scopes.flatMap fun currency =>
    (presentation.linesOf version .incomeStatement).map fun f =>
      { tenantId, currency, chartVersion := version, fsLine := f.code, caption := f.caption
        sortOrder := f.sortOrder, amountMinor := flowAmount flows currency f
        side := f.side, pinnedCursor := cursor }

/-- `income_statement_for`. -/
def incomeStatementFor (presentation : Presentation) (book : Book) (tenantId : String)
    (fromAt toAt : ReportInstant) (cursor : Xid) (chartVersion : Option Int) :
    Except Raised (List StatementRow) :=
  match resolveVersion presentation chartVersion with
  | .error raised => .error raised
  | .ok version =>
      if hasUnpresentedFlow presentation book tenantId fromAt toAt cursor version then
        .error (Raised.typeUnpresented version "in this window")
      else
        .ok <| orderedFace <|
          incomeStatementFace presentation tenantId cursor version (scopesOf book tenantId)
            (presentedFlows presentation book tenantId fromAt toAt cursor version)

end OpenLedger
