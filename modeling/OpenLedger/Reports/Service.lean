import OpenLedger.Lib.Program
import OpenLedger.Lib.Unicode
import OpenLedger.Reports.Store

/-!
# The report service

The read path's use-cases over the port.  What they own is the cursor rule: an
absent cursor is pinned at the horizon, a supplied one is refused unless it is
an `xid8` within the book's bounds, and the cursor used is answered.
-/

namespace OpenLedger

/-- What a read can answer instead of the book. -/
inductive ReadError where
  | invalidRequest (detail : String)
  | cursorInvalid (detail : String)
  | chartVersionUnknown (detail : String)
  | chartVersionIncomplete (detail : String)
  | accountUnknown (accountId : Uuid) (currency : Option String)
  | tenantMismatch (requested scopedTo : String)
  | reportTimedOut
  | storage (failure : ReadFailure)
deriving DecidableEq, Repr

/-- Whether an error blames the request or its cursor. -/
def ReadError.blamesTheRequest : ReadError → Bool
  | invalidRequest _ => true
  | cursorInvalid _ => true
  | _ => false

structure TrialBalanceQuery where
  tenantId : String
  effectiveFrom : OffsetDateTime
  effectiveTo : OffsetDateTime
  cursor : Option String

structure BalanceSheetQuery where
  tenantId : String
  asOf : OffsetDateTime
  cursor : Option String
  chartVersion : Option Int

structure IncomeStatementQuery where
  tenantId : String
  effectiveFrom : OffsetDateTime
  effectiveTo : OffsetDateTime
  cursor : Option String
  chartVersion : Option Int

structure AccountStatementQuery where
  tenantId : String
  accountId : Uuid
  axis : Option String
  cursor : Option String
  effectiveFrom : Option OffsetDateTime
  effectiveTo : Option OffsetDateTime
  limit : Option Int
  after : Option String

structure CursorQuery where
  tenantId : String

structure TrialBalance where
  pinnedCursor : Cursor
  rows : List TrialBalanceLine

structure Statement where
  pinnedCursor : Cursor
  chartVersion : Int
  lines : List StatementLine

structure AccountStatement where
  pinnedCursor : Cursor
  axis : StatementAxis
  entries : List AccountStatementEntry
  nextAfter : Option StatementKey

/-- `{:?}` of a string. -/
def debugText (text : String) : String :=
  let escaped (character : Char) : List Char :=
    let code := character.toNat
    if code = 0 then "\\0".toList
    else if code = 9 then "\\t".toList
    else if code = 10 then "\\n".toList
    else if code = 13 then "\\r".toList
    else if code = 34 ∨ code = 92 then [Char.ofNat 92, character]
    else if code < 32 ∨ code = 127 ∨ 128 ≤ code ∧ Unicode.isEscaped code = true then
      "\\u\x7b".toList ++ Nat.toDigits 16 code ++ "\x7d".toList
    else [character]
  String.ofList ([Char.ofNat 34] ++ text.toList.flatMap escaped ++ [Char.ofNat 34])

/-- A use-case over the read port, which may stop with an error. -/
abbrev Reading (α : Type) := ExceptT ReadError (Program ReadRequest ReadRequest.Reply) α

/-- Storage's refusal in the inbound port's grammar. -/
def refused : ReportRefusal → ReadError
  | .chartVersionUnknown detail => .chartVersionUnknown detail
  | .chartVersionIncomplete detail => .chartVersionIncomplete detail
  | .invalidRequest detail => .invalidRequest detail
  | .timedOut => .reportTimedOut
  | .storage failure => .storage failure

/-- One statement of the port. -/
def askStore (request : ReadRequest) : Reading (Scoped request.Answer) :=
  ExceptT.mk <| .ask request fun reply => .done (reply.mapError refused)

/-- A judgement that asks nothing. -/
def judge {α : Type} (judged : Except ReadError α) : Reading α := ExceptT.mk (.done judged)

/-- The scope the session held against the tenant the request named. -/
def answeredForTheTenantThatAsked {α : Type} (requested : String) (inScope : Scoped α) :
    Except ReadError α :=
  if inScope.tenantId = requested then .ok inScope.answer
  else .error (.tenantMismatch requested inScope.tenantId)

@[simp]
theorem answered_sameTenant {α : Type} (tenantId : String) (answer : α) :
    answeredForTheTenantThatAsked tenantId ⟨tenantId, answer⟩ = .ok answer := if_pos rfl

/-- The horizon, the floor and the book's chart version. -/
def boundsForTheBook (tenantId : String) : Reading ReadBounds := do
  let inScope ← askStore (.readBounds tenantId)
  judge (answeredForTheTenantThatAsked tenantId inScope)

/-- The cursor rule, whole. -/
def pinTheCursorOrRefuseAnImplausibleOne (supplied : Option String) (bounds : ReadBounds) :
    Except ReadError Cursor :=
  match supplied with
  | none => .ok bounds.horizon
  | some supplied =>
      match Cursor.parse supplied with
      | none => .error <| .invalidRequest <|
          "cursor " ++ debugText supplied ++ " is not an xid8; a cursor is the decimal " ++
            "commit position a report was pinned at, as returned in pinned_cursor"
      | some cursor =>
          if bounds.horizon < cursor then
            .error <| .cursorInvalid <|
              "cursor " ++ cursor.text ++ " is above this cluster's report horizon (" ++
                bounds.horizon.text ++ "); nothing at or above the horizon has finished " ++
                "committing, so a report pinned there is not reproducible"
          else
            match bounds.oldestEntry with
            | some oldest =>
                if cursor ≤ oldest then
                  .error <| .cursorInvalid <|
                    "cursor " ++ cursor.text ++ " is at or below the oldest entry on this " ++
                      "book (" ++ oldest.text ++ "); a report is filtered xact_id < cursor, " ++
                      "so this admits nothing and would answer an all-zero, perfectly " ++
                      "balanced book"
                else .ok cursor
            | none => .ok cursor

/-- The chart version a statement is presented at is named, on every call. -/
def nameTheChartVersionOrRefuseAnUnseededBook (askedFor : Option Int) (bounds : ReadBounds) :
    Except ReadError Int :=
  match askedFor.or bounds.chartVersion with
  | some version => .ok version
  | none => .error <| .chartVersionUnknown
      "this database has no chart version: seed a chart before running a statement"

def trialBalance (query : TrialBalanceQuery) : Reading TrialBalance := do
  let bounds ← boundsForTheBook query.tenantId
  let cursor ← judge (pinTheCursorOrRefuseAnImplausibleOne query.cursor bounds)
  let inScope ← askStore (.trialBalance
    ⟨query.tenantId, query.effectiveFrom, query.effectiveTo, cursor⟩)
  let rows ← judge (answeredForTheTenantThatAsked query.tenantId inScope)
  return ⟨cursor, rows⟩

def balanceSheet (query : BalanceSheetQuery) : Reading Statement := do
  let bounds ← boundsForTheBook query.tenantId
  let cursor ← judge (pinTheCursorOrRefuseAnImplausibleOne query.cursor bounds)
  let chartVersion ← judge (nameTheChartVersionOrRefuseAnUnseededBook query.chartVersion bounds)
  let inScope ← askStore (.balanceSheet ⟨query.tenantId, query.asOf, cursor, chartVersion⟩)
  let lines ← judge (answeredForTheTenantThatAsked query.tenantId inScope)
  return ⟨cursor, chartVersion, lines⟩

def incomeStatement (query : IncomeStatementQuery) : Reading Statement := do
  let bounds ← boundsForTheBook query.tenantId
  let cursor ← judge (pinTheCursorOrRefuseAnImplausibleOne query.cursor bounds)
  let chartVersion ← judge (nameTheChartVersionOrRefuseAnUnseededBook query.chartVersion bounds)
  let inScope ← askStore (.incomeStatement
    ⟨query.tenantId, query.effectiveFrom, query.effectiveTo, cursor, chartVersion⟩)
  let lines ← judge (answeredForTheTenantThatAsked query.tenantId inScope)
  return ⟨cursor, chartVersion, lines⟩

/-- The commit horizon alone. -/
def cursor (query : CursorQuery) : Reading Cursor := do
  let inScope ← askStore (.reportCursor query.tenantId)
  judge (answeredForTheTenantThatAsked query.tenantId inScope)

/-- The page size to read at: the caller's, the default, or a refusal naming the
window. -/
def pageSizeOrRefuseOneOutsideTheWindow (askedFor : Option Int) (aPage atMost : Int) :
    Except ReadError Int :=
  match askedFor with
  | none => .ok aPage
  | some limit =>
      if 1 ≤ limit ∧ limit ≤ atMost then .ok limit
      else .error <| .invalidRequest <|
        "limit " ++ toString limit ++ " is outside 1..=" ++ toString atMost ++
          "; omit it for " ++ toString aPage

def entriesPerPage : Int := 100

def mostEntriesPerPage : Int := 1000

/-- The axis is a parameter with two named values, and there is no default. -/
def theAxisTheCallerNamedOrRefuseToPickOne (named : Option String) :
    Except ReadError StatementAxis :=
  match named with
  | none => .error <| .invalidRequest <|
      "axis is required: name `recorded` (commit order, what the ledger learnt and when) " ++
        "or `effective` (business order, what the entries are dated). There is no default — " ++
        "whichever one were chosen for you would be the axis you did not think about"
  | some named =>
      match StatementAxis.parse named with
      | some axis => .ok axis
      | none => .error <| .invalidRequest <|
          "axis " ++ debugText named ++
            " is not an axis of this ledger; it is `recorded` or `effective`"

/-- The `after` a caller sent back, read against the axis they are paging. -/
def thePageKeyOfThisAxisOrRefuseAForeignOne (parseUuid : String → Option Uuid)
    (after : Option String) (axis : StatementAxis) : Except ReadError (Option StatementKey) :=
  match after with
  | none => .ok none
  | some after =>
      match StatementKey.parse parseUuid after axis with
      | some key => .ok (some key)
      | none => .error <| .invalidRequest <|
          "after " ++ debugText after ++ " is not a page key of the " ++ axis.named ++
            " axis; send back the `next_after` an earlier page of this same axis answered " ++
            "with, unchanged"

/-- The half-open effective range, which only the effective axis takes. -/
def theRangeOnlyTheEffectiveAxisTakes (query : AccountStatementQuery) (axis : StatementAxis) :
    Except ReadError (Option OffsetDateTime × Option OffsetDateTime) :=
  if axis = .recorded ∧ (query.effectiveFrom.isSome ∨ query.effectiveTo.isSome) then
    .error <| .invalidRequest <|
      "effective_from and effective_to filter the effective axis; on axis=recorded the page " ++
        "is ordered and bounded by commit position, and a business-date window there would " ++
        "be a filter over the account's whole history. Ask for axis=effective, or drop the " ++
        "range"
  else .ok (query.effectiveFrom, query.effectiveTo)

/-- The last row of a full page, as its own axis's key, and nothing otherwise. -/
def theKeyOfTheNextPageOfEntries (entries : List AccountStatementEntry) (limit : Int)
    (axis : StatementAxis) : Option StatementKey :=
  if 0 ≤ limit ∧ limit.toNat ≤ entries.length then
    entries.getLast?.map fun last =>
      match axis with
      | .recorded => .recorded last.xactId last.entryId
      | .effective => .effective last.effectiveAt last.xactId last.entryId
  else none

/-- What an account statement's request says, judged on its own face. -/
structure StatementFace where
  axis : StatementAxis
  limit : Int
  after : Option StatementKey
  effectiveFrom : Option OffsetDateTime
  effectiveTo : Option OffsetDateTime

/-- Everything the request can be refused for before any statement runs. -/
def faceOfTheRequest (parseUuid : String → Option Uuid) (query : AccountStatementQuery) :
    Except ReadError StatementFace := do
  let axis ← theAxisTheCallerNamedOrRefuseToPickOne query.axis
  let limit ← pageSizeOrRefuseOneOutsideTheWindow query.limit entriesPerPage mostEntriesPerPage
  let after ← thePageKeyOfThisAxisOrRefuseAForeignOne parseUuid query.after axis
  let (effectiveFrom, effectiveTo) ← theRangeOnlyTheEffectiveAxisTakes query axis
  return ⟨axis, limit, after, effectiveFrom, effectiveTo⟩

/-- One page of one account's entries, on the axis the caller named. -/
def accountStatement (parseUuid : String → Option Uuid) (query : AccountStatementQuery) :
    Reading AccountStatement := do
  let face ← judge (faceOfTheRequest parseUuid query)
  let bounds ← boundsForTheBook query.tenantId
  let cursor ← judge (pinTheCursorOrRefuseAnImplausibleOne query.cursor bounds)
  let inScope ← askStore (.accountStatement
    ⟨query.tenantId, query.accountId, face.axis, cursor, face.effectiveFrom, face.effectiveTo,
      face.limit, face.after⟩)
  let found ← judge (answeredForTheTenantThatAsked query.tenantId inScope)
  match found with
  | none => judge (.error (.accountUnknown query.accountId none))
  | some entries =>
      return ⟨cursor, face.axis, entries,
        theKeyOfTheNextPageOfEntries entries face.limit face.axis⟩

@[simp]
theorem run_askStore_bind {α : Type} (request : ReadRequest)
    (next : Scoped request.Answer → Reading α) :
    (askStore request >>= next).run =
      .ask request fun reply =>
        match reply with
        | .error failure => .done (.error (refused failure))
        | .ok inScope => (next inScope).run := by
  rw [ExceptT.run_bind]
  simp only [askStore, ExceptT.run_mk, Program.ask_bind]
  congr 1
  funext reply
  cases reply <;> rfl

@[simp]
theorem run_judge {α : Type} (judged : Except ReadError α) :
    (judge judged).run = .done judged := rfl

@[simp]
theorem run_judge_bind {α β : Type} (judged : Except ReadError α) (next : α → Reading β) :
    (judge judged >>= next).run =
      match judged with
      | .error failure => .done (.error failure)
      | .ok answer => (next answer).run := by
  rw [ExceptT.run_bind]
  cases judged <;> rfl

@[simp]
theorem run_pure_reading {α : Type} (answer : α) :
    (pure answer : Reading α).run = .done (.ok answer) := rfl

end OpenLedger
