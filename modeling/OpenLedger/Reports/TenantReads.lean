import OpenLedger.Isolation
import OpenLedger.Reports.AccountListing
import OpenLedger.Reports.CursorRule

/-!
# Reports and their tenant

Every report about a tenant reads from that tenant's rows what it reads from the
whole book, so no other tenant's row is in any figure of it.
-/

namespace OpenLedger

open Postgres

variable {mine : String → Bool} {tenantId : String}

/-! ## Positions -/

section Positions

variable (isMine : mine tenantId = true) (book : Book)

include isMine

theorem trialEntries_within (fromAt toAt : ReportInstant) (cursor : Xid) :
    trialEntries (book.within mine) tenantId fromAt toAt cursor =
      trialEntries book tenantId fromAt toAt cursor := by
  have foreign : ∀ e : EntryRow, mine e.tenantId = false →
      ((book.account? e.tenantId e.accountId e.currency).bind fun a =>
        if a.tenantId = tenantId then
          (book.chart.type? a.purpose).map fun t => (⟨e, a, t⟩ : TrialEntry)
        else none) = none := by
    intro e outside
    refine Option.bind_eq_none_iff.mpr fun a found => if_neg fun ofTenant => ?_
    rw [(account?_spec found).2.1] at ofTenant
    rw [ofTenant, isMine] at outside
    cases outside
  unfold trialEntries
  rw [List.filterMap_filter, List.filterMap_filter, Book.within, List.filterMap_filter]
  refine List.filterMap_congr fun e _ => ?_
  cases inside : mine e.tenantId with
  | true =>
      have posted := Book.isPosted_within book inside
      have account := Book.account?_within book inside e.accountId e.currency
      rw [Book.within] at posted account
      rw [if_pos rfl, posted, account]
  | false =>
      rw [foreign e inside]
      simp

theorem trialBalanceAt_within (fromAt toAt : ReportInstant) (cursor : Xid) :
    trialBalanceAt (book.within mine) tenantId fromAt toAt cursor =
      trialBalanceAt book tenantId fromAt toAt cursor := by
  rw [trialBalanceAt, trialBalanceAt, trialEntries_within isMine]

theorem anchorOf_within (currency : String) (asOf : ReportInstant) (cursor : Xid) :
    anchorOf (book.within mine) tenantId currency asOf cursor =
      anchorOf book tenantId currency asOf cursor := by
  have may : mayAnchor (book.within mine) tenantId currency asOf cursor =
      mayAnchor book tenantId currency asOf cursor := by
    funext k
    by_cases tenant : k.tenantId = tenantId
    · have ofMine : mine k.tenantId = true := by
        rw [tenant]
        exact isMine
      rw [mayAnchor, mayAnchor, Book.transaction?_within book ofMine]
    · simp [mayAnchor, tenant]
  have closes : (book.within mine).closes.filter (mayAnchor book tenantId currency asOf cursor) =
      book.closes.filter (mayAnchor book tenantId currency asOf cursor) :=
    Fence.filter_within (fun k holds => by
      simp only [mayAnchor, Bool.and_eq_true, decide_eq_true_eq] at holds
      rw [holds.1.1.1.1]
      exact isMine) _
  rw [anchorOf, anchorOf, may, closes]

theorem accountsOf_within :
    (book.within mine).accounts.filter (fun l => decide (l.tenantId = tenantId)) =
      book.accounts.filter fun l => decide (l.tenantId = tenantId) :=
  Fence.filter_within (fun l holds => by
    rw [of_decide_eq_true holds]
    exact isMine) _

theorem checkpointAnchor_within (asOf : ReportInstant) (cursor : Xid) :
    checkpointAnchor (book.within mine) tenantId asOf cursor =
      checkpointAnchor book tenantId asOf cursor := by
  simp only [checkpointAnchor, accountsOf_within isMine, anchorOf_within isMine]

theorem checkpointTerms_within (a : Anchor) :
    checkpointTerms (book.within mine) tenantId a = checkpointTerms book tenantId a := by
  unfold checkpointTerms
  congr 1
  exact Fence.filter_within (fun b holds => by
    simp only [Bool.and_eq_true, decide_eq_true_eq] at holds
    rw [holds.1.1]
    exact isMine) _

/-- The posted entries of a tenant that a tail keeps. -/
theorem postedEntries_within {keeps : EntryRow → Bool}
    (ofTenant : ∀ e, keeps e = true → e.tenantId = tenantId) :
    (book.within mine).entries.filter (fun e => keeps e && (book.within mine).isPosted e) =
      book.entries.filter fun e => keeps e && book.isPosted e := by
  have sameRows : (fun e => keeps e && (book.within mine).isPosted e) =
      fun e => keeps e && book.isPosted e := by
    funext e
    cases kept : keeps e with
    | false =>
        rfl
    | true =>
        have ofMine : mine e.tenantId = true := by
          rw [ofTenant e kept]
          exact isMine
        rw [Book.isPosted_within book ofMine]
  rw [sameRows]
  exact Fence.filter_within (fun e holds => by
    rw [Bool.and_eq_true] at holds
    rw [ofTenant e holds.1]
    exact isMine) _

theorem tailA_within (asOf : ReportInstant) (cursor : Xid) (a : Anchor) :
    tailA (book.within mine) tenantId asOf cursor a = tailA book tenantId asOf cursor a := by
  unfold tailA
  rw [postedEntries_within isMine book fun e holds => by
    simp only [Bool.and_eq_true, decide_eq_true_eq] at holds
    exact holds.1.1.1.1]

theorem tailB_within (cursor : Xid) (a : Anchor) :
    tailB (book.within mine) tenantId cursor a = tailB book tenantId cursor a := by
  unfold tailB
  rw [postedEntries_within isMine book fun e holds => by
    simp only [Bool.and_eq_true, decide_eq_true_eq] at holds
    exact holds.1.1.1.1.1]

theorem checkpointPosition_within (asOf : ReportInstant) (cursor : Xid) :
    checkpointPosition (book.within mine) tenantId asOf cursor =
      checkpointPosition book tenantId asOf cursor := by
  have terms : positionTerms (book.within mine) tenantId asOf cursor =
      positionTerms book tenantId asOf cursor := by
    have stored : checkpointTerms (book.within mine) tenantId = checkpointTerms book tenantId :=
      funext fun a => checkpointTerms_within isMine book a
    have above : tailA (book.within mine) tenantId asOf cursor =
        tailA book tenantId asOf cursor := funext fun a => tailA_within isMine book asOf cursor a
    have below : tailB (book.within mine) tenantId cursor = tailB book tenantId cursor :=
      funext fun a => tailB_within isMine book cursor a
    rw [positionTerms, positionTerms, checkpointAnchor_within isMine, stored, above, below]
  rw [checkpointPosition, checkpointPosition, terms]

end Positions

/-! ## Statements -/

section Statements

variable (presentation : Presentation) (isMine : mine tenantId = true) (book : Book)

include isMine

theorem scopesOf_within : scopesOf (book.within mine) tenantId = scopesOf book tenantId := by
  rw [scopesOf, scopesOf, accountsOf_within isMine]

theorem presentedPositions_within (asOf : ReportInstant) (cursor : Xid) (version : Int) :
    presentedPositions presentation (book.within mine) tenantId asOf cursor version =
      presentedPositions presentation book tenantId asOf cursor version := by
  simp only [presentedPositions, checkpointPosition_within isMine,
    Book.account?_within book isMine]

theorem hasUnpresentedPosition_within (asOf : ReportInstant) (cursor : Xid) (version : Int) :
    hasUnpresentedPosition presentation (book.within mine) tenantId asOf cursor version =
      hasUnpresentedPosition presentation book tenantId asOf cursor version := by
  simp only [hasUnpresentedPosition, checkpointPosition_within isMine,
    Book.account?_within book isMine]

theorem balanceSheetAt_within (asOf : ReportInstant) (cursor : Xid)
    (chartVersion : Option Int) :
    balanceSheetAt presentation (book.within mine) tenantId asOf cursor chartVersion =
      balanceSheetAt presentation book tenantId asOf cursor chartVersion := by
  simp only [balanceSheetAt, hasUnpresentedPosition_within presentation isMine,
    scopesOf_within isMine, presentedPositions_within presentation isMine]

/-- Whether a tenant's entry is in a window, and a leg of one of its closes. -/
theorem inWindow_within (fromAt toAt : ReportInstant) (cursor : Xid) :
    inWindow (book.within mine) tenantId fromAt toAt cursor =
      inWindow book tenantId fromAt toAt cursor := by
  funext e
  by_cases tenant : e.tenantId = tenantId
  · have ofMine : mine e.tenantId = true := by
      rw [tenant]
      exact isMine
    rw [inWindow, inWindow, Book.isPosted_within book ofMine]
  · simp [inWindow, tenant]

theorem inWindow_mine {book : Book} {fromAt toAt : ReportInstant} {cursor : Xid} {e : EntryRow}
    (inside : inWindow book tenantId fromAt toAt cursor e = true) : mine e.tenantId = true := by
  simp only [inWindow, Bool.and_eq_true, decide_eq_true_eq] at inside
  rw [inside.1.1.1.2]
  exact isMine

theorem presentedFlows_within (fromAt toAt : ReportInstant) (cursor : Xid) (version : Int) :
    presentedFlows presentation (book.within mine) tenantId fromAt toAt cursor version =
      presentedFlows presentation book tenantId fromAt toAt cursor version := by
  have closing : ∀ e : EntryRow, mine e.tenantId = true →
      isClosingLeg (book.within mine) e = isClosingLeg book e := by
    intro e ofMine
    exact Fence.any_within (fun c holds => by
      rw [Bool.and_eq_true, decide_eq_true_eq] at holds
      rw [holds.1]
      exact ofMine) _
  have sameRows : (fun e => inWindow (book.within mine) tenantId fromAt toAt cursor e &&
        !isClosingLeg (book.within mine) e) =
      fun e => inWindow book tenantId fromAt toAt cursor e && !isClosingLeg book e := by
    funext e
    rw [inWindow_within isMine]
    cases inside : inWindow book tenantId fromAt toAt cursor e with
    | false =>
        rfl
    | true =>
        rw [closing e (inWindow_mine isMine inside)]
  have entries : (book.within mine).entries.filter (fun e =>
        inWindow book tenantId fromAt toAt cursor e && !isClosingLeg book e) =
      book.entries.filter fun e =>
        inWindow book tenantId fromAt toAt cursor e && !isClosingLeg book e :=
    Fence.filter_within (fun e holds => by
      rw [Bool.and_eq_true] at holds
      exact inWindow_mine isMine holds.1) _
  unfold presentedFlows
  rw [sameRows, entries]
  refine List.filterMap_congr fun e member => ?_
  have inside := (List.mem_filter.mp member).2
  rw [Bool.and_eq_true] at inside
  rw [Book.account?_within book (inWindow_mine isMine inside.1)]

theorem hasUnpresentedFlow_within (fromAt toAt : ReportInstant) (cursor : Xid)
    (version : Int) :
    hasUnpresentedFlow presentation (book.within mine) tenantId fromAt toAt cursor version =
      hasUnpresentedFlow presentation book tenantId fromAt toAt cursor version := by
  have sameRows : (fun e => inWindow (book.within mine) tenantId fromAt toAt cursor e &&
        ((book.within mine).account? e.tenantId e.accountId e.currency).any fun a =>
          (presentation.row? version a.purpose).isNone) =
      fun e => inWindow book tenantId fromAt toAt cursor e &&
        (book.account? e.tenantId e.accountId e.currency).any fun a =>
          (presentation.row? version a.purpose).isNone := by
    funext e
    rw [inWindow_within isMine]
    cases inside : inWindow book tenantId fromAt toAt cursor e with
    | false =>
        rfl
    | true =>
        rw [Book.account?_within book (inWindow_mine isMine inside)]
  unfold hasUnpresentedFlow
  rw [sameRows]
  exact Fence.any_within (fun e holds => by
    rw [Bool.and_eq_true] at holds
    exact inWindow_mine isMine holds.1) _

theorem incomeStatementFor_within (fromAt toAt : ReportInstant) (cursor : Xid)
    (chartVersion : Option Int) :
    incomeStatementFor presentation (book.within mine) tenantId fromAt toAt cursor
        chartVersion =
      incomeStatementFor presentation book tenantId fromAt toAt cursor chartVersion := by
  simp only [incomeStatementFor, hasUnpresentedFlow_within presentation isMine,
    scopesOf_within isMine, presentedFlows_within presentation isMine]

end Statements

/-! ## Pages -/

section Pages

variable (isMine : mine tenantId = true) (book : Book)

include isMine

theorem statementSqlRows_within (accountId : Uuid) {page : List EntryRow}
    (ofTenant : ∀ e ∈ page, e.tenantId = tenantId) :
    statementSqlRows (book.within mine) tenantId accountId page =
      statementSqlRows book tenantId accountId page := by
  have accounts : (book.within mine).accounts.filter (fun a =>
        decide (a.tenantId = tenantId) && decide (a.id = accountId)) =
      book.accounts.filter fun a => decide (a.tenantId = tenantId) && decide (a.id = accountId) :=
    Fence.filter_within (fun a holds => by
      rw [Bool.and_eq_true, decide_eq_true_eq] at holds
      rw [holds.1]
      exact isMine) _
  have entries : ∀ id : Uuid, page.map (fun e =>
        (⟨id, some e, (book.within mine).statusOf e⟩ : AccountStatementSqlRow)) =
      page.map fun e => ⟨id, some e, book.statusOf e⟩ := by
    intro id
    refine List.map_congr_left fun e member => ?_
    have ofMine : mine e.tenantId = true := by
      rw [ofTenant e member]
      exact isMine
    rw [Book.statusOf, Book.statusOf, Book.transaction?_within book ofMine]
  simp only [statementSqlRows, accounts, entries]

theorem accountStatementByRecorded_within (accountId : Uuid) (page : RecordedPage) :
    accountStatementByRecorded (book.within mine) tenantId accountId page =
      accountStatementByRecorded book tenantId accountId page := by
  have ofTenant : ∀ e : EntryRow, page.keeps tenantId accountId e = true →
      e.tenantId = tenantId := by
    intro e holds
    simp only [RecordedPage.keeps, Bool.and_eq_true, decide_eq_true_eq] at holds
    exact holds.1.1.1.1
  have entries : (book.within mine).entries.filter (page.keeps tenantId accountId) =
      book.entries.filter (page.keeps tenantId accountId) :=
    Fence.filter_within (fun e holds => by
      rw [ofTenant e holds]
      exact isMine) _
  unfold accountStatementByRecorded
  rw [entries, statementSqlRows_within isMine]
  intro e member
  have isKept := (List.mem_insertionSort _).mp (List.mem_of_mem_take member)
  exact ofTenant e (List.mem_filter.mp isKept).2

theorem accountStatementByEffective_within (accountId : Uuid) (page : EffectivePage) :
    accountStatementByEffective (book.within mine) tenantId accountId page =
      accountStatementByEffective book tenantId accountId page := by
  have ofTenant : ∀ e : EntryRow, page.keeps tenantId accountId e = true →
      e.tenantId = tenantId := by
    intro e holds
    simp only [EffectivePage.keeps, Bool.and_eq_true, decide_eq_true_eq] at holds
    exact holds.1.1.1.1.1.1
  have entries : (book.within mine).entries.filter (page.keeps tenantId accountId) =
      book.entries.filter (page.keeps tenantId accountId) :=
    Fence.filter_within (fun e holds => by
      rw [ofTenant e holds]
      exact isMine) _
  unfold accountStatementByEffective
  rw [entries, statementSqlRows_within isMine]
  intro e member
  have isKept := (List.mem_insertionSort _).mp (List.mem_of_mem_take member)
  exact ofTenant e (List.mem_filter.mp isKept).2

theorem oldestEntryOf_within :
    oldestEntryOf (book.within mine) tenantId = oldestEntryOf book tenantId := by
  have entries : (book.within mine).entries.filter (fun e => decide (e.tenantId = tenantId)) =
      book.entries.filter fun e => decide (e.tenantId = tenantId) :=
    Fence.filter_within (fun e holds => by
      rw [of_decide_eq_true holds]
      exact isMine) _
  rw [oldestEntryOf, oldestEntryOf, entries]

end Pages

theorem accountsAt_within (book : Book) {read : AccountListingRead}
    (isMine : mine read.tenantId = true) :
    accountsAt (book.within mine) read = accountsAt book read := by
  have rows : (book.within mine).accounts.filter (fun account =>
        read.after.all (fun after => decide (after < account.id)) && read.wants account) =
      book.accounts.filter fun account =>
        read.after.all (fun after => decide (after < account.id)) && read.wants account :=
    Fence.filter_within (fun account holds => by
      simp only [AccountListingRead.wants, Bool.and_eq_true, decide_eq_true_eq] at holds
      rw [holds.2.1.1]
      exact isMine) _
  rw [accountsAt, accountsAt, rows]

/-! ## Every read -/

section Reads

variable (presentation : Presentation) (timestamptz : String → Except NotATimestamp Timestamp)

/-- Whether a read answers the horizon of its moment.  A report is pinned to its
cursor instead. -/
def ReadRequest.readsHorizon : ReadRequest → Bool
  | reportCursor _ => true
  | readBounds _ => true
  | _ => false

/-- Two moments that show some tenants the same rows, and a read of theirs the same
horizon. -/
structure Moment.ShowsAlike (mine : String → Bool) (request : ReadRequest)
    (left right : Moment) : Prop where
  isMine : mine request.tenantId = true
  rows : left.book.within mine = right.book.within mine
  horizon : request.readsHorizon = true → left.horizon = right.horizon

omit presentation timestamptz in
/-- What reads the same from these tenants' rows reads alike where they are alike. -/
theorem alike_of_within {α : Type} (read : Book → α) {left right : Book}
    (within : ∀ book, read (book.within mine) = read book)
    (rows : left.within mine = right.within mine) : read left = read right := by
  rw [← within left, ← within right, rows]

/-- A report reads alike where its own tenant's rows are alike. -/
theorem storeAnswer_alike {left right : Moment} {request : ReadRequest}
    (alike : left.ShowsAlike mine request right) :
    storeAnswer presentation timestamptz left request =
      storeAnswer presentation timestamptz right request := by
  have isMine := alike.isMine
  have rows := alike.rows
  cases request with
  | reportCursor tenantId =>
      rw [storeAnswer, storeAnswer, alike.horizon rfl]
  | readBounds tenantId =>
      have oldest := alike_of_within (oldestEntryOf · tenantId)
        (oldestEntryOf_within isMine) rows
      rw [storeAnswer, storeAnswer, readBoundsAt, readBoundsAt, alike.horizon rfl, oldest]
  | trialBalance read =>
      have sameRows := alike_of_within (trialBalanceAt · read.tenantId
          (.at read.effectiveFrom.stored) (.at read.effectiveTo.stored) read.cursor.val)
        (fun book => trialBalanceAt_within isMine book _ _ _) rows
      rw [storeAnswer, storeAnswer, trialBalanceLines, trialBalanceLines, sameRows]
  | balanceSheet read =>
      have sameRows := alike_of_within (balanceSheetAt presentation · read.tenantId
          (.at read.asOf.stored) read.cursor.val (some read.chartVersion))
        (fun book => balanceSheetAt_within presentation isMine book _ _ _) rows
      rw [storeAnswer, storeAnswer, sameRows]
  | incomeStatement read =>
      have sameRows := alike_of_within (incomeStatementFor presentation · read.tenantId
          (.at read.effectiveFrom.stored) (.at read.effectiveTo.stored) read.cursor.val
          (some read.chartVersion))
        (fun book => incomeStatementFor_within presentation isMine book _ _ _ _) rows
      rw [storeAnswer, storeAnswer, sameRows]
  | accountStatement read =>
      have recorded := fun page => alike_of_within
        (accountStatementByRecorded · read.tenantId read.accountId page)
        (fun book => accountStatementByRecorded_within isMine book _ _) rows
      have effective := fun page => alike_of_within
        (accountStatementByEffective · read.tenantId read.accountId page)
        (fun book => accountStatementByEffective_within isMine book _ _) rows
      simp only [storeAnswer, accountStatementAt, recorded, effective]

omit presentation timestamptz in
theorem accountsAnswer_alike {left right : Book} {read : AccountListingRead}
    (isMine : mine read.tenantId = true) (rows : left.within mine = right.within mine) :
    accountsAnswer left read = accountsAnswer right read := by
  have page := alike_of_within (accountsAt · read)
    (fun book => accountsAt_within book isMine) rows
  rw [accountsAnswer, accountsAnswer, page]

end Reads

section Others

variable {sha256 : List UInt8 → List UInt8} {chart : Chart} {machine after : Machine}

/-- A sequence of steps, each of others than these tenants. -/
def Machine.othersSteps (sha256 : List UInt8 → List UInt8) (mine : String → Bool)
    (machine : Machine) (actions : List Action) : Option Machine :=
  actions.foldlM (fun machine action =>
    if machine.owns mine action = true then none else machine.step sha256 action) machine

/-- Whatever others do, these tenants' rows stay as they are. -/
theorem rows_of_others {actions : List Action} (interleaved : Interleaved sha256 chart machine)
    (ran : machine.othersSteps sha256 mine actions = some after)
    (ofOneTenant : ∀ session ∈ after.sessions, session.operation.OfOneTenant) :
    after.committed.within mine = machine.committed.within mine ∧
      ∀ session ∈ machine.sessions, session.operation.OfOneTenant := by
  induction actions generalizing machine with
  | nil =>
      obtain rfl : machine = after := by simpa [Machine.othersSteps] using ran
      exact ⟨rfl, ofOneTenant⟩
  | cons action actions inductionHypothesis =>
      rw [Machine.othersSteps, List.foldlM_cons] at ran
      obtain ⟨between, first, rest⟩ := Option.bind_eq_some_iff.mp ran
      by_cases owned : machine.owns mine action = true
      · rw [if_pos owned] at first
        cases first
      · rw [if_neg owned] at first
        obtain ⟨sameRows, ofOneBetween⟩ := inductionHypothesis (interleaved.step action first) rest
        have ofOne := ofOneTenant_before first ofOneBetween
        have unseen := (step_unseen (confined_of_interleaved interleaved) ofOne
          (by simpa using owned) first).1
        exact ⟨sameRows.trans (congrArg Machine.committed unseen), ofOne⟩

/-- Nothing others do changes what a tenant reads.  However many brackets of other
tenants open, fail and commit between two moments, a report pinned to one cursor is
the same at both, as is a page of the register, and so are the bounds where the
horizon has not moved. -/
theorem others_change_no_report {actions : List Action}
    (interleaved : Interleaved sha256 chart machine)
    (ran : machine.othersSteps sha256 mine actions = some after)
    (ofOneTenant : ∀ session ∈ after.sessions, session.operation.OfOneTenant)
    {here there : Moment} (isHere : here.book = machine.committed)
    (isThere : there.book = after.committed) (presentation : Presentation)
    (timestamptz : String → Except NotATimestamp Timestamp) :
    (∀ request : ReadRequest, mine request.tenantId = true →
        (request.readsHorizon = true → here.horizon = there.horizon) →
        storeAnswer presentation timestamptz here request =
          storeAnswer presentation timestamptz there request) ∧
      ∀ read : AccountListingRead, mine read.tenantId = true →
        accountsAnswer here.book read = accountsAnswer there.book read := by
  have sameRows := (rows_of_others interleaved ran ofOneTenant).1
  rw [← isHere, ← isThere] at sameRows
  constructor
  · intro request isMine horizon
    exact storeAnswer_alike presentation timestamptz ⟨isMine, sameRows.symm, horizon⟩
  · intro read isMine
    exact accountsAnswer_alike isMine sameRows.symm

end Others

namespace Shop

/-- The shop has posted a fee. -/
def feeSold : List Action := ready ++ session 4 5 (.post (command "fee" 1000 .posted none 70)) 3

/-- What the stall's opening leads on to. -/
def stallOpens : Machine :=
  ((machineAfter feeSold).othersSteps id (· == "shop") (session 5 6 stallTill 4)).getD
    (machineAfter feeSold)

theorem othersSteps_stallOpens :
    (machineAfter feeSold).othersSteps id (· == "shop") (session 5 6 stallTill 4) =
      some stallOpens := by
  have possible : ((machineAfter feeSold).othersSteps id (· == "shop")
      (session 5 6 stallTill 4)).isSome = true := by decide +kernel
  obtain ⟨later, stepped⟩ := Option.isSome_iff_exists.mp possible
  rw [stallOpens, stepped]
  rfl

def beforeStall : Moment where
  book := (machineAfter feeSold).committed
  horizon := (machineAfter feeSold).next
  horizonIsXid8 := by decide +kernel
  counted := by decide +kernel
  xactIsXid8 := by decide +kernel
  pkAccounts := by
    unfold UniqueIndex.Holds
    decide +kernel
  pkEntries := by
    unfold UniqueIndex.Holds
    decide +kernel
  fkEntriesTxn := by decide +kernel
  dated := by decide +kernel

def behindStall : Moment where
  book := stallOpens.committed
  horizon := stallOpens.next
  horizonIsXid8 := by decide +kernel
  counted := by decide +kernel
  xactIsXid8 := by decide +kernel
  pkAccounts := by
    unfold UniqueIndex.Holds
    decide +kernel
  pkEntries := by
    unfold UniqueIndex.Holds
    decide +kernel
  fkEntriesTxn := by decide +kernel
  dated := by decide +kernel

/-- The stall's account is in the book, and the shop's trial balance is as it was. -/
theorem stall_changes_no_report :
    stallOpens.committed.accounts.length = (machineAfter feeSold).committed.accounts.length + 1 ∧
      storeAnswer unpresented timestamptzIn beforeStall
          (.trialBalance ⟨"shop", ⟨0, 0⟩, ⟨31536000000000000, 0⟩, 6⟩) =
        storeAnswer unpresented timestamptzIn behindStall
          (.trialBalance ⟨"shop", ⟨0, 0⟩, ⟨31536000000000000, 0⟩, 6⟩) :=
  ⟨by decide +kernel,
    (others_change_no_report (interleaved_machineAfter feeSold) othersSteps_stallOpens
      (by decide +kernel) rfl rfl unpresented timestamptzIn).1 _ rfl nofun⟩

end Shop

end OpenLedger
