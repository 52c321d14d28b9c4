import OpenLedger.Reports.BalanceSheet

/-!
# The statements articulate

Both statements sum the same entries on temporary accounts: the balance sheet
all of them since inception, the income statement those of a window that no
close wrote.  So undistributed earnings move by net income, less what the
closes moved out; and a window cut in two is the sum of its halves.
-/

namespace OpenLedger

open Postgres

/-- What a face shows on a line, zero where it has no row. -/
def shownOn (face : List StatementRow) (currency fsLine : String) : Int :=
  ((face.find? fun row => decide (row.currency = currency) && decide (row.fsLine = fsLine)).map
    StatementRow.amountMinor).getD 0

/-- The credit-side lines of an income statement less the debit-side ones. -/
def netIncome (face : List StatementRow) (currency : String) : Int :=
  faceTotal face currency (fun side => decide (side = .credit)) -
    faceTotal face currency (fun side => decide (side = .debit))

/-- Whether an entry is on a temporary account. -/
def onTemporary (book : Book) (e : EntryRow) : Bool :=
  (book.account? e.tenantId e.accountId e.currency).any fun a => a.category.isTemporary

/-- The closing transactions effective in a window and below a cursor. -/
def isClosingIn (tenantId : String) (fromAt toAt : ReportInstant) (cursor : Xid)
    (x : TransactionRow) : Bool :=
  decide (x.tenantId = tenantId) && decide (x.kind = "period_close") &&
    fromAt.isReachedBy x.effectiveAt && toAt.isAfter x.effectiveAt && decide (x.xactId < cursor)

/-- What a transaction takes out of the temporary accounts of a currency, net. -/
def takenOut (book : Book) (currency : String) (x : TransactionRow) : Int :=
  Tally.sumWhere (fun e => decide (e.tenantId = x.tenantId) && decide (e.transactionId = x.id) &&
    decide (e.currency = currency) && onTemporary book e) EntryRow.signed book.entries

/-- What the closing transactions of a window take out of the temporary
accounts of a currency, net. -/
def movedOut (book : Book) (tenantId : String) (fromAt toAt : ReportInstant) (cursor : Xid)
    (currency : String) : Int :=
  Tally.sumWhere (isClosingIn tenantId fromAt toAt cursor) (takenOut book currency)
    book.transactions

section Earning

variable {book : Book} {tenantId : String} {cursor : Xid} {currency : String}

/-- Undistributed earnings are the entries on temporary accounts. -/
theorem undistributedEarnings_eq (kept : Kept book) (asOf : ReportInstant) :
    undistributedEarnings book tenantId asOf cursor currency =
      -Tally.sumWhere (fun e => inceptionAdmits book tenantId asOf cursor e &&
        decide (e.currency = currency) && onTemporary book e) EntryRow.signed book.entries := by
  have distinct : ((book.accounts.filter fun a => decide (a.tenantId = tenantId) &&
      decide (a.currency = currency) && a.category.isTemporary).map AccountRow.id).Nodup := by
    refine @accountIds_of_scope book tenantId kept _ fun a chosen => ?_
    simp only [Bool.and_eq_true, decide_eq_true_eq] at chosen
    exact chosen.1.1
  have covered : ∀ e ∈ book.entries, (inceptionAdmits book tenantId asOf cursor e &&
      decide (e.currency = currency) && onTemporary book e) = true →
        e.accountId ∈ (book.accounts.filter fun a => decide (a.tenantId = tenantId) &&
          decide (a.currency = currency) && a.category.isTemporary).map AccountRow.id := by
    intro e member keeps
    simp only [Bool.and_eq_true, decide_eq_true_eq, onTemporary, Option.any_eq_true] at keeps
    obtain ⟨⟨admits, isCurrency⟩, a, found, temporary⟩ := keeps
    obtain ⟨isThere, ofTenant, isId, inCurrency⟩ := account?_spec found
    rw [← isId]
    refine List.mem_map_of_mem (List.mem_filter.mpr ⟨isThere, ?_⟩)
    simp [ofTenant, tenant_of_admits admits, inCurrency, isCurrency, temporary]
  rw [undistributedEarnings, ← Tally.sum_map_groups _ EntryRow.signed _ distinct covered,
    List.map_map]
  refine congrArg Neg.neg (congrArg List.sum (List.map_congr_left fun a member => ?_))
  obtain ⟨isThere, chosen⟩ := List.mem_filter.mp member
  simp only [Bool.and_eq_true, decide_eq_true_eq] at chosen
  obtain ⟨⟨rfl, rfl⟩, temporary⟩ := chosen
  refine Tally.sumWhere_congr (fun e _ => ?_) fun _ _ _ => rfl
  by_cases isMine : inceptionAdmits book a.tenantId asOf cursor e = true ∧
      e.currency = a.currency ∧ e.accountId = a.id
  · obtain ⟨admits, isCurrency, isAccount⟩ := isMine
    have found : onTemporary book e = true := by
      rw [onTemporary, tenant_of_admits admits, isCurrency, isAccount,
        account?_of_mem kept isThere]
      exact temporary
    simp [admits, isCurrency, isAccount, found]
  · rw [Bool.eq_iff_iff]
    simp only [Bool.and_eq_true, decide_eq_true_eq]
    tauto

/-- Between two instants, undistributed earnings move by the window's entries on
temporary accounts. -/
theorem earnings_between (kept : Kept book) {fromAt toAt : ReportInstant}
    (ordered : fromAt.isBy toAt = true) :
    undistributedEarnings book tenantId toAt cursor currency -
        undistributedEarnings book tenantId fromAt cursor currency =
      -Tally.sumWhere (fun e => inWindow book tenantId fromAt toAt cursor e &&
        decide (e.currency = currency) && onTemporary book e) EntryRow.signed book.entries := by
  have earlier : Tally.sumWhere (fun e => inceptionAdmits book tenantId toAt cursor e &&
        decide (e.currency = currency) && onTemporary book e && fromAt.isAfter e.effectiveAt)
        EntryRow.signed book.entries =
      Tally.sumWhere (fun e => inceptionAdmits book tenantId fromAt cursor e &&
        decide (e.currency = currency) && onTemporary book e) EntryRow.signed book.entries := by
    refine Tally.sumWhere_congr (fun e _ => ?_) fun _ _ _ => rfl
    have later := @ReportInstant.isAfter_of_isBy _ _ ordered e.effectiveAt
    rw [Bool.eq_iff_iff]
    simp only [inceptionAdmits, Bool.and_eq_true]
    tauto
  have within : Tally.sumWhere (fun e => inceptionAdmits book tenantId toAt cursor e &&
        decide (e.currency = currency) && onTemporary book e && !fromAt.isAfter e.effectiveAt)
        EntryRow.signed book.entries =
      Tally.sumWhere (fun e => inWindow book tenantId fromAt toAt cursor e &&
        decide (e.currency = currency) && onTemporary book e) EntryRow.signed book.entries := by
    refine Tally.sumWhere_congr (fun e _ => ?_) fun _ _ _ => rfl
    rw [Bool.eq_iff_iff]
    simp only [inceptionAdmits, inWindow, ReportInstant.isReachedBy_eq, Bool.and_eq_true]
    tauto
  rw [undistributedEarnings_eq kept, undistributedEarnings_eq kept,
    Tally.sumWhere_split _ fun e => fromAt.isAfter e.effectiveAt, earlier, within]
  ring

/-- The closing transactions of a window are its closing legs' own. -/
theorem isClosingLeg_iff (kept : Kept book) {e : EntryRow} {x : TransactionRow}
    (isThere : x ∈ book.transactions) (belongs : e.BelongsTo x) :
    isClosingLeg book e = true ↔ x.kind = "period_close" := by
  rw [isClosingLeg, List.any_eq_true]
  constructor
  · rintro ⟨c, isClose, names⟩
    simp only [Bool.and_eq_true, decide_eq_true_eq] at names
    obtain ⟨y, isY, closes⟩ := kept.closed c isClose
    have same : y = x := by
      refine UniqueIndex.holds_eq kept.pkTxn isY isThere rfl ?_
      rw [TransactionRow.primaryKey, closes.tenant, closes.id,
        belongs.tenant, belongs.id, names.1, names.2]
    rw [← same]
    exact closes.kind
  · intro isClose
    obtain ⟨c, member, closes⟩ := kept.named x isThere isClose
    refine ⟨c, member, ?_⟩
    simp only [Bool.and_eq_true, decide_eq_true_eq]
    exact ⟨closes.tenant.symm.trans belongs.tenant, closes.id.symm.trans belongs.id⟩

/-- A leg of a close is posted. -/
theorem isPosted_of_closing (kept : Kept book) {e : EntryRow} {x : TransactionRow}
    (isThere : x ∈ book.transactions) (belongs : e.BelongsTo x) (isClose : x.kind = "period_close") :
    book.isPosted e = true := by
  obtain ⟨c, _, closes⟩ := kept.named x isThere isClose
  rw [Book.isPosted, kept.statusOf_of_belongs isThere belongs, closes.status]
  rfl

/-- What the closes of a window moved out is what their legs did. -/
theorem movedOut_eq (kept : Kept book) (fromAt toAt : ReportInstant) :
    movedOut book tenantId fromAt toAt cursor currency =
      Tally.sumWhere (fun e => inWindow book tenantId fromAt toAt cursor e &&
        decide (e.currency = currency) && onTemporary book e && isClosingLeg book e)
        EntryRow.signed book.entries := by
  have distinct : ((book.transactions.filter (isClosingIn tenantId fromAt toAt cursor)).map
      TransactionRow.id).Nodup := by
    have keyed := List.pairwise_filterMap.mp kept.pkTxn
    refine List.pairwise_map.mpr ((keyed.filter _).imp_of_mem
      fun {left right} inLeft inRight apart same => ?_)
    have leftIn := (List.mem_filter.mp inLeft).2
    have rightIn := (List.mem_filter.mp inRight).2
    simp only [isClosingIn, Bool.and_eq_true, decide_eq_true_eq] at leftIn rightIn
    exact apart _ rfl _ rfl (Prod.ext (leftIn.1.1.1.1.trans rightIn.1.1.1.1.symm) same)
  have covered : ∀ e ∈ book.entries, (inWindow book tenantId fromAt toAt cursor e &&
      decide (e.currency = currency) && onTemporary book e && isClosingLeg book e) = true →
        e.transactionId ∈ (book.transactions.filter
          (isClosingIn tenantId fromAt toAt cursor)).map TransactionRow.id := by
    intro e member keeps
    simp only [inWindow, Bool.and_eq_true, decide_eq_true_eq] at keeps
    obtain ⟨⟨⟨⟨⟨⟨⟨_, ofTenant⟩, reached⟩, before⟩, below⟩, _⟩, _⟩, isLeg⟩ := keeps
    obtain ⟨x, isThere, belongs⟩ := kept.belongs e member
    rw [← belongs.id]
    refine List.mem_map_of_mem (List.mem_filter.mpr ⟨isThere, ?_⟩)
    simp only [isClosingIn, Bool.and_eq_true, decide_eq_true_eq]
    rw [← belongs.effectiveAt, ← belongs.xactId, belongs.tenant]
    exact ⟨⟨⟨⟨ofTenant, (isClosingLeg_iff kept isThere belongs).mp isLeg⟩, reached⟩, before⟩,
      below⟩
  rw [movedOut, ← Tally.sum_map_groups _ EntryRow.signed _ distinct covered, List.map_map]
  refine congrArg List.sum (List.map_congr_left fun x member => ?_)
  obtain ⟨isThere, isClosing⟩ := List.mem_filter.mp member
  simp only [isClosingIn, Bool.and_eq_true, decide_eq_true_eq] at isClosing
  obtain ⟨⟨⟨⟨ofTenant, isClose⟩, reached⟩, before⟩, below⟩ := isClosing
  refine Tally.sumWhere_congr (fun e isEntry => ?_) fun _ _ _ => rfl
  by_cases isMine : e.tenantId = x.tenantId ∧ e.transactionId = x.id
  · obtain ⟨y, isY, belongs⟩ := kept.belongs e isEntry
    have same : y = x := by
      refine UniqueIndex.holds_eq kept.pkTxn isY isThere rfl ?_
      rw [TransactionRow.primaryKey, belongs.tenant, belongs.id,
        isMine.1, isMine.2]
    subst same
    have isLeg := (isClosingLeg_iff kept isThere belongs).mpr isClose
    have posted := isPosted_of_closing kept isThere belongs isClose
    rw [← belongs.effectiveAt] at reached before
    rw [← belongs.xactId] at below
    simp [inWindow, posted, isLeg, isMine.1, isMine.2, ofTenant, reached, before, below]
  · rw [Bool.eq_iff_iff]
    simp only [inWindow, Bool.and_eq_true, decide_eq_true_eq]
    constructor
    · rintro ⟨⟨⟨sameTenant, sameId⟩, _⟩, _⟩
      exact absurd ⟨sameTenant, sameId⟩ isMine
    · rintro ⟨⟨⟨⟨⟨⟨⟨⟨_, isTenant⟩, _⟩, _⟩, _⟩, _⟩, _⟩, _⟩, sameId⟩
      exact absurd ⟨isTenant.trans ofTenant.symm, sameId⟩ isMine

end Earning

section Income

variable {presentation : Presentation} {book : Book} {tenantId : String}
  {fromAt toAt : ReportInstant} {cursor : Xid} {version : Int} {currency : String}

/-- What `income_statement_for` answers, where it does not raise. -/
theorem income_of_answer {chartVersion : Option Int} {face : List StatementRow}
    (answered : incomeStatementFor presentation book tenantId fromAt toAt cursor chartVersion =
      .ok face) :
    ∃ version, resolveVersion presentation chartVersion = .ok version ∧
      hasUnpresentedFlow presentation book tenantId fromAt toAt cursor version = false ∧
        face = orderedFace (incomeStatementFace presentation tenantId cursor version
          (scopesOf book tenantId)
          (presentedFlows presentation book tenantId fromAt toAt cursor version)) := by
  unfold incomeStatementFor at answered
  split at answered
  · cases answered
  · rename_i version resolved
    split at answered
    · cases answered
    · rename_i passes
      exact ⟨version, resolved, Bool.eq_false_iff.mpr passes, (Except.ok.inj answered).symm⟩

theorem answer_of_passes {chartVersion : Option Int}
    (resolved : resolveVersion presentation chartVersion = .ok version)
    (passes : hasUnpresentedFlow presentation book tenantId fromAt toAt cursor version = false) :
    incomeStatementFor presentation book tenantId fromAt toAt cursor chartVersion =
      .ok (orderedFace (incomeStatementFace presentation tenantId cursor version
        (scopesOf book tenantId)
        (presentedFlows presentation book tenantId fromAt toAt cursor version))) := by
  unfold incomeStatementFor
  rw [resolved]
  dsimp only
  rw [passes]
  rfl

/-- A type flows onto a line of the income statement when it is temporary. -/
theorem flowLine_iff {row : PresentationRow} (member : row ∈ presentation.rows) :
    (∃ line ∈ presentation.linesOf row.chartVersion .incomeStatement, line.code = row.fsLine) ↔
      row.category.isTemporary = true := by
  obtain ⟨own, isOwn, ofVersion, isCode, isStatement, _⟩ :=
    presentation.fkPresentationFsLine row member
  constructor
  · rintro ⟨line, isLine, sameCode⟩
    obtain ⟨isThere, sameVersion, ofIncome⟩ := Presentation.mem_linesOf.mp isLine
    have same : line = own := Presentation.statement_of_code isThere isOwn
      (sameVersion.trans ofVersion.symm) (sameCode.trans isCode.symm)
    rw [same, isStatement, PresentationRow.fsStatement] at ofIncome
    by_contra permanent
    rw [if_neg permanent] at ofIncome
    cases ofIncome
  · intro temporary
    have ofIncome : own.statement = .incomeStatement := by
      rw [isStatement, PresentationRow.fsStatement, if_pos temporary]
    exact ⟨own, Presentation.mem_linesOf.mpr ⟨isOwn, ofVersion, ofIncome⟩, isCode⟩

/-- Credit lines less debit lines are what flows, earnings positive. -/
theorem credits_less_debits (flows : List PresentedFlow) :
    Tally.sumWhere (fun line : FsLine => decide (line.side = .credit)) (flowAmount flows currency)
        (presentation.linesOf version .incomeStatement) -
      Tally.sumWhere (fun line : FsLine => decide (line.side = .debit)) (flowAmount flows currency)
        (presentation.linesOf version .incomeStatement) =
      -((presentation.linesOf version .incomeStatement).map fun line =>
        Tally.sumWhere (fun d => decide (d.entry.currency = currency) &&
          decide (d.presented.fsLine = line.code)) (fun d => d.entry.signed) flows).sum := by
  have sided : ∀ line ∈ presentation.linesOf version .incomeStatement,
      line.side = .credit ∨ line.side = .debit := by
    intro line isLine
    obtain ⟨member, _, isStatement⟩ := Presentation.mem_linesOf.mp isLine
    have matched := presentation.ckFsLinesSideMatchesStatement line member
    rw [isStatement] at matched
    cases side : line.side <;> rw [side] at matched
    case credit => exact Or.inl rfl
    case debit => exact Or.inr rfl
    all_goals cases matched
  generalize presentation.linesOf version .incomeStatement = lines at sided
  induction lines with
  | nil =>
      rfl
  | cons head tail inductionHypothesis =>
      have rest := inductionHypothesis fun line member => sided line (List.mem_cons_of_mem _ member)
      rw [Tally.sumWhere_cons, Tally.sumWhere_cons, List.map_cons, List.sum_cons, neg_add, ← rest,
        flowAmount]
      rcases sided head List.mem_cons_self with isSide | isSide
      all_goals
        simp only [isSide, decide_true, decide_false, reduceCtorEq, if_true, if_false,
          Bool.false_eq_true]
        ring

/-- A presented flow and what presents it. -/
theorem presented_of_flow {d : PresentedFlow}
    (member : d ∈ presentedFlows presentation book tenantId fromAt toAt cursor version) :
    d.presented ∈ presentation.rows ∧ d.presented.chartVersion = version := by
  obtain ⟨e, _, isFlow⟩ := List.mem_filterMap.mp member
  obtain ⟨a, _, presents⟩ := Option.bind_eq_some_iff.mp isFlow
  obtain ⟨p, found, rfl⟩ := Option.map_eq_some_iff.mp presents
  obtain ⟨isThere, ofVersion, _⟩ := Presentation.mem_of_row? found
  exact ⟨isThere, ofVersion⟩

/-- The lines of the income statement hold each flow of a temporary type once
and no other. -/
theorem lines_hold_temporary :
    ((presentation.linesOf version .incomeStatement).map fun line =>
      Tally.sumWhere (fun d : PresentedFlow => decide (d.entry.currency = currency) &&
        decide (d.presented.fsLine = line.code)) (fun d => d.entry.signed)
        (presentedFlows presentation book tenantId fromAt toAt cursor version)).sum =
      Tally.sumWhere (fun d : PresentedFlow => decide (d.entry.currency = currency) &&
        d.presented.category.isTemporary) (fun d => d.entry.signed)
        (presentedFlows presentation book tenantId fromAt toAt cursor version) := by
  rw [← Tally.sum_map_groups _ _ (fun d : PresentedFlow => d.presented.fsLine)
    (presentation.codes_of_lines version .incomeStatement), List.map_map]
  · refine congrArg List.sum (List.map_congr_left fun line isLine => ?_)
    refine Tally.sumWhere_congr (fun d member => ?_) fun _ _ _ => rfl
    obtain ⟨isThere, ofVersion⟩ := presented_of_flow member
    by_cases onLine : d.presented.fsLine = line.code
    · have temporary : d.presented.category.isTemporary = true :=
        (flowLine_iff isThere).mp ⟨line, ofVersion.symm ▸ isLine, onLine.symm⟩
      simp [onLine, temporary]
    · simp [onLine]
  · intro d member keeps
    obtain ⟨isThere, ofVersion⟩ := presented_of_flow member
    obtain ⟨line, isLine, isCode⟩ :=
      (flowLine_iff isThere).mpr (Bool.and_eq_true_iff.mp keeps).2
    rw [← isCode]
    exact List.mem_map_of_mem (ofVersion ▸ isLine)

/-- Past the guard, the flows of temporary types are the window's entries on
temporary accounts that no close wrote. -/
theorem flows_on_temporary (kept : Kept book) (presents : presentation.Presents book.chart)
    (passes : hasUnpresentedFlow presentation book tenantId fromAt toAt cursor version = false) :
    Tally.sumWhere (fun d : PresentedFlow => decide (d.entry.currency = currency) &&
        d.presented.category.isTemporary) (fun d => d.entry.signed)
        (presentedFlows presentation book tenantId fromAt toAt cursor version) =
      Tally.sumWhere (fun e => inWindow book tenantId fromAt toAt cursor e &&
        decide (e.currency = currency) && onTemporary book e && !isClosingLeg book e)
        EntryRow.signed book.entries := by
  rw [presentedFlows, Tally.sumWhere_filterMap, Tally.sumWhere_filter, Tally.sumWhere_eq_sum_map,
    Tally.sumWhere_eq_sum_map]
  refine congrArg List.sum (List.map_congr_left fun e member => ?_)
  cases isIn : inWindow book tenantId fromAt toAt cursor e with
  | false =>
      rfl
  | true =>
      obtain ⟨a, found⟩ := Option.isSome_iff_exists.mp (kept.onAccount e member)
      have refused := List.any_eq_false.mp passes e member
      rw [isIn, found] at refused
      obtain ⟨p, isPresented⟩ : ∃ p, presentation.row? version a.purpose = some p := by
        refine Option.isSome_iff_exists.mp ?_
        simpa [Option.isSome_iff_ne_none] using refused
      obtain ⟨isThere, _, _, _⟩ := account?_spec found
      have isCategory := category_of_row? kept presents isThere isPresented
      rw [onTemporary, found, Option.bind_some, isPresented, Option.any_some, ← isCategory]
      cases isClosingLeg book e <;> simp

/-- Net income is the window's entries on temporary accounts that no close
wrote, earnings positive. -/
theorem netIncome_eq (kept : Kept book) (presents : presentation.Presents book.chart)
    (passes : hasUnpresentedFlow presentation book tenantId fromAt toAt cursor version = false) :
    netIncome (orderedFace (incomeStatementFace presentation tenantId cursor version
        (scopesOf book tenantId)
        (presentedFlows presentation book tenantId fromAt toAt cursor version))) currency =
      -Tally.sumWhere (fun e => inWindow book tenantId fromAt toAt cursor e &&
        decide (e.currency = currency) && onTemporary book e && !isClosingLeg book e)
        EntryRow.signed book.entries := by
  rw [netIncome, faceTotal, faceTotal, Tally.sumWhere_perm (perm_orderedFace _),
    Tally.sumWhere_perm (perm_orderedFace _)]
  by_cases inScope : currency ∈ scopesOf book tenantId
  · have total := @faceTotal_of_lines currency (scopesOf book tenantId)
      (fun other f =>
        { tenantId, currency := other, chartVersion := version, fsLine := f.code
          caption := f.caption, sortOrder := f.sortOrder
          amountMinor := flowAmount
            (presentedFlows presentation book tenantId fromAt toAt cursor version) other f
          side := f.side, pinnedCursor := cursor })
      (fun _ _ => rfl) (fun _ _ => rfl) (List.nodup_dedup _) inScope
      (presentation.linesOf version .incomeStatement)
    have credits := total fun side => decide (side = .credit)
    have debits := total fun side => decide (side = .debit)
    rw [← flows_on_temporary kept presents passes, ← lines_hold_temporary, ← credits_less_debits]
    exact congrArg₂ _ credits debits
  · have noEntry : ∀ e ∈ book.entries, (inWindow book tenantId fromAt toAt cursor e &&
        decide (e.currency = currency) && onTemporary book e && !isClosingLeg book e) = false := by
      intro e member
      rw [Bool.eq_false_iff]
      intro keeps
      simp only [inWindow, Bool.and_eq_true, decide_eq_true_eq] at keeps
      obtain ⟨⟨⟨⟨⟨⟨⟨_, ofTenant⟩, _⟩, _⟩, _⟩, isCurrency⟩, _⟩, _⟩ := keeps
      obtain ⟨a, found⟩ := Option.isSome_iff_exists.mp (kept.onAccount e member)
      obtain ⟨isThere, sameTenant, _, inCurrency⟩ := account?_spec found
      have held := mem_scopesOf isThere (sameTenant.trans ofTenant)
      rw [inCurrency, isCurrency] at held
      exact inScope held
    have noRow : ∀ counts : FsSide → Bool, Tally.sumWhere
        (fun row : StatementRow => decide (row.currency = currency) && counts row.side)
        StatementRow.amountMinor (incomeStatementFace presentation tenantId cursor version
          (scopesOf book tenantId)
          (presentedFlows presentation book tenantId fromAt toAt cursor version)) = 0 := by
      intro counts
      refine Tally.sumWhere_eq_zero fun row member => ?_
      obtain ⟨other, isScope, isRow⟩ := List.mem_flatMap.mp member
      obtain ⟨line, _, rfl⟩ := List.mem_map.mp isRow
      have notMine : other ≠ currency := fun same => inScope (same ▸ isScope)
      rw [decide_eq_false notMine, Bool.false_and]
    have credits := noRow fun side => decide (side = .credit)
    have debits := noRow fun side => decide (side = .debit)
    rw [Tally.sumWhere_eq_zero noEntry, neg_zero]
    exact (congrArg₂ (· - ·) credits debits).trans (sub_self 0)

end Income

section Showing

variable {presentation : Presentation} {book : Book} {tenantId : String} {cursor : Xid}
  {version : Int} {currency fsLine : String}

/-- On a face with one row a key, what a line shows is the sum over its key. -/
theorem shownOn_eq_sum {face : List StatementRow} (keyed : (face.map StatementRow.key).Nodup) :
    shownOn face currency fsLine =
      Tally.sumWhere (fun row => decide (row.currency = currency) && decide (row.fsLine = fsLine))
        StatementRow.amountMinor face := by
  rw [shownOn]
  cases found : face.find? fun row =>
      decide (row.currency = currency) && decide (row.fsLine = fsLine) with
  | none =>
      rw [Tally.sumWhere_eq_zero fun row member =>
        Bool.eq_false_iff.mpr (List.find?_eq_none.mp found row member)]
      rfl
  | some row =>
      have isRow := List.find?_some found
      simp only [Bool.and_eq_true, decide_eq_true_eq] at isRow
      obtain ⟨rfl, rfl⟩ := isRow
      have alone := Tally.sumWhere_key StatementRow.amountMinor keyed
        (List.mem_of_find?_eq_some found)
      rw [Option.map_some, Option.getD_some, ← alone]
      refine Tally.sumWhere_congr (fun other _ => ?_) fun _ _ _ => rfl
      rw [Bool.eq_iff_iff]
      simp [StatementRow.key]

/-- The plug's row shows the undistributed earnings of its currency. -/
theorem shownOn_plug {asOf : ReportInstant} {face : List StatementRow}
    (holds : BalancesOnItsFace presentation book tenantId asOf cursor version face) :
    shownOn face currency "current_year_earnings" =
      undistributedEarnings book tenantId asOf cursor currency := by
  rw [shownOn]
  cases found : face.find? fun row =>
      decide (row.currency = currency) && decide (row.fsLine = "current_year_earnings") with
  | none =>
      have noAccount : ∀ a ∈ book.accounts, (decide (a.tenantId = tenantId) &&
          decide (a.currency = currency) && a.category.isTemporary) = false := by
        intro a member
        rw [Bool.eq_false_iff]
        intro chosen
        simp only [Bool.and_eq_true, decide_eq_true_eq] at chosen
        obtain ⟨row, inFace, isCurrency, isPlug⟩ := holds.plugged a member chosen.1.1
        have refused := List.find?_eq_none.mp found row inFace
        simp [isCurrency, isPlug, chosen.1.2] at refused
      rw [undistributedEarnings, Tally.sumWhere_eq_zero noAccount]
      rfl
  | some row =>
      have isRow := List.find?_some found
      simp only [Bool.and_eq_true, decide_eq_true_eq] at isRow
      obtain ⟨rfl, isPlug⟩ := isRow
      exact (holds.plug row (List.mem_of_find?_eq_some found) isPlug).2

theorem keys_of_income (flows : List PresentedFlow) :
    ((orderedFace (incomeStatementFace presentation tenantId cursor version
      (scopesOf book tenantId) flows)).map StatementRow.key).Nodup :=
  ((perm_orderedFace _).map _).nodup_iff.mpr (keys_of_lines (fun _ _ => rfl)
    (List.nodup_dedup _) (presentation.codes_of_lines version .incomeStatement))

/-- A line of the income statement, currency by currency. -/
theorem shownOn_income (flows : List PresentedFlow) :
    shownOn (orderedFace (incomeStatementFace presentation tenantId cursor version
        (scopesOf book tenantId) flows)) currency fsLine =
      ((scopesOf book tenantId).map fun other =>
        Tally.sumWhere (fun line => decide (other = currency) && decide (line.code = fsLine))
          (flowAmount flows other) (presentation.linesOf version .incomeStatement)).sum := by
  rw [shownOn_eq_sum (keys_of_income flows), Tally.sumWhere_perm (perm_orderedFace _),
    incomeStatementFace, Tally.sumWhere_flatMap]
  refine congrArg List.sum (List.map_congr_left fun other _ => ?_)
  rw [Tally.sumWhere_map]

end Showing

section Cutting

variable {presentation : Presentation} {book : Book} {tenantId : String}
  {fromAt midAt toAt : ReportInstant} {cursor : Xid} {version : Int}

/-- A window cut in two: an entry is before the cut or not. -/
theorem inWindow_cut (first : fromAt.isBy midAt = true) (second : midAt.isBy toAt = true)
    (e : EntryRow) :
    inWindow book tenantId fromAt midAt cursor e =
        (inWindow book tenantId fromAt toAt cursor e && midAt.isAfter e.effectiveAt) ∧
      inWindow book tenantId midAt toAt cursor e =
        (inWindow book tenantId fromAt toAt cursor e && !midAt.isAfter e.effectiveAt) := by
  have early := @ReportInstant.isAfter_of_isBy _ _ first e.effectiveAt
  have late := @ReportInstant.isAfter_of_isBy _ _ second e.effectiveAt
  constructor
  · rw [Bool.eq_iff_iff]
    simp only [inWindow, Bool.and_eq_true]
    tauto
  · rw [Bool.eq_iff_iff]
    simp only [inWindow, ReportInstant.isReachedBy_eq, Bool.and_eq_true, Bool.not_eq_true',
      Bool.eq_false_iff, ne_eq]
    tauto

/-- The flows of a window are those before the cut and those after. -/
theorem flowAmount_cut (first : fromAt.isBy midAt = true) (second : midAt.isBy toAt = true)
    (currency : String) (line : FsLine) :
    flowAmount (presentedFlows presentation book tenantId fromAt toAt cursor version) currency
        line =
      flowAmount (presentedFlows presentation book tenantId fromAt midAt cursor version) currency
          line +
        flowAmount (presentedFlows presentation book tenantId midAt toAt cursor version) currency
          line := by
  rw [flowAmount, flowAmount, flowAmount, ← mul_add]
  refine congrArg _ ?_
  rw [presentedFlows, presentedFlows, presentedFlows]
  simp only [Tally.sumWhere_filterMap, Tally.sumWhere_filter]
  rw [Tally.sumWhere_split _ fun e => midAt.isAfter e.effectiveAt]
  refine congrArg₂ _ ?_ ?_
  · refine Tally.sumWhere_congr (fun e _ => ?_) fun _ _ _ => rfl
    rw [(inWindow_cut first second e).1]
    ac_rfl
  · refine Tally.sumWhere_congr (fun e _ => ?_) fun _ _ _ => rfl
    rw [(inWindow_cut first second e).2]
    ac_rfl

/-- A window passes the guard when both its halves do. -/
theorem hasUnpresentedFlow_cut (first : fromAt.isBy midAt = true)
    (second : midAt.isBy toAt = true) :
    hasUnpresentedFlow presentation book tenantId fromAt toAt cursor version =
      (hasUnpresentedFlow presentation book tenantId fromAt midAt cursor version ||
        hasUnpresentedFlow presentation book tenantId midAt toAt cursor version) := by
  rw [hasUnpresentedFlow, hasUnpresentedFlow, hasUnpresentedFlow, Bool.eq_iff_iff]
  simp only [Bool.or_eq_true, List.any_eq_true, ← exists_or, ← and_or_left]
  refine exists_congr fun e => and_congr_right fun _ => ?_
  obtain ⟨before, after⟩ := inWindow_cut first second e
  rw [before, after]
  cases midAt.isAfter e.effectiveAt <;> simp

theorem shownOn_cut (first : fromAt.isBy midAt = true) (second : midAt.isBy toAt = true)
    (currency fsLine : String) :
    shownOn (orderedFace (incomeStatementFace presentation tenantId cursor version
        (scopesOf book tenantId)
        (presentedFlows presentation book tenantId fromAt toAt cursor version))) currency fsLine =
      shownOn (orderedFace (incomeStatementFace presentation tenantId cursor version
          (scopesOf book tenantId)
          (presentedFlows presentation book tenantId fromAt midAt cursor version))) currency
          fsLine +
        shownOn (orderedFace (incomeStatementFace presentation tenantId cursor version
          (scopesOf book tenantId)
          (presentedFlows presentation book tenantId midAt toAt cursor version))) currency
          fsLine := by
  rw [shownOn_income, shownOn_income, shownOn_income, ← List.sum_map_add]
  refine congrArg List.sum (List.map_congr_left fun other _ => ?_)
  rw [← Tally.sumWhere_add]
  exact Tally.sumWhere_congr (fun _ _ => rfl) fun line _ _ => flowAmount_cut first second other line

end Cutting

/-- The two statements of a book articulate: earnings move by net income less
what closes moved out, and income statements add up over a cut. -/
structure Articulates (presentation : Presentation) (book : Book) (tenantId : String)
    (cursor : Xid) (chartVersion : Option Int) : Prop where
  earnings : ∀ fromAt toAt : ReportInstant, fromAt.isBy toAt = true →
    ∀ opening closing income,
      balanceSheetAt presentation book tenantId fromAt cursor chartVersion = .ok opening →
      balanceSheetAt presentation book tenantId toAt cursor chartVersion = .ok closing →
      incomeStatementFor presentation book tenantId fromAt toAt cursor chartVersion = .ok income →
      ∀ currency, shownOn closing currency "current_year_earnings" -
          shownOn opening currency "current_year_earnings" =
        netIncome income currency - movedOut book tenantId fromAt toAt cursor currency
  oneRowEach : ∀ fromAt toAt income,
    incomeStatementFor presentation book tenantId fromAt toAt cursor chartVersion = .ok income →
    (income.map StatementRow.key).Nodup
  cut : ∀ fromAt midAt toAt : ReportInstant, fromAt.isBy midAt = true → midAt.isBy toAt = true →
    ∀ whole,
      incomeStatementFor presentation book tenantId fromAt toAt cursor chartVersion = .ok whole →
      ∃ first second,
        incomeStatementFor presentation book tenantId fromAt midAt cursor chartVersion =
            .ok first ∧
          incomeStatementFor presentation book tenantId midAt toAt cursor chartVersion =
            .ok second ∧
          ∀ currency fsLine, shownOn whole currency fsLine =
            shownOn first currency fsLine + shownOn second currency fsLine
  joined : ∀ fromAt midAt toAt : ReportInstant, fromAt.isBy midAt = true →
    midAt.isBy toAt = true → ∀ first second,
      incomeStatementFor presentation book tenantId fromAt midAt cursor chartVersion =
        .ok first →
      incomeStatementFor presentation book tenantId midAt toAt cursor chartVersion =
        .ok second →
      ∃ whole, incomeStatementFor presentation book tenantId fromAt toAt cursor chartVersion =
        .ok whole

/-- In every interleaving whose checkpoints hold what they claim, the statements
articulate at every cursor and chart version. -/
theorem statements_articulate {sha256 : List UInt8 → List UInt8} {chart : Chart}
    {machine : Machine} (interleaved : Interleaved sha256 chart machine)
    (exact_ : ∀ k ∈ machine.committed.closes, k.Exact machine.committed)
    {presentation : Presentation} (presents : presentation.Presents machine.committed.chart)
    (tenantId : String) (cursor : Xid) (chartVersion : Option Int) :
    Articulates presentation machine.committed tenantId cursor chartVersion where
  earnings := by
    intro fromAt toAt ordered opening closing income isOpening isClosing isIncome currency
    have settled : machine.committed.Settled := ⟨(sound_of_interleaved interleaved).kept, exact_⟩
    obtain ⟨_, _, opens, rfl⟩ := face_of_answer isOpening
    obtain ⟨_, _, closes, rfl⟩ := face_of_answer isClosing
    obtain ⟨_, _, passes, rfl⟩ := income_of_answer isIncome
    have before := (balancesOnItsFace settled presents opens).perm (perm_orderedFace _)
    have after := (balancesOnItsFace settled presents closes).perm (perm_orderedFace _)
    rw [shownOn_plug before, shownOn_plug after, earnings_between settled.kept ordered,
      netIncome_eq settled.kept presents passes, movedOut_eq settled.kept,
      Tally.sumWhere_split _ fun e => isClosingLeg machine.committed e]
    ring
  oneRowEach := by
    intro fromAt toAt income isIncome
    obtain ⟨_, _, _, rfl⟩ := income_of_answer isIncome
    exact keys_of_income _
  cut := by
    intro fromAt midAt toAt first second whole isWhole
    obtain ⟨_, resolved, passes, rfl⟩ := income_of_answer isWhole
    rw [hasUnpresentedFlow_cut first second, Bool.or_eq_false_iff] at passes
    exact ⟨_, _, answer_of_passes resolved passes.1, answer_of_passes resolved passes.2,
      shownOn_cut first second⟩
  joined := by
    intro fromAt midAt toAt first second _ _ isFirst isSecond
    obtain ⟨version, resolved, before, _⟩ := income_of_answer isFirst
    obtain ⟨other, again, after, _⟩ := income_of_answer isSecond
    obtain rfl : version = other := Except.ok.inj (resolved.symm.trans again)
    refine ⟨_, answer_of_passes resolved ?_⟩
    rw [hasUnpresentedFlow_cut first second, before, after]
    rfl

namespace Shop

/-- What the shop took in before its close. -/
def feesFor (amount : Int) : List StatementRow :=
  [⟨"shop", "USD", 1, "revenue", "Revenue", 10, amount, .credit, 7⟩]

/-- From 0 to 2000 the shop earned 70 and moved 70 out; cut at 2, it earned all
of it before. -/
theorem closed_year_articulates :
    (0 - 0 = netIncome (feesFor 70) "USD" -
      movedOut (machineAfter feeThenClose).committed "shop" (.at 0) (.at 2000) 7 "USD") ∧
    ∃ first second,
      incomeStatementFor faces (machineAfter feeThenClose).committed "shop" (.at 0) (.at 2) 7
          none = .ok first ∧
        incomeStatementFor faces (machineAfter feeThenClose).committed "shop" (.at 2) (.at 2000) 7
          none = .ok second ∧
        70 = shownOn first "USD" "revenue" + shownOn second "USD" "revenue" := by
  have articulate := statements_articulate (interleaved_machineAfter feeThenClose)
    (by decide +kernel) faces_presents "shop" 7 none
  have opening : balanceSheetAt faces (machineAfter feeThenClose).committed "shop" (.at 0) 7 none =
      .ok (closedFace.map fun row => { row with amountMinor := 0 }) := by
    decide +kernel
  have closing : balanceSheetAt faces (machineAfter feeThenClose).committed "shop" (.at 2000) 7
      none = .ok closedFace := by
    decide +kernel
  have income : incomeStatementFor faces (machineAfter feeThenClose).committed "shop" (.at 0)
      (.at 2000) 7 none = .ok (feesFor 70) := by
    decide +kernel
  refine ⟨articulate.earnings _ _ rfl _ _ _ opening closing income "USD", ?_⟩
  obtain ⟨first, second, isFirst, isSecond, adds⟩ :=
    articulate.cut (.at 0) (.at 2) (.at 2000) rfl rfl _ income
  exact ⟨first, second, isFirst, isSecond, adds "USD" "revenue"⟩

end Shop

end OpenLedger
