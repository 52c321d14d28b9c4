import OpenLedger.Reports.Checkpoint
import OpenLedger.Reports.Statements

/-!
# The balance sheet balances

In a book whose checkpoints hold what they claim, the positions of a currency
sum to zero; the chart's keys send each permanent account to one line of the
face and keep each temporary account off it, for the plug.
-/

namespace OpenLedger

open Postgres

/-- A book the writer keeps, whose checkpoints hold exactly what they claim. -/
structure Book.Settled (book : Book) : Prop where
  kept : Kept book
  exact_ : ∀ k ∈ book.closes, k.Exact book

/-- An account's movement since inception, debit-positive. -/
def netMovement (book : Book) (tenantId : String) (asOf : ReportInstant) (cursor : Xid)
    (currency : String) (accountId : Uuid) : Int :=
  Tally.sumWhere (fun e =>
    inceptionAdmits book tenantId asOf cursor e && decide (e.currency = currency) &&
      decide (e.accountId = accountId)) EntryRow.signed book.entries

section Movements

variable {book : Book} {tenantId : String} {asOf : ReportInstant} {cursor : Xid}
  {currency : String}

theorem tenant_of_admits {e : EntryRow}
    (admits : inceptionAdmits book tenantId asOf cursor e = true) : e.tenantId = tenantId := by
  simp only [inceptionAdmits, Bool.and_eq_true, decide_eq_true_eq] at admits
  exact admits.1.1.1

/-- What moved has a posted entry. -/
theorem entry_of_movement {accountId : Uuid}
    (moved : netMovement book tenantId asOf cursor currency accountId ≠ 0) :
    ∃ e ∈ book.entries, inceptionAdmits book tenantId asOf cursor e = true ∧
      e.currency = currency ∧ e.accountId = accountId := by
  by_contra noEntry
  refine moved (Tally.sumWhere_eq_zero fun e isThere => ?_)
  rw [Bool.eq_false_iff]
  intro keeps
  simp only [Bool.and_eq_true, decide_eq_true_eq] at keeps
  exact noEntry ⟨e, isThere, keeps.1.1, keeps.1.2, keeps.2⟩

end Movements

namespace Book.Settled

variable {book : Book} {tenantId : String} {asOf : ReportInstant} {cursor : Xid}
  {currency : String}

theorem joined (settled : book.Settled) : book.Joined :=
  settled.kept.joined

theorem closesOwn (settled : book.Settled) : book.ClosesOwn :=
  settled.kept.closesOwn

theorem sideAt_eq (settled : book.Settled) (direction : Direction) (accountId : Uuid) :
    sideAt (checkpointPosition book tenantId asOf cursor) direction currency accountId =
      inceptionSide book tenantId asOf cursor direction currency accountId :=
  sideAt_eq_inceptionSide settled.joined settled.closesOwn settled.exact_ direction accountId

/-- A row's two sides are its account's since inception. -/
theorem row_of_position (settled : book.Settled) {q : PositionRow}
    (member : q ∈ checkpointPosition book tenantId asOf cursor) (direction : Direction) :
    q.side direction = inceptionSide book tenantId asOf cursor direction q.currency q.accountId := by
  have keyed : UniqueIndex.Holds (fun row : PositionRow => some (row.currency, row.accountId))
      (checkpointPosition book tenantId asOf cursor) := by
    rw [UniqueIndex.Holds, List.filterMap_eq_map']
    exact keys_of_position book tenantId asOf cursor
  have found : ((checkpointPosition book tenantId asOf cursor).find? fun row =>
      decide (row.currency = q.currency) && decide (row.accountId = q.accountId)) = some q :=
    UniqueIndex.find?_of_mem keyed member rfl fun other => by simp
  rw [← settled.sideAt_eq, sideAt, found]
  rfl

theorem movement_of_position (settled : book.Settled) {q : PositionRow}
    (member : q ∈ checkpointPosition book tenantId asOf cursor) :
    q.debits - q.credits = netMovement book tenantId asOf cursor q.currency q.accountId := by
  have debits := settled.row_of_position member .debit
  have credits := settled.row_of_position member .credit
  rw [netMovement, sumWhere_signed]
  exact congrArg₂ _ debits credits

theorem inceptionSide_nonneg (settled : book.Settled) (direction : Direction)
    (accountId : Uuid) :
    0 ≤ inceptionSide book tenantId asOf cursor direction currency accountId := by
  rw [inceptionSide, sumWhere_on]
  exact Tally.sumWhere_nonneg fun e member _ => (settled.kept.positive e member).le

/-- Every posted entry is in its account's row. -/
theorem position_of_entry (settled : book.Settled) {e : EntryRow} (member : e ∈ book.entries)
    (admits : inceptionAdmits book tenantId asOf cursor e = true) :
    ∃ q ∈ checkpointPosition book tenantId asOf cursor,
      q.currency = e.currency ∧ q.accountId = e.accountId ∧ 0 < q.debits + q.credits := by
  have positive : 0 < inceptionSide book tenantId asOf cursor e.direction e.currency
      e.accountId := by
    rw [inceptionSide, sumWhere_on]
    exact Tally.sumWhere_pos (fun other isThere _ => settled.kept.positive other isThere) member
      (by simp [admits])
  rw [← settled.sideAt_eq, sideAt] at positive
  cases found : (checkpointPosition book tenantId asOf cursor).find? fun row =>
      decide (row.currency = e.currency) && decide (row.accountId = e.accountId) with
  | none =>
      rw [found] at positive
      exact absurd positive (lt_irrefl 0)
  | some q =>
      rw [found] at positive
      have isThere := List.mem_of_find?_eq_some found
      have isRow := List.find?_some found
      simp only [Bool.and_eq_true, decide_eq_true_eq] at isRow
      refine ⟨q, isThere, isRow.1, isRow.2, ?_⟩
      have debits : 0 ≤ q.debits :=
        (settled.inceptionSide_nonneg .debit q.accountId).trans_eq
          (settled.row_of_position isThere .debit).symm
      have credits : 0 ≤ q.credits :=
        (settled.inceptionSide_nonneg .credit q.accountId).trans_eq
          (settled.row_of_position isThere .credit).symm
      have ownSide : 0 < q.side e.direction := positive
      cases direction : e.direction with
      | debit =>
          rw [direction] at ownSide
          have isDebits : 0 < q.debits := ownSide
          omega
      | credit =>
          rw [direction] at ownSide
          have isCredits : 0 < q.credits := ownSide
          omega

/-- The admitted entries of a currency cancel. -/
theorem movement_of_currency (settled : book.Settled) :
    Tally.sumWhere (fun e =>
      inceptionAdmits book tenantId asOf cursor e && decide (e.currency = currency))
      EntryRow.signed book.entries = 0 := by
  refine settled.kept.signed_of_uncut _ ?_
  intro e member other isThere sameTenant sameId sameCurrency
  obtain ⟨sameDate, sameWriter, sameStatus⟩ :=
    settled.kept.same_transaction member isThere sameTenant sameId
  simp only [inceptionAdmits, sameTenant, sameCurrency, sameDate, sameWriter, sameStatus]

/-- A currency's rows are of distinct accounts. -/
theorem accountIds_of_position :
    (((checkpointPosition book tenantId asOf cursor).filter fun q =>
      decide (q.currency = currency)).map PositionRow.accountId).Nodup := by
  have keyed := (List.pairwise_map.mp (keys_of_position book tenantId asOf cursor)).filter
    fun q => decide (q.currency = currency)
  refine List.pairwise_map.mpr (keyed.imp_of_mem fun {left right} inLeft inRight apart same => ?_)
  have leftCurrency := of_decide_eq_true (List.mem_filter.mp inLeft).2
  have rightCurrency := of_decide_eq_true (List.mem_filter.mp inRight).2
  exact apart (Prod.ext (leftCurrency.trans rightCurrency.symm) same)

/-- The movements of a currency's rows sum to zero. -/
theorem positions_cancel (settled : book.Settled) :
    ((((checkpointPosition book tenantId asOf cursor).filter fun q =>
      decide (q.currency = currency)).map PositionRow.accountId).map
        (netMovement book tenantId asOf cursor currency)).sum = 0 := by
  refine (Tally.sum_map_groups (fun e => inceptionAdmits book tenantId asOf cursor e &&
    decide (e.currency = currency)) EntryRow.signed EntryRow.accountId accountIds_of_position
      ?_).trans settled.movement_of_currency
  intro e member keeps
  simp only [Bool.and_eq_true, decide_eq_true_eq] at keeps
  obtain ⟨q, isThere, isCurrency, isAccount, _⟩ := settled.position_of_entry member keeps.1
  rw [← isAccount]
  exact List.mem_map_of_mem (List.mem_filter.mpr
    ⟨isThere, decide_eq_true (isCurrency.trans keeps.2)⟩)

end Book.Settled

namespace Presentation

variable {presentation : Presentation} {version : Int} {statement : FsStatement}

/-- The codes of a version's lines are distinct. -/
theorem codes_of_lines (presentation : Presentation) (version : Int) (statement : FsStatement) :
    ((presentation.linesOf version statement).map FsLine.code).Nodup := by
  have keyed := presentation.pkFsLines
  rw [UniqueIndex.Holds] at keyed
  have rows : (presentation.lines.map fun line => (line.chartVersion, line.code)).Nodup := by
    rw [← List.filterMap_eq_map']
    exact keyed
  refine List.pairwise_map.mpr (((List.pairwise_map.mp rows).filter _).imp_of_mem
    fun {left right} inLeft inRight apart same => ?_)
  have ofVersion : ∀ line ∈ presentation.linesOf version statement,
      line.chartVersion = version := by
    intro line member
    have keeps := (List.mem_filter.mp member).2
    simp only [Bool.and_eq_true, decide_eq_true_eq] at keeps
    exact keeps.1
  exact apart (Prod.ext ((ofVersion left inLeft).trans (ofVersion right inRight).symm) same)

theorem mem_linesOf {line : FsLine} :
    line ∈ presentation.linesOf version statement ↔
      line ∈ presentation.lines ∧ line.chartVersion = version ∧ line.statement = statement := by
  rw [linesOf, List.mem_filter]
  simp only [Bool.and_eq_true, decide_eq_true_eq]

/-- A code of a version is a line of one statement. -/
theorem statement_of_code {line other : FsLine} (member : line ∈ presentation.lines)
    (isThere : other ∈ presentation.lines) (sameVersion : line.chartVersion = other.chartVersion)
    (sameCode : line.code = other.code) : line = other := by
  refine UniqueIndex.holds_eq presentation.pkFsLines member isThere rfl ?_
  rw [FsLine.primaryKey, sameVersion, sameCode]

/-- What a row presents at a version. -/
theorem mem_of_row? {typeCode : String} {row : PresentationRow}
    (found : presentation.row? version typeCode = some row) :
    row ∈ presentation.rows ∧ row.chartVersion = version ∧ row.typeCode = typeCode := by
  have isRow := List.find?_some found
  simp only [Bool.and_eq_true, decide_eq_true_eq] at isRow
  exact ⟨List.mem_of_find?_eq_some found, isRow⟩

end Presentation

theorem Category.isTemporary_of_swings {category : Category} (swings : category.swings = true) :
    category.isTemporary = false := by
  cases category <;> first | rfl | cases swings

namespace PresentationRow

variable {presentation : Presentation}

/-- The line a balance of this type stands on: the contra line once it has
swung. -/
def standsOn (row : PresentationRow) (v : Int) : String :=
  if row.fsLineContra.isSome &&
      ((decide (row.category = .asset) && decide (v < 0)) ||
        (decide (row.category = .liability) && decide (0 < v))) then
    row.fsLineContra.getD row.fsLine
  else row.fsLine

/-- A permanent type's balance stands on a line of the balance sheet, whichever
way it has swung. -/
theorem line_of_permanent {row : PresentationRow} (member : row ∈ presentation.rows)
    (permanent : row.category.isTemporary = false) (v : Int) :
    ∃ line ∈ presentation.linesOf row.chartVersion .balanceSheet, line.code = row.standsOn v := by
  have isBalanceSheet : row.fsStatement = .balanceSheet := by
    rw [fsStatement, permanent]
    rfl
  cases contra : row.fsLineContra with
  | none =>
      obtain ⟨line, isThere, ofVersion, isCode, isStatement, _⟩ :=
        presentation.fkPresentationFsLine row member
      refine ⟨line, Presentation.mem_linesOf.mpr
        ⟨isThere, ofVersion, isStatement.trans isBalanceSheet⟩, ?_⟩
      rw [isCode, standsOn, contra]
      rfl
  | some code =>
      by_cases swung : ((decide (row.category = .asset) && decide (v < 0)) ||
          (decide (row.category = .liability) && decide (0 < v))) = true
      · have swings := presentation.ckContraIsBalanceSheet row member (by rw [contra]; rfl)
        obtain ⟨side, isSide⟩ : ∃ side, row.fsSideContra = some side := by
          rw [fsSideContra, contra]
          cases category : row.category <;> rw [category] at swings
          · exact ⟨_, rfl⟩
          · exact ⟨_, rfl⟩
          all_goals cases swings
        obtain ⟨line, isThere, ofVersion, isCode, isStatement, _⟩ :=
          presentation.fkPresentationFsLineContra row member code contra side isSide
        refine ⟨line, Presentation.mem_linesOf.mpr
          ⟨isThere, ofVersion, isStatement.trans isBalanceSheet⟩, ?_⟩
        rw [isCode, standsOn, contra, swung]
        rfl
      · obtain ⟨line, isThere, ofVersion, isCode, isStatement, _⟩ :=
          presentation.fkPresentationFsLine row member
        refine ⟨line, Presentation.mem_linesOf.mpr
          ⟨isThere, ofVersion, isStatement.trans isBalanceSheet⟩, ?_⟩
        rw [isCode, standsOn, Bool.eq_false_iff.mpr swung, Bool.and_false]
        rfl

/-- A temporary type's balance stands on none. -/
theorem line_of_temporary {row : PresentationRow} (member : row ∈ presentation.rows)
    (temporary : row.category.isTemporary = true) (v : Int) :
    ∀ line ∈ presentation.linesOf row.chartVersion .balanceSheet, line.code ≠ row.standsOn v := by
  intro line isLine same
  obtain ⟨isThere, ofVersion, isStatement⟩ := Presentation.mem_linesOf.mp isLine
  have noContra : row.fsLineContra = none := by
    by_contra some
    have swings := presentation.ckContraIsBalanceSheet row member
      (Option.isSome_iff_ne_none.mpr some)
    rw [Category.isTemporary_of_swings swings] at temporary
    cases temporary
  obtain ⟨other, isOther, sameVersion, isCode, otherStatement, _⟩ :=
    presentation.fkPresentationFsLine row member
  have isRowLine : line = other := by
    refine Presentation.statement_of_code isThere isOther (ofVersion.trans sameVersion.symm) ?_
    rw [same, isCode, standsOn, noContra]
    rfl
  rw [isRowLine, otherStatement, fsStatement, temporary] at isStatement
  cases isStatement

end PresentationRow

/-- An account's balance since inception, debit-positive. -/
def AccountRow.balance (book : Book) (asOf : ReportInstant) (cursor : Xid) (a : AccountRow) :
    Int :=
  netMovement book a.tenantId asOf cursor a.currency a.id

/-- Whether an account has a posted entry below the cursor and before the
instant. -/
def AccountRow.HasEntries (book : Book) (asOf : ReportInstant) (cursor : Xid) (a : AccountRow) :
    Prop :=
  ∃ e ∈ book.entries, inceptionAdmits book a.tenantId asOf cursor e = true ∧
    e.currency = a.currency ∧ e.accountId = a.id

section Presenting

variable {presentation : Presentation} {book : Book} {tenantId : String} {asOf : ReportInstant}
  {cursor : Xid} {version : Int} {currency : String}

/-- What a position is once it is joined to its account and the chart. -/
def PresentedPosition.ofRow (q : PositionRow) (p : PresentationRow) : PresentedPosition where
  currency := q.currency
  accountId := q.accountId
  category := p.category
  counterpartyScope := p.counterpartyScope
  fsLine := p.fsLine
  fsLineContra := p.fsLineContra
  v := q.debits - q.credits

/-- What the chart presents of the account a position is on. -/
def presentedAs (presentation : Presentation) (book : Book) (tenantId : String) (version : Int)
    (currency : String) (accountId : Uuid) : Option PresentationRow :=
  (book.account? tenantId accountId currency).bind fun a => presentation.row? version a.purpose

theorem presentedPositions_eq :
    presentedPositions presentation book tenantId asOf cursor version =
      (checkpointPosition book tenantId asOf cursor).filterMap fun q =>
        (presentedAs presentation book tenantId version q.currency q.accountId).map
          (PresentedPosition.ofRow q) := by
  unfold presentedPositions
  congr 1
  funext q
  rw [presentedAs]
  cases book.account? tenantId q.accountId q.currency <;> rfl

/-- What a kept presentation contributes under an account. -/
def presentedValue (presentation : Presentation) (book : Book) (tenantId : String)
    (asOf : ReportInstant) (cursor : Xid) (version : Int) (currency : String)
    (keep : PresentationRow → Int → Bool) (accountId : Uuid) : Int :=
  if (presentedAs presentation book tenantId version currency accountId).any fun p =>
      keep p (netMovement book tenantId asOf cursor currency accountId) then
    netMovement book tenantId asOf cursor currency accountId
  else 0

theorem sum_over_positions (settled : book.Settled) (keep : PresentationRow → Int → Bool) :
    Tally.sumWhere (fun pos : PresentedPosition => decide (pos.currency = currency) &&
        (presentedAs presentation book tenantId version pos.currency pos.accountId).any
          fun p => keep p pos.v)
        PresentedPosition.v (presentedPositions presentation book tenantId asOf cursor version) =
      ((((checkpointPosition book tenantId asOf cursor).filter fun q =>
        decide (q.currency = currency)).map PositionRow.accountId).map
          (presentedValue presentation book tenantId asOf cursor version currency keep)).sum := by
  rw [presentedPositions_eq, Tally.sumWhere_filterMap, List.map_map]
  change _ = Tally.sumWhere (fun q : PositionRow => decide (q.currency = currency))
    (presentedValue presentation book tenantId asOf cursor version currency keep ∘
      PositionRow.accountId) _
  rw [Tally.sumWhere_eq_sum_map, Tally.sumWhere_eq_sum_map]
  refine congrArg List.sum (List.map_congr_left fun q member => ?_)
  have movement := settled.movement_of_position member
  by_cases isCurrency : q.currency = currency
  · subst isCurrency
    rw [if_pos (decide_eq_true rfl), Function.comp, presentedValue, ← movement]
    cases presented : presentedAs presentation book tenantId version q.currency q.accountId with
    | none =>
        rfl
    | some p =>
        simp only [Option.map_some, Option.any_some, PresentedPosition.ofRow, decide_true,
          Bool.true_and, presented, Option.elim_some]
  · rw [decide_eq_false isCurrency, if_neg Bool.false_ne_true]
    cases presentedAs presentation book tenantId version q.currency q.accountId with
    | none =>
        rfl
    | some p =>
        simp [PresentedPosition.ofRow, isCurrency]

theorem sum_over_accounts (kept : Kept book) (keep : PresentationRow → Int → Bool) :
    Tally.sumWhere (fun a => decide (a.tenantId = tenantId) && decide (a.currency = currency) &&
          (presentation.row? version a.purpose).any fun p => keep p (a.balance book asOf cursor))
        (AccountRow.balance book asOf cursor) book.accounts =
      (((book.accounts.filter fun a =>
        decide (a.tenantId = tenantId) && decide (a.currency = currency)).map AccountRow.id).map
          (presentedValue presentation book tenantId asOf cursor version currency keep)).sum := by
  rw [List.map_map]
  change _ = Tally.sumWhere (fun a : AccountRow =>
    decide (a.tenantId = tenantId) && decide (a.currency = currency))
    (presentedValue presentation book tenantId asOf cursor version currency keep ∘
      AccountRow.id) _
  rw [Tally.sumWhere_eq_sum_map, Tally.sumWhere_eq_sum_map]
  refine congrArg List.sum (List.map_congr_left fun a member => ?_)
  by_cases mine : (decide (a.tenantId = tenantId) && decide (a.currency = currency)) = true
  · have isMine := mine
    simp only [Bool.and_eq_true, decide_eq_true_eq] at isMine
    obtain ⟨rfl, rfl⟩ := isMine
    rw [if_pos mine, mine, Bool.true_and, Function.comp, presentedValue, presentedAs,
      account?_of_mem kept member]
    rfl
  · rw [if_neg mine, Bool.eq_false_iff.mpr mine]
    rfl

/-- Summing some presented positions of a currency is summing the balances of
the tenant's accounts they are on. -/
theorem sum_presented (settled : book.Settled) (keep : PresentationRow → Int → Bool) :
    Tally.sumWhere (fun pos : PresentedPosition => decide (pos.currency = currency) &&
        (presentedAs presentation book tenantId version pos.currency pos.accountId).any
          fun p => keep p pos.v)
        PresentedPosition.v (presentedPositions presentation book tenantId asOf cursor version) =
      Tally.sumWhere (fun a => decide (a.tenantId = tenantId) && decide (a.currency = currency) &&
          (presentation.row? version a.purpose).any fun p => keep p (a.balance book asOf cursor))
        (AccountRow.balance book asOf cursor) book.accounts := by
  rw [sum_over_positions settled, sum_over_accounts settled.kept]
  refine Tally.sum_map_support Book.Settled.accountIds_of_position ?_ _ fun accountId nonzero => ?_
  · refine @accountIds_of_scope book tenantId settled.kept _ fun a chosen => ?_
    simp only [Bool.and_eq_true, decide_eq_true_eq] at chosen
    exact chosen.1
  · have moved : netMovement book tenantId asOf cursor currency accountId ≠ 0 := by
      intro isZero
      rw [presentedValue, isZero] at nonzero
      simp at nonzero
    obtain ⟨e, member, admits, isCurrency, isAccount⟩ := entry_of_movement moved
    obtain ⟨q, isRow, sameCurrency, sameAccount, _⟩ := settled.position_of_entry member admits
    obtain ⟨a, found⟩ := Option.isSome_iff_exists.mp (settled.kept.onAccount e member)
    obtain ⟨isThere, ofTenant, isId, inCurrency⟩ := account?_spec found
    refine iff_of_true (List.mem_map.mpr ⟨q, List.mem_filter.mpr ⟨isRow, ?_⟩, ?_⟩)
      (List.mem_map.mpr ⟨a, List.mem_filter.mpr ⟨isThere, ?_⟩, ?_⟩)
    · exact decide_eq_true (sameCurrency.trans isCurrency)
    · exact sameAccount.trans isAccount
    · simp [ofTenant, tenant_of_admits admits, inCurrency, isCurrency]
    · exact isId.trans isAccount

/-- A presented position and what presents it. -/
theorem presentedAs_of_mem {pos : PresentedPosition}
    (member : pos ∈ presentedPositions presentation book tenantId asOf cursor version) :
    ∃ p, presentedAs presentation book tenantId version pos.currency pos.accountId = some p ∧
      p ∈ presentation.rows ∧ p.chartVersion = version ∧ pos.category = p.category ∧
        pos.presentedOn = p.standsOn pos.v := by
  rw [presentedPositions_eq] at member
  obtain ⟨q, _, isPresented⟩ := List.mem_filterMap.mp member
  obtain ⟨p, presents, rfl⟩ := Option.map_eq_some_iff.mp isPresented
  obtain ⟨a, _, isRow⟩ := Option.bind_eq_some_iff.mp presents
  obtain ⟨isThere, ofVersion, _⟩ := Presentation.mem_of_row? isRow
  exact ⟨p, presents, isThere, ofVersion, rfl, rfl⟩

/-- Past the guard, what is not presented has not moved. -/
theorem movement_of_unpresented (settled : book.Settled)
    (passes : hasUnpresentedPosition presentation book tenantId asOf cursor version = false)
    {accountId : Uuid}
    (unpresented : presentedAs presentation book tenantId version currency accountId = none) :
    netMovement book tenantId asOf cursor currency accountId = 0 := by
  by_contra moved
  obtain ⟨e, member, admits, rfl, rfl⟩ := entry_of_movement moved
  obtain ⟨q, isRow, isCurrency, isAccount, positive⟩ := settled.position_of_entry member admits
  obtain ⟨a, found⟩ := Option.isSome_iff_exists.mp (settled.kept.onAccount e member)
  rw [tenant_of_admits admits] at found
  rw [presentedAs, found, Option.bind_some] at unpresented
  have refused := List.any_eq_false.mp passes q isRow
  rw [isCurrency, isAccount, found] at refused
  simp [positive, unpresented] at refused

/-- Past the guard, the presented positions of a currency sum to zero. -/
theorem presented_cancel (settled : book.Settled)
    (passes : hasUnpresentedPosition presentation book tenantId asOf cursor version = false) :
    Tally.sumWhere (fun pos : PresentedPosition => decide (pos.currency = currency))
      PresentedPosition.v (presentedPositions presentation book tenantId asOf cursor version) =
        0 := by
  have all : ∀ pos ∈ presentedPositions presentation book tenantId asOf cursor version,
      decide (pos.currency = currency) = (decide (pos.currency = currency) &&
        (presentedAs presentation book tenantId version pos.currency pos.accountId).any
          fun _ => true) := by
    intro pos member
    obtain ⟨p, presents, _⟩ := presentedAs_of_mem member
    rw [presents, Option.any_some, Bool.and_true]
  rw [Tally.sumWhere_congr all fun _ _ _ => rfl]
  have cancels := @Book.Settled.positions_cancel book tenantId asOf cursor currency settled
  refine (sum_over_positions settled fun _ _ => true).trans (Eq.trans ?_ cancels)
  refine congrArg List.sum (List.map_congr_left fun accountId _ => ?_)
  rw [presentedValue]
  cases presents : presentedAs presentation book tenantId version currency accountId with
  | none =>
      rw [movement_of_unpresented settled passes presents]
      rfl
  | some p =>
      rfl

/-- The lines of the balance sheet hold each permanent position once and no
temporary one. -/
theorem lines_hold_permanent :
    ((presentation.linesOf version .balanceSheet).map fun line =>
      Tally.sumWhere (fun pos : PresentedPosition =>
        decide (pos.currency = currency) && decide (pos.presentedOn = line.code))
        PresentedPosition.v
        (presentedPositions presentation book tenantId asOf cursor version)).sum =
      Tally.sumWhere (fun pos : PresentedPosition =>
        decide (pos.currency = currency) && !pos.category.isTemporary) PresentedPosition.v
        (presentedPositions presentation book tenantId asOf cursor version) := by
  rw [← Tally.sum_map_groups _ _ PresentedPosition.presentedOn
    (presentation.codes_of_lines version .balanceSheet), List.map_map]
  · refine congrArg List.sum (List.map_congr_left fun line isLine => ?_)
    refine Tally.sumWhere_congr (fun pos member => ?_) fun _ _ _ => rfl
    obtain ⟨p, _, isThere, ofVersion, isCategory, stands⟩ := presentedAs_of_mem member
    by_cases onLine : pos.presentedOn = line.code
    · have permanent : pos.category.isTemporary = false := by
        rw [isCategory]
        by_contra temporary
        rw [← ofVersion] at isLine
        exact PresentationRow.line_of_temporary isThere (Bool.not_eq_false _ ▸ temporary) pos.v
          line isLine (onLine.symm.trans stands)
      simp [onLine, permanent]
    · simp [onLine]
  · intro pos member keeps
    obtain ⟨p, _, isThere, ofVersion, isCategory, stands⟩ := presentedAs_of_mem member
    simp only [Bool.and_eq_true, Bool.not_eq_true'] at keeps
    rw [isCategory] at keeps
    obtain ⟨line, isLine, isCode⟩ := PresentationRow.line_of_permanent isThere keeps.2 pos.v
    rw [ofVersion] at isLine
    rw [stands, ← isCode]
    exact List.mem_map_of_mem isLine

end Presenting

/-- What a row is of. -/
def StatementRow.key (row : StatementRow) : String × String := (row.currency, row.fsLine)

/-- The total of a face over some sides, in one currency. -/
def faceTotal (face : List StatementRow) (currency : String) (counts : FsSide → Bool) : Int :=
  Tally.sumWhere (fun row => decide (row.currency = currency) && counts row.side)
    StatementRow.amountMinor face

section Facing

variable {presentation : Presentation} {tenantId : String} {cursor : Xid} {version : Int}
  {currency : String} {scopes : List String} {positions : List PresentedPosition}

/-- Ordering a face does not change what it holds. -/
theorem perm_orderedFace (rows : List StatementRow) : (orderedFace rows).Perm rows :=
  List.perm_insertionSort _ rows

/-- Rows made line by line for each currency in scope. -/
theorem faceTotal_of_lines {row : String → FsLine → StatementRow}
    (isCurrency : ∀ other line, (row other line).currency = other)
    (isSide : ∀ other line, (row other line).side = line.side)
    (distinct : scopes.Nodup) (inScope : currency ∈ scopes) (lines : List FsLine)
    (counts : FsSide → Bool) :
    faceTotal (scopes.flatMap fun other => lines.map (row other)) currency counts =
      Tally.sumWhere (fun line => counts line.side) (fun line => (row currency line).amountMinor)
        lines := by
  rw [faceTotal, Tally.sumWhere_flatMap]
  refine Eq.trans ?_ (Tally.sum_map_single distinct _ inScope)
  refine congrArg List.sum (List.map_congr_left fun other _ => ?_)
  rw [Tally.sumWhere_map]
  by_cases same : currency = other
  · subst same
    rw [if_pos rfl]
    simp only [isCurrency, isSide, decide_true, Bool.true_and]
  · rw [if_neg same]
    refine Tally.sumWhere_eq_zero fun line _ => ?_
    simp [isCurrency, Ne.symm same]

/-- The total of a currency in scope is its lines', and its plug's. -/
theorem faceTotal_of_scope (distinct : scopes.Nodup) (inScope : currency ∈ scopes)
    (counts : FsSide → Bool) :
    faceTotal (balanceSheetFace presentation tenantId cursor version scopes positions) currency
        counts =
      Tally.sumWhere (fun line => counts line.side) (faceAmount positions currency)
          (presentation.linesOf version .balanceSheet) +
        if counts .equity then plugAmount positions currency else 0 := by
  have lines := @faceTotal_of_lines currency scopes
    (fun other f =>
      { tenantId, currency := other, chartVersion := version, fsLine := f.code
        caption := f.caption, sortOrder := f.sortOrder, amountMinor := faceAmount positions other f
        side := f.side, pinnedCursor := cursor })
    (fun _ _ => rfl) (fun _ _ => rfl) distinct inScope (presentation.linesOf version .balanceSheet)
    counts
  rw [faceTotal, balanceSheetFace, Tally.sumWhere_append]
  refine congrArg₂ _ lines ?_
  rw [Tally.sumWhere_map, Tally.sumWhere_eq_sum_map]
  refine Eq.trans ?_ (Tally.sum_map_single distinct _ inScope)
  refine congrArg List.sum (List.map_congr_left fun other _ => ?_)
  by_cases same : currency = other
  · subst same
    simp
  · simp [same, Ne.symm same]

/-- A currency out of scope is not on the face. -/
theorem faceTotal_of_no_scope (outOfScope : currency ∉ scopes) (counts : FsSide → Bool) :
    faceTotal (balanceSheetFace presentation tenantId cursor version scopes positions) currency
      counts = 0 := by
  refine Tally.sumWhere_eq_zero fun row member => ?_
  have notMine : row.currency ≠ currency := by
    rintro rfl
    rcases List.mem_append.mp member with inLines | inPlugs
    · obtain ⟨other, inScope, isRow⟩ := List.mem_flatMap.mp inLines
      obtain ⟨line, _, rfl⟩ := List.mem_map.mp isRow
      exact outOfScope inScope
    · obtain ⟨other, inScope, rfl⟩ := List.mem_map.mp inPlugs
      exact outOfScope inScope
  rw [decide_eq_false notMine, Bool.false_and]

/-- What a line holds, its side's sign taken out. -/
theorem faceAmount_eq (line : FsLine) :
    faceAmount positions currency line =
      (if line.side = .asset then 1 else -1) *
        Tally.sumWhere (fun d => decide (d.currency = currency) &&
          decide (d.presentedOn = line.code)) PresentedPosition.v positions := by
  rw [faceAmount]
  by_cases isAsset : line.side = .asset
  · simp only [if_pos isAsset, one_mul]
  · simp only [if_neg isAsset, neg_one_mul]
    exact Tally.sumWhere_neg _ _ _

/-- Assets less everything else are what the lines hold, each side in its own
sign. -/
theorem assets_less_others :
    Tally.sumWhere (fun line : FsLine => decide (line.side = .asset))
        (faceAmount positions currency) (presentation.linesOf version .balanceSheet) -
      Tally.sumWhere (fun line : FsLine =>
          decide (line.side = .liability) || decide (line.side = .equity))
        (faceAmount positions currency) (presentation.linesOf version .balanceSheet) =
      ((presentation.linesOf version .balanceSheet).map fun line =>
        Tally.sumWhere (fun pos : PresentedPosition =>
          decide (pos.currency = currency) && decide (pos.presentedOn = line.code))
          PresentedPosition.v positions).sum := by
  have sided : ∀ line ∈ presentation.linesOf version .balanceSheet,
      line.side = .asset ∨ line.side = .liability ∨ line.side = .equity := by
    intro line isLine
    obtain ⟨member, _, isStatement⟩ := Presentation.mem_linesOf.mp isLine
    have matched := presentation.ckFsLinesSideMatchesStatement line member
    rw [isStatement] at matched
    cases side : line.side <;> rw [side] at matched
    · exact Or.inl rfl
    · exact Or.inr (Or.inl rfl)
    · exact Or.inr (Or.inr rfl)
    all_goals cases matched
  generalize presentation.linesOf version .balanceSheet = lines at sided
  induction lines with
  | nil =>
      rfl
  | cons head tail inductionHypothesis =>
      have rest := inductionHypothesis fun line member => sided line (List.mem_cons_of_mem _ member)
      rw [Tally.sumWhere_cons, Tally.sumWhere_cons, List.map_cons, List.sum_cons, ← rest,
        faceAmount_eq]
      rcases sided head List.mem_cons_self with isSide | isSide | isSide
      all_goals
        simp only [isSide, decide_true, decide_false, Bool.or_false, Bool.or_true, reduceCtorEq,
          if_true, if_false, Bool.false_eq_true]
        ring

/-- Rows made line by line have one key each. -/
theorem keys_of_lines {row : String → FsLine → StatementRow}
    (isKey : ∀ other line, (row other line).key = (other, line.code))
    (distinct : scopes.Nodup) {lines : List FsLine} (codes : (lines.map FsLine.code).Nodup) :
    ((scopes.flatMap fun other => lines.map (row other)).map StatementRow.key).Nodup := by
  rw [List.map_flatMap]
  refine List.nodup_flatMap.mpr ⟨fun other _ => ?_, distinct.imp fun {left right} apart => ?_⟩
  · rw [List.map_map]
    refine List.pairwise_map.mpr ((List.pairwise_map.mp codes).imp fun {left right} apart same => ?_)
    simp only [Function.comp, isKey, Prod.mk.injEq, true_and] at same
    exact apart same
  · intro key inLeft inRight
    obtain ⟨row, isLeft, rfl⟩ := List.mem_map.mp inLeft
    obtain ⟨line, _, rfl⟩ := List.mem_map.mp isLeft
    obtain ⟨other, isRight, same⟩ := List.mem_map.mp inRight
    obtain ⟨otherLine, _, rfl⟩ := List.mem_map.mp isRight
    simp only [isKey, Prod.mk.injEq] at same
    exact apart same.1.symm

/-- A face has one row a currency and line, and the plug's code is nobody
else's. -/
theorem keys_of_face (distinct : scopes.Nodup) :
    ((balanceSheetFace presentation tenantId cursor version scopes positions).map
      StatementRow.key).Nodup := by
  rw [balanceSheetFace, List.map_append, List.map_map]
  refine List.Nodup.append (keys_of_lines (fun _ _ => rfl) distinct
    (presentation.codes_of_lines version .balanceSheet)) ?_ ?_
  · refine List.pairwise_map.mpr (distinct.imp fun {left right} apart same => ?_)
    exact apart (Prod.ext_iff.mp same).1
  · intro key inLines inPlugs
    obtain ⟨row, isLine, rfl⟩ := List.mem_map.mp inLines
    obtain ⟨currency, _, isRow⟩ := List.mem_flatMap.mp isLine
    obtain ⟨line, inChart, rfl⟩ := List.mem_map.mp isRow
    obtain ⟨other, _, same⟩ := List.mem_map.mp inPlugs
    have reserved := presentation.ckFsLinesCodeReserved line (Presentation.mem_linesOf.mp inChart).1
    exact reserved (Prod.ext_iff.mp same).2.symm

/-- A row of a face is one of its lines, or its plug. -/
theorem row_of_face {row : StatementRow}
    (member : row ∈ balanceSheetFace presentation tenantId cursor version scopes positions) :
    row.currency ∈ scopes ∧
      ((∃ line ∈ presentation.linesOf version .balanceSheet, row.fsLine = line.code ∧
          row.side = line.side ∧ row.amountMinor = faceAmount positions row.currency line) ∨
        (row.fsLine = "current_year_earnings" ∧ row.side = .equity ∧
          row.amountMinor = plugAmount positions row.currency)) := by
  rcases List.mem_append.mp member with inLines | inPlugs
  · obtain ⟨other, inScope, isRow⟩ := List.mem_flatMap.mp inLines
    obtain ⟨line, isLine, rfl⟩ := List.mem_map.mp isRow
    exact ⟨inScope, Or.inl ⟨line, isLine, rfl, rfl, rfl⟩⟩
  · obtain ⟨other, inScope, rfl⟩ := List.mem_map.mp inPlugs
    exact ⟨inScope, Or.inr ⟨rfl, rfl, rfl⟩⟩

end Facing

/-- What `balance_sheet_at` answers, where it does not raise. -/
theorem face_of_answer {presentation : Presentation} {book : Book} {tenantId : String}
    {asOf : ReportInstant} {cursor : Xid} {chartVersion : Option Int}
    {face : List StatementRow}
    (answered : balanceSheetAt presentation book tenantId asOf cursor chartVersion = .ok face) :
    ∃ version, resolveVersion presentation chartVersion = .ok version ∧
      hasUnpresentedPosition presentation book tenantId asOf cursor version = false ∧
        face = orderedFace (balanceSheetFace presentation tenantId cursor version
          (scopesOf book tenantId)
          (presentedPositions presentation book tenantId asOf cursor version)) := by
  unfold balanceSheetAt at answered
  split at answered
  · cases answered
  · rename_i version resolved
    split at answered
    · cases answered
    · rename_i passes
      exact ⟨version, resolved, Bool.eq_false_iff.mpr passes, (Except.ok.inj answered).symm⟩

section Balanced

variable {presentation : Presentation} {book : Book} {tenantId : String} {asOf : ReportInstant}
  {cursor : Xid} {version : Int} {currency : String}

/-- The plug is what the permanent positions leave. -/
theorem plug_of_lines (settled : book.Settled)
    (passes : hasUnpresentedPosition presentation book tenantId asOf cursor version = false) :
    ((presentation.linesOf version .balanceSheet).map fun line =>
      Tally.sumWhere (fun pos : PresentedPosition =>
        decide (pos.currency = currency) && decide (pos.presentedOn = line.code))
        PresentedPosition.v
        (presentedPositions presentation book tenantId asOf cursor version)).sum =
      plugAmount (presentedPositions presentation book tenantId asOf cursor version) currency := by
  have cancel := @presented_cancel presentation book tenantId asOf cursor version currency settled
    passes
  rw [Tally.sumWhere_split _ fun pos => pos.category.isTemporary] at cancel
  rw [lines_hold_permanent, plugAmount]
  exact eq_neg_of_add_eq_zero_right cancel

/-- The face balances in every currency. -/
theorem face_balances (settled : book.Settled)
    (passes : hasUnpresentedPosition presentation book tenantId asOf cursor version = false) :
    faceTotal (balanceSheetFace presentation tenantId cursor version (scopesOf book tenantId)
        (presentedPositions presentation book tenantId asOf cursor version)) currency
        (fun side => decide (side = .asset)) =
      faceTotal (balanceSheetFace presentation tenantId cursor version (scopesOf book tenantId)
        (presentedPositions presentation book tenantId asOf cursor version)) currency
        (fun side => decide (side = .liability) || decide (side = .equity)) := by
  by_cases inScope : currency ∈ scopesOf book tenantId
  · have distinct : (scopesOf book tenantId).Nodup := List.nodup_dedup _
    have lines := @assets_less_others presentation version currency
      (presentedPositions presentation book tenantId asOf cursor version)
    rw [plug_of_lines settled passes] at lines
    rw [faceTotal_of_scope distinct inScope, faceTotal_of_scope distinct inScope]
    rw [if_neg (by decide), if_pos (by decide)]
    linarith
  · rw [faceTotal_of_no_scope inScope, faceTotal_of_no_scope inScope]

/-- A type's category is what its presentation says. -/
theorem category_of_row? (kept : Kept book) (presents : presentation.Presents book.chart)
    {a : AccountRow} (member : a ∈ book.accounts) {p : PresentationRow}
    (found : presentation.row? version a.purpose = some p) : p.category = a.category := by
  obtain ⟨isThere, _, isType⟩ := Presentation.mem_of_row? found
  obtain ⟨type, isOfChart, isCode, isCategory, _⟩ := presents p isThere
  obtain ⟨⟨own, typed, ownCategory, _⟩, _⟩ := kept.charted a member
  have ownCode := List.find?_some typed
  have sameType : type = own := by
    refine List.inj_on_of_nodup_map book.chart.codesNodup isOfChart
      (List.mem_of_find?_eq_some typed) ?_
    rw [isCode, isType]
    exact (of_decide_eq_true ownCode).symm
  rw [← isCategory, ownCategory, sameType]

/-- What a line holds is what stands on it: the balances of the accounts whose
types send them there. -/
def lineBalance (presentation : Presentation) (book : Book) (tenantId : String)
    (asOf : ReportInstant) (cursor : Xid) (version : Int) (currency code : String) : Int :=
  Tally.sumWhere (fun a => decide (a.tenantId = tenantId) && decide (a.currency = currency) &&
      (presentation.row? version a.purpose).any fun p =>
        decide (p.standsOn (a.balance book asOf cursor) = code))
    (AccountRow.balance book asOf cursor) book.accounts

/-- The balances of the temporary accounts, earnings positive. -/
def undistributedEarnings (book : Book) (tenantId : String) (asOf : ReportInstant)
    (cursor : Xid) (currency : String) : Int :=
  -Tally.sumWhere (fun a => decide (a.tenantId = tenantId) && decide (a.currency = currency) &&
      a.category.isTemporary) (AccountRow.balance book asOf cursor) book.accounts

theorem faceAmount_eq_lineBalance (settled : book.Settled) (line : FsLine) :
    faceAmount (presentedPositions presentation book tenantId asOf cursor version) currency line =
      (if line.side = .asset then 1 else -1) *
        lineBalance presentation book tenantId asOf cursor version currency line.code := by
  have stood : ∀ pos ∈ presentedPositions presentation book tenantId asOf cursor version,
      (decide (pos.currency = currency) && decide (pos.presentedOn = line.code)) =
        (decide (pos.currency = currency) &&
          (presentedAs presentation book tenantId version pos.currency pos.accountId).any
            fun p => decide (p.standsOn pos.v = line.code)) := by
    intro pos member
    obtain ⟨p, presents, _, _, _, stands⟩ := presentedAs_of_mem member
    rw [presents, Option.any_some, stands]
  rw [faceAmount_eq, Tally.sumWhere_congr stood fun _ _ _ => rfl]
  exact congrArg _ (sum_presented settled fun p v => decide (p.standsOn v = line.code))

/-- Past the guard, an account of no presented type has not moved. -/
theorem balance_of_unpresented (settled : book.Settled)
    (passes : hasUnpresentedPosition presentation book tenantId asOf cursor version = false)
    {a : AccountRow} (member : a ∈ book.accounts) (ofTenant : a.tenantId = tenantId)
    (unpresented : presentation.row? version a.purpose = none) :
    a.balance book asOf cursor = 0 := by
  subst ofTenant
  refine movement_of_unpresented settled passes ?_
  rw [presentedAs, account?_of_mem settled.kept member]
  exact unpresented

theorem plugAmount_eq (settled : book.Settled) (presents : presentation.Presents book.chart)
    (passes : hasUnpresentedPosition presentation book tenantId asOf cursor version = false) :
    plugAmount (presentedPositions presentation book tenantId asOf cursor version) currency =
      undistributedEarnings book tenantId asOf cursor currency := by
  have isTemporary : ∀ pos ∈ presentedPositions presentation book tenantId asOf cursor version,
      (decide (pos.currency = currency) && pos.category.isTemporary) =
        (decide (pos.currency = currency) &&
          (presentedAs presentation book tenantId version pos.currency pos.accountId).any
            fun p => p.category.isTemporary) := by
    intro pos member
    obtain ⟨p, presents, _, _, isCategory, _⟩ := presentedAs_of_mem member
    rw [presents, Option.any_some, isCategory]
  rw [plugAmount, undistributedEarnings, Tally.sumWhere_congr isTemporary fun _ _ _ => rfl]
  refine congrArg Neg.neg ((sum_presented settled fun p _ => p.category.isTemporary).trans ?_)
  rw [Tally.sumWhere_eq_sum_map, Tally.sumWhere_eq_sum_map]
  refine congrArg List.sum (List.map_congr_left fun a member => ?_)
  by_cases ofTenant : a.tenantId = tenantId
  · cases found : presentation.row? version a.purpose with
    | none =>
        rw [balance_of_unpresented settled passes member ofTenant found, ite_self, ite_self]
    | some p =>
        rw [Option.any_some, category_of_row? settled.kept presents member found]
  · simp [ofTenant]

end Balanced

/-- A face that balances: each permanent account with posted entries is in the
one row of the line it stands on, each temporary one only in the plug, and the
rows hold the balances of those accounts. -/
structure BalancesOnItsFace (presentation : Presentation) (book : Book) (tenantId : String)
    (asOf : ReportInstant) (cursor : Xid) (version : Int) (face : List StatementRow) : Prop where
  balances : ∀ currency,
    faceTotal face currency (fun side => decide (side = .asset)) =
      faceTotal face currency
        (fun side => decide (side = .liability) || decide (side = .equity))
  oneRowEach : (face.map fun row => (row.currency, row.fsLine)).Nodup
  presented : ∀ a ∈ book.accounts, a.tenantId = tenantId → a.HasEntries book asOf cursor →
    ∃ p, presentation.row? version a.purpose = some p ∧ p.category = a.category ∧
      (a.category.isTemporary = false → ∃ row ∈ face, row.currency = a.currency ∧
        row.fsLine ≠ "current_year_earnings" ∧
          row.fsLine = p.standsOn (a.balance book asOf cursor)) ∧
      (a.category.isTemporary = true → ∀ row ∈ face, row.fsLine ≠ "current_year_earnings" →
        row.fsLine ≠ p.standsOn (a.balance book asOf cursor))
  plugged : ∀ a ∈ book.accounts, a.tenantId = tenantId →
    ∃ row ∈ face, row.currency = a.currency ∧ row.fsLine = "current_year_earnings"
  lines : ∀ row ∈ face, row.fsLine ≠ "current_year_earnings" →
    row.amountMinor = (if row.side = .asset then 1 else -1) *
      lineBalance presentation book tenantId asOf cursor version row.currency row.fsLine
  plug : ∀ row ∈ face, row.fsLine = "current_year_earnings" → row.side = .equity ∧
    row.amountMinor = undistributedEarnings book tenantId asOf cursor row.currency

theorem mem_scopesOf {book : Book} {tenantId : String} {a : AccountRow}
    (member : a ∈ book.accounts) (ofTenant : a.tenantId = tenantId) :
    a.currency ∈ scopesOf book tenantId :=
  List.mem_dedup.mpr (List.mem_map_of_mem
    (List.mem_filter.mpr ⟨member, decide_eq_true ofTenant⟩))

/-- A face in scope is balanced on its face. -/
theorem balancesOnItsFace {presentation : Presentation} {book : Book} {tenantId : String}
    {asOf : ReportInstant} {cursor : Xid} {version : Int} (settled : book.Settled)
    (presents : presentation.Presents book.chart)
    (passes : hasUnpresentedPosition presentation book tenantId asOf cursor version = false) :
    BalancesOnItsFace presentation book tenantId asOf cursor version
      (balanceSheetFace presentation tenantId cursor version (scopesOf book tenantId)
        (presentedPositions presentation book tenantId asOf cursor version)) where
  balances := fun _ => face_balances settled passes
  oneRowEach := keys_of_face (List.nodup_dedup _)
  presented := by
    intro a member ofTenant ⟨e, isThere, admits, isCurrency, isAccount⟩
    subst ofTenant
    obtain ⟨q, isRow, sameCurrency, sameAccount, positive⟩ :=
      settled.position_of_entry isThere admits
    have found : book.account? a.tenantId q.accountId q.currency = some a := by
      rw [sameAccount, sameCurrency, isAccount, isCurrency]
      exact account?_of_mem settled.kept member
    have refused := List.any_eq_false.mp passes q isRow
    rw [found] at refused
    obtain ⟨p, isPresented⟩ : ∃ p, presentation.row? version a.purpose = some p := by
      refine Option.isSome_iff_exists.mp ?_
      simpa [positive, Option.isSome_iff_ne_none] using refused
    have isCategory := category_of_row? settled.kept presents member isPresented
    obtain ⟨inChart, ofVersion, _⟩ := Presentation.mem_of_row? isPresented
    refine ⟨p, isPresented, isCategory, fun permanent => ?_, fun temporary row inFace notPlug => ?_⟩
    · obtain ⟨line, isLine, isCode⟩ := PresentationRow.line_of_permanent inChart
        (isCategory ▸ permanent) (a.balance book asOf cursor)
      rw [ofVersion] at isLine
      have reserved := presentation.ckFsLinesCodeReserved line
        (Presentation.mem_linesOf.mp isLine).1
      refine ⟨_, List.mem_append_left _ (List.mem_flatMap.mpr
        ⟨a.currency, mem_scopesOf member rfl, List.mem_map_of_mem isLine⟩), rfl, reserved, isCode⟩
    · obtain ⟨_, ⟨line, isLine, isCode, _⟩ | ⟨isPlug, _⟩⟩ := row_of_face inFace
      · rw [← ofVersion] at isLine
        rw [isCode]
        exact PresentationRow.line_of_temporary inChart (isCategory ▸ temporary) _ line isLine
      · exact absurd isPlug notPlug
  plugged := by
    intro a member ofTenant
    exact ⟨_, List.mem_append_right _ (List.mem_map_of_mem (mem_scopesOf member ofTenant)), rfl,
      rfl⟩
  lines := by
    intro row inFace notPlug
    obtain ⟨_, ⟨line, _, isCode, isSide, isAmount⟩ | ⟨isPlug, _⟩⟩ := row_of_face inFace
    · rw [isAmount, isCode, isSide]
      exact faceAmount_eq_lineBalance settled line
    · exact absurd isPlug notPlug
  plug := by
    intro row inFace isPlug
    obtain ⟨_, ⟨line, isLine, isCode, _⟩ | ⟨_, isSide, isAmount⟩⟩ := row_of_face inFace
    · have reserved := presentation.ckFsLinesCodeReserved line
        (Presentation.mem_linesOf.mp isLine).1
      exact absurd (isCode.symm.trans isPlug) reserved
    · exact ⟨isSide, isAmount.trans (plugAmount_eq settled presents passes)⟩

/-- Nothing of it depends on the order of the rows. -/
theorem BalancesOnItsFace.perm {presentation : Presentation} {book : Book} {tenantId : String}
    {asOf : ReportInstant} {cursor : Xid} {version : Int} {rows face : List StatementRow}
    (holds : BalancesOnItsFace presentation book tenantId asOf cursor version rows)
    (permuted : face.Perm rows) :
    BalancesOnItsFace presentation book tenantId asOf cursor version face where
  balances := by
    intro currency
    rw [faceTotal, faceTotal, Tally.sumWhere_perm permuted, Tally.sumWhere_perm permuted]
    exact holds.balances currency
  oneRowEach := (permuted.map _).nodup_iff.mpr holds.oneRowEach
  presented := by
    intro a member ofTenant hasEntries
    obtain ⟨p, isPresented, isCategory, permanent, temporary⟩ :=
      holds.presented a member ofTenant hasEntries
    refine ⟨p, isPresented, isCategory, fun isPermanent => ?_, fun isTemporary row inFace =>
      temporary isTemporary row (permuted.mem_iff.mp inFace)⟩
    obtain ⟨row, inRows, isRow⟩ := permanent isPermanent
    exact ⟨row, permuted.mem_iff.mpr inRows, isRow⟩
  plugged := by
    intro a member ofTenant
    obtain ⟨row, inRows, isRow⟩ := holds.plugged a member ofTenant
    exact ⟨row, permuted.mem_iff.mpr inRows, isRow⟩
  lines := fun row inFace => holds.lines row (permuted.mem_iff.mp inFace)
  plug := fun row inFace => holds.plug row (permuted.mem_iff.mp inFace)

/-- In every interleaving whose checkpoints hold what they claim, a balance sheet
that does not raise balances on its face. -/
theorem balance_sheet_balances {sha256 : List UInt8 → List UInt8} {chart : Chart}
    {machine : Machine} (interleaved : Interleaved sha256 chart machine)
    (exact_ : ∀ k ∈ machine.committed.closes, k.Exact machine.committed)
    {presentation : Presentation} (presents : presentation.Presents machine.committed.chart)
    {tenantId : String} {asOf : ReportInstant} {cursor : Xid} {chartVersion : Option Int}
    {face : List StatementRow}
    (answered : balanceSheetAt presentation machine.committed tenantId asOf cursor chartVersion =
      .ok face) :
    ∃ version, resolveVersion presentation chartVersion = .ok version ∧
      BalancesOnItsFace presentation machine.committed tenantId asOf cursor version face := by
  have settled : machine.committed.Settled := ⟨(sound_of_interleaved interleaved).kept, exact_⟩
  obtain ⟨version, resolved, passes, rfl⟩ := face_of_answer answered
  exact ⟨version, resolved, (balancesOnItsFace settled presents passes).perm (perm_orderedFace _)⟩

namespace Shop

/-- The shop's chart version: a till in debt is shown as a liability. -/
def faces : Presentation where
  versions := [1]
  lines := [
    ⟨1, "cash", "Cash", .balanceSheet, .asset, 10⟩,
    ⟨1, "overdrawn", "Overdrawn", .balanceSheet, .liability, 20⟩,
    ⟨1, "equity", "Equity", .balanceSheet, .equity, 30⟩,
    ⟨1, "revenue", "Revenue", .incomeStatement, .credit, 10⟩]
  rows := [
    ⟨1, "till", .asset, .none, "cash", some "overdrawn"⟩,
    ⟨1, "fees", .revenue, .none, "revenue", none⟩,
    ⟨1, "retained_earnings", .equity, .none, "equity", none⟩]
  pkFsLines := by
    unfold UniqueIndex.Holds
    decide
  fkFsLinesVersion := by decide
  ckFsLinesCodeReserved := by decide
  ckFsLinesSideMatchesStatement := by decide
  pkPresentation := by
    unfold UniqueIndex.Holds
    decide
  fkPresentationVersion := by decide
  fkPresentationFsLine := by decide
  fkPresentationFsLineContra := by
    intro row member contra isContra side isSide
    simp only [List.mem_cons, List.not_mem_nil, or_false] at member
    rcases member with rfl | rfl | rfl
    · cases isContra
      cases isSide
      decide
    · cases isContra
    · cases isContra
  ckContraRequiredForPerShard := by decide
  ckContraIsBalanceSheet := by decide
  ckPerShardIsBalanceSheet := by decide

/-- A fee posted, and then its period closed. -/
def feeThenClose : List Action :=
  ready ++ session 4 5 (.post (command "fee" 1000 .posted none 70)) 3 ++
    session 5 6 (closing "first") 5

/-- What the till holds, and what the close moved into equity. -/
def closedFace : List StatementRow := [
  ⟨"shop", "USD", 1, "cash", "Cash", 10, 70, .asset, 7⟩,
  ⟨"shop", "USD", 1, "overdrawn", "Overdrawn", 20, 0, .liability, 7⟩,
  ⟨"shop", "USD", 1, "equity", "Equity", 30, 70, .equity, 7⟩,
  ⟨"shop", "USD", 1, "current_year_earnings", "Undistributed earnings (since inception)", 9000, 0,
    .equity, 7⟩]

theorem faces_presents : faces.Presents (machineAfter feeThenClose).committed.chart := by
  have isChart : (machineAfter feeThenClose).committed.chart.types = chart.types := by
    decide +kernel
  unfold Presentation.Presents
  rw [isChart]
  decide

theorem closedFace_balances :
    ∃ version, resolveVersion faces none = .ok version ∧
      BalancesOnItsFace faces (machineAfter feeThenClose).committed "shop" (.at 2000) 7 version
        closedFace := by
  have answered : balanceSheetAt faces (machineAfter feeThenClose).committed "shop" (.at 2000) 7
      none = .ok closedFace := by
    decide +kernel
  exact balance_sheet_balances (interleaved_machineAfter feeThenClose) (by decide +kernel)
    faces_presents answered

end Shop

end OpenLedger
