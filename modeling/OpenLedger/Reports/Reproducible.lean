import OpenLedger.Horizon
import OpenLedger.Reports.AccountStatement
import OpenLedger.Reports.Articulation

/-!
# A pinned report is reproducible

Below a cursor the horizon has reached a book only grows rows that no statement
at that cursor reads: its entries, its closes and their checkpoints all stand at
or above it.  So a report at that cursor answers later what it answered.
-/

namespace OpenLedger

open Postgres

/-- A book and what it has grown into above a cursor. -/
structure Pinned (cursor : Xid) (earlier later : Book) : Prop where
  grows : earlier.GrowsAbove cursor later
  before : Kept earlier
  after : Kept later

section Entries

variable {cursor : Xid} {earlier later : Book} (pinned : Pinned cursor earlier later)

include pinned

/-- What a condition admits below the cursor does not change. -/
theorem Pinned.filter_entries {keep keep' : EntryRow → Bool}
    (below : ∀ e, keep e = true → e.xactId < cursor)
    (same : ∀ e ∈ earlier.entries, keep e = keep' e) :
    later.entries.filter keep = earlier.entries.filter keep' := by
  obtain ⟨added, isLonger, above⟩ := pinned.grows.entries
  have noneAdded : added.filter keep = [] := by
    rw [List.filter_eq_nil_iff]
    intro e member keeps
    exact absurd (below e keeps) (not_lt.mpr (above e member))
  rw [isLonger, List.filter_append, noneAdded, List.append_nil]
  exact List.filter_congr same

/-- Nor does the account an entry is on. -/
theorem Pinned.account?_entry {e : EntryRow} (member : e ∈ earlier.entries) :
    later.account? e.tenantId e.accountId e.currency =
      earlier.account? e.tenantId e.accountId e.currency := by
  obtain ⟨a, found⟩ := Option.isSome_iff_exists.mp (pinned.before.onAccount e member)
  rw [found, pinned.grows.precedes.account? found]

theorem Pinned.isPosted_entry {e : EntryRow} (member : e ∈ earlier.entries) :
    later.isPosted e = earlier.isPosted e :=
  pinned.before.isPosted_later pinned.grows.precedes member

/-- The trial balance of a window does not change. -/
theorem Pinned.trialBalanceAt_eq (tenantId : String) (fromAt toAt : ReportInstant) :
    trialBalanceAt later tenantId fromAt toAt cursor =
      trialBalanceAt earlier tenantId fromAt toAt cursor := by
  have admitted := @Pinned.filter_entries cursor earlier later pinned
    (fun e => later.isPosted e && fromAt.isReachedBy e.effectiveAt &&
      toAt.isAfter e.effectiveAt && decide (e.xactId < cursor))
    (fun e => earlier.isPosted e && fromAt.isReachedBy e.effectiveAt &&
      toAt.isAfter e.effectiveAt && decide (e.xactId < cursor))
    (fun e keeps => of_decide_eq_true (Bool.and_eq_true_iff.mp keeps).2)
    (fun e member => by rw [pinned.isPosted_entry member])
  have joined : trialEntries later tenantId fromAt toAt cursor =
      trialEntries earlier tenantId fromAt toAt cursor := by
    rw [trialEntries, trialEntries, admitted]
    refine List.filterMap_congr fun e member => ?_
    rw [pinned.account?_entry (List.mem_filter.mp member).1, pinned.grows.precedes.chart]
  rw [trialBalanceAt, trialBalanceAt, joined]

end Entries

section Positions

variable {cursor : Xid} {earlier later : Book} (pinned : Pinned cursor earlier later)
  {tenantId currency : String} {asOf : ReportInstant}

/-- A close's cursor is its own transaction's id. -/
theorem Kept.transaction?_of_close {book : Book} (kept : Kept book) {k : CloseRow}
    (member : k ∈ book.closes) :
    ∃ kx, book.transaction? k.tenantId k.transactionId = some kx ∧ kx.xactId = k.computedAtXid := by
  obtain ⟨kx, isThere, closes⟩ := kept.closed k member
  have found := kept.transaction?_of_mem isThere
  rw [closes.tenant, closes.id] at found
  exact ⟨kx, found, closes.xactId⟩

include pinned

/-- The anchor of a currency does not change: a later close stands at or above
the cursor. -/
theorem Pinned.anchorOf_eq :
    anchorOf later tenantId currency asOf cursor = anchorOf earlier tenantId currency asOf cursor := by
  obtain ⟨added, isLonger, above⟩ := pinned.grows.closes
  have noneAdded : added.filter (mayAnchor later tenantId currency asOf cursor) = [] := by
    rw [List.filter_eq_nil_iff]
    intro k member may
    have isThere : k ∈ later.closes := by
      rw [isLonger]
      exact List.mem_append_right _ member
    obtain ⟨kx, found, isOwn⟩ := pinned.after.transaction?_of_close isThere
    simp only [mayAnchor, found, Option.any_some, Bool.and_eq_true, decide_eq_true_eq] at may
    rw [isOwn] at may
    exact absurd may.2 (not_lt.mpr (above k member))
  have same : ∀ k ∈ earlier.closes, mayAnchor later tenantId currency asOf cursor k =
      mayAnchor earlier tenantId currency asOf cursor k := by
    intro k member
    obtain ⟨kx, found, _⟩ := pinned.before.transaction?_of_close member
    rw [mayAnchor, mayAnchor, found, pinned.grows.precedes.transaction? found]
  rw [anchorOf, anchorOf, isLonger, List.filter_append, noneAdded, List.append_nil,
    List.filter_congr same]

/-- An anchor's close is not one that stands at or above the cursor. -/
theorem Pinned.ne_anchor {k c : CloseRow}
    (anchored : anchorOf earlier tenantId currency asOf cursor = some k)
    (isLater : c ∈ later.closes) (above : cursor ≤ c.computedAtXid) :
    c.primaryKey ≠ k.primaryKey := by
  obtain ⟨isClose, _, _, _, _, kx, found, seen⟩ := anchorOf_spec anchored
  obtain ⟨own, isOwn, sameId⟩ := pinned.before.transaction?_of_close isClose
  obtain rfl := Option.some.inj (found.symm.trans isOwn)
  intro sameKey
  have same : c = k := UniqueIndex.holds_eq pinned.after.pkCloses isLater
    (pinned.grows.precedes.closes.subset isClose) rfl sameKey.symm
  rw [same, ← sameId] at above
  exact absurd seen (not_lt.mpr above)

/-- A checkpoint row of an anchor was there when the anchor was. -/
theorem Pinned.periodBalances_of_anchor {k : CloseRow}
    (anchored : anchorOf earlier tenantId currency asOf cursor = some k) :
    ∃ added, later.periodBalances = earlier.periodBalances ++ added ∧
      ∀ row ∈ added, ¬ row.OfClose k := by
  obtain ⟨added, isLonger, ofAdded⟩ := pinned.grows.periodBalances
  refine ⟨added, isLonger, fun row member ofClose => ?_⟩
  obtain ⟨c, isLater, rowOf, above⟩ := ofAdded row member
  refine pinned.ne_anchor anchored isLater above ?_
  rw [CloseRow.primaryKey, ← rowOf.tenant, ← rowOf.code, ← rowOf.currency, ofClose.tenant,
    ofClose.code, ofClose.currency]
  rfl

/-- The checkpoint an anchor reads does not change. -/
theorem Pinned.checkpointTerms_eq :
    checkpointTerms later tenantId
        (Anchor.of currency (anchorOf earlier tenantId currency asOf cursor)) =
      checkpointTerms earlier tenantId
        (Anchor.of currency (anchorOf earlier tenantId currency asOf cursor)) := by
  cases anchored : anchorOf earlier tenantId currency asOf cursor with
  | none =>
      simp [checkpointTerms, Anchor.of]
  | some k =>
      obtain ⟨_, ofTenant, isCurrency, _⟩ := anchorOf_spec anchored
      obtain ⟨added, isLonger, notOf⟩ := pinned.periodBalances_of_anchor anchored
      have noneAdded : added.filter (fun b => decide (b.tenantId = tenantId) &&
          decide (b.currency = (Anchor.of currency (some k)).currency) &&
            decide (some b.periodCode = (Anchor.of currency (some k)).periodCode)) = [] := by
        rw [List.filter_eq_nil_iff]
        intro row member keeps
        simp only [Bool.and_eq_true, decide_eq_true_eq] at keeps
        exact notOf row member ⟨keeps.1.1.trans ofTenant.symm, Option.some.inj keeps.2,
          keeps.1.2.trans isCurrency.symm⟩
      rw [checkpointTerms, checkpointTerms, isLonger, List.filter_append, noneAdded,
        List.append_nil]

/-- The tails of an anchor do not change. -/
theorem Pinned.tailA_eq (a : Anchor) :
    tailA later tenantId asOf cursor a = tailA earlier tenantId asOf cursor a := by
  refine congrArg (List.map EntryRow.term) (pinned.filter_entries (fun e keeps => ?_)
    fun e member => by rw [pinned.isPosted_entry member])
  simp only [Bool.and_eq_true, decide_eq_true_eq] at keeps
  exact keeps.1.2

theorem Pinned.tailB_eq (a : Anchor) :
    tailB later tenantId cursor a = tailB earlier tenantId cursor a := by
  refine congrArg (List.map EntryRow.term) (pinned.filter_entries (fun e keeps => ?_)
    fun e member => by rw [pinned.isPosted_entry member])
  simp only [Bool.and_eq_true, decide_eq_true_eq] at keeps
  exact keeps.1.1.2

omit pinned in
/-- What a position is read from is on an account of the tenant. -/
theorem term_onAccount {book : Book} (kept : Kept book) {t : PositionRow} {a : Anchor}
    (member : t ∈ checkpointTerms book tenantId a ∨ t ∈ tailA book tenantId asOf cursor a ∨
      t ∈ tailB book tenantId cursor a) :
    (book.account? tenantId t.accountId t.currency).isSome := by
  rcases member with inCheckpoint | inTailA | inTailB
  · obtain ⟨row, isRow, rfl⟩ := List.mem_map.mp inCheckpoint
    obtain ⟨isThere, keeps⟩ := List.mem_filter.mp isRow
    simp only [Bool.and_eq_true, decide_eq_true_eq] at keeps
    have known := kept.balancesOnAccount row isThere
    rw [keeps.1.1] at known
    exact known
  · obtain ⟨e, isTail, rfl⟩ := List.mem_map.mp inTailA
    obtain ⟨isThere, keeps⟩ := List.mem_filter.mp isTail
    simp only [Bool.and_eq_true, decide_eq_true_eq] at keeps
    have known := kept.onAccount e isThere
    rw [keeps.1.1.1.1.1] at known
    exact known
  · obtain ⟨e, isTail, rfl⟩ := List.mem_map.mp inTailB
    obtain ⟨isThere, keeps⟩ := List.mem_filter.mp isTail
    simp only [Bool.and_eq_true, decide_eq_true_eq] at keeps
    have known := kept.onAccount e isThere
    rw [keeps.1.1.1.1.1.1] at known
    exact known

omit pinned in
theorem scopesOf_subset (precedes : earlier.Precedes later) :
    scopesOf earlier tenantId ⊆ scopesOf later tenantId := by
  intro other member
  obtain ⟨a, isAccount, rfl⟩ := List.mem_map.mp (List.mem_dedup.mp member)
  obtain ⟨isThere, ofTenant⟩ := List.mem_filter.mp isAccount
  exact mem_scopesOf (precedes.accounts.subset isThere) (of_decide_eq_true ofTenant)

omit pinned in
theorem mem_scopesOf_of_account {book : Book} {accountId : Uuid}
    (known : (book.account? tenantId accountId currency).isSome) :
    currency ∈ scopesOf book tenantId := by
  obtain ⟨a, found⟩ := Option.isSome_iff_exists.mp known
  obtain ⟨isThere, ofTenant, _, isCurrency⟩ := account?_spec found
  rw [← isCurrency]
  exact mem_scopesOf isThere ofTenant

/-- Terms read anchor by anchor: a currency opened since has none. -/
theorem Pinned.terms_perm {terms terms' : Anchor → List PositionRow}
    (same : ∀ other, terms (Anchor.of other (anchorOf earlier tenantId other asOf cursor)) =
      terms' (Anchor.of other (anchorOf earlier tenantId other asOf cursor)))
    (ofAnchor : ∀ a, ∀ t ∈ terms' a, t.currency = a.currency)
    (known : ∀ a, ∀ t ∈ terms' a, (earlier.account? tenantId t.accountId t.currency).isSome) :
    ((checkpointAnchor later tenantId asOf cursor).flatMap terms).Perm
      ((checkpointAnchor earlier tenantId asOf cursor).flatMap terms') := by
  have expanded : ∀ other, terms (Anchor.of other (anchorOf later tenantId other asOf cursor)) =
      terms' (Anchor.of other (anchorOf earlier tenantId other asOf cursor)) := by
    intro other
    rw [pinned.anchorOf_eq]
    exact same other
  rw [checkpointAnchor, checkpointAnchor, List.flatMap_map, List.flatMap_map]
  simp only [expanded]
  refine Tally.flatMap_perm_of_subset (List.nodup_dedup _) (List.nodup_dedup _)
    (scopesOf_subset pinned.grows.precedes) _ fun other _ isNew => ?_
  refine List.eq_nil_iff_forall_not_mem.mpr fun t member => isNew ?_
  have inCurrency : t.currency = other := ofAnchor _ t member
  rw [← inCurrency]
  exact mem_scopesOf_of_account (known _ t member)

theorem Pinned.positionTerms_perm :
    (positionTerms later tenantId asOf cursor).Perm (positionTerms earlier tenantId asOf cursor) := by
  refine List.Perm.append (List.Perm.append ?_ ?_) ?_
  · exact pinned.terms_perm (fun _ => pinned.checkpointTerms_eq) currency_of_checkpointTerms
      fun a t member => @term_onAccount cursor tenantId asOf _ pinned.before _ a (Or.inl member)
  · exact pinned.terms_perm (fun _ => pinned.tailA_eq _) currency_of_tailA fun a t member =>
      term_onAccount pinned.before (Or.inr (Or.inl member))
  · exact pinned.terms_perm (fun _ => pinned.tailB_eq _) currency_of_tailB fun a t member =>
      @term_onAccount cursor tenantId asOf _ pinned.before _ a (Or.inr (Or.inr member))

/-- The position at a cursor holds the same rows. -/
theorem Pinned.checkpointPosition_perm :
    (checkpointPosition later tenantId asOf cursor).Perm
      (checkpointPosition earlier tenantId asOf cursor) := by
  have permuted := @Pinned.positionTerms_perm cursor earlier later pinned tenantId asOf
  rw [checkpointPosition, checkpointPosition]
  dsimp only
  have sameRow : ∀ key : String × Uuid,
      (⟨key.1, key.2, Tally.sumWhere (fun t => decide ((t.currency, t.accountId) = key))
          PositionRow.debits (positionTerms later tenantId asOf cursor),
        Tally.sumWhere (fun t => decide ((t.currency, t.accountId) = key))
          PositionRow.credits (positionTerms later tenantId asOf cursor)⟩ : PositionRow) =
      ⟨key.1, key.2, Tally.sumWhere (fun t => decide ((t.currency, t.accountId) = key))
          PositionRow.debits (positionTerms earlier tenantId asOf cursor),
        Tally.sumWhere (fun t => decide ((t.currency, t.accountId) = key))
          PositionRow.credits (positionTerms earlier tenantId asOf cursor)⟩ := by
    intro key
    rw [Tally.sumWhere_perm permuted, Tally.sumWhere_perm permuted]
  simp only [sameRow]
  exact ((permuted.map _).dedup).map _

omit pinned in
/-- A row of a position is on an account. -/
theorem position_onAccount {book : Book} (kept : Kept book) {q : PositionRow}
    (member : q ∈ checkpointPosition book tenantId asOf cursor) :
    (book.account? tenantId q.accountId q.currency).isSome := by
  obtain ⟨key, isKey, rfl⟩ := List.mem_map.mp member
  obtain ⟨t, isTerm, rfl⟩ := List.mem_map.mp (List.mem_dedup.mp isKey)
  rcases List.mem_append.mp isTerm with inHead | inTailB
  · rcases List.mem_append.mp inHead with inCheckpoint | inTailA
    · obtain ⟨a, _, isRow⟩ := List.mem_flatMap.mp inCheckpoint
      exact @term_onAccount cursor tenantId asOf _ kept t a (Or.inl isRow)
    · obtain ⟨a, _, isRow⟩ := List.mem_flatMap.mp inTailA
      exact @term_onAccount cursor tenantId asOf _ kept t a (Or.inr (Or.inl isRow))
  · obtain ⟨a, _, isRow⟩ := List.mem_flatMap.mp inTailB
    exact @term_onAccount cursor tenantId asOf _ kept t a (Or.inr (Or.inr isRow))

theorem Pinned.account?_position {q : PositionRow}
    (member : q ∈ checkpointPosition earlier tenantId asOf cursor) :
    later.account? tenantId q.accountId q.currency =
      earlier.account? tenantId q.accountId q.currency := by
  obtain ⟨a, found⟩ := Option.isSome_iff_exists.mp (position_onAccount pinned.before member)
  rw [found, pinned.grows.precedes.account? found]

end Positions

/-- A face answered again: every row it had, and all-zero lines of currencies it
did not. -/
structure Reread (face again : List StatementRow) : Prop where
  same : ∀ row ∈ face, row ∈ again
  added : ∀ row ∈ again, row ∈ face ∨
    row.amountMinor = 0 ∧ ∀ old ∈ face, old.currency ≠ row.currency
  oneRowEach : (again.map StatementRow.key).Nodup

section Statements

variable {cursor : Xid} {earlier later : Book} (pinned : Pinned cursor earlier later)
  {presentation : Presentation} {tenantId : String} {asOf fromAt toAt : ReportInstant}
  {version : Int}

/-- Rows made for more currencies, those added showing nothing. -/
theorem reread_of_scopes {scopes more : List String} {rows : String → List StatementRow}
    (subset : scopes ⊆ more) (isCurrency : ∀ other, ∀ row ∈ rows other, row.currency = other)
    (zero : ∀ other ∈ more, other ∉ scopes → ∀ row ∈ rows other, row.amountMinor = 0)
    {face again : List StatementRow} (isFace : ∀ row, row ∈ face ↔ row ∈ scopes.flatMap rows)
    (isAgain : ∀ row, row ∈ again ↔ row ∈ more.flatMap rows)
    (oneRowEach : (again.map StatementRow.key).Nodup) : Reread face again where
  same := by
    intro row member
    obtain ⟨other, inScope, isRow⟩ := List.mem_flatMap.mp ((isFace row).mp member)
    exact (isAgain row).mpr (List.mem_flatMap.mpr ⟨other, subset inScope, isRow⟩)
  added := by
    intro row member
    obtain ⟨other, inMore, isRow⟩ := List.mem_flatMap.mp ((isAgain row).mp member)
    by_cases inScope : other ∈ scopes
    · exact Or.inl ((isFace row).mpr (List.mem_flatMap.mpr ⟨other, inScope, isRow⟩))
    · refine Or.inr ⟨zero other inMore inScope row isRow, fun old isOld sameCurrency => ?_⟩
      obtain ⟨oldOther, isScope, isOldRow⟩ := List.mem_flatMap.mp ((isFace old).mp isOld)
      rw [isCurrency other row isRow, isCurrency oldOther old isOldRow] at sameCurrency
      exact inScope (sameCurrency ▸ isScope)
  oneRowEach := oneRowEach

/-- The rows of a balance sheet in one currency. -/
def currencyFace (presentation : Presentation) (tenantId : String) (cursor : Xid) (version : Int)
    (positions : List PresentedPosition) (currency : String) : List StatementRow :=
  balanceSheetFace presentation tenantId cursor version [currency] positions

theorem mem_balanceSheetFace {scopes : List String} {positions : List PresentedPosition}
    {row : StatementRow} :
    row ∈ balanceSheetFace presentation tenantId cursor version scopes positions ↔
      row ∈ scopes.flatMap (currencyFace presentation tenantId cursor version positions) := by
  simp only [balanceSheetFace, currencyFace, List.mem_append, List.mem_flatMap, List.mem_map,
    List.mem_singleton, exists_eq_left]
  constructor
  · rintro (⟨other, inScope, line⟩ | ⟨other, inScope, plug⟩)
    · exact ⟨other, inScope, Or.inl line⟩
    · exact ⟨other, inScope, Or.inr plug⟩
  · rintro ⟨other, inScope, line | plug⟩
    · exact Or.inl ⟨other, inScope, line⟩
    · exact Or.inr ⟨other, inScope, plug⟩

/-- A presented position is in a currency the tenant holds. -/
theorem currency_of_presented {book : Book} (kept : Kept book) {pos : PresentedPosition}
    (member : pos ∈ presentedPositions presentation book tenantId asOf cursor version) :
    pos.currency ∈ scopesOf book tenantId := by
  obtain ⟨q, isRow, isPresented⟩ := List.mem_filterMap.mp member
  obtain ⟨a, _, presents⟩ := Option.bind_eq_some_iff.mp isPresented
  obtain ⟨p, _, rfl⟩ := Option.map_eq_some_iff.mp presents
  exact mem_scopesOf_of_account (position_onAccount kept isRow)

/-- Out of scope, every row of a currency is zero. -/
theorem zero_of_no_scope {book : Book} (kept : Kept book) {currency : String}
    (outOfScope : currency ∉ scopesOf book tenantId) {row : StatementRow}
    (member : row ∈ currencyFace presentation tenantId cursor version
      (presentedPositions presentation book tenantId asOf cursor version) currency) :
    row.amountMinor = 0 := by
  have notMine : ∀ pos ∈ presentedPositions presentation book tenantId asOf cursor version,
      decide (pos.currency = currency) = false := by
    intro pos isThere
    exact decide_eq_false fun same => outOfScope (same ▸ currency_of_presented kept isThere)
  obtain ⟨inScope, ⟨line, _, _, _, isAmount⟩ | ⟨_, _, isAmount⟩⟩ := row_of_face member
  · rw [isAmount, List.mem_singleton.mp inScope]
    exact Tally.sumWhere_eq_zero fun pos isThere => by rw [notMine pos isThere, Bool.false_and]
  · rw [isAmount, List.mem_singleton.mp inScope, plugAmount, Tally.sumWhere_eq_zero
      fun pos isThere => by rw [notMine pos isThere, Bool.false_and]]
    rfl

include pinned

theorem Pinned.presentedPositions_perm :
    (presentedPositions presentation later tenantId asOf cursor version).Perm
      (presentedPositions presentation earlier tenantId asOf cursor version) := by
  rw [presentedPositions, presentedPositions]
  refine (pinned.checkpointPosition_perm.filterMap _).trans (List.Perm.of_eq ?_)
  refine List.filterMap_congr fun q member => ?_
  rw [pinned.account?_position member]

theorem Pinned.hasUnpresentedPosition_eq :
    hasUnpresentedPosition presentation later tenantId asOf cursor version =
      hasUnpresentedPosition presentation earlier tenantId asOf cursor version := by
  have permuted := @Pinned.checkpointPosition_perm cursor earlier later pinned tenantId asOf
  rw [hasUnpresentedPosition, hasUnpresentedPosition, Bool.eq_iff_iff]
  simp only [List.any_eq_true]
  refine exists_congr fun q => ?_
  rw [permuted.mem_iff]
  refine and_congr_right fun member => ?_
  rw [pinned.account?_position member]

/-- A balance sheet answers again what it answered. -/
theorem Pinned.balanceSheetAt_reread {chartVersion : Option Int} {face : List StatementRow}
    (answered : balanceSheetAt presentation earlier tenantId asOf cursor chartVersion =
      .ok face) :
    ∃ again, balanceSheetAt presentation later tenantId asOf cursor chartVersion = .ok again ∧
      Reread face again := by
  obtain ⟨version, resolved, passes, rfl⟩ := face_of_answer answered
  refine ⟨orderedFace (balanceSheetFace presentation tenantId cursor version
    (scopesOf later tenantId)
    (presentedPositions presentation later tenantId asOf cursor version)), ?_, ?_⟩
  · unfold balanceSheetAt
    rw [resolved]
    dsimp only
    rw [pinned.hasUnpresentedPosition_eq, passes]
    rfl
  · have permuted := @Pinned.presentedPositions_perm cursor earlier later pinned presentation
      tenantId asOf version
    have sameRows : ∀ row, row ∈ orderedFace (balanceSheetFace presentation tenantId cursor
        version (scopesOf later tenantId)
        (presentedPositions presentation later tenantId asOf cursor version)) ↔
          row ∈ (scopesOf later tenantId).flatMap (currencyFace presentation tenantId cursor
            version (presentedPositions presentation earlier tenantId asOf cursor version)) := by
      intro row
      rw [(perm_orderedFace _).mem_iff, ← mem_balanceSheetFace]
      simp only [balanceSheetFace, faceAmount, plugAmount, Tally.sumWhere_perm permuted]
    refine reread_of_scopes (scopesOf_subset pinned.grows.precedes) (fun other row isRow => ?_)
      (fun other _ isNew row isRow => zero_of_no_scope pinned.before isNew isRow)
      (fun row => (perm_orderedFace _).mem_iff.trans mem_balanceSheetFace) sameRows ?_
    · exact List.mem_singleton.mp (row_of_face isRow).1
    · exact ((perm_orderedFace _).map _).nodup_iff.mpr (keys_of_face (List.nodup_dedup _))

/-- An entry is a leg of a close later exactly when it was. -/
theorem Pinned.isClosingLeg_eq {e : EntryRow} (member : e ∈ earlier.entries) :
    isClosingLeg later e = isClosingLeg earlier e := by
  obtain ⟨x, isThere, belongs⟩ := pinned.before.belongs e member
  rw [Bool.eq_iff_iff, isClosingLeg_iff pinned.before isThere belongs,
    isClosingLeg_iff pinned.after (pinned.grows.precedes.transactions.subset isThere) belongs]

omit pinned in
theorem xactId_of_inWindow {book : Book} {e : EntryRow}
    (within : inWindow book tenantId fromAt toAt cursor e = true) : e.xactId < cursor :=
  of_decide_eq_true (Bool.and_eq_true_iff.mp within).2

theorem Pinned.inWindow_eq {e : EntryRow} (member : e ∈ earlier.entries) :
    inWindow later tenantId fromAt toAt cursor e =
      inWindow earlier tenantId fromAt toAt cursor e := by
  rw [inWindow, inWindow, pinned.isPosted_entry member]

theorem Pinned.presentedFlows_eq :
    presentedFlows presentation later tenantId fromAt toAt cursor version =
      presentedFlows presentation earlier tenantId fromAt toAt cursor version := by
  have within := @Pinned.filter_entries cursor earlier later pinned
    (fun e => inWindow later tenantId fromAt toAt cursor e && !isClosingLeg later e)
    (fun e => inWindow earlier tenantId fromAt toAt cursor e && !isClosingLeg earlier e)
    (fun e keeps => xactId_of_inWindow (Bool.and_eq_true_iff.mp keeps).1)
    (fun e member => by rw [pinned.inWindow_eq member, pinned.isClosingLeg_eq member])
  rw [presentedFlows, presentedFlows, within]
  refine List.filterMap_congr fun e member => ?_
  rw [pinned.account?_entry (List.mem_filter.mp member).1]

theorem Pinned.hasUnpresentedFlow_eq :
    hasUnpresentedFlow presentation later tenantId fromAt toAt cursor version =
      hasUnpresentedFlow presentation earlier tenantId fromAt toAt cursor version := by
  have within := pinned.filter_entries (fun e => xactId_of_inWindow)
    fun e member => @Pinned.inWindow_eq cursor earlier later pinned tenantId fromAt toAt e member
  rw [hasUnpresentedFlow, hasUnpresentedFlow, Bool.eq_iff_iff]
  simp only [List.any_eq_true, Bool.and_eq_true, ← and_assoc, ← List.mem_filter, within]
  refine exists_congr fun e => and_congr_right fun member => ?_
  rw [pinned.account?_entry (List.mem_filter.mp member).1]

/-- An income statement answers again what it answered. -/
theorem Pinned.incomeStatementFor_reread {chartVersion : Option Int} {face : List StatementRow}
    (answered : incomeStatementFor presentation earlier tenantId fromAt toAt cursor
      chartVersion = .ok face) :
    ∃ again, incomeStatementFor presentation later tenantId fromAt toAt cursor chartVersion =
      .ok again ∧ Reread face again := by
  obtain ⟨version, resolved, passes, rfl⟩ := income_of_answer answered
  rw [← pinned.hasUnpresentedFlow_eq] at passes
  refine ⟨_, answer_of_passes resolved passes, ?_⟩
  rw [pinned.presentedFlows_eq]
  refine reread_of_scopes (scopesOf_subset pinned.grows.precedes) (fun other row isRow => ?_)
    (fun other _ isNew row isRow => ?_) (fun row => (perm_orderedFace _).mem_iff)
    (fun row => (perm_orderedFace _).mem_iff) (keys_of_income _)
  · obtain ⟨line, _, rfl⟩ := List.mem_map.mp isRow
    rfl
  · obtain ⟨line, _, rfl⟩ := List.mem_map.mp isRow
    have noFlow : ∀ d ∈ presentedFlows presentation earlier tenantId fromAt toAt cursor version,
        (decide (d.entry.currency = other) && decide (d.presented.fsLine = line.code)) =
          false := by
      intro d member
      obtain ⟨e, isEntry, isFlow⟩ := List.mem_filterMap.mp member
      obtain ⟨a, found, presents⟩ := Option.bind_eq_some_iff.mp isFlow
      obtain ⟨p, _, rfl⟩ := Option.map_eq_some_iff.mp presents
      have keeps := (List.mem_filter.mp isEntry).2
      simp only [inWindow, Bool.and_eq_true, decide_eq_true_eq] at keeps
      have notMine : e.currency ≠ other := by
        rintro rfl
        refine isNew (@mem_scopesOf_of_account tenantId e.currency earlier e.accountId ?_)
        rw [← keeps.1.1.1.1.2, found]
        rfl
      rw [decide_eq_false notMine, Bool.false_and]
    change flowAmount _ other line = 0
    rw [flowAmount, Tally.sumWhere_eq_zero noFlow, mul_zero]

end Statements

section Pages

variable {cursor : Xid} {earlier later : Book} (pinned : Pinned cursor earlier later)
  {tenantId : String} {accountId : Uuid}

include pinned

/-- What a page's rows show does not change. -/
theorem Pinned.statementSqlRows_eq {page : List EntryRow}
    (isThere : ∀ e ∈ page, e ∈ earlier.entries)
    (gave : statementSqlRows earlier tenantId accountId page ≠ []) :
    statementSqlRows later tenantId accountId page =
      statementSqlRows earlier tenantId accountId page := by
  obtain ⟨a, member, rfl, rfl⟩ : ∃ a ∈ earlier.accounts, a.tenantId = tenantId ∧
      a.id = accountId := by
    obtain ⟨row, isRow⟩ := List.exists_mem_of_ne_nil _ gave
    obtain ⟨a, isAccount, _⟩ := List.mem_flatMap.mp isRow
    obtain ⟨member, isMine⟩ := List.mem_filter.mp isAccount
    simp only [Bool.and_eq_true, decide_eq_true_eq] at isMine
    exact ⟨a, member, isMine⟩
  have alone : ∀ {book : Book}, Kept book → a ∈ book.accounts → book.accounts.filter (fun other =>
      decide (other.tenantId = a.tenantId) && decide (other.id = a.id)) = [a] := by
    intro book kept isMember
    exact UniqueIndex.filter_of_mem kept.pkAccounts isMember rfl fun other => by
      simp [AccountRow.primaryKey]
  have sameStatus : ∀ e ∈ page, later.statusOf e = earlier.statusOf e := by
    intro e inPage
    obtain ⟨x, isX, belongs⟩ := pinned.before.belongs e (isThere e inPage)
    have known := pinned.before.statusOf_of_belongs isX belongs
    rw [known, pinned.grows.precedes.statusOf known]
  rw [statementSqlRows, statementSqlRows, alone pinned.before member,
    alone pinned.after (pinned.grows.precedes.accounts.subset member), List.flatMap_singleton,
    List.flatMap_singleton]
  split
  · rfl
  · exact List.map_congr_left fun e inPage => by rw [sameStatus e inPage]

/-- A page in recorded order answers again what it answered. -/
theorem Pinned.accountStatementByRecorded_eq {page : RecordedPage} (atCursor : page.cursor = cursor)
    (gave : accountStatementByRecorded earlier tenantId accountId page ≠ []) :
    accountStatementByRecorded later tenantId accountId page =
      accountStatementByRecorded earlier tenantId accountId page := by
  have within := @Pinned.filter_entries cursor earlier later pinned
    (page.keeps tenantId accountId) (page.keeps tenantId accountId) (fun e keeps => by
      simp only [RecordedPage.keeps, Bool.and_eq_true, decide_eq_true_eq] at keeps
      exact atCursor ▸ keeps.1.1.2) fun _ _ => rfl
  rw [accountStatementByRecorded, within]
  refine pinned.statementSqlRows_eq (fun e inPage => ?_) gave
  exact (List.mem_filter.mp (List.mem_insertionSort _ |>.mp (List.mem_of_mem_take inPage))).1

/-- So does a page in effective order. -/
theorem Pinned.accountStatementByEffective_eq {page : EffectivePage}
    (atCursor : page.cursor = cursor)
    (gave : accountStatementByEffective earlier tenantId accountId page ≠ []) :
    accountStatementByEffective later tenantId accountId page =
      accountStatementByEffective earlier tenantId accountId page := by
  have within := @Pinned.filter_entries cursor earlier later pinned
    (page.keeps tenantId accountId) (page.keeps tenantId accountId) (fun e keeps => by
      simp only [EffectivePage.keeps, Bool.and_eq_true, decide_eq_true_eq] at keeps
      exact atCursor ▸ keeps.1.1.1.1.2) fun _ _ => rfl
  rw [accountStatementByEffective, within]
  refine pinned.statementSqlRows_eq (fun e inPage => ?_) gave
  exact (List.mem_filter.mp (List.mem_insertionSort _ |>.mp (List.mem_of_mem_take inPage))).1

end Pages

/-- What every report at a cursor gave, it gives again. -/
structure Reproduces (cursor : Xid) (earlier later : Book) : Prop where
  trialBalance : ∀ tenantId fromAt toAt,
    trialBalanceAt later tenantId fromAt toAt cursor =
      trialBalanceAt earlier tenantId fromAt toAt cursor
  balanceSheet : ∀ presentation tenantId asOf chartVersion face,
    balanceSheetAt presentation earlier tenantId asOf cursor chartVersion = .ok face →
    ∃ again, balanceSheetAt presentation later tenantId asOf cursor chartVersion = .ok again ∧
      Reread face again
  incomeStatement : ∀ presentation tenantId fromAt toAt chartVersion face,
    incomeStatementFor presentation earlier tenantId fromAt toAt cursor chartVersion = .ok face →
    ∃ again, incomeStatementFor presentation later tenantId fromAt toAt cursor chartVersion =
      .ok again ∧ Reread face again
  recordedPage : ∀ tenantId accountId page, page.cursor = cursor →
    accountStatementByRecorded earlier tenantId accountId page ≠ [] →
    accountStatementByRecorded later tenantId accountId page =
      accountStatementByRecorded earlier tenantId accountId page
  effectivePage : ∀ tenantId accountId page, page.cursor = cursor →
    accountStatementByEffective earlier tenantId accountId page ≠ [] →
    accountStatementByEffective later tenantId accountId page =
      accountStatementByEffective earlier tenantId accountId page

/-- In every interleaving, a cursor at or below the horizon of a moment reads at
every later moment what it read then, and stays at or below the horizon. -/
theorem pinned_reports_reproduce {sha256 : List UInt8 → List UInt8} {chart : Chart}
    {start later : Machine} (interleaved : Interleaved sha256 chart start) {cursor : Xid}
    (atOrBelow : cursor ≤ start.horizon) {actions : List Action}
    (ran : start.steps sha256 actions = some later) :
    Reproduces cursor start.committed later.committed ∧ cursor ≤ later.horizon := by
  obtain ⟨grows, still⟩ := grows_above interleaved atOrBelow ran
  have pinned : Pinned cursor start.committed later.committed :=
    { grows
      before := (sound_of_interleaved interleaved).kept
      after := (sound_of_interleaved (interleaved.steps ran)).kept }
  exact
    ⟨{ trialBalance := pinned.trialBalanceAt_eq
       balanceSheet := fun _ _ _ _ _ answered => pinned.balanceSheetAt_reread answered
       incomeStatement := fun _ _ _ _ _ _ answered => pinned.incomeStatementFor_reread answered
       recordedPage := fun _ _ _ atCursor gave =>
         pinned.accountStatementByRecorded_eq atCursor gave
       effectivePage := fun _ _ _ atCursor gave =>
         pinned.accountStatementByEffective_eq atCursor gave }, still⟩

namespace Shop

/-- A fee posted by writer 5, and a slow writer with id 6. -/
def slowWriter : List Action :=
  ready ++ session 4 5 (.post (command "fee" 1000 .posted none 70)) 3 ++
    [.start (.post (command "late" 500 .posted none 30)) (envOf 6), .assign 5]

/-- The period is closed by writer 7, and only then the slow one commits. -/
def slowCommits : List Action :=
  session 6 7 (closing "first") 5 ++ statements 5 3

/-- The machine those steps lead on to. -/
def resumed (before after : List Action) : Machine :=
  ((machineAfter before).steps id after).getD (machineAfter before)

theorem steps_resumed {before after : List Action}
    (possible : ((machineAfter before).steps id after).isSome = true) :
    (machineAfter before).steps id after = some (resumed before after) := by
  obtain ⟨later, stepped⟩ := Option.isSome_iff_exists.mp possible
  rw [resumed, stepped]
  rfl

/-- The horizon is 6 while the slow writer is in flight. -/
theorem slowWriter_reproduces :
    Reproduces 6 (machineAfter slowWriter).committed (resumed slowWriter slowCommits).committed ∧
      6 ≤ (resumed slowWriter slowCommits).horizon :=
  pinned_reports_reproduce (interleaved_machineAfter slowWriter) (by decide +kernel)
    (steps_resumed (by decide +kernel))

end Shop

end OpenLedger
