import OpenLedger.Lib.Keyset
import OpenLedger.Reports.CursorRule

/-!
# Paging an account's entries

The pages of one walk are read at moments the book keeps growing between.  Below
a cursor at or under the horizon nothing is added, so every page is the one after
the entries already seen, in the axis's own order, and following the keys reads
each entry once.
-/

namespace OpenLedger

/-- What a page shows of an entry. -/
structure AccountStatementEntry.Shows (book : Book) (e : EntryRow)
    (shown : AccountStatementEntry) : Prop where
  entryId : shown.entryId = e.id
  transactionId : shown.transactionId = e.transactionId
  status : book.statusOf e = some shown.status
  direction : shown.direction = e.direction
  amountMinor : shown.amountMinor = e.amountMinor
  currency : shown.currency = e.currency
  effectiveAt : shown.effectiveAt = OffsetDateTime.ofStored e.effectiveAt
  accountSeq : shown.accountSeq = e.accountSeq
  xactId : shown.xactId.val = e.xactId

/-- The entry as a page shows it. -/
def shownEntry (book : Book) (e : EntryRow) : AccountStatementEntry where
  entryId := e.id
  transactionId := e.transactionId
  status := (book.statusOf e).getD .posted
  direction := e.direction
  amountMinor := e.amountMinor
  currency := e.currency
  effectiveAt := OffsetDateTime.ofStored e.effectiveAt
  accountSeq := e.accountSeq
  xactId := Cursor.wrapping e.xactId

section OnePage

variable {moment : Moment} {e : EntryRow}

theorem val_wrapping (member : e ∈ moment.book.entries) :
    (Cursor.wrapping e.xactId).val = e.xactId :=
  Cursor.wrapping_natCast (Nat.le_of_lt_succ (moment.xactIsXid8 e member))

theorem shows_shownEntry (member : e ∈ moment.book.entries) :
    (shownEntry moment.book e).Shows moment.book e where
  entryId := rfl
  transactionId := rfl
  status := by
    obtain ⟨status, isStatus⟩ := Option.isSome_iff_exists.mp (moment.fkEntriesTxn e member)
    rw [shownEntry, isStatus]
    rfl
  direction := rfl
  amountMinor := rfl
  currency := rfl
  effectiveAt := rfl
  accountSeq := rfl
  xactId := val_wrapping member

/-- A row with an entry is that entry. -/
theorem statementEntryFrom_eq (member : e ∈ moment.book.entries) (accountId : Uuid) :
    statementEntryFrom ⟨accountId, some e, moment.book.statusOf e⟩ =
      .ok (some (shownEntry moment.book e)) := by
  obtain ⟨status, isStatus⟩ := Option.isSome_iff_exists.mp (moment.fkEntriesTxn e member)
  have isXid8 := moment.xactIsXid8 e member
  have isCursor : Cursor.wrapping e.xactId = ⟨e.xactId, isXid8⟩ := Fin.ext (val_wrapping member)
  rw [shownEntry, isStatus, isCursor, statementEntryFrom]
  dsimp only
  rw [cursorFrom_xidText isXid8]
  rfl

theorem mapM_statementEntryFrom {page : List EntryRow}
    (isThere : ∀ e ∈ page, e ∈ moment.book.entries) (accountId : Uuid) :
    (page.map fun e => (⟨accountId, some e, moment.book.statusOf e⟩ :
      AccountStatementSqlRow)).mapM statementEntryFrom =
        .ok (page.map fun e => some (shownEntry moment.book e)) := by
  induction page with
  | nil =>
      rfl
  | cons head tail inductionHypothesis =>
      have first := statementEntryFrom_eq (isThere head List.mem_cons_self) accountId
      have others := inductionHypothesis fun e member => isThere e (List.mem_cons_of_mem _ member)
      rw [List.map_cons, List.mapM_cons, first, others]
      rfl

/-- One registered account's rows are its page. -/
theorem statementPageFrom_eq {tenantId : String} {accountId : Uuid}
    (registered : ∃ a ∈ moment.book.accounts, a.tenantId = tenantId ∧ a.id = accountId)
    {page : List EntryRow} (isThere : ∀ e ∈ page, e ∈ moment.book.entries) :
    statementPageFrom (statementSqlRows moment.book tenantId accountId page) =
      .ok (some (page.map (shownEntry moment.book))) := by
  obtain ⟨account, member, rfl, rfl⟩ := registered
  have alone : (moment.book.accounts.filter fun a =>
      decide (a.tenantId = account.tenantId) && decide (a.id = account.id)) = [account] := by
    exact UniqueIndex.filter_of_mem moment.pkAccounts member rfl fun other => by
      simp [AccountRow.primaryKey]
  rw [statementSqlRows, alone, List.flatMap_singleton]
  cases page with
  | nil =>
      rfl
  | cons head tail =>
      rw [if_neg (by simp), statementPageFrom, if_neg (by simp),
        mapM_statementEntryFrom isThere]
      change Except.ok (some (List.filterMap id _)) = _
      rw [List.filterMap_map]
      congr 2
      exact congrFun List.filterMap_eq_map' _

end OnePage

/-- The half-open range a page compares dates with. -/
structure EffectiveRange where
  effectiveFrom : ReportInstant
  effectiveTo : ReportInstant

/-- The entries a walk is over: the account's, below the cursor and inside the
range, whatever their transaction's status. -/
def isPaged (range : EffectiveRange) (read : AccountStatementRead) (e : EntryRow) : Bool :=
  decide (e.tenantId = read.tenantId) && decide (e.accountId = read.accountId) &&
    decide (e.xactId < read.cursor.val) && range.effectiveFrom.isReachedBy e.effectiveAt &&
    range.effectiveTo.isAfter e.effectiveAt

/-- An axis's strict order. -/
def StatementAxis.Precedes : StatementAxis → EntryRow → EntryRow → Prop
  | .recorded, left, right => left.recordedRank < right.recordedRank
  | .effective, left, right => left.effectiveRank < right.effectiveRank

/-- The key of an entry in its axis's order. -/
def keyOf (axis : StatementAxis) (entry : AccountStatementEntry) : StatementKey :=
  match axis with
  | .recorded => .recorded entry.xactId entry.entryId
  | .effective => .effective entry.effectiveAt entry.xactId entry.entryId

/-- The text it crosses to the caller and back as. -/
def keyText (axis : StatementAxis) (entry : AccountStatementEntry) : String :=
  (keyOf axis entry).rendered

/-- What a page hands back is its last entry's key, when it is full. -/
theorem next_of_entries (axis : StatementAxis) {limit : Int} (nonneg : 0 ≤ limit)
    (entries : List AccountStatementEntry) :
    (theKeyOfTheNextPageOfEntries entries limit axis).map StatementKey.rendered =
      Keyset.nextOf (keyText axis) limit.toNat entries := by
  unfold theKeyOfTheNextPageOfEntries Keyset.nextOf
  by_cases full : limit.toNat ≤ entries.length
  · rw [if_pos ⟨nonneg, full⟩, if_pos full, Option.map_map]
    cases axis <;> rfl
  · rw [if_neg fun both => full both.2, if_neg full]
    rfl

/-- The entries of a walk in its axis's order. -/
def pagedRows (range : EffectiveRange) (book : Book) (read : AccountStatementRead) :
    List EntryRow :=
  let paged := book.entries.filter (isPaged range read)
  match read.axis with
  | .recorded => Keyset.sorted EntryRow.recordedRank paged
  | .effective => Keyset.sorted EntryRow.effectiveRank paged

section Growing

variable {timestamptz : String → Except NotATimestamp Timestamp} {range : EffectiveRange}
  {read : AccountStatementRead} {start here : Moment}

theorem recordedRank_of_same {left right : EntryRow}
    (same : left.recordedRank = right.recordedRank) : left.id = right.id :=
  congrArg (fun rank => (ofLex rank).2) same

theorem effectiveRank_of_same {left right : EntryRow}
    (same : left.effectiveRank = right.effectiveRank) : left.id = right.id :=
  congrArg (fun rank => (ofLex (ofLex rank).2).2) same

/-- One tenant's entries have one id each, and so one rank each. -/
theorem distinct_of_id {Key : Type} {rank : EntryRow → Key}
    (isId : ∀ {left right : EntryRow}, rank left = rank right → left.id = right.id) :
    (start.book.entries.filter (isPaged range read)).Pairwise fun left right =>
      rank left ≠ rank right := by
  have keyed := List.pairwise_filterMap.mp start.pkEntries
  refine (keyed.filter _).imp_of_mem fun {left right} inLeft inRight apart same => ?_
  have ofTenant : ∀ e ∈ start.book.entries.filter (isPaged range read),
      e.tenantId = read.tenantId := by
    intro e member
    have paged := (List.mem_filter.mp member).2
    simp only [isPaged, Bool.and_eq_true, decide_eq_true_eq] at paged
    exact paged.1.1.1.1
  have sameTenant := (ofTenant left inLeft).trans (ofTenant right inRight).symm
  exact apart _ rfl _ rfl (Prod.ext sameTenant (isId same))

/-- Below a cursor at or under the horizon, a later book holds what it held. -/
theorem filter_later (run : Moment.Later start here)
    (atOrBelow : read.cursor.val ≤ start.horizon) {above : EntryRow → Bool} :
    (here.book.entries.filter fun e => isPaged range read e && above e) =
      (start.book.entries.filter (isPaged range read)).filter above := by
  obtain ⟨added, isLonger, aboveHorizon⟩ := run.grown.entries
  have noneAdded : (added.filter fun e => isPaged range read e && above e) = [] := by
    rw [List.filter_eq_nil_iff]
    intro e member keeps
    simp only [isPaged, Bool.and_eq_true, decide_eq_true_eq] at keeps
    have below := keeps.1.1.1.2
    have atOrAbove := atOrBelow.trans (aboveHorizon e member)
    exact absurd below (not_lt.mpr atOrAbove)
  rw [isLonger, List.filter_append, noneAdded, List.append_nil, List.filter_filter]
  refine List.filter_congr fun e _ => ?_
  exact Bool.and_comm _ _

/-- The page after the rows seen, read at a later moment. -/
theorem page_rows {Key : Type} [LinearOrder Key] {rank : EntryRow → Key}
    (isId : ∀ {left right : EntryRow}, rank left = rank right → left.id = right.id)
    (run : Moment.Later start here) (atOrBelow : read.cursor.val ≤ start.horizon)
    {limit seen : Nat} {keeps above : EntryRow → Bool}
    (isKept : ∀ e ∈ here.book.entries, keeps e = (isPaged range read e && above e))
    (isAbove : (Keyset.sorted rank (start.book.entries.filter (isPaged range read))).filter
      above = (Keyset.sorted rank
        (start.book.entries.filter (isPaged range read))).drop seen) :
    ((here.book.entries.filter keeps).insertionSort
        fun left right => rank left ≤ rank right).take limit =
      Keyset.pageOf limit
        (Keyset.sorted rank (start.book.entries.filter (isPaged range read))) seen := by
  have kept : here.book.entries.filter keeps =
      (start.book.entries.filter (isPaged range read)).filter above := by
    rw [← filter_later run atOrBelow]
    exact List.filter_congr isKept
  have sortedFirst :=
    Keyset.sorted_filter (@distinct_of_id range read start Key rank isId) above
  rw [kept, Keyset.pageOf, ← isAbove, ← sortedFirst]
  rfl

/-- The recorded page's comparison is the order of the pair. -/
theorem recordedPage_keeps (unbounded : range = ⟨.minusInfinity, .infinity⟩) (afterXact : Xid)
    (afterEntry : Uuid) (limit : Nat) (e : EntryRow) :
    (RecordedPage.mk read.cursor.val afterXact afterEntry limit).keeps read.tenantId
        read.accountId e =
      (isPaged range read e &&
        decide (toLex (afterXact, afterEntry) < e.recordedRank)) := by
  have everReached : range.effectiveFrom.isReachedBy e.effectiveAt = true := by
    rw [unbounded]
    rfl
  have everAfter : range.effectiveTo.isAfter e.effectiveAt = true := by
    rw [unbounded]
    rfl
  rw [Bool.eq_iff_iff]
  simp only [RecordedPage.keeps, isPaged, everReached, everAfter, Bool.and_eq_true,
    Bool.or_eq_true, decide_eq_true_eq, and_true, EntryRow.recordedRank, Prod.Lex.toLex_lt_toLex]
  constructor
  · rintro ⟨⟨inScope, -⟩, above | ⟨same, above⟩⟩
    · exact ⟨inScope, Or.inl above⟩
    · exact ⟨inScope, Or.inr ⟨same.symm, above⟩⟩
  · rintro ⟨inScope, above | ⟨same, above⟩⟩
    · exact ⟨⟨inScope, above.le⟩, Or.inl above⟩
    · exact ⟨⟨inScope, same.le⟩, Or.inr ⟨same.symm, above⟩⟩

/-- The effective page's nested comparison is the order of the triple. -/
theorem effectivePage_keeps (afterEffective : Timestamp) (afterXact : Xid) (afterEntry : Uuid)
    (limit : Nat) (e : EntryRow) :
    (EffectivePage.mk read.cursor.val range.effectiveFrom range.effectiveTo (.at afterEffective)
        afterXact afterEntry limit).keeps read.tenantId read.accountId e =
      (isPaged range read e &&
        decide (toLex (afterEffective, toLex (afterXact, afterEntry)) < e.effectiveRank)) := by
  rw [Bool.eq_iff_iff]
  simp only [EffectivePage.keeps, isPaged, ReportInstant.isReachedBy, ReportInstant.isBefore,
    ReportInstant.isAt, Bool.and_eq_true, Bool.or_eq_true, decide_eq_true_eq,
    EntryRow.effectiveRank, Prod.Lex.toLex_lt_toLex]
  constructor
  · rintro ⟨⟨inScope, -⟩, above | ⟨sameDate, above | ⟨sameXact, above⟩⟩⟩
    · exact ⟨inScope, Or.inl above⟩
    · exact ⟨inScope, Or.inr ⟨sameDate.symm, Or.inl above⟩⟩
    · exact ⟨inScope, Or.inr ⟨sameDate.symm, Or.inr ⟨sameXact.symm, above⟩⟩⟩
  · rintro ⟨inScope, above | ⟨sameDate, above | ⟨sameXact, above⟩⟩⟩
    · exact ⟨⟨inScope, above.le⟩, Or.inl above⟩
    · exact ⟨⟨inScope, sameDate.le⟩, Or.inr ⟨sameDate.symm, Or.inl above⟩⟩
    · exact ⟨⟨inScope, sameDate.le⟩, Or.inr ⟨sameDate.symm, Or.inr ⟨sameXact.symm, above⟩⟩⟩

/-- A first page by recorded order starts below every entry. -/
theorem recordedPage_keeps_first (unbounded : range = ⟨.minusInfinity, .infinity⟩)
    (limit : Nat) {e : EntryRow} (member : e ∈ here.book.entries) :
    (RecordedPage.mk read.cursor.val bottomOfTheCommitOrder bottomOfTheEntryOrder limit).keeps
        read.tenantId read.accountId e = (isPaged range read e && true) := by
  have counted := here.counted e member
  have above : toLex (bottomOfTheCommitOrder, bottomOfTheEntryOrder) < e.recordedRank := by
    rw [EntryRow.recordedRank, Prod.Lex.toLex_lt_toLex]
    exact Or.inl (Nat.lt_of_lt_of_le (by decide) counted)
  rw [recordedPage_keeps unbounded, decide_eq_true above]

/-- A first page by effective order starts before every date. -/
theorem effectivePage_keeps_first (limit : Nat) (e : EntryRow) :
    (EffectivePage.mk read.cursor.val range.effectiveFrom range.effectiveTo .minusInfinity
        bottomOfTheCommitOrder bottomOfTheEntryOrder limit).keeps read.tenantId read.accountId e =
      (isPaged range read e && true) := by
  simp only [EffectivePage.keeps, isPaged, ReportInstant.isReachedBy, ReportInstant.isBefore,
    Bool.true_or, Bool.and_true]

/-- What an entry shows does not change. -/
theorem shownEntry_later (run : Moment.Later start here) {e : EntryRow}
    (member : e ∈ start.book.entries) :
    shownEntry here.book e = shownEntry start.book e := by
  obtain ⟨status, isStatus⟩ := Option.isSome_iff_exists.mp (start.fkEntriesTxn e member)
  have still := run.grown.precedes.statusOf isStatus
  rw [shownEntry, shownEntry, still, isStatus]

/-- An account stays registered. -/
theorem registered_later (run : Moment.Later start here) {tenantId : String} {accountId : Uuid}
    (registered : ∃ a ∈ start.book.accounts, a.tenantId = tenantId ∧ a.id = accountId) :
    ∃ a ∈ here.book.accounts, a.tenantId = tenantId ∧ a.id = accountId := by
  obtain ⟨account, member, isAccount⟩ := registered
  exact ⟨account, run.grown.precedes.accounts.subset member, isAccount⟩

/-- The entries of a walk as its pages show them. -/
def shownRows (range : EffectiveRange) (book : Book) (read : AccountStatementRead) :
    List AccountStatementEntry :=
  (pagedRows range book read).map (shownEntry book)

theorem mem_pagedRows {book : Book} {e : EntryRow} :
    e ∈ pagedRows range book read ↔
      e ∈ book.entries ∧ isPaged range read e = true := by
  unfold pagedRows
  cases read.axis with
  | recorded =>
      exact Keyset.mem_sorted.trans List.mem_filter
  | effective =>
      exact Keyset.mem_sorted.trans List.mem_filter

theorem pairwise_pagedRows :
    (pagedRows range start.book read).Pairwise read.axis.Precedes := by
  unfold pagedRows
  cases read.axis with
  | recorded =>
      exact Keyset.rising_sorted (distinct_of_id recordedRank_of_same)
  | effective =>
      exact Keyset.rising_sorted (distinct_of_id effectiveRank_of_same)

/-- Entries the book held at the start are shown alike at a later moment. -/
theorem statementPageFrom_pageOf (run : Moment.Later start here)
    (registered : ∃ a ∈ start.book.accounts, a.tenantId = read.tenantId ∧ a.id = read.accountId)
    (limit seen : Nat) :
    statementPageFrom (statementSqlRows here.book read.tenantId read.accountId
        (Keyset.pageOf limit (pagedRows range start.book read) seen)) =
      .ok (some (Keyset.pageOf limit (shownRows range start.book read) seen)) := by
  have wasThere : ∀ e ∈ Keyset.pageOf limit (pagedRows range start.book read) seen,
      e ∈ start.book.entries := fun e member =>
    (mem_pagedRows.mp (List.mem_of_mem_drop (List.mem_of_mem_take member))).1
  have isThere : ∀ e ∈ Keyset.pageOf limit (pagedRows range start.book read) seen,
      e ∈ here.book.entries := fun e member =>
    run.grown.precedes.entries.subset (wasThere e member)
  rw [statementPageFrom_eq (registered_later run registered) isThere, shownRows,
    Keyset.pageOf_map]
  congr 2
  exact List.map_congr_left fun e member => shownEntry_later run (wasThere e member)

/-- What a request must be for its pages to be read: its bounds are cast to those of the
range, and on the recorded axis there are none. -/
structure AccountStatementRead.IsReadable (read : AccountStatementRead)
    (timestamptz : String → Except NotATimestamp Timestamp) (range : EffectiveRange) :
    Prop where
  recorded : read.axis = .recorded → range = ⟨.minusInfinity, .infinity⟩
  bindsFrom : Binds timestamptz read.effectiveFrom theBeginningOfTime range.effectiveFrom
  bindsTo : Binds timestamptz read.effectiveTo theEndOfTime range.effectiveTo

/-- A page that is answered had its bounds bound. -/
theorem binds_of_answered {book : Book} {page : Option (List AccountStatementEntry)}
    (byEffective : read.axis = .effective)
    (answered : accountStatementAt timestamptz book read = .ok page) :
    (∃ bound, Binds timestamptz read.effectiveFrom theBeginningOfTime bound) ∧
      ∃ bound, Binds timestamptz read.effectiveTo theEndOfTime bound := by
  unfold accountStatementAt at answered
  rw [byEffective] at answered
  obtain ⟨fromText, isFrom, answered⟩ := answered_of_bind answered
  obtain ⟨toText, isTo, answered⟩ := answered_of_bind answered
  obtain ⟨afterText, _, answered⟩ := answered_of_bind answered
  obtain ⟨effectiveFrom, castsFrom, answered⟩ := answered_of_bind answered
  obtain ⟨effectiveTo, castsTo, _⟩ := answered_of_bind answered
  exact ⟨⟨effectiveFrom, fromText, isFrom, castsFrom⟩, ⟨effectiveTo, toText, isTo, castsTo⟩⟩

/-- The first page is the first of the rows. -/
theorem first_page (run : Moment.Later start here)
    (atOrBelow : read.cursor.val ≤ start.horizon) (readable : read.IsReadable timestamptz range)
    (registered : ∃ a ∈ start.book.accounts, a.tenantId = read.tenantId ∧ a.id = read.accountId) :
    accountStatementAt timestamptz here.book { read with after := none } =
      .ok (some (Keyset.pageOf read.limit.toNat (shownRows range start.book read) 0)) := by
  rw [← statementPageFrom_pageOf run registered]
  unfold accountStatementAt pagedRows
  cases isAxis : read.axis with
  | recorded =>
      exact congrArg (fun page => statementPageFrom
          (statementSqlRows here.book read.tenantId read.accountId page))
        (page_rows recordedRank_of_same run atOrBelow
          (fun e member => recordedPage_keeps_first (readable.recorded isAxis)
            read.limit.toNat member) (List.filter_true _))
  | effective =>
      refine (bound_of_binds readable.bindsFrom readable.bindsTo binds_unbounded.1).trans ?_
      exact congrArg (fun page => statementPageFrom
          (statementSqlRows here.book read.tenantId read.accountId page))
        (page_rows effectiveRank_of_same run atOrBelow
          (fun e _ => effectivePage_keeps_first read.limit.toNat e) (List.filter_true _))

/-- The page after a row's key is the one after that row. -/
theorem next_page (reads : TimestamptzReads timestamptz)
    (fromYearOne : ∀ e ∈ start.book.entries, 1 ≤ (OffsetDateTime.ofStored e.effectiveAt).year)
    (run : Moment.Later start here)
    (atOrBelow : read.cursor.val ≤ start.horizon) (readable : read.IsReadable timestamptz range)
    (registered : ∃ a ∈ start.book.accounts, a.tenantId = read.tenantId ∧ a.id = read.accountId)
    {seen : Nat} {e : EntryRow}
    (isLast : (pagedRows range start.book read)[seen]? = some e) :
    accountStatementAt timestamptz here.book
        { read with after := some (keyOf read.axis (shownEntry start.book e)) } =
      .ok (some (Keyset.pageOf read.limit.toNat (shownRows range start.book read)
        (seen + 1))) := by
  have wasThere : e ∈ start.book.entries :=
    (mem_pagedRows.mp (List.mem_of_getElem? isLast)).1
  have isXact : (shownEntry start.book e).xactId.val = e.xactId := val_wrapping wasThere
  rw [← statementPageFrom_pageOf run registered]
  unfold accountStatementAt
  dsimp only
  unfold pagedRows at isLast ⊢
  cases isAxis : read.axis with
  | recorded =>
      rw [isAxis] at isLast
      dsimp only at isLast ⊢
      have above := Keyset.filter_above
        (Keyset.rising_sorted (distinct_of_id recordedRank_of_same)) isLast
      rw [keyOf]
      dsimp only
      rw [isXact]
      exact congrArg (fun page => statementPageFrom
          (statementSqlRows here.book read.tenantId read.accountId page))
        (page_rows recordedRank_of_same run atOrBelow
          (fun other _ => recordedPage_keeps (readable.recorded isAxis) e.xactId e.id
            read.limit.toNat other) above)
  | effective =>
      rw [isAxis] at isLast
      dsimp only at isLast ⊢
      have above := Keyset.filter_above
        (Keyset.rising_sorted (distinct_of_id effectiveRank_of_same)) isLast
      have bindsKey : Binds timestamptz (some (shownEntry start.book e).effectiveAt)
          theBeginningOfTime (.at e.effectiveAt) :=
        binds_ofStored reads (start.dated e wasThere) (fromYearOne e wasThere) _
      rw [keyOf]
      dsimp only
      rw [isXact]
      refine (bound_of_binds readable.bindsFrom readable.bindsTo bindsKey).trans ?_
      exact congrArg (fun page => statementPageFrom
          (statementSqlRows here.book read.tenantId read.accountId page))
        (page_rows effectiveRank_of_same run atOrBelow
          (fun other _ => effectivePage_keeps e.effectiveAt e.xactId e.id read.limit.toNat other)
          above)

/-- A page's key reads back from its text. -/
theorem key_reads_back {parseUuid : String → Option Uuid}
    (readsUuid : ∀ id : Uuid, parseUuid id.hyphenated = some id) (axis : StatementAxis)
    {e : EntryRow} (member : e ∈ start.book.entries) :
    thePageKeyOfThisAxisOrRefuseAForeignOne parseUuid
        (some (keyText axis (shownEntry start.book e))) axis =
      .ok (some (keyOf axis (shownEntry start.book e))) := by
  have reads : StatementKey.parse parseUuid (keyText axis (shownEntry start.book e)) axis =
      some (keyOf axis (shownEntry start.book e)) := by
    cases axis with
    | recorded =>
        exact StatementKey.parse_rendered_recorded readsUuid _ _
    | effective =>
        exact StatementKey.parse_rendered_effective readsUuid (start.dated e member) _ _
  rw [thePageKeyOfThisAxisOrRefuseAForeignOne]
  rw [reads]

/-- Whatever key stands for the rows seen, it is read back, and the page at it is
the one after them. -/
theorem page_at_key {parseUuid : String → Option Uuid}
    (reads : TimestamptzReads timestamptz)
    (fromYearOne : ∀ e ∈ start.book.entries, 1 ≤ (OffsetDateTime.ofStored e.effectiveAt).year)
    (readsUuid : ∀ id : Uuid, parseUuid id.hyphenated = some id)
    (run : Moment.Later start here)
    (atOrBelow : read.cursor.val ≤ start.horizon) (readable : read.IsReadable timestamptz range)
    (registered : ∃ a ∈ start.book.accounts, a.tenantId = read.tenantId ∧ a.id = read.accountId)
    {seen : Nat} {after : Option String}
    (stands : Keyset.Stands (keyText read.axis) (shownRows range start.book read) seen
      after) :
    ∃ key, thePageKeyOfThisAxisOrRefuseAForeignOne parseUuid after read.axis = .ok key ∧
      accountStatementAt timestamptz here.book { read with after := key } =
        .ok (some (Keyset.pageOf read.limit.toNat (shownRows range start.book read)
          seen)) := by
  cases stands with
  | none =>
      exact ⟨none, rfl, first_page run atOrBelow readable registered⟩
  | last isLast =>
      rw [shownRows, List.getElem?_map] at isLast
      obtain ⟨e, isRow, rfl⟩ := Option.map_eq_some_iff.mp isLast
      have member := (mem_pagedRows.mp (List.mem_of_getElem? isRow)).1
      exact ⟨_, key_reads_back readsUuid read.axis member,
        next_page reads fromYearOne run atOrBelow readable registered isRow⟩

end Growing

end OpenLedger
