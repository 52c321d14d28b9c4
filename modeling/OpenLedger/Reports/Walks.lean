import OpenLedger.Reports.Paging
import OpenLedger.Reports.Reached

/-!
# Following the keys of an account's pages

A walk asks for a page, sends its key back as text, and stops when none comes.
The book grows between the pages and within them; what the walk reads does not.
-/

namespace OpenLedger

section Faces

variable {parseUuid : String → Option Uuid} {query : AccountStatementQuery}
  {face : StatementFace}

/-- The bounds a request's instants are cast to. -/
structure AccountStatementQuery.CastsTo (query : AccountStatementQuery)
    (timestamptz : String → Except NotATimestamp Timestamp) (range : EffectiveRange) :
    Prop where
  effectiveFrom : Binds timestamptz query.effectiveFrom theBeginningOfTime range.effectiveFrom
  effectiveTo : Binds timestamptz query.effectiveTo theEndOfTime range.effectiveTo

/-- The range a request names, at the microseconds its columns hold. -/
structure AccountStatementQuery.Names (query : AccountStatementQuery) (range : EffectiveRange) :
    Prop where
  effectiveFrom : range.effectiveFrom.Names query.effectiveFrom .minusInfinity
  effectiveTo : range.effectiveTo.Names query.effectiveTo .infinity

/-- The read a request makes once its face and its cursor are judged. -/
def StatementFace.read (face : StatementFace) (query : AccountStatementQuery) (cursor : Cursor) :
    AccountStatementRead :=
  ⟨query.tenantId, query.accountId, face.axis, cursor, face.effectiveFrom, face.effectiveTo,
    face.limit, face.after⟩

/-- What a request says on its face, judgement by judgement. -/
theorem face_iff :
    faceOfTheRequest parseUuid query = .ok face ↔
      theAxisTheCallerNamedOrRefuseToPickOne query.axis = .ok face.axis ∧
        pageSizeOrRefuseOneOutsideTheWindow query.limit entriesPerPage mostEntriesPerPage =
          .ok face.limit ∧
        thePageKeyOfThisAxisOrRefuseAForeignOne parseUuid query.after face.axis =
          .ok face.after ∧
        theRangeOnlyTheEffectiveAxisTakes query face.axis =
          .ok (face.effectiveFrom, face.effectiveTo) := by
  constructor
  · intro judged
    obtain ⟨axis, isAxis, judged⟩ := answered_of_bind judged
    obtain ⟨limit, isLimit, judged⟩ := answered_of_bind judged
    obtain ⟨after, isAfter, judged⟩ := answered_of_bind judged
    obtain ⟨range, isRange, judged⟩ := answered_of_bind judged
    cases judged
    exact ⟨isAxis, isLimit, isAfter, isRange⟩
  · rintro ⟨axis, size, key, range⟩
    unfold faceOfTheRequest
    rw [axis, size]
    change (thePageKeyOfThisAxisOrRefuseAForeignOne _ _ _ >>= _) = _
    rw [key]
    change (theRangeOnlyTheEffectiveAxisTakes _ _ >>= _) = _
    rw [range]
    rfl

theorem window_of_pageSize {askedFor : Option Int} {limit : Int}
    (inWindow : pageSizeOrRefuseOneOutsideTheWindow askedFor entriesPerPage mostEntriesPerPage =
      .ok limit) : 1 ≤ limit := by
  unfold pageSizeOrRefuseOneOutsideTheWindow at inWindow
  split at inWindow
  · cases inWindow
    decide
  · split at inWindow
    · rename_i both
      cases inWindow
      exact both.1
    · cases inWindow

theorem of_range {axis : StatementAxis} {effectiveFrom effectiveTo : Option OffsetDateTime}
    (taken : theRangeOnlyTheEffectiveAxisTakes query axis = .ok (effectiveFrom, effectiveTo)) :
    (axis = .recorded → query.effectiveFrom = none ∧ query.effectiveTo = none) ∧
      effectiveFrom = query.effectiveFrom ∧ effectiveTo = query.effectiveTo := by
  unfold theRangeOnlyTheEffectiveAxisTakes at taken
  split at taken
  · cases taken
  · rename_i noRange
    cases taken
    refine ⟨fun isRecorded => ?_, rfl, rfl⟩
    simpa [isRecorded] using noRange

/-- A request judged good without a key is judged good with one of its axis. -/
theorem face_at_key (judged : faceOfTheRequest parseUuid { query with after := none } = .ok face)
    {after : Option String} {key : Option StatementKey}
    (isKey : thePageKeyOfThisAxisOrRefuseAForeignOne parseUuid after face.axis = .ok key) :
    faceOfTheRequest parseUuid { query with after := after } =
      .ok { face with after := key } := by
  obtain ⟨axis, size, _, range⟩ := face_iff.mp judged
  exact face_iff.mpr ⟨axis, size, isKey, range⟩

/-- A request judged good reads, once its bounds are cast. -/
theorem readable_of_face
    {timestamptz : String → Except NotATimestamp Timestamp} {range : EffectiveRange}
    (judged : faceOfTheRequest parseUuid { query with after := none } = .ok face)
    (casts : query.CastsTo timestamptz range) (cursor : Cursor) :
    (face.read query cursor).IsReadable timestamptz range := by
  obtain ⟨noRange, isFrom, isTo⟩ := of_range (face_iff.mp judged).2.2.2
  have bindsFrom := casts.effectiveFrom
  have bindsTo := casts.effectiveTo
  constructor
  · intro isRecorded
    have nothing := noRange isRecorded
    change query.effectiveFrom = none ∧ query.effectiveTo = none at nothing
    rw [nothing.1] at bindsFrom
    rw [nothing.2] at bindsTo
    have isFirst := bound_of_binds_none.1 bindsFrom
    have isLast := bound_of_binds_none.2 bindsTo
    cases range
    cases isFirst
    cases isLast
    rfl
  · rw [StatementFace.read, isFrom]
    exact bindsFrom
  · rw [StatementFace.read, isTo]
    exact bindsTo

end Faces

section Pages

variable {presentation : Presentation} {timestamptz : String → Except NotATimestamp Timestamp}
  {range : EffectiveRange}
  {parseUuid : String → Option Uuid} {query : AccountStatementQuery} {face : StatementFace}
  {text : String} {cursor : Cursor}

/-- The page a store answers with at one moment, and the key its last row gives. -/
def pagesRead (parseUuid : String → Option Uuid)
    (timestamptz : String → Except NotATimestamp Timestamp) (read : AccountStatementRead)
    (moments : Nat → Moment) (time : Nat) (after : Option String)
    (page : List AccountStatementEntry) (next : Option String) : Prop :=
  ∃ key, thePageKeyOfThisAxisOrRefuseAForeignOne parseUuid after read.axis = .ok key ∧
    accountStatementAt timestamptz (moments time).book { read with after := key } =
      .ok (some page) ∧
    next = (theKeyOfTheNextPageOfEntries page read.limit read.axis).map StatementKey.rendered

/-- The page the service serves between one moment and the next, and the key it
hands back. -/
def pagesServed (presentation : Presentation)
    (timestamptz : String → Except NotATimestamp Timestamp) (parseUuid : String → Option Uuid)
    (query : AccountStatementQuery) (moments : Nat → Moment) (time : Nat)
    (after : Option String) (page : List AccountStatementEntry) (next : Option String) : Prop :=
  ∃ finish answer,
    Served presentation timestamptz (moments time)
      (accountStatement parseUuid { query with after := after }) finish (.ok answer) ∧
    Moment.Later finish (moments (time + 1)) ∧ answer.entries = page ∧
    answer.nextAfter.map StatementKey.rendered = next

/-- A page the store answers is the statement's. -/
theorem page_of_storeAnswer {here : Moment} {read : AccountStatementRead}
    {inScope : Scoped (Option (List AccountStatementEntry))}
    {found : Option (List AccountStatementEntry)}
    (answered : storeAnswer presentation timestamptz here (.accountStatement read) = .ok inScope)
    (isAnswer : answeredForTheTenantThatAsked read.tenantId inScope = .ok found) :
    accountStatementAt timestamptz here.book read = .ok found := by
  rw [storeAnswer] at answered
  cases page : accountStatementAt timestamptz here.book read with
  | error refusal =>
      rw [page] at answered
      cases answered
  | ok rows =>
      rw [page] at answered
      obtain rfl := Except.ok.inj answered
      have same := (answered_sameTenant read.tenantId rows).symm.trans isAnswer
      exact congrArg _ (Except.ok.inj same)

/-- A served page is the store's at some moment of the request. -/
theorem ends_page (judged : faceOfTheRequest parseUuid query = .ok face)
    (supplied : query.cursor = some text) (reads : Cursor.parse text = some cursor)
    (start : Moment) :
    Ends presentation timestamptz (accountStatement parseUuid query)
      (fun result finish => ∀ answer, result = .ok answer →
        ∃ here, Moment.Later start here ∧ Moment.Later here finish ∧
          accountStatementAt timestamptz here.book (face.read query cursor) =
            .ok (some answer.entries) ∧
          answer.nextAfter = theKeyOfTheNextPageOfEntries answer.entries face.limit face.axis)
      start := by
  refine ends_judge (fun answered isFace => ?_) fun error fails => ?_
  · obtain rfl : face = answered := Except.ok.inj (judged.symm.trans isFace)
    refine ends_bounds (fun here moved => ?_) fun here _ error _ answer => nofun
    refine ends_judge (fun pinned accepted => ?_) fun error _ answer => nofun
    have isPinned : pinned = cursor := by
      rw [supplied] at accepted
      have same := Cursor.parse_eq_some_iff.mpr (pin_supplied_iff.mp accepted).1
      exact Option.some.inj (same.symm.trans reads)
    subst isPinned
    refine ends_askStore (fun asked further inScope answered => ?_)
      (fun asked _ refusal _ answer => nofun) fun asked _ error _ answer => nofun
    refine ends_judge (fun found isAnswer => ?_) fun error _ answer => nofun
    have page : accountStatementAt timestamptz asked.book (face.read query pinned) = .ok found :=
      page_of_storeAnswer answered isAnswer
    cases found with
    | none =>
        exact ends_judged fun answer => nofun
    | some entries =>
        refine ends_pure fun answer isAnswer => ?_
        cases isAnswer
        exact ⟨asked, moved.trans further, .refl, page, rfl⟩
  · rw [judged] at fails
    cases fails

/-- Where the cursor is accepted and the store has a page, it can be served. -/
theorem serves_page {here : Moment} {entries : List AccountStatementEntry}
    (judged : faceOfTheRequest parseUuid query = .ok face)
    (accepted : pinTheCursorOrRefuseAnImplausibleOne query.cursor
      (here.bounds presentation query.tenantId) = .ok cursor)
    (page : accountStatementAt timestamptz here.book (face.read query cursor) =
      .ok (some entries)) :
    Served presentation timestamptz here (accountStatement parseUuid query) here
      (.ok ⟨cursor, face.axis, entries,
        theKeyOfTheNextPageOfEntries entries face.limit face.axis⟩) := by
  have rows : storeAnswer presentation timestamptz here
      (.accountStatement (face.read query cursor)) = .ok ⟨query.tenantId, some entries⟩ := by
    rw [storeAnswer, page]
    rfl
  refine serves_judge judged ?_
  refine serves_bounds ?_
  refine serves_judge accepted ?_
  refine serves_askStore rows ?_
  refine serves_judge (answered_sameTenant query.tenantId _) ?_
  exact .done _ _

/-- Following the keys reads these entries and no others, each once and in their
order, on at most one page more than they fill, and does not go on for ever. -/
structure ReadsExactly (book : Book) (limit : Nat) (rows : List EntryRow)
    (answers : Nat → Option String → List AccountStatementEntry → Option String → Prop) :
    Prop where
  shows : ∀ pages, Keyset.Walk answers 0 none pages →
    List.Forall₂ (AccountStatementEntry.Shows book) rows pages.flatten
  bounded : ∀ pages, Keyset.Walk answers 0 none pages →
    pages.length * limit ≤ rows.length + limit
  ends : ∀ (afters : Nat → Option String) (pages : Nat → List AccountStatementEntry),
    afters 0 = none →
      ¬ ∀ time, ∃ next, answers time (afters time) (pages time) (some next) ∧
        afters (time + 1) = some next

theorem shows_shownRows {start : Moment} {read : AccountStatementRead} :
    List.Forall₂ (AccountStatementEntry.Shows start.book)
      (pagedRows range start.book read) (shownRows range start.book read) := by
  rw [shownRows, List.forall₂_map_right_iff, List.forall₂_same]
  exact fun e member => shows_shownEntry (mem_pagedRows.mp member).1

/-- Where every page is the one after the rows seen, the walk reads exactly them. -/
theorem readsExactly_of {start : Moment} {read : AccountStatementRead} {limit : Nat}
    (positive : 0 < limit)
    {answers : Nat → Option String → List AccountStatementEntry → Option String → Prop}
    (exact_ : ∀ time seen after page next,
      Keyset.Stands (keyText read.axis) (shownRows range start.book read) seen after →
        answers time after page next →
          page = Keyset.pageOf limit (shownRows range start.book read) seen ∧
            next = Keyset.nextOf (keyText read.axis) limit page) :
    ReadsExactly start.book limit (pagedRows range start.book read) answers where
  shows := by
    intro pages walk
    have isAll := (Keyset.walk_reads positive exact_ walk .none).1
    rw [isAll, List.drop_zero]
    exact shows_shownRows
  bounded := by
    intro pages walk
    have bound := (Keyset.walk_reads positive exact_ walk .none).2
    rw [shownRows, List.length_map] at bound
    exact bound
  ends := by
    intro afters pages isFirst
    refine Keyset.not_endless positive exact_ ?_
    rw [isFirst]
    exact .none

end Pages

section Walking

variable {presentation : Presentation} {timestamptz : String → Except NotATimestamp Timestamp}
  {range : EffectiveRange}
  {parseUuid : String → Option Uuid} {query : AccountStatementQuery} {face : StatementFace}
  {text : String} {cursor : Cursor} {moments : Nat → Moment}

theorem later_of_grows (grows : ∀ time, Moment.Later (moments time) (moments (time + 1)))
    (time : Nat) : Moment.Later (moments 0) (moments time) := by
  induction time with
  | zero =>
      exact .refl
  | succ time inductionHypothesis =>
      exact inductionHypothesis.trans (grows time)

/-- A cursor good over an entry stays good. -/
theorem accepted_later {start here : Moment} {tenantId : String} {oldest : Cursor}
    (run : Moment.Later start here)
    (accepted : pinTheCursorOrRefuseAnImplausibleOne (some text)
      (start.bounds presentation tenantId) = .ok cursor)
    (isOldest : start.oldest tenantId = some oldest) :
    pinTheCursorOrRefuseAnImplausibleOne (some text)
      (here.bounds presentation tenantId) = .ok cursor := by
  obtain ⟨reads, belowHorizon, floor⟩ := pin_supplied_iff.mp accepted
  have atOrBelow : cursor.val ≤ start.horizon := belowHorizon
  obtain ⟨e, member, ofTenant, isXid⟩ := mem_of_oldestEntryOf (Moment.val_of_oldest isOldest)
  have isBelow : oldest < cursor := floor oldest isOldest
  have hasEntry : start.HasEntryBelow tenantId cursor :=
    ⟨e, member, ofTenant, isXid ▸ isBelow⟩
  obtain ⟨again, stillAccepted⟩ :=
    (@accepted_later_iff presentation _ _ _ _ run atOrBelow).mpr (Or.inl hasEntry)
  obtain ⟨readsAgain, stillBelow, stillFloor⟩ := pin_supplied_iff.mp stillAccepted
  have same : again = cursor := by
    have parsed := Cursor.parse_eq_some_iff.mpr readsAgain
    rw [Cursor.parse_text] at parsed
    exact (Option.some.inj parsed).symm
  subst same
  exact pin_supplied_iff.mpr ⟨reads, stillBelow, stillFloor⟩

theorem tenant_of_isPaged {read : AccountStatementRead} {e : EntryRow}
    (paged : isPaged range read e = true) : e.tenantId = read.tenantId := by
  simp only [isPaged, Bool.and_eq_true, decide_eq_true_eq] at paged
  exact paged.1.1.1.1

theorem below_of_isPaged {read : AccountStatementRead} {e : EntryRow}
    (paged : isPaged range read e = true) : e.xactId < read.cursor.val := by
  simp only [isPaged, Bool.and_eq_true, decide_eq_true_eq] at paged
  exact paged.1.1.2

/-- What a later book adds is not among the entries of the walk. -/
theorem mem_pagedRows_later {start here : Moment} {read : AccountStatementRead} {e : EntryRow}
    (run : Moment.Later start here) (atOrBelow : read.cursor.val ≤ start.horizon) :
    e ∈ pagedRows range start.book read ↔
      e ∈ here.book.entries ∧ isPaged range read e = true := by
  rw [mem_pagedRows]
  refine and_congr_left fun paged => ?_
  obtain ⟨added, isLonger, above⟩ := run.grown.entries
  rw [isLonger, List.mem_append]
  refine ⟨Or.inl, fun either => either.resolve_right fun isNew => ?_⟩
  have below := below_of_isPaged paged
  have atOrAbove := above e isNew
  exact absurd (below.trans_le atOrBelow) (not_lt.mpr atOrAbove)

/-- What a walk begins under: a request good on its face whose cursor is at or
below the horizon, over a registered account and a book that only grows. -/
structure WalkBegins (parseUuid : String → Option Uuid) (query : AccountStatementQuery)
    (face : StatementFace) (text : String) (cursor : Cursor) (moments : Nat → Moment) :
    Prop where
  judged : faceOfTheRequest parseUuid { query with after := none } = .ok face
  supplied : query.cursor = some text
  reads : Cursor.ReadsAsXid8 text cursor
  rendersFrom : ∀ given ∈ query.effectiveFrom, given.rfc3339.isSome = true
  rendersTo : ∀ given ∈ query.effectiveTo, given.rfc3339.isSome = true
  grows : ∀ time, Moment.Later (moments time) (moments (time + 1))
  atOrBelow : cursor.val ≤ (moments 0).horizon
  /-- The writer takes no date before the year 1. -/
  fromYearOne : ∀ e ∈ (moments 0).book.entries, 1 ≤ (OffsetDateTime.ofStored e.effectiveAt).year
  registered : ∃ a ∈ (moments 0).book.accounts,
    a.tenantId = query.tenantId ∧ a.id = query.accountId

/-- A walk beside the writers: the book it begins on and all that is committed behind it
are the machine's. -/
theorem walkBegins_of_interleaved {sha256 : List UInt8 → List UInt8} {chart : Chart}
    {machines : Nat → Machine} {actions : Nat → List Action}
    (interleaved : ∀ time, Interleaved sha256 chart (machines time))
    (timely : ∀ time, (machines time).Timely)
    (ran : ∀ time, (machines time).steps sha256 (actions time) = some (machines (time + 1)))
    (judged : faceOfTheRequest parseUuid { query with after := none } = .ok face)
    (supplied : query.cursor = some text) (reads : Cursor.ReadsAsXid8 text cursor)
    (rendersFrom : ∀ given ∈ query.effectiveFrom, given.rfc3339.isSome = true)
    (rendersTo : ∀ given ∈ query.effectiveTo, given.rfc3339.isSome = true)
    (atOrBelow : cursor.val ≤ (machines 0).horizon)
    (registered : ∃ a ∈ (machines 0).committed.accounts,
      a.tenantId = query.tenantId ∧ a.id = query.accountId) :
    WalkBegins parseUuid query face text cursor
      fun time => momentOf (interleaved time) (timely time) where
  judged := judged
  supplied := supplied
  reads := reads
  rendersFrom := rendersFrom
  rendersTo := rendersTo
  grows := by
    intro time
    obtain ⟨_, run⟩ := later_of_steps (interleaved time) (ran time) (timely (time + 1))
    exact run
  atOrBelow := atOrBelow
  fromYearOne := fromYearOne_of_interleaved (interleaved 0) (timely 0)
  registered := registered

namespace WalkBegins

variable {here : Moment} {seen : Nat} {after : Option String}

theorem isCursor (begins : WalkBegins parseUuid query face text cursor moments) :
    Cursor.parse text = some cursor := Cursor.parse_eq_some_iff.mpr begins.reads

theorem window (begins : WalkBegins parseUuid query face text cursor moments) :
    1 ≤ face.limit := window_of_pageSize (face_iff.mp begins.judged).2.1

theorem positive (begins : WalkBegins parseUuid query face text cursor moments) :
    0 < face.limit.toNat := by
  have window := begins.window
  omega

theorem run (begins : WalkBegins parseUuid query face text cursor moments) (time : Nat) :
    Moment.Later (moments 0) (moments time) := later_of_grows begins.grows time

/-- The key a page's rows give is the one the text of their last stands for. -/
theorem next (begins : WalkBegins parseUuid query face text cursor moments)
    (page : List AccountStatementEntry) :
    (theKeyOfTheNextPageOfEntries page face.limit face.axis).map StatementKey.rendered =
      Keyset.nextOf (keyText face.axis) face.limit.toNat page :=
  next_of_entries face.axis (Int.le_of_lt begins.window) page

section Answered

variable (reads : TimestamptzReads timestamptz)
  (readsUuid : ∀ id : Uuid, parseUuid id.hyphenated = some id)
  (casts : query.CastsTo timestamptz range)

include reads readsUuid casts

/-- The page at a key, at any later moment. -/
theorem pageAt (begins : WalkBegins parseUuid query face text cursor moments)
    (later : Moment.Later (moments 0) here)
    (stands : Keyset.Stands (keyText face.axis)
      (shownRows range (moments 0).book (face.read query cursor)) seen after) :
    ∃ key, thePageKeyOfThisAxisOrRefuseAForeignOne parseUuid after face.axis = .ok key ∧
      accountStatementAt timestamptz here.book { face.read query cursor with after := key } =
        .ok (some (Keyset.pageOf face.limit.toNat
          (shownRows range (moments 0).book (face.read query cursor)) seen)) := by
  have readable := readable_of_face begins.judged casts cursor
  exact page_at_key reads begins.fromYearOne readsUuid later begins.atOrBelow readable
    begins.registered stands

/-- Each page read is the one after the rows seen. -/
theorem read_exact (begins : WalkBegins parseUuid query face text cursor moments) {time : Nat}
    {page : List AccountStatementEntry} {next : Option String}
    (stands : Keyset.Stands (keyText face.axis)
      (shownRows range (moments 0).book (face.read query cursor)) seen after)
    (answered : pagesRead parseUuid timestamptz (face.read query cursor) moments time after page
      next) :
    page = Keyset.pageOf face.limit.toNat
        (shownRows range (moments 0).book (face.read query cursor)) seen ∧
      next = Keyset.nextOf (keyText face.axis) face.limit.toNat page := by
  obtain ⟨key, isKey, isPage, isNext⟩ := answered
  obtain ⟨other, isOther, isThere⟩ := begins.pageAt reads readsUuid casts (begins.run time) stands
  obtain rfl : other = key := Except.ok.inj (isOther.symm.trans isKey)
  have samePage := Option.some.inj (Except.ok.inj (isPage.symm.trans isThere))
  exact ⟨samePage, isNext.trans (begins.next page)⟩

/-- And each is there to be read. -/
theorem read_total (begins : WalkBegins parseUuid query face text cursor moments) (time : Nat)
    (stands : Keyset.Stands (keyText face.axis)
      (shownRows range (moments 0).book (face.read query cursor)) seen after) :
    pagesRead parseUuid timestamptz (face.read query cursor) moments time after
      (Keyset.pageOf face.limit.toNat
        (shownRows range (moments 0).book (face.read query cursor)) seen)
      (Keyset.nextOf (keyText face.axis) face.limit.toNat (Keyset.pageOf face.limit.toNat
        (shownRows range (moments 0).book (face.read query cursor)) seen)) := by
  obtain ⟨key, isKey, isPage⟩ := begins.pageAt reads readsUuid casts (begins.run time) stands
  exact ⟨key, isKey, isPage, (begins.next _).symm⟩

/-- Each page served is the one after the rows seen. -/
theorem served_exact (begins : WalkBegins parseUuid query face text cursor moments) {time : Nat}
    {page : List AccountStatementEntry} {next : Option String}
    (stands : Keyset.Stands (keyText face.axis)
      (shownRows range (moments 0).book (face.read query cursor)) seen after)
    (answered : pagesServed presentation timestamptz parseUuid query moments time after page
      next) :
    page = Keyset.pageOf face.limit.toNat
        (shownRows range (moments 0).book (face.read query cursor)) seen ∧
      next = Keyset.nextOf (keyText face.axis) face.limit.toNat page := by
  obtain ⟨finish, answer, served, _, isPage, isNext⟩ := answered
  obtain ⟨key, isKey, _⟩ := begins.pageAt reads readsUuid casts .refl stands
  have judged := face_at_key begins.judged isKey
  obtain ⟨here, later, _, isThere, isKeyOf⟩ :=
    (ends_page judged begins.supplied begins.isCursor (moments time)).served served answer rfl
  obtain ⟨other, isOther, isPageThere⟩ :=
    begins.pageAt reads readsUuid casts ((begins.run time).trans later) stands
  obtain rfl : other = key := Except.ok.inj (isOther.symm.trans isKey)
  have samePage := Option.some.inj (Except.ok.inj (isThere.symm.trans isPageThere))
  subst isPage
  refine ⟨samePage, ?_⟩
  rw [← isNext, isKeyOf]
  exact begins.next answer.entries

/-- And each can be served while the cursor is accepted. -/
theorem served_total (begins : WalkBegins parseUuid query face text cursor moments) (time : Nat)
    (accepted : pinTheCursorOrRefuseAnImplausibleOne (some text)
      ((moments time).bounds presentation query.tenantId) = .ok cursor)
    (stands : Keyset.Stands (keyText face.axis)
      (shownRows range (moments 0).book (face.read query cursor)) seen after) :
    pagesServed presentation timestamptz parseUuid query moments time after
      (Keyset.pageOf face.limit.toNat
        (shownRows range (moments 0).book (face.read query cursor)) seen)
      (Keyset.nextOf (keyText face.axis) face.limit.toNat (Keyset.pageOf face.limit.toNat
        (shownRows range (moments 0).book (face.read query cursor)) seen)) := by
  obtain ⟨key, isKey, isPage⟩ := begins.pageAt reads readsUuid casts (begins.run time) stands
  rw [← begins.supplied] at accepted
  have served := serves_page (face_at_key begins.judged isKey) accepted isPage
  exact ⟨_, _, served, begins.grows time, rfl, begins.next _⟩

/-- A walk whose cursor is accepted as it begins can be gone to its end. -/
theorem served_walk (begins : WalkBegins parseUuid query face text cursor moments)
    (isPlausible : ∃ accepted, pinTheCursorOrRefuseAnImplausibleOne (some text)
      ((moments 0).bounds presentation query.tenantId) = .ok accepted) :
    ∃ pages, Keyset.Walk
      (pagesServed presentation timestamptz parseUuid query moments) 0 none pages := by
  obtain ⟨accepted, isAccepted⟩ := isPlausible
  obtain rfl : accepted = cursor := by
    have same := Cursor.parse_eq_some_iff.mpr (pin_supplied_iff.mp isAccepted).1
    exact Option.some.inj (same.symm.trans begins.isCursor)
  cases isOldest : (moments 0).oldest query.tenantId with
  | some oldest =>
      exact Keyset.walk_ends begins.positive (fun time seen after stands =>
        begins.served_total reads readsUuid casts time
          (accepted_later (begins.run time) isAccepted isOldest) stands) .none
  | none =>
      -- Nothing is there yet, so the first page is the last.
      have isEmpty := Moment.oldest_eq_none_iff.mp isOldest
      have noRows : pagedRows range (moments 0).book (face.read query accepted) = [] := by
        refine List.eq_nil_iff_forall_not_mem.mpr fun e member => ?_
        obtain ⟨isThere, paged⟩ := mem_pagedRows.mp member
        exact isEmpty e isThere (tenant_of_isPaged paged)
      have served := begins.served_total reads readsUuid casts 0 isAccepted .none
      rw [shownRows, noRows, List.map_nil, Keyset.pageOf_nil,
        Keyset.nextOf_nil begins.positive] at served
      exact ⟨[[]], .last served⟩

end Answered

end WalkBegins

/-- The pages of a walk, at a range and over these rows: the range is the one the request
names, the rows are the account's entries below the cursor and inside it, in the order
of the axis, and following the keys from none reads each of them once and comes to an
end.  The walk through the service can be gone where its cursor is accepted as it
begins. -/
structure PagesAreExact (presentation : Presentation)
    (timestamptz : String → Except NotATimestamp Timestamp)
    (parseUuid : String → Option Uuid) (query : AccountStatementQuery) (face : StatementFace)
    (text : String) (cursor : Cursor) (moments : Nat → Moment) (range : EffectiveRange)
    (rows : List EntryRow) : Prop where
  named : query.Names range
  inOrder : rows.Pairwise face.axis.Precedes
  areThese : ∀ time e, e ∈ rows ↔
    e ∈ (moments time).book.entries ∧ isPaged range (face.read query cursor) e = true
  readsExactly : ReadsExactly (moments 0).book face.limit.toNat rows
    (pagesRead parseUuid timestamptz (face.read query cursor) moments)
  canBeRead : ∃ pages, Keyset.Walk
    (pagesRead parseUuid timestamptz (face.read query cursor) moments) 0 none pages
  servesExactly : ReadsExactly (moments 0).book face.limit.toNat rows
    (pagesServed presentation timestamptz parseUuid query moments)
  canBeServed : (∃ accepted, pinTheCursorOrRefuseAnImplausibleOne (some text)
      ((moments 0).bounds presentation query.tenantId) = .ok accepted) →
    ∃ pages, Keyset.Walk
      (pagesServed presentation timestamptz parseUuid query moments) 0 none pages

/-- Castable bounds are cast to the range that is named. -/
theorem WalkBegins.castsTo (begins : WalkBegins parseUuid query face text cursor moments)
    (reads : TimestamptzReads timestamptz)
    (castable : ∀ instant, instant ∈ query.effectiveFrom ∨ instant ∈ query.effectiveTo →
      instant.Castable) :
    ∃ range, query.CastsTo timestamptz range ∧ query.Names range := by
  have bound : ∀ (given : Option OffsetDateTime) (sentinel : String) (unbounded : ReportInstant),
      Binds timestamptz none sentinel unbounded →
      (∀ instant ∈ given, instant.rfc3339.isSome = true) →
      (∀ instant ∈ given, instant.Castable) →
        ∃ bound, Binds timestamptz given sentinel bound ∧ bound.Names given unbounded := by
    intro given sentinel unbounded bindsNone renders castable
    cases given with
    | none =>
        exact ⟨unbounded, bindsNone, rfl⟩
    | some instant =>
        obtain ⟨bound, binds⟩ := (binds_iff_castable reads (renders instant rfl) sentinel).mpr
          (castable instant rfl)
        exact ⟨bound, binds, names_of_binds reads binds unbounded⟩
  obtain ⟨effectiveFrom, bindsFrom, namesFrom⟩ := bound query.effectiveFrom theBeginningOfTime
    .minusInfinity binds_unbounded.1 begins.rendersFrom fun instant isFrom =>
      castable instant (Or.inl isFrom)
  obtain ⟨effectiveTo, bindsTo, namesTo⟩ := bound query.effectiveTo theEndOfTime .infinity
    binds_unbounded.2 begins.rendersTo fun instant isTo => castable instant (Or.inr isTo)
  exact ⟨⟨effectiveFrom, effectiveTo⟩, ⟨bindsFrom, bindsTo⟩, ⟨namesFrom, namesTo⟩⟩

/-- A page is answered only where the bounds are castable. -/
theorem WalkBegins.castable_of_read
    (begins : WalkBegins parseUuid query face text cursor moments)
    (reads : TimestamptzReads timestamptz) {time : Nat} {after next : Option String}
    {page : List AccountStatementEntry}
    (answered : pagesRead parseUuid timestamptz (face.read query cursor) moments time after page
      next) :
    ∀ instant, instant ∈ query.effectiveFrom ∨ instant ∈ query.effectiveTo →
      instant.Castable := by
  obtain ⟨key, _, isPage, _⟩ := answered
  obtain ⟨noRange, isFrom, isTo⟩ := of_range (face_iff.mp begins.judged).2.2.2
  intro instant isGiven
  cases isAxis : face.axis with
  | recorded =>
      have nothing := noRange isAxis
      change query.effectiveFrom = none ∧ query.effectiveTo = none at nothing
      rw [nothing.1, nothing.2] at isGiven
      cases isGiven <;> contradiction
  | effective =>
      have binds := binds_of_answered isAxis isPage
      change (∃ bound, Binds timestamptz face.effectiveFrom _ bound) ∧
        ∃ bound, Binds timestamptz face.effectiveTo _ bound at binds
      rw [isFrom, isTo] at binds
      cases isGiven with
      | inl given =>
          rw [Option.mem_def.mp given] at binds
          exact (binds_iff_castable reads (begins.rendersFrom instant given) _).mp binds.1
      | inr given =>
          rw [Option.mem_def.mp given] at binds
          exact (binds_iff_castable reads (begins.rendersTo instant given) _).mp binds.2

/-- So a walk that comes to an end began with castable bounds. -/
theorem WalkBegins.castable_of_exact
    (begins : WalkBegins parseUuid query face text cursor moments)
    (reads : TimestamptzReads timestamptz)
    (exact_ : ∃ range rows, PagesAreExact presentation timestamptz parseUuid query face text
      cursor moments range rows) :
    ∀ instant, instant ∈ query.effectiveFrom ∨ instant ∈ query.effectiveTo →
      instant.Castable := by
  obtain ⟨range, rows, exact_⟩ := exact_
  obtain ⟨pages, walk⟩ := exact_.canBeRead
  cases walk with
  | last answered =>
      exact begins.castable_of_read reads answered
  | more answered _ =>
      exact begins.castable_of_read reads answered

end Walking

namespace Shop

def hexValue (digit : Char) : Nat := "0123456789abcdef".toList.idxOf digit

theorem hexValue_hexDigit : ∀ value < 16, hexValue (Json.hexDigit value) = value := by
  decide

/-- Pairs of hexadecimal digits as a number, the first pair the highest. -/
def readHex : List Char → Nat → Nat
  | high :: low :: rest, value => readHex rest (value * 256 + (hexValue high * 16 + hexValue low))
  | _, value => value

/-- The 32 digits of a uuid between whatever hyphens. -/
def parseStr (text : String) : Option Uuid :=
  let digits := text.toList.filter (· ≠ '-')
  if digits.length = 32 then some (uuid (readHex digits 0)) else none

theorem readHex_bytes (bytes : List UInt8) (value : Nat) :
    readHex (bytes.flatMap fun byte =>
      [Json.hexDigit (byte.toNat / 16), Json.hexDigit (byte.toNat % 16)]) value =
      bytes.foldl (fun value byte => value * 256 + byte.toNat) value := by
  induction bytes generalizing value with
  | nil =>
      rfl
  | cons byte rest inductionHypothesis =>
      have small : byte.toNat < 256 := byte.toNat_lt
      rw [List.flatMap_cons, List.foldl_cons, List.cons_append, List.cons_append,
        List.nil_append, readHex, inductionHypothesis, hexValue_hexDigit _ (by omega),
        hexValue_hexDigit _ (by omega)]
      congr 2
      omega

theorem foldr_leBytes (width value : Nat) :
    (Bytes.leBytes width value).foldr (fun byte value => value * 256 + byte.toNat) 0 =
      value % 256 ^ width := by
  induction width generalizing value with
  | zero =>
      rw [pow_zero, Nat.mod_one]
      rfl
  | succ width inductionHypothesis =>
      rw [Bytes.leBytes, List.foldr_cons, inductionHypothesis, pow_succ', Nat.mod_mul]
      have isLow : (UInt8.ofNat value).toNat = value % 256 := UInt8.toNat_ofNat'
      rw [isLow]
      ring

theorem hexDigit_ne_hyphen : ∀ value < 16, Json.hexDigit value ≠ '-' := by decide

/-- Digits in groups between hyphens, without the hyphens. -/
theorem filter_grouped {digits : List Char} (noHyphen : ∀ digit ∈ digits, digit ≠ '-') :
    (digits.take 8 ++ '-' :: (digits.drop 8).take 4 ++ '-' :: (digits.drop 12).take 4 ++
      '-' :: (digits.drop 16).take 4 ++ '-' :: digits.drop 20).filter (· ≠ '-') = digits := by
  have kept : ∀ part : List Char, (∀ digit ∈ part, digit ∈ digits) →
      part.filter (· ≠ '-') = part := by
    intro part within
    exact List.filter_eq_self.mpr fun digit member =>
      decide_eq_true (noHyphen digit (within digit member))
  have apart : ∀ part : List Char, ('-' :: part).filter (· ≠ '-') = part.filter (· ≠ '-') :=
    fun part => List.filter_cons_of_neg (by decide)
  rw [List.filter_append, List.filter_append, List.filter_append, List.filter_append, apart,
    apart, apart, apart, kept _ fun _ => List.mem_of_mem_take,
    kept _ fun _ member => List.mem_of_mem_drop (List.mem_of_mem_take member),
    kept _ fun _ member => List.mem_of_mem_drop (List.mem_of_mem_take member),
    kept _ fun _ member => List.mem_of_mem_drop (List.mem_of_mem_take member),
    kept _ fun _ => List.mem_of_mem_drop]
  have fourth := List.take_append_drop 4 (digits.drop 16)
  have third := List.take_append_drop 4 (digits.drop 12)
  have second := List.take_append_drop 4 (digits.drop 8)
  rw [List.drop_drop] at fourth third second
  rw [List.append_assoc, List.append_assoc, List.append_assoc, fourth, third, second]
  exact List.take_append_drop 8 digits

/-- A uuid reads back from its hyphenated form. -/
theorem parseStr_hyphenated (id : Uuid) : parseStr id.hyphenated = some id := by
  have noHyphen : ∀ digit ∈ id.asBytes.flatMap fun byte =>
      [Json.hexDigit (byte.toNat / 16), Json.hexDigit (byte.toNat % 16)], digit ≠ '-' := by
    intro digit member
    obtain ⟨byte, _, isHex⟩ := List.mem_flatMap.mp member
    have small : byte.toNat < 256 := byte.toNat_lt
    simp only [List.mem_cons, List.not_mem_nil, or_false] at isHex
    rcases isHex with rfl | rfl
    · exact hexDigit_ne_hyphen _ (by omega)
    · exact hexDigit_ne_hyphen _ (by omega)
  have digits : id.hyphenated.toList.filter (· ≠ '-') = id.asBytes.flatMap fun byte =>
      [Json.hexDigit (byte.toNat / 16), Json.hexDigit (byte.toNat % 16)] := by
    rw [Uuid.hyphenated, String.toList_ofList]
    exact filter_grouped noHyphen
  have length : (id.asBytes.flatMap fun byte =>
      [Json.hexDigit (byte.toNat / 16), Json.hexDigit (byte.toNat % 16)]).length = 32 := by
    rw [List.length_flatMap, Uuid.asBytes]
    simp
  have value : readHex (id.asBytes.flatMap fun byte =>
      [Json.hexDigit (byte.toNat / 16), Json.hexDigit (byte.toNat % 16)]) 0 = id.val := by
    rw [readHex_bytes, Uuid.asBytes, Bytes.beBytes, List.foldl_reverse, foldr_leBytes]
    exact Nat.mod_eq_of_lt id.isLt
  rw [parseStr, digits]
  rw [if_pos length, value]
  exact congrArg some (Fin.ext (Nat.mod_eq_of_lt id.isLt))

/-- Money out of the till, and the fee it is taken for. -/
def tillPosting (first transaction : Nat) (accountSeq : Int) (effectiveAt : Timestamp)
    (xactId : Xid) : List EntryRow := [
  ⟨"shop", uuid first, uuid transaction, fees, .debit, 100, "USD", 0, accountSeq, effectiveAt,
    xactId⟩,
  ⟨"shop", uuid (first + 1), uuid transaction, till, .credit, 100, "USD", 0, accountSeq,
    effectiveAt, xactId⟩]

/-- One commit of three transactions, one of them of two postings, between two others.
The last is pending. -/
def tillWrites : Writes where
  transactions := [
    ⟨"shop", uuid 6100, uuid 6000, "posting", .posted, 2999, none, none, 4⟩,
    ⟨"shop", uuid 6101, uuid 6001, "posting", .posted, 500, none, none, 5⟩,
    ⟨"shop", uuid 6102, uuid 6002, "posting", .posted, 1000, none, none, 5⟩,
    ⟨"shop", uuid 6103, uuid 6003, "posting", .posted, 2000, none, none, 5⟩,
    ⟨"shop", uuid 6104, uuid 6004, "posting", .posted, 3000, none, none, 6⟩,
    ⟨"shop", uuid 6105, uuid 6005, "posting", .pending, 2000, none, none, 6⟩]
  entries := tillPosting 6200 6100 1 2999 4 ++ tillPosting 6210 6101 2 500 5 ++
    tillPosting 6220 6102 3 1000 5 ++ tillPosting 6230 6103 4 2000 5 ++
    tillPosting 6240 6103 5 2000 5 ++ tillPosting 6250 6104 6 3000 6 ++
    tillPosting 6260 6105 7 2000 6

/-- The till is registered, and the transactions with ids below 7 have ended. -/
def firstPage : Moment where
  book := { (Book.empty chart).apply tillWrites with
    accounts := [⟨"shop", till, .house, none, "till", .asset, .debit, .none, "USD", 1,
      .object [], 0⟩] }
  horizon := 7
  horizonIsXid8 := by decide
  counted := by decide +kernel
  xactIsXid8 := by decide +kernel
  pkAccounts := by
    unfold UniqueIndex.Holds
    decide
  pkEntries := by
    unfold UniqueIndex.Holds
    decide +kernel
  fkEntriesTxn := by decide +kernel
  dated := by decide +kernel

/-- The date of the entries the first page ends among. -/
def secondPosting : Writes where
  transactions := [⟨"shop", uuid 6106, uuid 6006, "posting", .posted, 2000, none, none, 7⟩]
  entries := tillPosting 6270 6106 8 2000 7

/-- A posting of that date has committed since. -/
def laterPages : Moment where
  book := firstPage.book.apply secondPosting
  horizon := 7
  horizonIsXid8 := by decide
  counted := by decide +kernel
  xactIsXid8 := by decide +kernel
  pkAccounts := firstPage.pkAccounts
  pkEntries := by
    unfold UniqueIndex.Holds
    decide +kernel
  fkEntriesTxn := by decide +kernel
  dated := by decide +kernel

def pageMoments : Nat → Moment
  | 0 => firstPage
  | _ + 1 => laterPages

/-- From the first millisecond of 1970 to the third, the end written in another offset,
two entries a page. -/
def tillEntries : AccountStatementQuery :=
  ⟨"shop", till, some "effective", some "7", some ⟨1000000, 0⟩, some ⟨3000000, 7200⟩, some 2,
    none⟩

theorem pageMoments_grow (time : Nat) :
    Moment.Later (pageMoments time) (pageMoments (time + 1)) := by
  cases time with
  | zero =>
      exact .single (.commit secondPosting rfl rfl (by decide))
  | succ time =>
      exact .refl

theorem tillEntries_begins :
    WalkBegins parseStr tillEntries
      ⟨.effective, 2, none, some ⟨1000000, 0⟩, some ⟨3000000, 7200⟩⟩ "7" 7 pageMoments where
  judged := rfl
  supplied := rfl
  reads := Cursor.parse_eq_some_iff.mp (by decide)
  rendersFrom := by decide
  rendersTo := by decide
  grows := pageMoments_grow
  atOrBelow := by decide
  fromYearOne := by decide +kernel
  registered := ⟨_, List.mem_singleton.mpr rfl, rfl, rfl⟩

/-- June of the year 0, in which a date may be written and not be cast. -/
def yearZero : OffsetDateTime := ⟨-62154086400000000000, 0⟩

def tillSinceYearZero : AccountStatementQuery := { tillEntries with effectiveFrom := some yearZero }

end Shop

end OpenLedger
