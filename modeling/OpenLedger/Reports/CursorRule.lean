import OpenLedger.Reports.Served
import OpenLedger.Reports.Timestamptz
import OpenLedger.Runs

/-!
# The cursor rule over a growing book

What a cursor handed out at one moment meets when it is sent back at a later one
is decided by what the book held when it was pinned: an entry below the cursor
keeps it good for ever, and without one it is good only while the book stays
empty.
-/

namespace OpenLedger

section Rule

variable {bounds : ReadBounds} {text : String} {cursor : Cursor}

/-- A supplied cursor is accepted exactly when it reads as an `xid8` at or below
the horizon and strictly above the book's oldest entry, where there is one. -/
theorem pin_supplied_iff :
    pinTheCursorOrRefuseAnImplausibleOne (some text) bounds = .ok cursor ↔
      Cursor.ReadsAsXid8 text cursor ∧ cursor ≤ bounds.horizon ∧
        ∀ oldest ∈ bounds.oldestEntry, oldest < cursor := by
  unfold pinTheCursorOrRefuseAnImplausibleOne
  rw [← Cursor.parse_eq_some_iff]
  dsimp only
  cases parsed : Cursor.parse text with
  | none =>
      exact ⟨nofun, fun accepted => nomatch accepted.1⟩
  | some read =>
      dsimp only
      by_cases above : bounds.horizon < read
      · rw [if_pos above]
        refine ⟨nofun, fun ⟨same, below, _⟩ => ?_⟩
        rw [Option.some.inj same] at above
        exact absurd above (not_lt.mpr below)
      · rw [if_neg above]
        cases isOldest : bounds.oldestEntry with
        | none =>
            simp only [Except.ok.injEq, Option.some.injEq, Option.mem_def, reduceCtorEq,
              false_implies, implies_true, and_true]
            exact ⟨fun same => ⟨same, same ▸ not_lt.mp above⟩, fun both => both.1⟩
        | some oldest =>
            dsimp only
            by_cases atFloor : read ≤ oldest
            · rw [if_pos atFloor]
              refine ⟨nofun, fun ⟨same, _, floor⟩ => ?_⟩
              rw [Option.some.inj same] at atFloor
              exact absurd (floor oldest rfl) (not_lt.mpr atFloor)
            · rw [if_neg atFloor]
              simp only [Except.ok.injEq, Option.some.injEq, Option.mem_def, forall_eq']
              refine ⟨fun same => ?_, fun all => all.1⟩
              subst same
              exact ⟨rfl, not_lt.mp above, not_le.mp atFloor⟩

/-- A refusal of a supplied cursor blames the request. -/
theorem pin_error_blames {supplied : Option String} {error : ReadError}
    (fails : pinTheCursorOrRefuseAnImplausibleOne supplied bounds = .error error) :
    error.blamesTheRequest = true := by
  unfold pinTheCursorOrRefuseAnImplausibleOne at fails
  split at fails
  · cases fails
  · split at fails
    · cases fails
      rfl
    · split at fails
      · cases fails
        rfl
      · split at fails
        · split at fails
          · cases fails
            rfl
          · cases fails
        · cases fails

end Rule

/-- The reports a cursor can be sent to. -/
inductive Report where
  | trialBalance (query : TrialBalanceQuery)
  | balanceSheet (query : BalanceSheetQuery)
  | incomeStatement (query : IncomeStatementQuery)
  | accountStatement (query : AccountStatementQuery)

namespace Report

def tenantId : Report → String
  | trialBalance query => query.tenantId
  | balanceSheet query => query.tenantId
  | incomeStatement query => query.tenantId
  | accountStatement query => query.tenantId

def cursor : Report → Option String
  | trialBalance query => query.cursor
  | balanceSheet query => query.cursor
  | incomeStatement query => query.cursor
  | accountStatement query => query.cursor

/-- The same request with this text as its cursor. -/
def sending (text : String) : Report → Report
  | trialBalance query => trialBalance { query with cursor := some text }
  | balanceSheet query => balanceSheet { query with cursor := some text }
  | incomeStatement query => incomeStatement { query with cursor := some text }
  | accountStatement query => accountStatement { query with cursor := some text }

def Answer : Report → Type
  | trialBalance _ => TrialBalance
  | balanceSheet _ => Statement
  | incomeStatement _ => Statement
  | accountStatement _ => AccountStatement

def pinnedCursor : (report : Report) → report.Answer → Cursor
  | trialBalance _ => TrialBalance.pinnedCursor
  | balanceSheet _ => Statement.pinnedCursor
  | incomeStatement _ => Statement.pinnedCursor
  | accountStatement _ => AccountStatement.pinnedCursor

/-- The use-case a report runs. -/
def reading (parseUuid : String → Option Uuid) : (report : Report) → Reading report.Answer
  | trialBalance query => OpenLedger.trialBalance query
  | balanceSheet query => OpenLedger.balanceSheet query
  | incomeStatement query => OpenLedger.incomeStatement query
  | accountStatement query => OpenLedger.accountStatement parseUuid query

/-- Whether the request is refused for nothing but, perhaps, its cursor. -/
def isSound (parseUuid : String → Option Uuid) : Report → Bool
  | accountStatement query => (faceOfTheRequest parseUuid query).toBool
  | _ => true

@[simp]
theorem tenantId_sending (report : Report) (text : String) :
    (report.sending text).tenantId = report.tenantId := by
  cases report <;> rfl

@[simp]
theorem cursor_sending (report : Report) (text : String) :
    (report.sending text).cursor = some text := by
  cases report <;> rfl

@[simp]
theorem isSound_sending (parseUuid : String → Option Uuid) (report : Report) (text : String) :
    (report.sending text).isSound parseUuid = report.isSound parseUuid := by
  cases report <;> rfl

end Report

section Serving

variable {presentation : Presentation} {timestamptz : String → Except NotATimestamp Timestamp}
  {parseUuid : String → Option Uuid}

theorem unseeded_is_harmless {askedFor : Option Int} {bounds : ReadBounds} {error : ReadError}
    (fails : nameTheChartVersionOrRefuseAnUnseededBook askedFor bounds = .error error) :
    error.blamesTheRequest = false := by
  unfold nameTheChartVersionOrRefuseAnUnseededBook at fails
  split at fails
  · cases fails
  · cases fails
    rfl

/-- A sound report answers what the cursor rule judges of its cursor. -/
theorem ends_report (report : Report) (isSound : report.isSound parseUuid = true)
    (start : Moment) :
    Ends presentation timestamptz (report.reading parseUuid)
      (JudgedAt presentation start report.tenantId report.cursor report.pinnedCursor) start := by
  cases report with
  | trialBalance query =>
      exact ends_pinned fun bounds cursor here =>
        ends_statement rfl fun rows here => ends_pure rfl
  | balanceSheet query =>
      refine ends_pinned fun bounds cursor here =>
        ends_judge (fun version _ => ?_) fun error fails => unseeded_is_harmless fails
      exact ends_statement rfl fun rows here => ends_pure rfl
  | incomeStatement query =>
      refine ends_pinned fun bounds cursor here =>
        ends_judge (fun version _ => ?_) fun error fails => unseeded_is_harmless fails
      exact ends_statement rfl fun rows here => ends_pure rfl
  | accountStatement query =>
      refine ends_judge (fun face _ => ?_) (fun error fails => ?_)
      · refine ends_pinned fun bounds cursor here => ends_statement rfl fun rows here => ?_
        cases rows with
        | none =>
            exact (rfl : (ReadError.accountUnknown query.accountId none).blamesTheRequest = false)
        | some entries =>
            exact ends_pure rfl
      · have passes : (faceOfTheRequest parseUuid query).toBool = true := isSound
        rw [fails] at passes
        cases passes

/-- A report that was answered was sound. -/
theorem isSound_of_answered {report : Report} {start finish : Moment} {answer : report.Answer}
    (served : Served presentation timestamptz start (report.reading parseUuid) finish
      (.ok answer)) : report.isSound parseUuid = true := by
  cases report with
  | accountStatement query =>
      cases judged : faceOfTheRequest parseUuid query with
      | ok face =>
          rw [Report.isSound, judged]
          rfl
      | error error =>
          have ends : Ends presentation timestamptz (accountStatement parseUuid query)
              (fun result _ => result = .error error) start := by
            refine ends_judge (fun face passes => ?_) (fun other fails => ?_)
            · rw [judged] at passes
              cases passes
            · rw [judged] at fails
              rw [Except.error.inj fails]
          have failed := ends.served served
          cases failed
  | _ =>
      rfl

/-- The horizon alone is the horizon of some moment. -/
theorem ends_cursor (query : CursorQuery) (start : Moment) :
    Ends presentation timestamptz (cursor query)
      (fun result finish => (∃ error, result = .error error) ∨
        Moment.Later start finish ∧ result = .ok ⟨finish.horizon, finish.horizonIsXid8⟩) start := by
  refine ends_askStore (fun here moved inScope answered => ends_judged ?_)
    (fun here _ refusal _ => Or.inl ⟨_, rfl⟩) fun here _ error _ => Or.inl ⟨error, rfl⟩
  rw [storeAnswer, cursorFrom_xidText here.horizonIsXid8] at answered
  rw [← Except.ok.inj answered]
  exact Or.inr ⟨moved, answered_sameTenant _ _⟩

end Serving

section Growing

variable {presentation : Presentation}

/-- Whether the tenant's book holds an entry strictly below a cursor. -/
def Moment.HasEntryBelow (moment : Moment) (tenantId : String) (cursor : Cursor) : Prop :=
  ∃ e ∈ moment.book.entries, e.tenantId = tenantId ∧ e.xactId < cursor.val

/-- Whether the tenant's book holds no entry at all. -/
def Moment.IsEmptyFor (moment : Moment) (tenantId : String) : Prop :=
  ∀ e ∈ moment.book.entries, e.tenantId ≠ tenantId

theorem Moment.oldest_eq_none_iff {moment : Moment} {tenantId : String} :
    moment.oldest tenantId = none ↔ moment.IsEmptyFor tenantId := by
  unfold Moment.IsEmptyFor
  rw [← oldestEntryOf_eq_none_iff]
  unfold Moment.oldest
  split
  · rename_i isNone
    exact ⟨fun _ => isNone, fun _ => rfl⟩
  · rename_i oldest isOldest
    refine ⟨nofun, fun isNone => ?_⟩
    rw [isNone] at isOldest
    cases isOldest

theorem Moment.val_of_oldest {moment : Moment} {tenantId : String} {oldest : Cursor}
    (isOldest : moment.oldest tenantId = some oldest) :
    oldestEntryOf moment.book tenantId = some oldest.val := by
  unfold Moment.oldest at isOldest
  split at isOldest
  · cases isOldest
  · rename_i xid isXid
    cases isOldest
    exact isXid

/-- A pinned cursor is at or below the horizon it was pinned under. -/
theorem le_horizon_of_pinned {supplied : Option String} {bounds : ReadBounds} {cursor : Cursor}
    (pinned : pinTheCursorOrRefuseAnImplausibleOne supplied bounds = .ok cursor) :
    cursor ≤ bounds.horizon := by
  cases supplied with
  | none =>
      exact (Except.ok.inj pinned).ge
  | some text =>
      exact (pin_supplied_iff.mp pinned).2.1

/-- What a cursor pinned at one moment meets at a later one. -/
theorem accepted_later_iff {pinned later : Moment} {tenantId : String} {cursor : Cursor}
    (run : Moment.Later pinned later) (belowHorizon : cursor.val ≤ pinned.horizon) :
    (∃ accepted, pinTheCursorOrRefuseAnImplausibleOne (some cursor.text)
        (later.bounds presentation tenantId) = .ok accepted) ↔
      pinned.HasEntryBelow tenantId cursor ∨ later.IsEmptyFor tenantId := by
  have grown := run.grown
  obtain ⟨added, isLonger, above⟩ := grown.entries
  have isPlausible : (∃ accepted, pinTheCursorOrRefuseAnImplausibleOne (some cursor.text)
      (later.bounds presentation tenantId) = .ok accepted) ↔
        ∀ oldest ∈ later.oldest tenantId, oldest < cursor := by
    constructor
    · rintro ⟨accepted, isAccepted⟩
      obtain ⟨reads, _, floor⟩ := pin_supplied_iff.mp isAccepted
      have same := Cursor.parse_eq_some_iff.mpr reads
      rw [Cursor.parse_text] at same
      rw [Option.some.inj same]
      exact floor
    · intro floor
      have below : cursor.val ≤ later.horizon := belowHorizon.trans grown.horizon
      exact ⟨cursor, pin_supplied_iff.mpr
        ⟨Cursor.parse_eq_some_iff.mp (Cursor.parse_text cursor), below, floor⟩⟩
  rw [isPlausible]
  constructor
  · intro floor
    cases isOldest : later.oldest tenantId with
    | none =>
        exact Or.inr (Moment.oldest_eq_none_iff.mp isOldest)
    | some oldest =>
        have below : oldest < cursor := floor oldest isOldest
        obtain ⟨e, member, ofTenant, isXid⟩ := mem_of_oldestEntryOf (Moment.val_of_oldest isOldest)
        have entryBelow : e.xactId < cursor.val := isXid ▸ below
        rw [isLonger] at member
        rcases List.mem_append.mp member with old | new
        · exact Or.inl ⟨e, old, ofTenant, entryBelow⟩
        · have atOrAbove : cursor.val ≤ e.xactId := belowHorizon.trans (above e new)
          exact absurd entryBelow (not_lt.mpr atOrAbove)
  · rintro (⟨e, member, ofTenant, entryBelow⟩ | isEmpty) oldest isOldest
    · have stillThere : e ∈ later.book.entries := by
        rw [isLonger]
        exact List.mem_append_left _ member
      have atMost := oldestEntryOf_le (Moment.val_of_oldest isOldest) stillThere ofTenant
      exact Fin.lt_def.mpr (atMost.trans_lt entryBelow)
    · rw [Moment.oldest_eq_none_iff.mpr isEmpty] at isOldest
      cases isOldest

end Growing

/-- What hands out a cursor. -/
inductive ReadCall where
  | report (report : Report)
  | cursor (query : CursorQuery)

namespace ReadCall

def tenantId : ReadCall → String
  | report asked => asked.tenantId
  | cursor query => query.tenantId

def Answer : ReadCall → Type
  | report asked => asked.Answer
  | cursor _ => Cursor

def pinnedCursor : (call : ReadCall) → call.Answer → Cursor
  | report asked => asked.pinnedCursor
  | cursor _ => id

def reading (parseUuid : String → Option Uuid) : (call : ReadCall) → Reading call.Answer
  | report asked => asked.reading parseUuid
  | cursor query => OpenLedger.cursor query

end ReadCall

/-- Whether a result refuses the request or its cursor. -/
def isBlamed {β : Type} : Except ReadError β → Bool
  | .ok _ => false
  | .error error => error.blamesTheRequest

section Sending

variable {presentation : Presentation} {timestamptz : String → Except NotATimestamp Timestamp}
  {parseUuid : String → Option Uuid}

/-- An answered cursor was pinned at or below the horizon of some moment of the
call. -/
theorem pinned_of_answered {call : ReadCall} {start finish : Moment} {answer : call.Answer}
    (served : Served presentation timestamptz start (call.reading parseUuid) finish
      (.ok answer)) :
    ∃ pinned, Moment.Later start pinned ∧ Moment.Later pinned finish ∧
      (call.pinnedCursor answer).val ≤ pinned.horizon := by
  cases call with
  | report report =>
      have judged := (ends_report report (isSound_of_answered served) start).served served
      rcases judged with ⟨error, isError, _⟩ | ⟨here, before, after, isJudged⟩
      · cases isError
      · refine ⟨here, before, after, ?_⟩
        split at isJudged
        · cases isJudged
        · rename_i cursor accepted
          have isCursor : report.pinnedCursor answer = cursor := isJudged
          have atMost : cursor.val ≤ here.horizon := le_horizon_of_pinned accepted
          exact (congrArg Fin.val isCursor).le.trans atMost
  | cursor query =>
      rcases (ends_cursor query start).served served with ⟨error, isError⟩ | ⟨later, isHorizon⟩
      · cases isError
      · cases isHorizon
        exact ⟨finish, later, .refl, le_refl _⟩

/-- Every cursor the read path hands out is good at any later moment exactly when
the book held an entry below it as it was pinned, or still holds none; and a
supplied cursor is accepted exactly within the bounds. -/
theorem pinned_cursor_comes_back (call : ReadCall) {start finish : Moment}
    {answer : call.Answer}
    (served : Served presentation timestamptz start (call.reading parseUuid) finish
      (.ok answer)) :
    (∃ pinned, Moment.Later start pinned ∧ Moment.Later pinned finish ∧
      ∀ again : Report, again.tenantId = call.tenantId → again.isSound parseUuid = true →
        ∀ (begun ended : Moment)
          (result : Except ReadError (again.sending (call.pinnedCursor answer).text).Answer),
          Moment.Later finish begun →
          Served presentation timestamptz begun
            ((again.sending (call.pinnedCursor answer).text).reading parseUuid) ended result →
          (∃ error : ReadError, result = .error error ∧ error.isOutage = true) ∨
            ∃ asked, Moment.Later begun asked ∧ Moment.Later asked ended ∧
              (isBlamed result = false ↔
                pinned.HasEntryBelow call.tenantId (call.pinnedCursor answer) ∨
                  asked.IsEmptyFor call.tenantId)) ∧
      ∀ (text : String) (bounds : ReadBounds) (cursor : Cursor),
        pinTheCursorOrRefuseAnImplausibleOne (some text) bounds = .ok cursor ↔
          Cursor.ReadsAsXid8 text cursor ∧ cursor ≤ bounds.horizon ∧
            ∀ oldest ∈ bounds.oldestEntry, oldest < cursor := by
  refine ⟨?_, fun text bounds cursor => pin_supplied_iff⟩
  obtain ⟨pinned, before, after, belowHorizon⟩ := pinned_of_answered served
  refine ⟨pinned, before, after, fun again sameTenant isSound begun ended result later sent => ?_⟩
  have stillSound := (again.isSound_sending parseUuid (call.pinnedCursor answer).text).trans isSound
  rcases (ends_report _ stillSound begun).served sent with isOutage |
    ⟨asked, reached, onwards, isJudged⟩
  · exact Or.inl isOutage
  · refine Or.inr ⟨asked, reached, onwards, ?_⟩
    rw [Report.cursor_sending, Report.tenantId_sending, sameTenant] at isJudged
    rw [← @accepted_later_iff presentation _ _ _ _ ((after.trans later).trans reached)
      belowHorizon]
    split at isJudged
    · rename_i error refuses
      rw [isJudged, isBlamed, pin_error_blames refuses, refuses]
      exact ⟨nofun, nofun⟩
    · rename_i cursor accepted
      rw [accepted]
      refine ⟨fun _ => ⟨cursor, rfl⟩, fun _ => ?_⟩
      cases result with
      | ok found =>
          rfl
      | error error =>
          exact isJudged

end Sending

namespace Shop

/-- No chart version is seeded. -/
def unpresented : Presentation where
  versions := []
  lines := []
  rows := []
  pkFsLines := UniqueIndex.holds_nil _
  fkFsLinesVersion := nofun
  ckFsLinesCodeReserved := nofun
  ckFsLinesSideMatchesStatement := nofun
  pkPresentation := UniqueIndex.holds_nil _
  fkPresentationVersion := nofun
  fkPresentationFsLine := nofun
  fkPresentationFsLineContra := nofun
  ckContraRequiredForPerShard := nofun
  ckContraIsBalanceSheet := nofun
  ckPerShardIsBalanceSheet := nofun

/-- Nothing is posted yet, and the transaction with id 5 is in flight. -/
def unposted : Moment where
  book := Book.empty chart
  horizon := 5
  horizonIsXid8 := by decide
  counted := nofun
  xactIsXid8 := nofun
  pkAccounts := UniqueIndex.holds_nil _
  pkEntries := UniqueIndex.holds_nil _
  fkEntriesTxn := nofun
  dated := nofun

/-- What it writes. -/
def firstPosting : Writes where
  transactions := [⟨"shop", uuid 5100, uuid 5000, "posting", .posted, 1, none, none, 5⟩]
  entries := [
    ⟨"shop", uuid 5200, uuid 5100, fees, .debit, 100, "USD", 0, 1, 1, 5⟩,
    ⟨"shop", uuid 5201, uuid 5100, till, .credit, 100, "USD", 0, 1, 1, 5⟩]

/-- It has committed. -/
def posted : Moment where
  book := (Book.empty chart).apply firstPosting
  horizon := 5
  horizonIsXid8 := by decide
  counted := by decide
  xactIsXid8 := by decide
  pkAccounts := UniqueIndex.holds_nil _
  pkEntries := by
    unfold UniqueIndex.Holds
    decide
  fkEntriesTxn := by decide
  dated := by decide

def wholeYear (cursor : Option String) : TrialBalanceQuery :=
  ⟨"shop", ⟨0, 0⟩, ⟨31536000000000000, 0⟩, cursor⟩

theorem later_posted : Moment.Later unposted posted :=
  .single (.commit firstPosting rfl rfl (by decide))

/-- The horizon of an empty book is handed out. -/
theorem horizon_handed_out :
    Served unpresented timestamptzIn unposted
      ((ReadCall.cursor ⟨"shop"⟩).reading fun _ => none) unposted (.ok (5 : Cursor)) :=
  .ask .refl (Or.inl rfl) (.done _ _)

/-- Sent back once the first entry is there, it is refused. -/
theorem handed_out_horizon_refused :
    Moment.Later unposted posted ∧
      Served unpresented timestamptzIn unposted
        ((ReadCall.cursor ⟨"shop"⟩).reading fun _ => none) unposted (.ok (5 : Cursor)) ∧
      Served unpresented timestamptzIn posted
        ((Report.trialBalance (wholeYear (some "5"))).reading fun _ => none) posted
        (.error (.cursorInvalid ("cursor 5 is at or below the oldest entry on this book (5); " ++
          "a report is filtered xact_id < cursor, so this admits nothing and would answer an " ++
          "all-zero, perfectly balanced book"))) :=
  ⟨later_posted, horizon_handed_out, .ask .refl (Or.inl rfl) (.done _ _)⟩

/-- The law at that answer. -/
theorem handed_out_horizon_comes_back :
    ∃ pinned, Moment.Later unposted pinned ∧ Moment.Later pinned unposted ∧
      ∀ again : Report, again.tenantId = "shop" → again.isSound (fun _ => none) = true →
        ∀ (begun ended : Moment) (result : Except ReadError (again.sending "5").Answer),
          Moment.Later unposted begun →
          Served unpresented timestamptzIn begun
            ((again.sending "5").reading fun _ => none) ended result →
          (∃ error : ReadError, result = .error error ∧ error.isOutage = true) ∨
            ∃ asked, Moment.Later begun asked ∧ Moment.Later asked ended ∧
              (isBlamed result = false ↔
                pinned.HasEntryBelow "shop" (5 : Cursor) ∨ asked.IsEmptyFor "shop") :=
  (pinned_cursor_comes_back (.cursor ⟨"shop"⟩) horizon_handed_out).1

end Shop

end OpenLedger
