import OpenLedger.Reports.Service

/-!
# Reading while the book grows

A report is served over a run of moments: the bounds are read at one of them and
the statement at a later one.  One rule a step says what a use-case ends with
whatever happens in between.
-/

namespace OpenLedger

variable {presentation : Presentation} {timestamptz : String → Except NotATimestamp Timestamp}
  {parseUuid : String → Option Uuid} {α β : Type}

/-- Whether an error is the backend's own: it timed out or failed. -/
def ReadError.isOutage : ReadError → Bool
  | reportTimedOut => true
  | storage _ => true
  | _ => false

/-- A use-case served while the book moves on. -/
def Served (presentation : Presentation) (timestamptz : String → Except NotATimestamp Timestamp)
    (start : Moment) (reading : Reading α) (finish : Moment) (result : Except ReadError α) :
    Prop :=
  Program.HeldOver Moment.Later (MayAnswer presentation timestamptz) start reading.run finish
    result

/-- Every way of being served from `start` ends as `final` says. -/
def Ends (presentation : Presentation) (timestamptz : String → Except NotATimestamp Timestamp)
    (reading : Reading α) (final : Except ReadError α → Moment → Prop) (start : Moment) : Prop :=
  Program.Upholds (fun _ _ => True)
    (fun before request reply after =>
      Moment.Later before after ∧ MayAnswer presentation timestamptz after request reply)
    final reading.run start

theorem Ends.served {reading : Reading α} {final : Except ReadError α → Moment → Prop}
    {start finish : Moment} {result : Except ReadError α}
    (ends : Ends presentation timestamptz reading final start)
    (served : Served presentation timestamptz start reading finish result) :
    final result finish :=
  Program.HeldOver.upheld served ends

/-- The rule of a request: the store answers, refuses, or is out. -/
theorem ends_askStore {request : ReadRequest} {next : Scoped request.Answer → Reading α}
    {final : Except ReadError α → Moment → Prop} {start : Moment}
    (answers : ∀ here, Moment.Later start here → ∀ inScope,
      storeAnswer presentation timestamptz here request = .ok inScope →
        Ends presentation timestamptz (next inScope) final here)
    (refuses : ∀ here, Moment.Later start here → ∀ refusal,
      storeAnswer presentation timestamptz here request = .error refusal →
        final (.error (refused refusal)) here)
    (outage : ∀ here, Moment.Later start here → ∀ error : ReadError, error.isOutage = true →
      final (.error error) here) :
    Ends presentation timestamptz (askStore request >>= next) final start := by
  unfold Ends
  rw [run_askStore_bind]
  refine ⟨trivial, fun reply here ⟨moved, replied⟩ => ?_⟩
  rcases replied with isAnswer | isTimeout | ⟨failure, isFailure⟩
  · cases reply with
    | ok inScope =>
        exact answers here moved inScope isAnswer.symm
    | error refusal =>
        exact refuses here moved refusal isAnswer.symm
  · subst isTimeout
    exact outage here moved _ rfl
  · subst isFailure
    exact outage here moved _ rfl

/-- The rule of a judgement. -/
theorem ends_judge {judged : Except ReadError β} {next : β → Reading α}
    {final : Except ReadError α → Moment → Prop} {start : Moment}
    (passes : ∀ answer, judged = .ok answer →
      Ends presentation timestamptz (next answer) final start)
    (fails : ∀ error, judged = .error error → final (.error error) start) :
    Ends presentation timestamptz (judge judged >>= next) final start := by
  unfold Ends
  rw [run_judge_bind]
  cases judged with
  | ok answer =>
      exact passes answer rfl
  | error error =>
      exact fails error rfl

theorem ends_pure {answer : α} {final : Except ReadError α → Moment → Prop} {start : Moment}
    (holds : final (.ok answer) start) :
    Ends presentation timestamptz (pure answer) final start := holds

theorem ends_judged {judged : Except ReadError α}
    {final : Except ReadError α → Moment → Prop} {start : Moment} (holds : final judged start) :
    Ends presentation timestamptz (judge judged) final start := holds

/-- The bounds are the moment's own, or the backend was out. -/
theorem ends_bounds {tenantId : String} {next : ReadBounds → Reading α}
    {final : Except ReadError α → Moment → Prop} {start : Moment}
    (continues : ∀ here, Moment.Later start here →
      Ends presentation timestamptz (next (here.bounds presentation tenantId)) final here)
    (outage : ∀ here, Moment.Later start here → ∀ error : ReadError, error.isOutage = true →
      final (.error error) here) :
    Ends presentation timestamptz (boundsForTheBook tenantId >>= next) final start := by
  rw [boundsForTheBook, bind_assoc]
  refine ends_askStore (fun here moved inScope answered => ?_) (fun here moved refusal fails => ?_)
    outage
  · have isBounds : inScope = ⟨tenantId, here.bounds presentation tenantId⟩ := by
      rw [storeAnswer, readBoundsAt_eq] at answered
      exact (Except.ok.inj answered).symm
    subst isBounds
    refine ends_judge (fun bounds isAnswer => ?_) (fun error isError => ?_)
    · have same : Except.ok (here.bounds presentation tenantId) = Except.ok bounds :=
        (answered_sameTenant tenantId _).symm.trans isAnswer
      rw [← Except.ok.inj same]
      exact continues here moved
    · have same : Except.ok (here.bounds presentation tenantId) = Except.error error :=
        (answered_sameTenant tenantId _).symm.trans isError
      cases same
  · rw [storeAnswer, readBoundsAt_eq] at fails
    cases fails

section Serving

/-- A request the store answers goes on with its answer. -/
theorem serves_askStore {request : ReadRequest} {next : Scoped request.Answer → Reading α}
    {start finish : Moment} {inScope : Scoped request.Answer} {result : Except ReadError α}
    (answered : storeAnswer presentation timestamptz start request = .ok inScope)
    (continues : Served presentation timestamptz start (next inScope) finish result) :
    Served presentation timestamptz start (askStore request >>= next) finish result := by
  unfold Served
  rw [run_askStore_bind]
  exact .ask .refl (Or.inl answered.symm) continues

theorem serves_judge {judged : Except ReadError β} {next : β → Reading α}
    {answer : β} {start finish : Moment} {result : Except ReadError α}
    (passes : judged = .ok answer)
    (continues : Served presentation timestamptz start (next answer) finish result) :
    Served presentation timestamptz start (judge judged >>= next) finish result := by
  unfold Served
  rw [run_judge_bind, passes]
  exact continues

theorem serves_bounds {tenantId : String} {next : ReadBounds → Reading α}
    {start finish : Moment} {result : Except ReadError α}
    (continues : Served presentation timestamptz start
      (next (start.bounds presentation tenantId)) finish result) :
    Served presentation timestamptz start (boundsForTheBook tenantId >>= next) finish result := by
  have bounds : storeAnswer presentation timestamptz start (.readBounds tenantId) =
      .ok ⟨tenantId, start.bounds presentation tenantId⟩ := by
    rw [storeAnswer, readBoundsAt_eq]
    rfl
  rw [boundsForTheBook, bind_assoc]
  refine serves_askStore bounds ?_
  exact serves_judge (answered_sameTenant tenantId _) continues

end Serving

section Reports

/-- An outage blames nobody. -/
theorem blames_of_outage {error : ReadError} (isOutage : error.isOutage = true) :
    error.blamesTheRequest = false := by
  cases error with
  | reportTimedOut =>
      rfl
  | storage failure =>
      rfl
  | _ =>
      cases isOutage

/-- Answered at a cursor, or refused for something else. -/
def PinnedBy (cursor : Cursor) (pinnedCursor : β → Cursor) : Except ReadError β → Prop
  | .ok answer => pinnedCursor answer = cursor
  | .error error => error.blamesTheRequest = false

/-- What the cursor rule judges of a supplied cursor, at the moment the bounds
were read, is what the report answers. -/
def JudgedAt (presentation : Presentation) (start : Moment) (tenantId : String)
    (supplied : Option String) (pinnedCursor : β → Cursor) (result : Except ReadError β)
    (finish : Moment) : Prop :=
  (∃ error : ReadError, result = .error error ∧ error.isOutage = true) ∨
    ∃ here, Moment.Later start here ∧ Moment.Later here finish ∧
      match pinTheCursorOrRefuseAnImplausibleOne supplied (here.bounds presentation tenantId) with
      | .error error => result = .error error
      | .ok cursor => PinnedBy cursor pinnedCursor result

/-- The bounds, the rule, and whatever is asked at the pinned cursor. -/
theorem ends_pinned {tenantId : String} {supplied : Option String}
    {pinnedCursor : β → Cursor} {rest : ReadBounds → Cursor → Reading β} {start : Moment}
    (asks : ∀ bounds cursor here, Ends presentation timestamptz (rest bounds cursor)
      (fun result _ => PinnedBy cursor pinnedCursor result) here) :
    Ends presentation timestamptz
      (boundsForTheBook tenantId >>= fun bounds =>
        judge (pinTheCursorOrRefuseAnImplausibleOne supplied bounds) >>= rest bounds)
      (JudgedAt presentation start tenantId supplied pinnedCursor) start := by
  refine ends_bounds (fun here moved => ?_) fun here _ error isOutage =>
    Or.inl ⟨error, rfl, isOutage⟩
  refine ends_judge (fun cursor accepted => ?_) (fun error refuses => ?_)
  · have asked := asks (here.bounds presentation tenantId) cursor here
    have onwards := Program.upholds_forward (fun moment => .refl) (fun early late => early.trans late)
      asked
    refine Program.upholds_mono (fun result finish both => ?_) onwards
    refine Or.inr ⟨here, moved, both.1, ?_⟩
    rw [accepted]
    exact both.2
  · refine Or.inr ⟨here, moved, .refl, ?_⟩
    rw [refuses]

/-- What the statement functions raise is about the chart. -/
theorem errcode_of_resolveVersion {version : Option Int} {raised : Raised}
    (raises : resolveVersion presentation version = .error raised) :
    raised.errcode = checkViolation := by
  unfold resolveVersion at raises
  split at raises
  · cases raises
    rfl
  · split at raises
    · cases raises
    · cases raises
      rfl

theorem errcode_of_balanceSheetAt {book : Book} {tenantId : String} {asOf : ReportInstant}
    {cursor : Xid} {version : Option Int} {raised : Raised}
    (raises : balanceSheetAt presentation book tenantId asOf cursor version = .error raised) :
    raised.errcode = checkViolation := by
  unfold balanceSheetAt at raises
  split at raises
  · rename_i unresolved
    cases raises
    exact errcode_of_resolveVersion unresolved
  · split at raises
    · cases raises
      rfl
    · cases raises

theorem errcode_of_incomeStatementFor {book : Book} {tenantId : String}
    {fromAt toAt : ReportInstant} {cursor : Xid} {version : Option Int} {raised : Raised}
    (raises : incomeStatementFor presentation book tenantId fromAt toAt cursor version =
      .error raised) : raised.errcode = checkViolation := by
  unfold incomeStatementFor at raises
  split at raises
  · rename_i unresolved
    cases raises
    exact errcode_of_resolveVersion unresolved
  · split at raises
    · cases raises
      rfl
    · cases raises

theorem harmless_of_faceOrRefusal {answered : Except Raised (List StatementRow)}
    (aboutTheChart : ∀ raised, answered = .error raised → raised.errcode = checkViolation)
    {refusal : ReportRefusal} (fails : faceOrRefusal answered = .error refusal) :
    (refused refusal).blamesTheRequest = false := by
  cases answered with
  | ok rows =>
      cases fails
  | error raised =>
      have isCheck := aboutTheChart raised rfl
      cases fails
      rw [OpenLedger.refusal, isCheck, if_neg (by decide), if_pos rfl]
      split <;> rfl

/-- Where a sequence of steps failed. -/
theorem failed_of_bind {ε γ : Type} {first : Except ε β} {next : β → Except ε γ} {failure : ε}
    (fails : (first >>= next) = .error failure) :
    first = .error failure ∨ ∃ answer, first = .ok answer ∧ next answer = .error failure := by
  cases first with
  | error failed =>
      cases fails
      exact Or.inl rfl
  | ok answer =>
      exact Or.inr ⟨answer, rfl, fails⟩

/-- Where a sequence of steps answered. -/
theorem answered_of_bind {ε γ : Type} {first : Except ε β} {next : β → Except ε γ} {answer : γ}
    (answers : (first >>= next) = .ok answer) :
    ∃ found, first = .ok found ∧ next found = .ok answer := by
  cases first with
  | error failure =>
      cases answers
  | ok found =>
      exact ⟨found, rfl, answers⟩

/-- A step of a page that fails is a storage failure. -/
theorem storage_of_cursorFrom {column text : String} {refusal : ReportRefusal}
    (fails : cursorFrom column text = .error refusal) :
    ∃ failure, refusal = .storage failure := by
  unfold cursorFrom at fails
  split at fails
  · cases fails
  · cases fails
    exact ⟨_, rfl⟩

theorem storage_of_asBoundInstant {instant : Option OffsetDateTime}
    {whenUnbounded : String} {refusal : ReportRefusal}
    (fails : asBoundInstant instant whenUnbounded = .error refusal) :
    ∃ failure, refusal = .storage failure := by
  unfold asBoundInstant at fails
  split at fails
  · cases fails
  · split at fails
    · cases fails
      exact ⟨_, rfl⟩
    · cases fails

/-- A text that is no `timestamptz` fails the statement. -/
theorem refusal_raised (unread : NotATimestamp) :
    refusal unread.raised.errcode unread.raised.message =
      .storage (.backend unread.raised.errcode unread.raised.message) := by
  cases unread <;> rfl

theorem storage_of_castBound {text : String} {refused : ReportRefusal}
    (fails : castBound timestamptz text = .error refused) :
    ∃ failure, refused = .storage failure := by
  unfold castBound at fails
  split at fails
  · cases fails
  · split at fails
    · cases fails
    · split at fails
      · cases fails
      · rename_i unread _
        rw [refusal_raised] at fails
        exact ⟨_, (Except.error.inj fails).symm⟩

theorem storage_of_statementEntryFrom {row : AccountStatementSqlRow} {refusal : ReportRefusal}
    (fails : statementEntryFrom row = .error refusal) :
    ∃ failure, refusal = .storage failure := by
  unfold statementEntryFrom at fails
  split at fails
  · rcases failed_of_bind fails with unread | ⟨xactId, _, returns⟩
    · exact storage_of_cursorFrom unread
    · cases returns
  · cases fails

theorem storage_of_mapM {rows : List AccountStatementSqlRow} {refusal : ReportRefusal}
    (fails : rows.mapM statementEntryFrom = .error refusal) :
    ∃ failure, refusal = .storage failure := by
  induction rows with
  | nil =>
      cases fails
  | cons row rest inductionHypothesis =>
      rw [List.mapM_cons] at fails
      rcases failed_of_bind fails with first | ⟨entry, _, others⟩
      · exact storage_of_statementEntryFrom first
      · rcases failed_of_bind others with later | ⟨entries, _, returns⟩
        · exact inductionHypothesis later
        · cases returns

theorem storage_of_statementPageFrom {rows : List AccountStatementSqlRow}
    {refusal : ReportRefusal} (fails : statementPageFrom rows = .error refusal) :
    ∃ failure, refusal = .storage failure := by
  unfold statementPageFrom at fails
  split at fails
  · cases fails
  · rcases failed_of_bind fails with mapped | ⟨entries, _, returns⟩
    · exact storage_of_mapM mapped
    · cases returns

theorem storage_of_accountStatementAt {book : Book} {read : AccountStatementRead}
    {refusal : ReportRefusal}
    (fails : accountStatementAt timestamptz book read = .error refusal) :
    ∃ failure, refusal = .storage failure := by
  unfold accountStatementAt at fails
  split at fails
  · exact storage_of_statementPageFrom fails
  · rcases failed_of_bind fails with lower | ⟨fromText, _, fails⟩
    · exact storage_of_asBoundInstant lower
    · rcases failed_of_bind fails with upper | ⟨toText, _, fails⟩
      · exact storage_of_asBoundInstant upper
      · rcases failed_of_bind fails with key | ⟨afterText, _, fails⟩
        · exact storage_of_asBoundInstant key
        · rcases failed_of_bind fails with lower | ⟨effectiveFrom, _, fails⟩
          · exact storage_of_castBound lower
          · rcases failed_of_bind fails with upper | ⟨effectiveTo, _, fails⟩
            · exact storage_of_castBound upper
            · rcases failed_of_bind fails with key | ⟨afterEffective, _, fails⟩
              · exact storage_of_castBound key
              · exact storage_of_statementPageFrom fails

theorem harmless_of_map {request : Type} {tenantId : String}
    {answered : Except ReportRefusal request} {refusal : ReportRefusal}
    (fails : answered.map (Scoped.mk tenantId) = .error refusal) : answered = .error refusal := by
  cases answered with
  | ok answer =>
      cases fails
  | error failed =>
      cases fails
      rfl

/-- No statement's refusal blames the request. -/
theorem harmless_of_storeAnswer {here : Moment} {request : ReadRequest}
    {refusal : ReportRefusal}
    (fails : storeAnswer presentation timestamptz here request = .error refusal) :
    (refused refusal).blamesTheRequest = false := by
  cases request with
  | reportCursor tenantId =>
      obtain ⟨failure, rfl⟩ := storage_of_cursorFrom (harmless_of_map fails)
      rfl
  | readBounds tenantId =>
      rw [storeAnswer, readBoundsAt_eq] at fails
      cases fails
  | trialBalance read =>
      cases fails
  | balanceSheet read =>
      exact harmless_of_faceOrRefusal (fun _ => errcode_of_balanceSheetAt) (harmless_of_map fails)
  | incomeStatement read =>
      exact harmless_of_faceOrRefusal (fun _ => errcode_of_incomeStatementFor)
        (harmless_of_map fails)
  | accountStatement read =>
      obtain ⟨failure, rfl⟩ := storage_of_accountStatementAt (harmless_of_map fails)
      rfl

/-- The tenant a request is scoped to. -/
def ReadRequest.tenantId : ReadRequest → String
  | reportCursor tenantId => tenantId
  | readBounds tenantId => tenantId
  | trialBalance read => read.tenantId
  | balanceSheet read => read.tenantId
  | incomeStatement read => read.tenantId
  | accountStatement read => read.tenantId

/-- Every answer comes back under the tenant that asked. -/
theorem scope_of_storeAnswer {here : Moment} {request : ReadRequest}
    {inScope : Scoped request.Answer}
    (answered : storeAnswer presentation timestamptz here request = .ok inScope) :
    inScope.tenantId = request.tenantId := by
  have scope_of_map : ∀ {γ : Type} {tenantId : String} {found : Except ReportRefusal γ}
      {inScope : Scoped γ}, found.map (Scoped.mk tenantId) = .ok inScope →
        inScope.tenantId = tenantId := by
    intro γ tenantId found inScope mapped
    cases found with
    | ok answer =>
        cases mapped
        rfl
    | error failed =>
        cases mapped
  cases request with
  | trialBalance read =>
      cases answered
      rfl
  | _ =>
      exact scope_of_map answered

/-- One statement and what is made of its rows. -/
theorem ends_statement {request : ReadRequest} {tenantId : String} {cursor : Cursor}
    {pinnedCursor : β → Cursor} {last : request.Answer → Reading β} {start : Moment}
    (sameTenant : request.tenantId = tenantId)
    (answers : ∀ rows here, Ends presentation timestamptz (last rows)
      (fun result _ => PinnedBy cursor pinnedCursor result) here) :
    Ends presentation timestamptz
      (askStore request >>= fun inScope =>
        judge (answeredForTheTenantThatAsked tenantId inScope) >>= last)
      (fun result _ => PinnedBy cursor pinnedCursor result) start := by
  refine ends_askStore (fun here _ inScope answered => ?_)
    (fun here _ refusal fails => harmless_of_storeAnswer fails)
    fun here _ error isOutage => blames_of_outage isOutage
  have isTenant := (scope_of_storeAnswer answered).trans sameTenant
  refine ends_judge (fun rows _ => answers rows here) (fun error fails => ?_)
  rw [answeredForTheTenantThatAsked, if_pos isTenant] at fails
  cases fails

end Reports

end OpenLedger
