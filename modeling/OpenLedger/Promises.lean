import OpenLedger.Runs

/-!
# What an answer promises

The use-cases over a port that may reply anything.  Each opens at most one
bracket and ends it at most once; an answer that is no replay comes after the
commit, a refusal of the book's comes after the rollback, and the refusals that
can be known before the claim leave the key unclaimed.
-/

namespace OpenLedger

open Program

/-- A request beside the reply it met. -/
abbrev Exchanged := Exchange Request Request.Reply

/-- A checkpoint that ran. -/
def Exchanged.isCheckpointed : Exchanged → Bool
  | ⟨.checkpointTheClose .., .ok _⟩ => true
  | _ => false

/-- The exchanges of a bracket that is still open. -/
def Opened (exchanges : List Exchanged) : Prop :=
  ∃ statements, exchanges = ⟨.begin, .ok ()⟩ :: statements ∧
    ∀ exchange ∈ statements, exchange.1.isStatement = true

/-- No bracket is ended twice. -/
def EndedOnce (exchanges : List Exchanged) : Prop :=
  ∀ before reply after, exchanges = before ++ ⟨.begin, reply⟩ :: after →
    (after.filter fun exchange => exchange.1.isEnd).length ≤ 1

/-- How one use-case reads its own answers: which values are no replay, whether
they need a checkpoint, which refusal is the storage's, and which refusals are
decided before the claim. -/
structure Word (ε α : Type) where
  storage : StorageError → ε
  isStorage : ε → Bool
  isEarly : ε → Bool
  isFresh : α → Bool
  needsCheckpoint : Bool
  isStorage_storage : ∀ failure, isStorage (storage failure) = true
  isEarly_storage : ∀ failure, isEarly (storage failure) = false

/-- What an answer says of the exchanges behind it. -/
structure Word.Kept {ε α : Type} (word : Word ε α) (answer : Except ε α)
    (exchanges : List Exchanged) : Prop where
  endedOnce : EndedOnce exchanges
  committed : ∀ value, answer = .ok value → word.isFresh value = true →
    ∃ during, Opened during ∧ exchanges = during ++ [⟨.commit, .ok ()⟩] ∧
      (word.needsCheckpoint = true → ∃ exchange ∈ during, exchange.isCheckpointed = true)
  undone : ∀ refusal, answer = .error refusal → word.isStorage refusal = false →
    exchanges = [] ∨ ∃ during, Opened during ∧ exchanges = during ++ [⟨.rollback, .ok ()⟩]
  unclaimed : ∀ refusal, answer = .error refusal → word.isEarly refusal = true →
    ∀ exchange ∈ exchanges, exchange.1.isClaim = false

section Brackets

variable {before : List Exchanged}

theorem opened_begin : Opened [⟨.begin, .ok ()⟩] :=
  ⟨[], rfl, fun _ member => absurd member List.not_mem_nil⟩

theorem Opened.append (opened : Opened before) {exchange : Exchanged}
    (isStatement : exchange.1.isStatement = true) : Opened (before ++ [exchange]) := by
  obtain ⟨statements, rfl, only⟩ := opened
  refine ⟨statements ++ [exchange], rfl, fun other member => ?_⟩
  rcases List.mem_append.mp member with isOld | isNew
  · exact only other isOld
  · obtain rfl := List.mem_singleton.mp isNew
    exact isStatement

theorem Request.not_isEnd_of_isStatement {request : Request}
    (isStatement : request.isStatement = true) : request.isEnd = false := by
  cases request with
  | commit => cases isStatement
  | rollback => cases isStatement
  | _ => rfl

theorem endedOnce_of_length {exchanges : List Exchanged}
    (few : (exchanges.filter fun exchange => exchange.1.isEnd).length ≤ 1) :
    EndedOnce exchanges := by
  rintro before reply after rfl
  have inside : (after.filter fun exchange => exchange.1.isEnd).Sublist
      ((before ++ ⟨.begin, reply⟩ :: after).filter fun exchange => exchange.1.isEnd) :=
    ((List.sublist_cons_self _ _).trans (List.sublist_append_right _ _)).filter _
  exact inside.length_le.trans few

theorem Opened.no_end (opened : Opened before) :
    before.filter (fun exchange => exchange.1.isEnd) = [] := by
  obtain ⟨statements, rfl, only⟩ := opened
  rw [List.filter_eq_nil_iff]
  intro exchange member
  rcases List.mem_cons.mp member with rfl | isStatement
  · exact Bool.false_ne_true
  · rw [Request.not_isEnd_of_isStatement (only exchange isStatement)]
    exact Bool.false_ne_true

theorem Opened.endedOnce (opened : Opened before) (exchange : Exchanged) :
    EndedOnce (before ++ [exchange]) := by
  refine endedOnce_of_length ?_
  rw [List.filter_append, opened.no_end, List.nil_append]
  exact List.length_filter_le _ _

end Brackets

section Rules

/-- One request of a use-case: a failure ends it, an answer goes on. -/
theorem says_request {ε α : Type} {final : Except ε α → List Exchanged → Prop}
    {before : List Exchanged} (storage : StorageError → ε) (request : Request)
    {next : request.Answer → UseCase ε α}
    (failed : ∀ failure, final (.error (storage failure))
      (before ++ [⟨request, .error failure⟩]))
    (continues : ∀ answer, (next answer).run.Says final (before ++ [⟨request, .ok answer⟩])) :
    (ask storage request >>= next).run.Says final before := by
  rw [run_ask_bind]
  refine Program.says_ask fun reply => ?_
  cases reply with
  | error failure =>
      exact failed failure
  | ok answer =>
      exact continues answer

variable {ε α : Type} (word : Word ε α) {before : List Exchanged}

/-- A failure of the storage promises nothing but that the bracket was ended at
most once. -/
theorem Word.kept_failed (failure : StorageError) {exchanges : List Exchanged}
    (endedOnce : EndedOnce exchanges) :
    word.Kept (.error (word.storage failure)) exchanges := by
  refine ⟨endedOnce, nofun, ?_, ?_⟩
  · rintro _ ⟨⟩ notStorage
    rw [word.isStorage_storage] at notStorage
    cases notStorage
  · rintro _ ⟨⟩ isEarly
    rw [word.isEarly_storage] at isEarly
    cases isEarly

/-- A failed request keeps its word where the bracket was ended at most once. -/
theorem Word.says_ask (request : Request) {next : request.Answer → UseCase ε α}
    (endedOnce : ∀ reply, EndedOnce (before ++ [⟨request, reply⟩]))
    (continues : ∀ answer, (next answer).run.Says word.Kept
      (before ++ [⟨request, .ok answer⟩])) :
    (ask word.storage request >>= next).run.Says word.Kept before :=
  says_request word.storage request (fun failure => word.kept_failed failure (endedOnce _))
    continues

theorem Word.says_begin {next : Request.begin.Answer → UseCase ε α}
    (continues : ∀ answer, (next answer).run.Says word.Kept [⟨.begin, .ok ()⟩]) :
    (ask word.storage .begin >>= next).run.Says word.Kept [] :=
  word.says_ask .begin (fun _ => endedOnce_of_length (Nat.zero_le 1)) continues

/-- A statement of an open bracket. -/
theorem Word.says_statement (opened : Opened before) (request : Request)
    (isStatement : request.isStatement = true) {next : request.Answer → UseCase ε α}
    (continues : ∀ answer, Opened (before ++ [⟨request, .ok answer⟩]) →
      (next answer).run.Says word.Kept (before ++ [⟨request, .ok answer⟩])) :
    (ask word.storage request >>= next).run.Says word.Kept before :=
  word.says_ask request (fun _ => opened.endedOnce _) fun answer =>
    continues answer (opened.append isStatement)

/-- A refusal before any bracket. -/
theorem Word.says_unasked (refusal : ε) :
    (refuse refusal : UseCase ε α).run.Says word.Kept [] :=
  ⟨endedOnce_of_length (Nat.zero_le 1), nofun,
    fun _ _ _ => Or.inl rfl, fun _ _ _ _ member => absurd member List.not_mem_nil⟩

/-- An answer after the rollback: a refusal, or a replay. -/
theorem Word.kept_rolledBack (opened : Opened before) {answer : Except ε α}
    (notFresh : ∀ value, answer = .ok value → word.isFresh value = false)
    (unclaimed : ∀ refusal, answer = .error refusal → word.isEarly refusal = true →
      ∀ exchange ∈ before, exchange.1.isClaim = false) :
    word.Kept answer (before ++ [⟨.rollback, .ok ()⟩]) := by
  refine ⟨opened.endedOnce _, fun value isOk isFresh => ?_,
    fun _ _ _ => Or.inr ⟨before, opened, rfl⟩, fun refusal isRefusal isEarly exchange member => ?_⟩
  · rw [notFresh value isOk] at isFresh
    cases isFresh
  · rcases List.mem_append.mp member with isBefore | isRollback
    · exact unclaimed refusal isRefusal isEarly exchange isBefore
    · obtain rfl := List.mem_singleton.mp isRollback
      rfl

/-- A refusal after the rollback, once the key may have been claimed. -/
theorem Word.kept_refused (opened : Opened before) {refusal : ε}
    (late : word.isEarly refusal = false) :
    word.Kept (.error refusal) (before ++ [⟨.rollback, .ok ()⟩]) := by
  refine word.kept_rolledBack opened nofun ?_
  rintro _ ⟨⟩ isEarly
  rw [late] at isEarly
  cases isEarly

/-- A replay after the rollback. -/
theorem Word.kept_replayed (opened : Opened before) {value : α}
    (notFresh : word.isFresh value = false) :
    word.Kept (.ok value) (before ++ [⟨.rollback, .ok ()⟩]) := by
  refine word.kept_rolledBack opened ?_ nofun
  rintro _ ⟨⟩
  exact notFresh

/-- Roll back, then refuse. -/
theorem Word.says_refused (opened : Opened before) (refusal : ε)
    (unclaimed : word.isEarly refusal = true →
      ∀ exchange ∈ before, exchange.1.isClaim = false) :
    (do ask word.storage .rollback; refuse refusal : UseCase ε α).run.Says word.Kept before := by
  refine word.says_ask .rollback (fun _ => opened.endedOnce _) fun _ =>
    word.kept_rolledBack opened (nofun) ?_
  rintro _ ⟨⟩
  exact unclaimed

/-- Commit, then answer. -/
theorem Word.says_committed (opened : Opened before) (value : α)
    (checkpointed : word.needsCheckpoint = true →
      ∃ exchange ∈ before, exchange.isCheckpointed = true) :
    (do ask word.storage .commit; return value : UseCase ε α).run.Says word.Kept before := by
  refine word.says_ask .commit (fun _ => opened.endedOnce _) fun _ => ?_
  refine ⟨opened.endedOnce _, fun _ _ _ => ⟨before, opened, rfl, checkpointed⟩, ?_, ?_⟩
  · rintro _ ⟨⟩
  · rintro _ ⟨⟩

end Rules

section UseCases

variable (sha256 : List UInt8 → List UInt8)

/-- What a post promises. -/
def postWord : Word WriteError Posted where
  storage := .storage
  isStorage
    | .storage _ => true
    | _ => false
  isEarly _ := false
  isFresh posted := !posted.replayed
  needsCheckpoint := false
  isStorage_storage _ := rfl
  isEarly_storage _ := rfl

/-- What opening an account promises. -/
def openAccountWord : Word OpenAccountError AccountOpened where
  storage := .storage
  isStorage
    | .storage _ => true
    | _ => false
  isEarly
    | .accountTypeUnknown _ => true
    | .accountOwnerMismatched _ _ => true
    | .accountTypeRequiresAnOwner _ => true
    | _ => false
  isFresh opened := !opened.replayed
  needsCheckpoint := false
  isStorage_storage _ := rfl
  isEarly_storage _ := rfl

/-- What defining a period promises. -/
def definePeriodWord : Word DefinePeriodError PeriodDefined where
  storage := .storage
  isStorage
    | .storage _ => true
    | _ => false
  isEarly _ := false
  isFresh defined := !defined.replayed
  needsCheckpoint := false
  isStorage_storage _ := rfl
  isEarly_storage _ := rfl

/-- What closing a period promises: a close is never replayed. -/
def closePeriodWord : Word ClosePeriodError PeriodClosed where
  storage := .storage
  isStorage
    | .storage _ => true
    | _ => false
  isEarly
    | .periodUnknown _ => true
    | .retainedEarningsUnknown _ => true
    | _ => false
  isFresh _ := true
  needsCheckpoint := true
  isStorage_storage _ := rfl
  isEarly_storage _ := rfl

theorem post_keeps (command : PostTransaction) :
    (post sha256 command).run.Says postWord.Kept [] := by
  unfold post
  cases planFor sha256 command with
  | error refusal =>
      exact postWord.says_unasked refusal
  | ok planned =>
      refine postWord.says_begin fun _ => ?_
      refine postWord.says_statement opened_begin _ rfl fun claimed opened => ?_
      cases claimed with
      | none =>
          refine postWord.says_statement opened _ rfl fun stored opened => ?_
          refine postWord.says_ask .rollback (fun _ => opened.endedOnce _) fun _ => ?_
          cases stored with
          | none =>
              exact postWord.kept_refused opened rfl
          | some stored =>
              exact postWord.kept_replayed opened rfl
      | some claimed =>
          cases claimed with
          | supersessionRefused refusal =>
              exact postWord.says_refused opened _ nofun
          | appended appended =>
              dsimp only
              split
              · exact postWord.says_committed opened _ nofun
              · unfold commitOrRefuseUnknownAccount
                split
                · exact postWord.says_refused opened _ nofun
                · split
                  · exact postWord.says_refused opened _ nofun
                  · exact postWord.says_committed opened _ nofun

theorem openAccount_keeps (command : OpenAccount) :
    (openAccount sha256 command).run.Says openAccountWord.Kept [] := by
  unfold openAccount
  refine openAccountWord.says_begin fun _ => ?_
  refine openAccountWord.says_statement opened_begin _ rfl fun triple read => ?_
  have unclaimed : ∀ exchange ∈ ([⟨.begin, .ok ()⟩] ++
      [⟨.chartTripleForPurpose command.purpose, .ok triple⟩] : List Exchanged),
      exchange.1.isClaim = false := by
    intro exchange member
    rcases List.mem_cons.mp member with rfl | isRead
    · rfl
    · obtain rfl := List.mem_singleton.mp isRead
      rfl
  cases triple with
  | none =>
      exact openAccountWord.says_refused read _ fun _ => unclaimed
  | some triple =>
      dsimp only
      split
      · exact openAccountWord.says_refused read _ fun _ => unclaimed
      · refine openAccountWord.says_statement read _ rfl fun claimed opened => ?_
        cases claimed with
        | some claimed =>
            cases claimed with
            | opened eventId account =>
                exact openAccountWord.says_committed opened _ nofun
            | alreadyExists =>
                exact openAccountWord.says_refused opened _ nofun
        | none =>
            refine openAccountWord.says_statement opened _ rfl fun stored opened => ?_
            refine openAccountWord.says_ask .rollback (fun _ => opened.endedOnce _) fun _ => ?_
            cases stored with
            | none =>
                exact openAccountWord.kept_refused opened rfl
            | some stored =>
                obtain ⟨eventId, account⟩ := stored
                cases account with
                | none =>
                    exact openAccountWord.kept_refused opened rfl
                | some account =>
                    exact openAccountWord.kept_replayed opened rfl

theorem definePeriod_keeps (command : DefinePeriod) :
    (definePeriod sha256 command).run.Says definePeriodWord.Kept [] := by
  unfold definePeriod
  split
  · exact definePeriodWord.says_unasked _
  · exact definePeriodWord.says_unasked _
  · refine definePeriodWord.says_begin fun _ => ?_
    refine definePeriodWord.says_statement opened_begin _ rfl fun claimed opened => ?_
    cases claimed with
    | some claimed =>
        cases claimed with
        | defined eventId period =>
            exact definePeriodWord.says_committed opened _ nofun
        | «exists» =>
            exact definePeriodWord.says_refused opened _ nofun
        | overlaps =>
            exact definePeriodWord.says_refused opened _ nofun
        | zoneUnknown =>
            exact definePeriodWord.says_refused opened _ nofun
    | none =>
        refine definePeriodWord.says_statement opened _ rfl fun stored opened => ?_
        refine definePeriodWord.says_ask .rollback (fun _ => opened.endedOnce _) fun _ => ?_
        cases stored with
        | none =>
            exact definePeriodWord.kept_refused opened rfl
        | some stored =>
            obtain ⟨eventId, period⟩ := stored
            cases period with
            | none =>
                exact definePeriodWord.kept_refused opened rfl
            | some period =>
                exact definePeriodWord.kept_replayed opened rfl

theorem closePeriod_keeps (command : ClosePeriod) :
    (closePeriod sha256 command).run.Says closePeriodWord.Kept [] := by
  unfold closePeriod
  refine closePeriodWord.says_begin fun _ => ?_
  refine closePeriodWord.says_statement opened_begin _ rfl fun context read => ?_
  have unclaimed : ∀ exchange ∈ ([⟨.begin, .ok ()⟩] ++
      [⟨.periodCloseContext command, .ok context⟩] : List Exchanged),
      exchange.1.isClaim = false := by
    intro exchange member
    rcases List.mem_cons.mp member with rfl | isRead
    · rfl
    · obtain rfl := List.mem_singleton.mp isRead
      rfl
  cases context with
  | none =>
      exact closePeriodWord.says_refused read _ fun _ => unclaimed
  | some context =>
      dsimp only
      split
      · exact closePeriodWord.says_refused read _ fun _ => unclaimed
      · split
        · exact closePeriodWord.says_refused read _ nofun
        · refine closePeriodWord.says_statement read _ rfl fun claimed opened => ?_
          cases claimed with
          | some claimed =>
              cases claimed with
              | closed eventId transactionId computedAtXid swept =>
                  refine closePeriodWord.says_statement opened _ rfl fun rows opened => ?_
                  refine closePeriodWord.says_committed opened _ fun _ => ?_
                  exact ⟨_, List.mem_append_right _ (List.mem_singleton_self _), rfl⟩
              | alreadyClosed =>
                  exact closePeriodWord.says_refused opened _ nofun
          | none =>
              refine closePeriodWord.says_statement opened _ rfl fun held opened => ?_
              refine closePeriodWord.says_ask .rollback (fun _ => opened.endedOnce _) fun _ => ?_
              split
              · exact closePeriodWord.kept_refused opened rfl
              · exact closePeriodWord.kept_refused opened rfl

/-- Whatever the port replies: no bracket is ended twice, an answer that is no
replay follows the commit, a close's its checkpoint too, a refusal that is not
the storage's follows the rollback, and an early one leaves the key alone. -/
theorem service_keeps_its_word :
    (∀ command exchanges answer, (post sha256 command).run.Converses exchanges answer →
      postWord.Kept answer exchanges) ∧
    (∀ command exchanges answer, (openAccount sha256 command).run.Converses exchanges answer →
      openAccountWord.Kept answer exchanges) ∧
    (∀ command exchanges answer, (definePeriod sha256 command).run.Converses exchanges answer →
      definePeriodWord.Kept answer exchanges) ∧
    ∀ command exchanges answer, (closePeriod sha256 command).run.Converses exchanges answer →
      closePeriodWord.Kept answer exchanges :=
  ⟨fun command _ _ => (post_keeps sha256 command).converses,
    fun command _ _ => (openAccount_keeps sha256 command).converses,
    fun command _ _ => (definePeriod_keeps sha256 command).converses,
    fun command _ _ => (closePeriod_keeps sha256 command).converses⟩

end UseCases

namespace Shop

/-- The first close over a port that lets it through. -/
def closeExchanges : List Exchanged :=
  let plan : ClosePlan := ⟨0, 1000000, retainedEarnings, 999999⟩
  [⟨.begin, .ok ()⟩,
    ⟨.periodCloseContext firstClose, .ok (some ⟨0, 1000000, some retainedEarnings⟩)⟩,
    ⟨.claimAndClosePeriod firstClose (firstClose.idempotencyHash id) firstClose.payload plan,
      .ok (some (.closed (uuid 10) (uuid 11) 7 []))⟩,
    ⟨.checkpointTheClose firstClose plan (uuid 11) 7, .ok (3 : Nat)⟩,
    ⟨.commit, .ok ()⟩]

def closingAnswer : PeriodClosed where
  eventId := uuid 10
  transactionId := uuid 11
  periodCode := "first"
  currency := "USD"
  effectiveAt := 999999
  computedAtXid := 7
  swept := []
  checkpointRows := 3

theorem close_keeps_its_word : closePeriodWord.Kept (.ok closingAnswer) closeExchanges :=
  (service_keeps_its_word id).2.2.2 firstClose closeExchanges (.ok closingAnswer)
    (.ask (.ask (.ask (.ask (.ask (.done _))))))

end Shop

end OpenLedger
