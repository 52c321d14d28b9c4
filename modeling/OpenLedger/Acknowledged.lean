import OpenLedger.Concluding
import OpenLedger.Postgres.Records

/-!
# What a caller is told was made

A first acceptance names the event and the transaction it made.  Whatever else
commits, its bracket leaves under that id what was asked for, and no transaction that
none of its callers is told of.
-/

namespace OpenLedger

open Postgres

/-- A first acceptance that made a transaction. -/
inductive Acknowledgement where
  | posted (command : PostTransaction) (eventId transactionId : Uuid)
  | closed (command : ClosePeriod) (answer : PeriodClosed)

namespace Acknowledgement

def tenantId : Acknowledgement → String
  | posted command _ _ => command.tenantId
  | closed command _ => command.tenantId

def eventId : Acknowledgement → Uuid
  | posted _ eventId _ => eventId
  | closed _ answer => answer.eventId

def transactionId : Acknowledgement → Uuid
  | posted _ _ transactionId => transactionId
  | closed _ answer => answer.transactionId

/-- The transaction row it stands for, over the book it was accepted in. -/
def row (env : Env) (book : Book) : Acknowledgement → TransactionRow
  | posted command eventId transactionId => recordedRow env book command eventId transactionId
  | closed command answer =>
    { tenantId := command.tenantId
      id := answer.transactionId
      eventId := answer.eventId
      kind := "period_close"
      status := .posted
      effectiveAt := answer.effectiveAt
      resolvesId := none
      reversesId := none
      xactId := answer.computedAtXid }

/-- The legs under it. -/
def legs (book : Book) : Acknowledgement → List Leg
  | posted command _ _ => recordedLegs book command
  | closed command answer =>
      match closePlan book command with
      | .ok plan => answer.swept.map (legOut command.currency) ++
          answer.swept.map (legIn command.currency plan.retainedEarnings)
      | .error _ => []

theorem tenantId_row (told : Acknowledgement) (env : Env) (book : Book) :
    (told.row env book).tenantId = told.tenantId := by
  cases told <;> rfl

theorem eventId_row (told : Acknowledgement) (env : Env) (book : Book) :
    (told.row env book).eventId = told.eventId := by
  cases told <;> rfl

theorem id_row (told : Acknowledgement) (env : Env) (book : Book) :
    (told.row env book).id = told.transactionId := by
  cases told <;> rfl

/-- What the row and the legs are made of is in the book. -/
def Grounded (book : Book) : Acknowledgement → Prop
  | posted command _ _ => ∀ id, supersededId command = some id →
      ∃ target, book.transaction? command.tenantId id = some target
  | closed command _ => ∃ plan, closePlan book command = .ok plan

/-- What it was told of is what was written. -/
structure RecordedIn (env : Env) (written : Writes) (book : Book) (told : Acknowledgement) :
    Prop where
  grounded : told.Grounded book
  records : written.Records (told.row env book) (told.legs book)

/-- A transaction row is the one it was told of. -/
def Names (told : Acknowledgement) (row : TransactionRow) : Prop :=
  told.tenantId = row.tenantId ∧ told.transactionId = row.id

end Acknowledgement

/-- What a post acknowledges. -/
def acknowledgedPost (command : PostTransaction) :
    Except WriteError Posted → Option Acknowledgement
  | .ok ⟨eventId, some transactionId, false⟩ => some (.posted command eventId transactionId)
  | _ => none

/-- What an operation's callers are told was made. -/
def Operation.acknowledgements : Operation → Outcome → List Acknowledgement
  | .post command, .posted answer => (acknowledgedPost command answer).toList
  | .postBatch commands, .postedBatch answers =>
      (commands.zip answers).filterMap fun told => acknowledgedPost told.1 told.2
  | .closePeriod command, .closed (.ok answer) => [.closed command answer]
  | _, _ => []

/-- What a bracket leaves is what its callers are told was made. -/
structure Acknowledges (env : Env) (told : List Acknowledgement) (written : Writes)
    (book : Book) : Prop where
  recorded : ∀ one ∈ told, one.RecordedIn env written book
  only : ∀ row ∈ written.transactions, ∃ one ∈ told, one.Names row

theorem acknowledgedPost_eq_some {command : PostTransaction} {answer : Except WriteError Posted}
    {told : Acknowledgement} (isTold : acknowledgedPost command answer = some told) :
    ∃ eventId transactionId, answer = .ok ⟨eventId, some transactionId, false⟩ ∧
      told = .posted command eventId transactionId := by
  unfold acknowledgedPost at isTold
  split at isTold
  · rename_i eventId transactionId
    exact ⟨eventId, transactionId, rfl, (Option.some.inj isTold).symm⟩
  · cases isTold

/-- Every acknowledgement is a first acceptance. -/
theorem accepted_of_acknowledged {operation : Operation} {outcome : Outcome}
    {told : Acknowledgement} (isTold : told ∈ operation.acknowledgements outcome) :
    Verdict.accepted told.eventId (.transaction (some told.transactionId)) false ∈
      outcome.verdicts := by
  unfold Operation.acknowledgements at isTold
  split at isTold
  · rw [Option.mem_toList] at isTold
    obtain ⟨eventId, transactionId, rfl, rfl⟩ := acknowledgedPost_eq_some isTold
    exact List.mem_singleton_self _
  · obtain ⟨⟨command, answer⟩, isPair, isOne⟩ := List.mem_filterMap.mp isTold
    obtain ⟨eventId, transactionId, rfl, rfl⟩ := acknowledgedPost_eq_some isOne
    exact List.mem_map_of_mem (f := Verdict.ofPosted) (List.of_mem_zip isPair).2
  · rw [List.mem_singleton.mp isTold]
    exact List.mem_singleton_self _
  · cases isTold

section Posting

variable {env : Env} (sha256 : List UInt8 → List UInt8)

theorem concludes_told_post (command : PostTransaction) {book : Book} (kept : Kept book) :
    Concludes env
      (fun answer => Acknowledges env (acknowledgedPost command answer).toList)
      (post sha256 command).run ⟨book, .none⟩ := by
  refine concludes_post sha256 command kept
    fun planned appended writes later isPlanned keptLater again known _ => ?_
  obtain ⟨_, _, _, isAppend⟩ := planFor_ok isPlanned
  obtain ⟨_, admitted, _⟩ := claimAndAppend_appended _ _ _ _ _ _ _ again
  obtain ⟨isTxn, records⟩ := claimAndAppend_records keptLater isAppend again known
  constructor
  · intro one isOne
    rw [List.mem_singleton.mp isOne]
    exact ⟨fun id named => found_of_admitted named admitted, records⟩
  · intro row isRow
    rw [isTxn] at isRow
    rw [List.mem_singleton.mp isRow]
    exact ⟨_, List.mem_singleton_self _, rfl, rfl⟩

end Posting

section Batching

variable {env : Env} {snapshot current : Book} {members : List BatchMember}

/-- A member's proceeding row is of the claim under its key. -/
theorem claim_of_proceeding {p : ProceedingRow}
    (proceeds : p ∈ proceeding env snapshot current members) {m : Nat × BatchMember}
    (isMember : m ∈ Numbering.withOrdinality members) (sameOrd : p.ord = m.1) :
    ∃ event, (claimed env snapshot current members).find? (fun event =>
      decide (event.tenantId = (memberRow m).tenantId) &&
        decide (event.idempotencyKey = (memberRow m).idempotencyKey)) = some event ∧
      p.eventId = event.id := by
  obtain ⟨other, isOther, event, found, rfl⟩ := mem_proceeding.mp proceeds
  obtain ⟨⟨ord, owner⟩, isOwner, rfl⟩ := List.mem_map.mp isOther
  obtain ⟨place, own⟩ := m
  have samePlace : ord = place := sameOrd
  subst samePlace
  rw [Numbering.withOrdinality_inj isMember isOwner]
  exact ⟨event, found, rfl⟩

/-- A member is answered an append just when its row proceeds. -/
theorem outcome_appended_iff
    (onePerEvent : UniqueIndex.Holds TransactionRow.eventKey
      (batchTxn env (proceeding env snapshot current members)))
    {m : Nat × BatchMember} (isMember : m ∈ Numbering.withOrdinality members)
    {outcome : MemberOutcome}
    (answered : outcomeForMember (answerRow env snapshot current members (memberRow m)) =
      .ok outcome) (eventId transactionId : Uuid) :
    outcome = .appended eventId transactionId ↔
      ∃ p ∈ proceeding env snapshot current members, p.ord = m.1 ∧ p.eventId = eventId ∧
        p.transactionId = transactionId := by
  have isRow : memberRow m ∈ member members := List.mem_map_of_mem isMember
  constructor
  · rintro rfl
    unfold outcomeForMember answerRow at answered
    dsimp only at answered
    split at answered
    · cases answered
    · split at answered
      · split at answered <;> cases answered
      · split at answered
        · cases answered
        · rename_i event isEvent
          split at answered
          · cases answered
          · rename_i transaction isTransaction
            obtain ⟨claim, isClaim, rfl⟩ := Option.map_eq_some_iff.mp isEvent
            obtain ⟨p, isHere, rfl⟩ := Option.map_eq_some_iff.mp isTransaction
            obtain ⟨proceeds, sameOrd⟩ := proceedingAt_eq_some_iff.mp isHere
            cases answered
            obtain ⟨event, found, isEvent⟩ := claim_of_proceeding proceeds isMember sameOrd
            rw [isClaim] at found
            rw [Option.some.inj found]
            exact ⟨p, proceeds, sameOrd, isEvent, rfl⟩
  · rintro ⟨p, proceeds, sameOrd, rfl, rfl⟩
    have gate := admissible_of_proceeding onePerEvent proceeds
    have here := proceedingAt_eq_some_iff.mpr ⟨proceeds, sameOrd⟩
    obtain ⟨event, found, isEvent⟩ := claim_of_proceeding proceeds isMember sameOrd
    have isOrd : (memberRow m).ord = m.1 := rfl
    rw [sameOrd, ← isOrd] at gate
    rw [← isOrd] at here
    unfold outcomeForMember answerRow keyHeldByAnEarlierWrite at answered
    simp only [found, gate, here, Option.map_some, Bool.not_true, Bool.false_and,
      Bool.false_eq_true, if_false] at answered
    rw [isEvent]
    exact (Except.ok.inj answered).symm

/-- An answer is a fresh one just when its member was appended. -/
theorem forall₂_told {ι : Type} {related : ι → MemberOutcome → Prop} {indices : List ι}
    {outcomes : List MemberOutcome} (each : List.Forall₂ related indices outcomes)
    (replayed : List (Option StoredResult)) :
    List.Forall₂ (fun index answer => ∃ outcome, related index outcome ∧
        ∀ eventId transactionId, answer = .ok ⟨eventId, some transactionId, false⟩ ↔
          outcome = .appended eventId transactionId)
      indices (answersForMembers outcomes replayed) := by
  induction each generalizing replayed with
  | nil =>
      exact .nil
  | @cons index outcome indices outcomes here _ inductionHypothesis =>
      cases outcome with
      | appended eventId transactionId =>
          exact .cons ⟨_, here, by simp⟩ (inductionHypothesis replayed)
      | accountUnknown accountId currency =>
          exact .cons ⟨_, here, by simp⟩ (inductionHypothesis replayed)
      | keyAlreadyClaimed =>
          rcases replayed with - | ⟨- | ⟨eventId, transactionId⟩, replayed⟩
          all_goals exact .cons ⟨_, here, by simp⟩ (inductionHypothesis _)

/-- A batch's callers are told of what its statement appended, and of nothing else. -/
theorem told_of_members (batchable : ∀ m ∈ members, Batchable m) {outcomes : List MemberOutcome}
    {writes : Writes}
    (answered : claimAndAppendBatch env snapshot current members = (.ok outcomes, writes))
    (replayed : List (Option StoredResult)) (book : Book) :
    List.Forall₂ (fun m answer => ∀ told, acknowledgedPost m.command answer = some told →
        told.RecordedIn env writes book) members (answersForMembers outcomes replayed) ∧
      ∀ row ∈ writes.transactions, ∃ m answer told,
        (m, answer) ∈ members.zip (answersForMembers outcomes replayed) ∧
          acknowledgedPost m.command answer = some told ∧ told.Names row := by
  obtain ⟨carried, allowed, mapped, isWrites⟩ := claimAndAppendBatch_answered answered
  have onePerEvent := ((violation_eq_none_iff ..).mp allowed).uqTxnOnePerEvent.1
  have each := forall₂_of_mapM_ok mapped
  rw [batchRows_eq, show member members = (Numbering.withOrdinality members).map memberRow
    from rfl, List.map_map, List.forall₂_map_left_iff] at each
  have told := forall₂_told (forall₂_with_mem each) replayed
  constructor
  · have onMembers : List.Forall₂ (fun (m : Nat × BatchMember) answer =>
        ∀ told, acknowledgedPost m.2.command answer = some told →
          told.RecordedIn env writes book) (Numbering.withOrdinality members)
        (answersForMembers outcomes replayed) := by
      refine told.imp fun m answer here one isOne => ?_
      obtain ⟨outcome, ⟨isThere, isOutcome⟩, fresh⟩ := here
      obtain ⟨eventId, transactionId, isAnswer, rfl⟩ := acknowledgedPost_eq_some isOne
      obtain ⟨p, proceeds, sameOrd, rfl, rfl⟩ := (outcome_appended_iff onePerEvent isThere
        isOutcome eventId transactionId).mp ((fresh _ _).mp isAnswer)
      have inMembers := Numbering.mem_of_mem_withOrdinality isThere
      obtain ⟨noResolution, noReversal, _⟩ := plain_of_carried carried inMembers
      refine ⟨fun id named => ?_,
        claimAndAppendBatch_records batchable answered proceeds (sameOrd ▸ isThere) book⟩
      rw [supersededId, noResolution, noReversal] at named
      cases named
    have ofMembers : List.Forall₂ (fun (m : BatchMember) answer =>
        ∀ told, acknowledgedPost m.command answer = some told → told.RecordedIn env writes book)
        ((Numbering.withOrdinality members).map Prod.snd) (answersForMembers outcomes replayed) :=
      List.forall₂_map_left_iff.mpr onMembers
    rw [Numbering.map_snd_withOrdinality] at ofMembers
    exact ofMembers
  · intro row isRow
    rw [isWrites] at isRow
    obtain ⟨p, proceeds, rfl⟩ := List.mem_map.mp isRow
    obtain ⟨m, isThere, tenant, _, _⟩ := member_of_proceeding proceeds
    obtain ⟨answer, isPair, outcome, ⟨_, isOutcome⟩, fresh⟩ := mem_zip_of_forall₂ told isThere
    have isAnswer := (fresh p.eventId p.transactionId).mpr
      ((outcome_appended_iff onePerEvent isThere isOutcome _ _).mpr ⟨p, proceeds, rfl, rfl, rfl⟩)
    have ofMembers := List.mem_map_of_mem (f := Prod.map Prod.snd id) isPair
    rw [← List.zip_map_left, Numbering.map_snd_withOrdinality] at ofMembers
    refine ⟨m, answer, .posted m.command p.eventId p.transactionId, ofMembers, ?_, tenant.symm, rfl⟩
    rw [isAnswer]
    rfl

end Batching

section Batches

variable {env : Env} (sha256 : List UInt8 → List UInt8) {commands : List PostTransaction}

/-- What the members were told, their callers are. -/
theorem acknowledges_arrival {answered : List (Except WriteError Posted)} {written : Writes}
    {book : Book}
    (each : List.Forall₂ (fun m answer => ∀ told, acknowledgedPost m.command answer = some told →
      told.RecordedIn env written book) (membersOf sha256 commands) answered)
    (only : ∀ row ∈ written.transactions, ∃ m answer told,
      (m, answer) ∈ (membersOf sha256 commands).zip answered ∧
        acknowledgedPost m.command answer = some told ∧ told.Names row) :
    Acknowledges env ((commands.zip (answersInArrivalOrder (commands.map (planFor sha256))
      answered)).filterMap fun told => acknowledgedPost told.1 told.2) written book := by
  constructor
  · intro one isOne
    obtain ⟨⟨command, answer⟩, isPair, isTold⟩ := List.mem_filterMap.mp isOne
    rcases (List.forall₂_iff_zip.mp (forall₂_arrival each)).2 isPair with
      ⟨refusal, _, rfl⟩ | ⟨planned, isPlanned, told⟩
    · cases isTold
    · obtain ⟨rfl, _⟩ := planFor_ok isPlanned
      exact told one isTold
  · intro row isRow
    obtain ⟨m, answer, told, isPair, isTold, names⟩ := only row isRow
    exact ⟨told, List.mem_filterMap.mpr ⟨_, mem_zip_arrival isPair, isTold⟩, names⟩

theorem concludes_told_together {book : Book} (kept : Kept book) :
    Concludes env (fun answers => Acknowledges env ((commands.zip answers).filterMap
        fun told => acknowledgedPost told.1 told.2))
      (postTogether sha256 commands) ⟨book, .none⟩ := by
  by_cases many : 2 ≤ (membersOf sha256 commands).length
  · rw [postTogether_of_many sha256 many]
    refine concludes_map (fun answer => answersInArrivalOrder (commands.map (planFor sha256))
      (answeredTogether (membersOf sha256 commands) answer)) (fun _ _ _ isFit => isFit)
      (concludes_appendTheBatch _ kept
        fun snapshot current outcomes writes later replayed _ answered => ?_)
    obtain ⟨carried, _⟩ := claimAndAppendBatch_answered answered
    obtain ⟨each, only⟩ :=
      told_of_members (batchable_of_membersOf carried) answered replayed later
    exact acknowledges_arrival sha256 each only
  · rcases members : membersOf sha256 commands with - | ⟨member, - | ⟨_, _⟩⟩
    · rw [postTogether_none sha256 members]
      exact concludes_done _ _
    · rw [postTogether_one sha256 members]
      refine concludes_map _ (fun answer written later told => ?_)
        (concludes_told_post sha256 member.command kept)
      refine acknowledges_arrival sha256 ?_ fun row isRow => ?_
      · rw [members]
        refine .cons (fun one isOne => told.recorded one ?_) .nil
        rw [isOne]
        exact List.mem_singleton_self one
      · obtain ⟨one, isOne, names⟩ := told.only row isRow
        rw [members]
        exact ⟨member, answer, one, List.mem_singleton_self _, Option.mem_toList.mp isOne, names⟩
    · rw [members] at many
      exact absurd (by simp) many

theorem concludes_told_postBatch {book : Book} (kept : Kept book) :
    Concludes env (fun answers => Acknowledges env ((commands.zip answers).filterMap
        fun told => acknowledgedPost told.1 told.2))
      (postBatch sha256 commands) ⟨book, .none⟩ := by
  rcases commands with - | ⟨only, - | ⟨second, rest⟩⟩
  · exact concludes_done _ _
  · refine concludes_map _ (fun answer written later told => ?_)
      (concludes_told_post sha256 only kept)
    have same : ([only].zip [answer]).filterMap (fun told => acknowledgedPost told.1 told.2) =
        (acknowledgedPost only answer).toList := by
      cases isTold : acknowledgedPost only answer <;> simp [isTold]
    rw [same]
    exact told
  · exact concludes_told_together sha256 kept

end Batches

section Closing

variable {env : Env} (sha256 : List UInt8 → List UInt8)

/-- What a close swept is what its caller is told it swept. -/
theorem concludes_told_close (command : ClosePeriod) {book : Book} (kept : Kept book) :
    Concludes env (fun answer => Acknowledges env
        ((Operation.closePeriod command).acknowledgements (.closed answer)))
      (closePeriod sha256 command).run ⟨book, .none⟩ := by
  refine concludes_closePeriod sha256 command kept
    fun snapshot current plan writes periodBalances checkpointRows later wrote _ planned => ?_
  have sameEntries : (writes.append { periodBalances }).entries = writes.entries :=
    List.append_nil _
  have sameRows : (writes.append { periodBalances }).transactions = writes.transactions :=
    List.append_nil _
  constructor
  · intro one isOne
    rw [List.mem_singleton.mp isOne]
    refine ⟨⟨plan, planned⟩, ?_, ?_, ?_⟩
    · rw [sameRows]
      exact wrote.closing_mem
    · rw [sameEntries]
      have allOwn : writes.entries.filter (fun e => e.isOf command.tenantId (env.transactionId 0)) =
          writes.entries := by
        refine List.filter_eq_self.mpr fun e member => ?_
        have belongs := wrote.belongs member
        exact EntryRow.isOf_iff.mpr ⟨belongs.tenant.symm, belongs.id.symm⟩
      change ((writes.entries.filter _).map EntryRow.leg).Perm _
      rw [Acknowledgement.legs, planned]
      exact (congrArg (List.map EntryRow.leg) allOwn).symm ▸ wrote.legs_perm
    · rw [sameEntries]
      exact oneCounter_of_landed wrote.landed _ _
  · intro row isRow
    rw [sameRows, wrote.isWrites] at isRow
    rw [List.mem_singleton.mp isRow]
    exact ⟨_, List.mem_singleton_self _, rfl, rfl⟩

end Closing

/-- Whatever else commits, an operation's bracket leaves what its callers are told. -/
theorem concludes_told (sha256 : List UInt8 → List UInt8) (operation : Operation) (env : Env)
    {book : Book} (kept : Kept book) :
    Concludes env (fun outcome => Acknowledges env (operation.acknowledgements outcome))
      (operation.program sha256) ⟨book, .none⟩ := by
  have nothing : ∀ (told : List Acknowledgement) (written : Writes) (book : Book), told = [] →
      written.transactions = [] → Acknowledges env told written book := by
    rintro told written book rfl none
    refine ⟨fun one isOne => absurd isOne List.not_mem_nil, fun row isRow => ?_⟩
    rw [none] at isRow
    cases isRow
  cases operation with
  | post command =>
      exact concludes_map Outcome.posted (fun _ _ _ isFit => isFit)
        (concludes_told_post sha256 command kept)
  | postBatch commands =>
      exact concludes_map Outcome.postedBatch (fun _ _ _ isFit => isFit)
        (concludes_told_postBatch sha256 kept)
  | openAccount command =>
      refine concludes_map Outcome.opened (fun _ _ _ isFit => isFit)
        (concludes_openAccount sha256 command kept
          fun triple eventId account writes later _ _ again => ?_)
      obtain ⟨_, _, _, _, rfl⟩ := claimAndOpenAccount_opened again
      exact nothing _ _ _ rfl rfl
  | definePeriod command =>
      refine concludes_map Outcome.defined (fun _ _ _ isFit => isFit)
        (concludes_definePeriod sha256 command kept
          fun hash payload eventId period writes later _ _ again => ?_)
      obtain ⟨_, _, _, _, rfl⟩ := claimAndDefinePeriod_defined again
      exact nothing _ _ _ rfl rfl
  | closePeriod command =>
      exact concludes_map Outcome.closed (fun _ _ _ isFit => isFit)
        (concludes_told_close sha256 command kept)

end OpenLedger
