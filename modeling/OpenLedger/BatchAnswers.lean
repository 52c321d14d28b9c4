import OpenLedger.Promises
import OpenLedger.Lib.Numbering

/-!
# The answers of a batch

Three lists are zipped by position when a batch is answered: the commands, the
members their plans did not refuse, and the members whose key was held.  The
places of one command in all three are computed here, and whatever a port
replies, what is answered at a place is what was asked there.
-/

namespace OpenLedger

open Program

/-- A batched statement that answered another number of rows than it was asked. -/
def Exchanged.disagrees : Exchanged → Bool
  | ⟨.claimAndAppendBatch members, .ok outcomes⟩ =>
      decide ((outcomes : List MemberOutcome).length ≠ members.length)
  | ⟨.storedResultBatch members, .ok rows⟩ =>
      decide ((rows : List (Option StoredResult)).length ≠ members.length)
  | _ => false

/-- The place of a command among the members its batch carries on. -/
def memberPlace (planned : List (Except WriteError Planned)) (place : Nat) : Nat :=
  (plannedMembers (planned.take place)).length

/-- The place of a member among those whose key was held. -/
def lookupPlace (outcomes : List MemberOutcome) (place : Nat) : Nat :=
  ((outcomes.take place).filter fun outcome => decide (outcome = .keyAlreadyClaimed)).length

section Places

variable {planned : List (Except WriteError Planned)} {place : Nat}

theorem plannedMembers_at {one : Planned} (here : planned[place]? = some (.ok one)) :
    (plannedMembers planned)[memberPlace planned place]? = some one.asMember :=
  Numbering.getElem?_filterMap_take _ here rfl

theorem length_answersInArrivalOrder (planned : List (Except WriteError Planned))
    (answered : List (Except WriteError Posted)) :
    (answersInArrivalOrder planned answered).length = planned.length := by
  induction planned generalizing answered with
  | nil =>
      rfl
  | cons head rest inductionHypothesis =>
      cases head with
      | error refusal =>
          exact congrArg Nat.succ (inductionHypothesis answered)
      | ok one =>
          cases answered with
          | nil =>
              exact congrArg Nat.succ (inductionHypothesis [])
          | cons answer answered =>
              exact congrArg Nat.succ (inductionHypothesis answered)

/-- A command its own plan refused keeps that refusal. -/
theorem answersInArrivalOrder_refused {refusal : WriteError}
    (here : planned[place]? = some (.error refusal))
    (answered : List (Except WriteError Posted)) :
    (answersInArrivalOrder planned answered)[place]? = some (.error refusal) := by
  induction planned generalizing place answered with
  | nil =>
      cases here
  | cons head rest inductionHypothesis =>
      cases place with
      | zero =>
          obtain rfl := Option.some.inj here
          rfl
      | succ place =>
          cases head with
          | error other =>
              exact inductionHypothesis here answered
          | ok one =>
              cases answered with
              | nil =>
                  exact inductionHypothesis here []
              | cons answer answered =>
                  exact inductionHypothesis here answered

/-- Nobody is answered but by the batch, or by a refusal. -/
theorem mem_answersInArrivalOrder {answered : List (Except WriteError Posted)}
    {answer : Except WriteError Posted} (isAnswer : answer ∈ answersInArrivalOrder planned answered) :
    (∃ refusal, answer = .error refusal) ∨ answer ∈ answered := by
  induction planned generalizing answered with
  | nil =>
      cases isAnswer
  | cons head rest inductionHypothesis =>
      cases head with
      | error refusal =>
          rcases List.mem_cons.mp isAnswer with rfl | isRest
          · exact Or.inl ⟨refusal, rfl⟩
          · exact inductionHypothesis isRest
      | ok one =>
          cases answered with
          | nil =>
              rcases List.mem_cons.mp isAnswer with rfl | isRest
              · exact Or.inl ⟨_, rfl⟩
              · exact inductionHypothesis isRest
          | cons first answered =>
              rcases List.mem_cons.mp isAnswer with rfl | isRest
              · exact Or.inr List.mem_cons_self
              · exact (inductionHypothesis isRest).imp_right (List.mem_cons_of_mem _)

/-- Any other command takes the answer at its member's place. -/
theorem answersInArrivalOrder_planned {one : Planned}
    (here : planned[place]? = some (.ok one)) {answered : List (Except WriteError Posted)}
    {answer : Except WriteError Posted}
    (own : answered[memberPlace planned place]? = some answer) :
    (answersInArrivalOrder planned answered)[place]? = some answer := by
  induction planned generalizing place answered with
  | nil =>
      cases here
  | cons head rest inductionHypothesis =>
      cases place with
      | zero =>
          obtain rfl := Option.some.inj here
          cases answered with
          | nil =>
              cases own
          | cons first answered =>
              exact own
      | succ place =>
          cases head with
          | error other =>
              exact inductionHypothesis here own
          | ok other =>
              cases answered with
              | nil =>
                  cases own
              | cons first answered =>
                  exact inductionHypothesis here own

variable {members : List BatchMember} {outcomes : List MemberOutcome}

/-- The lookup is asked about a member whose key was held at its place. -/
theorem membersReplaying_at {member : BatchMember} (isMember : members[place]? = some member)
    (isHeld : outcomes[place]? = some .keyAlreadyClaimed) :
    (membersReplayingAnEarlierWrite members outcomes)[lookupPlace outcomes place]? =
      some member := by
  induction outcomes generalizing members place with
  | nil =>
      cases isHeld
  | cons outcome outcomes inductionHypothesis =>
      cases members with
      | nil =>
          cases isMember
      | cons first members =>
          cases place with
          | zero =>
              obtain rfl := Option.some.inj isHeld
              exact isMember
          | succ place =>
              have further : (membersReplayingAnEarlierWrite members outcomes)[lookupPlace
                  outcomes place]? = some member := inductionHypothesis isMember isHeld
              cases outcome with
              | keyAlreadyClaimed =>
                  exact further
              | _ =>
                  exact further

theorem length_answersForMembers (outcomes : List MemberOutcome)
    (replayed : List (Option StoredResult)) :
    (answersForMembers outcomes replayed).length = outcomes.length := by
  induction outcomes generalizing replayed with
  | nil =>
      rfl
  | cons outcome outcomes inductionHypothesis =>
      cases outcome with
      | keyAlreadyClaimed =>
          rcases replayed with _ | ⟨_ | _, replayed⟩ <;>
            exact congrArg Nat.succ (inductionHypothesis _)
      | _ =>
          exact congrArg Nat.succ (inductionHypothesis replayed)

/-- What a member is answered when it is answered with a transaction: its own
outcome, or the row the lookup answered at its place. -/
theorem answersForMembers_ok {replayed : List (Option StoredResult)} {posted : Posted}
    (isAnswer : (answersForMembers outcomes replayed)[place]? = some (.ok posted)) :
    (∃ eventId transactionId, outcomes[place]? = some (.appended eventId transactionId) ∧
      posted = ⟨eventId, some transactionId, false⟩) ∨
    ∃ stored : StoredResult, outcomes[place]? = some .keyAlreadyClaimed ∧
      replayed[lookupPlace outcomes place]? = some (some stored) ∧
      posted = ⟨stored.1, stored.2, true⟩ := by
  induction outcomes generalizing place replayed with
  | nil =>
      cases isAnswer
  | cons outcome outcomes inductionHypothesis =>
      cases outcome with
      | appended eventId transactionId =>
          cases place with
          | zero =>
              cases isAnswer
              exact Or.inl ⟨eventId, transactionId, rfl, rfl⟩
          | succ place =>
              exact inductionHypothesis isAnswer
      | accountUnknown accountId currency =>
          cases place with
          | zero =>
              cases isAnswer
          | succ place =>
              exact inductionHypothesis isAnswer
      | keyAlreadyClaimed =>
          cases replayed with
          | nil =>
              cases place with
              | zero =>
                  cases isAnswer
              | succ place =>
                  rcases inductionHypothesis isAnswer with own | ⟨stored, _, isRow, _⟩
                  · exact Or.inl own
                  · cases isRow
          | cons row replayed =>
              cases place with
              | zero =>
                  cases row with
                  | none =>
                      cases isAnswer
                  | some stored =>
                      cases isAnswer
                      exact Or.inr ⟨stored, rfl, rfl, rfl⟩
              | succ place =>
                  cases row with
                  | none =>
                      exact inductionHypothesis isAnswer
                  | some stored =>
                      exact inductionHypothesis isAnswer

end Places

/-- The port answered that the member at this place was appended. -/
inductive AppendedAs (members : List BatchMember) (place : Nat) (exchanges : List Exchanged) :
    Uuid → Uuid → Prop where
  | alone {member : BatchMember} {appended : Appended} (only : members = [member])
      (ran : ⟨.claimAndAppend member.command member.hash member.payload member.append,
        .ok (some (.appended appended))⟩ ∈ exchanges) :
      AppendedAs members place exchanges appended.eventId appended.transactionId
  | together {outcomes : List MemberOutcome} {eventId transactionId : Uuid}
      (ran : ⟨.claimAndAppendBatch members, .ok outcomes⟩ ∈ exchanges)
      (own : outcomes[place]? = some (.appended eventId transactionId)) :
      AppendedAs members place exchanges eventId transactionId

/-- The port answered what an earlier writer stored under the key of the member
at this place. -/
inductive ReplayedAs (members : List BatchMember) (place : Nat) (exchanges : List Exchanged) :
    StoredResult → Prop where
  | alone {member : BatchMember} {stored : StoredResult} (only : members = [member])
      (ran : ⟨.storedResult member.command member.hash, .ok (some stored)⟩ ∈ exchanges) :
      ReplayedAs members place exchanges stored
  | together {outcomes : List MemberOutcome} {replaying : List BatchMember}
      {rows : List (Option StoredResult)} {stored : StoredResult}
      (ran : ⟨.claimAndAppendBatch members, .ok outcomes⟩ ∈ exchanges)
      (looked : ⟨.storedResultBatch replaying, .ok rows⟩ ∈ exchanges)
      (asked : replaying[lookupPlace outcomes place]? = members[place]?)
      (own : rows[lookupPlace outcomes place]? = some (some stored)) :
      ReplayedAs members place exchanges stored

/-- The exchanges ended in a commit that succeeded. -/
def Committed (exchanges : List Exchanged) : Prop :=
  ∃ during, exchanges = during ++ [⟨.commit, .ok ()⟩]

/-- The members' answers beside the exchanges they came from. -/
structure MembersAnswered (members : List BatchMember)
    (answered : List (Except WriteError Posted)) (exchanges : List Exchanged) : Prop where
  oneEach : answered.length = members.length
  appended : ∀ (place : Nat) posted, answered[place]? = some (.ok posted) →
    posted.replayed = false → Committed exchanges ∧ ∃ transactionId,
      posted.transactionId = some transactionId ∧
      AppendedAs members place exchanges posted.eventId transactionId
  replayed : ∀ (place : Nat) posted, answered[place]? = some (.ok posted) →
    posted.replayed = true →
      ReplayedAs members place exchanges (posted.eventId, posted.transactionId)
  disagreed : exchanges.any Exchanged.disagrees = true →
    (∀ exchange ∈ exchanges, exchange.1 ≠ .commit) ∧
      ∀ answer ∈ answered, ∃ refusal, answer = .error refusal

section Members

variable {members : List BatchMember} {exchanges before : List Exchanged}

/-- One refusal for every member. -/
theorem membersAnswered_refused (members : List BatchMember) (refusal : WriteError)
    (uncommitted : exchanges.any Exchanged.disagrees = true →
      ∀ exchange ∈ exchanges, exchange.1 ≠ .commit) :
    MembersAnswered members (members.map fun _ => .error refusal) exchanges := by
  have onlyRefused : ∀ answer ∈ members.map (fun _ => (.error refusal : Except WriteError Posted)),
      answer = .error refusal := by
    intro answer member
    obtain ⟨_, _, rfl⟩ := List.mem_map.mp member
    rfl
  refine ⟨List.length_map _, fun place posted isAnswer => ?_, fun place posted isAnswer => ?_,
    fun disagrees => ⟨uncommitted disagrees, fun answer member =>
      ⟨refusal, onlyRefused answer member⟩⟩⟩
  · cases onlyRefused _ (List.mem_of_getElem? isAnswer)
  · cases onlyRefused _ (List.mem_of_getElem? isAnswer)

/-- The one answer of a single post. -/
theorem membersAnswered_alone {member : BatchMember} {answer : Except WriteError Posted}
    (agreed : exchanges.any Exchanged.disagrees = false)
    (appended : ∀ posted, answer = .ok posted → posted.replayed = false →
      Committed exchanges ∧ ∃ transactionId, posted.transactionId = some transactionId ∧
        AppendedAs [member] 0 exchanges posted.eventId transactionId)
    (replayed : ∀ posted, answer = .ok posted → posted.replayed = true →
      ReplayedAs [member] 0 exchanges (posted.eventId, posted.transactionId)) :
    MembersAnswered [member] [answer] exchanges := by
  refine ⟨rfl, fun place posted isAnswer => ?_, fun place posted isAnswer => ?_,
    fun disagrees => ?_⟩
  · cases place with
    | zero =>
        exact appended posted (Option.some.inj isAnswer)
    | succ place =>
        cases isAnswer
  · cases place with
    | zero =>
        exact replayed posted (Option.some.inj isAnswer)
    | succ place =>
        cases isAnswer
  · rw [agreed] at disagrees
    cases disagrees

/-- A refusal of a single post. -/
theorem membersAnswered_refusedAlone {member : BatchMember} (refusal : WriteError)
    (agreed : exchanges.any Exchanged.disagrees = false) :
    MembersAnswered [member] [.error refusal] exchanges :=
  membersAnswered_alone agreed nofun nofun

/-- A single post answers its own command. -/
theorem postPlanned_keeps (sha256 : List UInt8 → List UInt8) {command : PostTransaction}
    {planned : Planned} (isPlan : planFor sha256 command = .ok planned) :
    (post sha256 command).run.Says
      (fun answer => MembersAnswered [planned.asMember] [answer]) [] := by
  obtain ⟨rfl, _⟩ := planFor_ok isPlan
  unfold post
  rw [isPlan]
  refine says_request _ .begin (fun _ => membersAnswered_refusedAlone _ rfl) fun _ => ?_
  refine says_request _ _ (fun _ => membersAnswered_refusedAlone _ rfl) fun claimed => ?_
  cases claimed with
  | none =>
      refine says_request _ _ (fun _ => membersAnswered_refusedAlone _ rfl) fun stored => ?_
      refine says_request _ _ (fun _ => membersAnswered_refusedAlone _ rfl) fun _ => ?_
      cases stored with
      | none =>
          exact membersAnswered_refusedAlone _ rfl
      | some stored =>
          refine membersAnswered_alone rfl ?_ ?_
          · rintro _ ⟨⟩ ⟨⟩
          · rintro _ ⟨⟩ _
            refine .alone rfl ?_
            simp [Planned.asMember]
  | some claimed =>
      cases claimed with
      | supersessionRefused refusal =>
          refine says_request _ _ (fun _ => membersAnswered_refusedAlone _ rfl) fun _ => ?_
          exact membersAnswered_refusedAlone _ rfl
      | appended appended =>
          have committing : (commitDerivedReversal appended).run.Says
              (fun answer => MembersAnswered [planned.asMember] [answer])
              ([] ++ [⟨.begin, .ok ()⟩] ++
                [⟨.claimAndAppend planned.command planned.hash planned.payload planned.append,
                  .ok (some (.appended appended))⟩]) := by
            refine says_request _ _ (fun _ => membersAnswered_refusedAlone _ rfl) fun _ => ?_
            refine membersAnswered_alone rfl ?_ ?_
            · rintro _ ⟨⟩ _
              refine ⟨⟨_, rfl⟩, appended.transactionId, rfl, .alone rfl ?_⟩
              simp [Planned.asMember]
            · rintro _ ⟨⟩ ⟨⟩
          dsimp only
          split
          · exact committing
          · unfold commitOrRefuseUnknownAccount
            split
            · refine says_request _ _ (fun _ => membersAnswered_refusedAlone _ rfl) fun _ => ?_
              exact membersAnswered_refusedAlone _ rfl
            · split
              · refine says_request _ _ (fun _ => membersAnswered_refusedAlone _ rfl) fun _ => ?_
                exact membersAnswered_refusedAlone _ rfl
              · exact committing

/-- The answers of a batch that committed. -/
theorem membersAnswered_together {outcomes : List MemberOutcome}
    {replayed : List (Option StoredResult)} (isLength : outcomes.length = members.length)
    (claimed : ⟨.claimAndAppendBatch members, .ok outcomes⟩ ∈ exchanges)
    (looked : membersReplayingAnEarlierWrite members outcomes ≠ [] →
      ⟨.storedResultBatch (membersReplayingAnEarlierWrite members outcomes), .ok replayed⟩ ∈
        exchanges)
    (agreed : exchanges.any Exchanged.disagrees = false) (committed : Committed exchanges) :
    MembersAnswered members (answersForMembers outcomes replayed) exchanges := by
  refine ⟨(length_answersForMembers _ _).trans isLength, fun place posted isAnswer fresh => ?_,
    fun place posted isAnswer isReplay => ?_, fun disagrees => ?_⟩
  · rcases answersForMembers_ok isAnswer with ⟨eventId, transactionId, own, rfl⟩ |
      ⟨stored, _, _, rfl⟩
    · exact ⟨committed, transactionId, rfl, .together claimed own⟩
    · cases fresh
  · rcases answersForMembers_ok isAnswer with ⟨eventId, transactionId, _, rfl⟩ |
      ⟨stored, isHeld, isRow, rfl⟩
    · cases isReplay
    · obtain ⟨member, isMember⟩ : ∃ member, members[place]? = some member := by
        have below := (List.getElem?_eq_some_iff.mp isHeld).1
        exact ⟨_, List.getElem?_eq_getElem (isLength ▸ below)⟩
      have asked := membersReplaying_at isMember isHeld
      refine .together claimed (looked fun isEmpty => ?_) (asked.trans isMember.symm) isRow
      rw [isEmpty] at asked
      cases asked
  · rw [agreed] at disagrees
    cases disagrees

theorem disagreementOver_none {answered asked : Nat} {statement : String}
    (agrees : disagreementOver answered asked statement = none) : answered = asked := by
  unfold disagreementOver at agrees
  split at agrees
  · assumption
  · cases agrees

theorem replayedResultsFor_nil {replaying : List BatchMember}
    (isEmpty : replaying.isEmpty = true) : replayedResultsFor replaying = pure [] :=
  if_pos isEmpty

theorem replayedResultsFor_cons {replaying : List BatchMember}
    (isLonger : ¬replaying.isEmpty = true) :
    replayedResultsFor replaying = ask .storage (.storedResultBatch replaying) :=
  if_neg isLonger

/-- What the members of a batch are answered: their own answers, or the one
refusal of the batch as a whole. -/
def answeredTogether (members : List BatchMember) :
    Except WriteError (List (Except WriteError Posted)) → List (Except WriteError Posted)
  | .ok answered => answered
  | .error refused => members.map fun _ => .error (refusalForOneMember refused)

/-- A batch answers each of its members, or refuses them all. -/
theorem appendTheBatch_keeps (members : List BatchMember) :
    (appendTheBatch members).run.Says
      (fun answer => MembersAnswered members (answeredTogether members answer)) [] := by
  unfold appendTheBatch
  refine says_request _ .begin
    (fun _ => membersAnswered_refused members _ fun disagrees => nomatch disagrees) fun _ => ?_
  refine says_request _ _
    (fun _ => membersAnswered_refused members _ fun disagrees => nomatch disagrees)
    fun outcomes => ?_
  have refused : ∀ (refusal : WriteError) (asked : List Exchanged),
      (∀ exchange ∈ asked, exchange.1 ≠ .commit) →
      (do ask .storage .rollback; refuse refusal : UseCase WriteError
        (List (Except WriteError Posted))).run.Says
        (fun answer => MembersAnswered members (answeredTogether members answer)) asked := by
    intro refusal asked uncommitted
    have rolledBack : ∀ reply : Request.rollback.Reply,
        ∀ exchange ∈ asked ++ [(⟨.rollback, reply⟩ : Exchanged)], exchange.1 ≠ .commit := by
      intro reply exchange member
      rcases List.mem_append.mp member with isAsked | isRollback
      · exact uncommitted exchange isAsked
      · obtain rfl := List.mem_singleton.mp isRollback
        exact nofun
    refine says_request _ _ (fun failure => membersAnswered_refused members _ fun _ =>
      rolledBack (.error failure)) fun answer => ?_
    exact membersAnswered_refused members _ fun _ => rolledBack (.ok answer)
  dsimp only
  split
  · exact refused _ _ (by simp)
  · rename_i agrees
    have isLength := disagreementOver_none agrees
    let claimed : Exchanged := ⟨.claimAndAppendBatch members, .ok outcomes⟩
    have agreesAbout : claimed.disagrees = false := decide_eq_false fun other => other isLength
    have committing : ∀ (replayed : List (Option StoredResult)) (asked : List Exchanged),
        claimed ∈ asked →
        (membersReplayingAnEarlierWrite members outcomes ≠ [] →
          ⟨.storedResultBatch (membersReplayingAnEarlierWrite members outcomes),
            .ok replayed⟩ ∈ asked) →
        asked.any Exchanged.disagrees = false →
        (do ask .storage .commit; return answersForMembers outcomes replayed :
          UseCase WriteError (List (Except WriteError Posted))).run.Says
          (fun answer => MembersAnswered members (answeredTogether members answer)) asked := by
      intro replayed asked isClaimed looked agreed
      have stillAgreed : ∀ reply : Request.commit.Reply,
          (asked ++ [(⟨.commit, reply⟩ : Exchanged)]).any Exchanged.disagrees = false := by
        intro reply
        rw [List.any_append, agreed]
        rfl
      refine says_request _ _ (fun failure => membersAnswered_refused members _ fun disagrees =>
        ?_) fun _ => ?_
      · rw [stillAgreed] at disagrees
        cases disagrees
      · exact membersAnswered_together isLength (List.mem_append_left _ isClaimed)
          (fun replays => List.mem_append_left _ (looked replays)) (stillAgreed _) ⟨asked, rfl⟩
    by_cases isEmpty : (membersReplayingAnEarlierWrite members outcomes).isEmpty = true
    · -- no member's key was held, and nothing is looked up
      rw [replayedResultsFor_nil isEmpty, pure_bind]
      rw [List.isEmpty_iff] at isEmpty
      split
      · exact refused _ _ (by simp)
      · refine committing [] _ (by simp [claimed]) (fun replays => absurd isEmpty replays) ?_
        simpa [Exchanged.disagrees] using isLength
    · rw [replayedResultsFor_cons isEmpty]
      refine says_request _ _ (fun failure => membersAnswered_refused members _ fun _ => by simp)
        fun replayed => ?_
      split
      · exact refused _ _ (by simp)
      · rename_i looksUp
        have isLookup := disagreementOver_none looksUp
        refine committing replayed _ (by simp [claimed]) (fun _ => by simp) ?_
        simpa [Exchanged.disagrees] using ⟨isLength, isLookup⟩

end Members

section Commands

variable (sha256 : List UInt8 → List UInt8)

/-- The members a batch of commands carries on. -/
def membersOf (commands : List PostTransaction) : List BatchMember :=
  plannedMembers (commands.map (planFor sha256))

/-- The place of a command's member among them. -/
def placeOf (commands : List PostTransaction) (place : Nat) : Nat :=
  memberPlace (commands.map (planFor sha256)) place

/-- What the callers of a batch are owed: one answer each in their order, their
own refusals, and no transaction but their own. -/
structure NeverCrossed (commands : List PostTransaction) (exchanges : List Exchanged)
    (answers : List (Except WriteError Posted)) : Prop where
  oneEach : answers.length = commands.length
  ownRefusal : ∀ (place : Nat) command refusal, commands[place]? = some command →
    planFor sha256 command = .error refusal → answers[place]? = some (.error refusal)
  ownAnswer : ∀ (place : Nat) command posted, commands[place]? = some command →
    answers[place]? = some (.ok posted) → ∃ planned, planFor sha256 command = .ok planned ∧
      (membersOf sha256 commands)[placeOf sha256 commands place]? = some planned.asMember ∧
      (posted.replayed = false → Committed exchanges ∧ ∃ transactionId,
        posted.transactionId = some transactionId ∧
        AppendedAs (membersOf sha256 commands) (placeOf sha256 commands place) exchanges
          posted.eventId transactionId) ∧
      (posted.replayed = true →
        ReplayedAs (membersOf sha256 commands) (placeOf sha256 commands place) exchanges
          (posted.eventId, posted.transactionId))
  disagreed : exchanges.any Exchanged.disagrees = true →
    (∀ exchange ∈ exchanges, exchange.1 ≠ .commit) ∧
      ∀ answer ∈ answers, ∃ refusal, answer = .error refusal

variable {sha256} {commands : List PostTransaction} {exchanges : List Exchanged}
  {answers : List (Except WriteError Posted)}

/-- What is owed to the members is owed to the callers, in arrival order. -/
theorem MembersAnswered.neverCrossed {answered : List (Except WriteError Posted)}
    (members : MembersAnswered (membersOf sha256 commands) answered exchanges) :
    NeverCrossed sha256 commands exchanges
      (answersInArrivalOrder (commands.map (planFor sha256)) answered) := by
  refine ⟨(length_answersInArrivalOrder _ _).trans (List.length_map _),
    fun place command refusal here isRefused => ?_, fun place command posted here isAnswer => ?_,
    fun disagrees => ?_⟩
  · refine answersInArrivalOrder_refused ?_ answered
    rw [List.getElem?_map, here, Option.map_some, isRefused]
  · have planned : (commands.map (planFor sha256))[place]? = some (planFor sha256 command) := by
      rw [List.getElem?_map, here, Option.map_some]
    cases isPlan : planFor sha256 command with
    | error refusal =>
        rw [answersInArrivalOrder_refused (isPlan ▸ planned)] at isAnswer
        cases isAnswer
    | ok one =>
        rw [isPlan] at planned
        have isMember := plannedMembers_at planned
        have below := (List.getElem?_eq_some_iff.mp isMember).1
        rw [show (plannedMembers (commands.map (planFor sha256))).length = answered.length from
          members.oneEach.symm] at below
        have own := List.getElem?_eq_getElem below
        rw [answersInArrivalOrder_planned planned own, Option.some.injEq] at isAnswer
        rw [isAnswer] at own
        exact ⟨one, rfl, isMember, members.appended _ posted own, members.replayed _ posted own⟩
  · refine ⟨(members.disagreed disagrees).1, fun answer isAnswer => ?_⟩
    rcases mem_answersInArrivalOrder isAnswer with refused | isAnswered
    · exact refused
    · exact (members.disagreed disagrees).2 answer isAnswered

theorem plannedMembers_own {member : BatchMember}
    (isMember : member ∈ plannedMembers (commands.map (planFor sha256))) :
    ∃ planned, planFor sha256 member.command = .ok planned ∧ planned.asMember = member := by
  obtain ⟨answer, isAnswer, isKept⟩ := List.mem_filterMap.mp isMember
  obtain ⟨command, _, rfl⟩ := List.mem_map.mp isAnswer
  cases isPlan : planFor sha256 command with
  | error refusal =>
      rw [isPlan] at isKept
      cases isKept
  | ok planned =>
      rw [isPlan] at isKept
      cases isKept
      obtain ⟨same, _⟩ := planFor_ok isPlan
      exact ⟨planned, (congrArg (planFor sha256) same).trans isPlan, rfl⟩

theorem postTogether_keeps (commands : List PostTransaction) :
    (postTogether sha256 commands).Says
      (fun answers exchanges => NeverCrossed sha256 commands exchanges answers) [] := by
  unfold postTogether
  dsimp only
  split
  · rename_i noMember
    have members : MembersAnswered (membersOf sha256 commands) [] [] := by
      rw [membersOf, noMember]
      exact membersAnswered_refused [] .overflow nofun
    exact members.neverCrossed
  · rename_i only oneMember
    obtain ⟨planned, isPlan, rfl⟩ := plannedMembers_own
      (oneMember ▸ List.mem_singleton_self only)
    refine Program.says_bind (postPlanned_keeps sha256 isPlan) fun answer exchanges answered => ?_
    rw [← oneMember] at answered
    exact MembersAnswered.neverCrossed answered
  · refine Program.says_bind (appendTheBatch_keeps _) fun answer exchanges answered => ?_
    cases answer with
    | ok answers =>
        exact MembersAnswered.neverCrossed answered
    | error refusal =>
        exact MembersAnswered.neverCrossed answered

theorem postBatch_keeps (commands : List PostTransaction) :
    (postBatch sha256 commands).Says
      (fun answers exchanges => NeverCrossed sha256 commands exchanges answers) [] := by
  unfold postBatch
  split
  · exact MembersAnswered.neverCrossed (membersAnswered_refused [] .overflow nofun)
  · rename_i only
    cases isPlan : planFor sha256 only with
    | error refusal =>
        have noMember : membersOf sha256 [only] = [] := by
          rw [membersOf, List.map_singleton, isPlan]
          rfl
        have members : MembersAnswered (membersOf sha256 [only]) [] [] :=
          noMember ▸ membersAnswered_refused [] .overflow nofun
        have owed := members.neverCrossed
        rw [List.map_singleton, isPlan] at owed
        unfold post
        rw [isPlan]
        exact owed
    | ok planned =>
        have oneMember : membersOf sha256 [only] = [planned.asMember] := by
          rw [membersOf, List.map_singleton, isPlan]
          rfl
        refine Program.says_bind (postPlanned_keeps sha256 isPlan) fun answer exchanges answered => ?_
        rw [← oneMember] at answered
        have owed := answered.neverCrossed
        rwa [List.map_singleton, isPlan] at owed
  · exact postTogether_keeps commands

/-- Whatever the port replies to a batch, each command is answered once, in its
place, with its own refusal or with its own transaction; and a port that answers
another number of rows than it was asked commits nothing and is refused. -/
theorem batch_answers_never_crossed
    (conversation : (postBatch sha256 commands).Converses exchanges answers) :
    NeverCrossed sha256 commands exchanges answers :=
  (postBatch_keeps commands).converses conversation

end Commands

namespace Shop

/-- A port that appends the first member of a batch and holds the key of the
second. -/
def twoMembersPort : (request : Request) → Unit → request.Reply × Unit
  | .claimAndAppendBatch _, _ =>
      (.ok [MemberOutcome.appended (uuid 10) (uuid 11), .keyAlreadyClaimed], ())
  | .storedResultBatch _, _ => (.ok [some (uuid 20, some (uuid 21))], ())
  | .begin, _ => (.ok (), ())
  | .commit, _ => (.ok (), ())
  | _, _ => (.error (.message "not asked"), ())

def twoCommands : List PostTransaction :=
  [command "first" 1000 .posted none 1, command "second" 2000 .posted none 2]

/-- Its two callers: one appended, one replayed. -/
theorem twoCommands_never_crossed : ∃ exchanges, NeverCrossed id twoCommands exchanges
    [.ok ⟨uuid 10, some (uuid 11), false⟩, .ok ⟨uuid 20, some (uuid 21), true⟩] := by
  obtain ⟨exchanges, conversation⟩ :=
    Program.converses_run twoMembersPort (postBatch id twoCommands) ()
  rw [show ((postBatch id twoCommands).run twoMembersPort ()).1 =
    [.ok ⟨uuid 10, some (uuid 11), false⟩, .ok ⟨uuid 20, some (uuid 21), true⟩] by
      decide +kernel] at conversation
  exact ⟨exchanges, batch_answers_never_crossed conversation⟩

end Shop

end OpenLedger
