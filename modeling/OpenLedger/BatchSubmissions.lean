import OpenLedger.BatchAnswers
import OpenLedger.SingleAnswers

/-!
# A batch answered

What the batched statement makes of each member, when it does not fail as a whole: a
held key is answered by its holder, a free one is claimed, and a member of an unknown
account is withheld with its key.
-/

namespace OpenLedger

open Postgres

section Outcomes

variable {env : Env} {book : Book} {members : List BatchMember} {m : MemberRow}

/-- The row the statement answers for one member. -/
def answerRow (env : Env) (snapshot current : Book) (members : List BatchMember)
    (m : MemberRow) : MemberAnswerRow :=
  let unknown := unknownAccount snapshot members m.ord
  { eventId := ((claimed env snapshot current members).find? fun event =>
      decide (event.tenantId = m.tenantId) &&
        decide (event.idempotencyKey = m.idempotencyKey)).map EventRow.id
    transactionId := (proceedingAt (proceeding env snapshot current members) m.ord).map
      ProceedingRow.transactionId
    admissible := admissible snapshot members m.ord
    keyAlreadyHeld := keyHeldByAnEarlierWrite snapshot members m
    unknownAccountId := unknown.map Prod.fst
    unknownCurrency := unknown.map Prod.snd }

theorem batchRows_eq (current : Book) : batchRows env book current members =
    (member members).map (answerRow env book current members) := rfl

/-- A held key is never claimed. -/
theorem unclaimed_of_held
    (held : (book.holderOf m.tenantId m.idempotencyKey).isSome = true) :
    ((claimed env book book members).find? fun event =>
      decide (event.tenantId = m.tenantId) &&
        decide (event.idempotencyKey = m.idempotencyKey)) = none := by
  rw [List.find?_eq_none]
  intro event isClaimed matches_
  simp only [Bool.and_eq_true, decide_eq_true_eq] at matches_
  obtain ⟨claimant, _, _, free, rfl⟩ := claimed_spec.1 event isClaimed
  have tenant : claimant.tenantId = m.tenantId := matches_.1
  have key : claimant.idempotencyKey = m.idempotencyKey := matches_.2
  rw [tenant, key] at free
  rw [free] at held
  cases held

theorem outcome_of_held (held : (book.holderOf m.tenantId m.idempotencyKey).isSome = true) :
    outcomeForMember (answerRow env book book members m) = .ok .keyAlreadyClaimed := by
  have unclaimed := @unclaimed_of_held env book members m held
  unfold outcomeForMember answerRow keyHeldByAnEarlierWrite
  simp only [unclaimed, held, Option.map_none]
  cases admissible book members m.ord <;> rfl

/-- A free key whose accounts are known is claimed, with its transaction. -/
theorem outcome_of_admissible
    (onePerEvent : UniqueIndex.Holds TransactionRow.eventKey
      (batchTxn env (proceeding env book book members)))
    (isMember : m ∈ member members) (isAdmissible : admissible book members m.ord = true)
    (free : book.holderOf m.tenantId m.idempotencyKey = none) :
    claimEvent env m ∈ claimed env book book members ∧
      (⟨m.ord, env.eventId m.ord, m.tenantId, env.transactionId m.ord,
        m.effectiveAt.getD 0⟩ : ProceedingRow) ∈ proceeding env book book members ∧
      outcomeForMember (answerRow env book book members m) =
        .ok (.appended (env.eventId m.ord) (env.transactionId m.ord)) := by
  obtain ⟨claim, isClaim, tenant, key⟩ := @claim_of_admissible env book book members m
    isMember isAdmissible free
  have someFound : ((claimed env book book members).find? fun event =>
      decide (event.tenantId = m.tenantId) &&
        decide (event.idempotencyKey = m.idempotencyKey)).isSome = true := by
    rw [List.find?_isSome]
    exact ⟨claim, isClaim, by simp [tenant, key]⟩
  obtain ⟨event, found⟩ := Option.isSome_iff_exists.mp someFound
  obtain ⟨_, _, rfl⟩ := own_claim onePerEvent isMember found
  have proceeds := mem_proceeding.mpr ⟨m, isMember, _, found, rfl⟩
  have at_ := proceedingAt_eq_some_iff.mpr ⟨proceeds, rfl⟩
  refine ⟨List.mem_of_find?_eq_some found, proceeds, ?_⟩
  unfold outcomeForMember answerRow keyHeldByAnEarlierWrite
  simp only [found, isAdmissible, at_, Option.map_some, Bool.not_true, Bool.false_and,
    Bool.false_eq_true, if_false]
  rfl

/-- A withheld member with a free key names an account that is not there. -/
theorem outcome_of_withheld {outcome : MemberOutcome} {batchMember : BatchMember}
    (isBatch : (m.ord, batchMember) ∈ Numbering.withOrdinality members)
    (batchable : Batchable batchMember)
    (withheld : admissible book members m.ord = false)
    (free : book.holderOf m.tenantId m.idempotencyKey = none)
    (answered : outcomeForMember (answerRow env book book members m) = .ok outcome) :
    (∃ accountId currency, outcome = .accountUnknown accountId currency) ∧
      (KeyedCommand.post batchMember.command).Obstructed env book := by
  unfold outcomeForMember answerRow keyHeldByAnEarlierWrite at answered
  simp only [free, withheld, Option.isSome_none, Bool.and_false,
    Bool.false_eq_true, if_false, Bool.not_false, if_true] at answered
  cases isUnknown : unknownAccount book members m.ord with
  | none =>
      rw [isUnknown] at answered
      cases answered
  | some unknown =>
      rw [isUnknown] at answered
      refine ⟨⟨unknown.1, unknown.2, (Except.ok.inj answered).symm⟩, Or.inr (Or.inr ?_)⟩
      obtain ⟨key, isHead, _⟩ := Option.map_eq_some_iff.mp isUnknown
      have inSorted := List.mem_of_mem_head? isHead
      obtain ⟨row, isRow, _⟩ := List.mem_map.mp ((List.mem_insertionSort _).mp inSorted)
      obtain ⟨inMembers, missing⟩ := List.mem_filter.mp isRow
      rw [Bool.and_eq_true, decide_eq_true_eq] at missing
      obtain ⟨other, isOther, inDeltas⟩ := List.mem_flatMap.mp inMembers
      obtain ⟨delta, isDelta, rfl⟩ := List.mem_map.mp inDeltas
      obtain ⟨accountKey, isKey, rfl⟩ := List.mem_map.mp isDelta
      obtain ⟨leg, isLeg, rfl⟩ := List.mem_map.mp (List.mem_dedup.mp isKey)
      have sameMember : other.2 = batchMember := by
        have sameOrd : other.1 = m.ord := missing.1
        rw [← sameOrd] at isBatch
        exact Numbering.withOrdinality_inj isOther isBatch
      have legs := (planAppend_ok batchable.planned).1
      rw [sameMember] at isLeg missing
      exact ⟨leg, legs ▸ isLeg, Option.isNone_iff_eq_none.mp missing.2⟩

end Outcomes

section Answers

/-- What a member is answered, its outcome and what the lookup found for it. -/
def answerOf (stored : Option StoredResult) : MemberOutcome → Except WriteError Posted
  | .appended eventId transactionId => .ok ⟨eventId, some transactionId, false⟩
  | .accountUnknown accountId currency => .error (.accountUnknown accountId currency)
  | .keyAlreadyClaimed =>
      match stored with
      | some (eventId, transactionId) => .ok ⟨eventId, transactionId, true⟩
      | none => .error .keyReused

/-- The lookup's answers go to the members they were looked up for. -/
theorem forall₂_answersForMembers {ι : Type} {related : ι → MemberOutcome → Prop}
    (memberOf : ι → BatchMember) (stored : BatchMember → Option StoredResult)
    {indices : List ι} {outcomes : List MemberOutcome}
    (each : List.Forall₂ related indices outcomes) :
    List.Forall₂ (fun index answer => ∃ outcome, related index outcome ∧
        answer = answerOf (stored (memberOf index)) outcome) indices
      (answersForMembers outcomes
        ((membersReplayingAnEarlierWrite (indices.map memberOf) outcomes).map stored)) := by
  induction each with
  | nil =>
      exact .nil
  | @cons index outcome indices outcomes here _ inductionHypothesis =>
      cases outcome with
      | appended eventId transactionId =>
          exact .cons ⟨_, here, rfl⟩ inductionHypothesis
      | accountUnknown accountId currency =>
          exact .cons ⟨_, here, rfl⟩ inductionHypothesis
      | keyAlreadyClaimed =>
          have replaying : membersReplayingAnEarlierWrite
              ((index :: indices).map memberOf) (.keyAlreadyClaimed :: outcomes) =
                memberOf index ::
                  membersReplayingAnEarlierWrite (indices.map memberOf) outcomes := by
            simp [membersReplayingAnEarlierWrite]
          rw [replaying, List.map_cons]
          cases found : stored (memberOf index) with
          | none =>
              exact .cons ⟨_, here, by rw [found]; rfl⟩ inductionHypothesis
          | some result =>
              exact .cons ⟨_, here, by rw [found]; rfl⟩ inductionHypothesis

theorem mem_zip_of_forall₂ {α β : Type} {related : α → β → Prop} {left : List α}
    {right : List β} (each : List.Forall₂ related left right) {one : α} (isThere : one ∈ left) :
    ∃ other, (one, other) ∈ left.zip right ∧ related one other := by
  induction each with
  | nil =>
      cases isThere
  | @cons head other rest others here _ inductionHypothesis =>
      rcases List.mem_cons.mp isThere with rfl | later
      · exact ⟨other, List.mem_cons_self, here⟩
      · obtain ⟨found, isPair, isRelated⟩ := inductionHypothesis later
        exact ⟨found, List.mem_cons_of_mem _ isPair, isRelated⟩

theorem forall₂_with_mem {α β : Type} {related : α → β → Prop} {left : List α}
    {right : List β} (each : List.Forall₂ related left right) :
    List.Forall₂ (fun one other => one ∈ left ∧ related one other) left right := by
  rw [List.forall₂_iff_zip] at each ⊢
  exact ⟨each.1, fun isPair => ⟨(List.of_mem_zip isPair).1, each.2 isPair⟩⟩

end Answers

section Members

variable {sha256 : List UInt8 → List UInt8} {env : Env} {book : Book}
  {members : List BatchMember} {outcomes : List MemberOutcome} {writes : Writes}

/-- The claim row of a member. -/
def memberRow (m : Nat × BatchMember) : MemberRow :=
  ⟨m.1, m.2.command.tenantId, m.2.command.idempotencyKey, m.2.hash, m.2.payload,
    m.2.command.effectiveAt.map OffsetDateTime.stored⟩

/-- A batch that does not fail answers each member by its own key and its own
accounts. -/
inductive MemberOutcomeOf (env : Env) (book : Book) (members : List BatchMember)
    (m : Nat × BatchMember) : MemberOutcome → Prop where
  | held (isHeld : (book.holderOf m.2.command.tenantId
      m.2.command.idempotencyKey).isSome = true) :
      MemberOutcomeOf env book members m .keyAlreadyClaimed
  | appended
      (free : book.holderOf m.2.command.tenantId m.2.command.idempotencyKey = none)
      (isClaimed : claimEvent env (memberRow m) ∈ claimed env book book members)
      (proceeds : (⟨m.1, env.eventId m.1, m.2.command.tenantId, env.transactionId m.1,
        (memberRow m).effectiveAt.getD 0⟩ : ProceedingRow) ∈ proceeding env book book members) :
      MemberOutcomeOf env book members m
        (.appended (env.eventId m.1) (env.transactionId m.1))
  | withheld {accountId : Uuid} {currency : String}
      (gated : admissible book members m.1 = false)
      (free : book.holderOf m.2.command.tenantId m.2.command.idempotencyKey = none)
      (obstructed : (KeyedCommand.post m.2.command).Obstructed env book) :
      MemberOutcomeOf env book members m (.accountUnknown accountId currency)

theorem outcomes_of_members (batchable : ∀ m ∈ members, Batchable m)
    (ran : claimAndAppendBatch env book book members = (.ok outcomes, writes)) :
    List.Forall₂ (MemberOutcomeOf env book members) (Numbering.withOrdinality members)
      outcomes := by
  obtain ⟨_, allowed, mapped, _⟩ := claimAndAppendBatch_answered ran
  have onePerEvent := ((violation_eq_none_iff ..).mp allowed).uqTxnOnePerEvent.1
  have each := forall₂_of_mapM_ok mapped
  rw [batchRows_eq, show member members = (Numbering.withOrdinality members).map memberRow
    from rfl, List.map_map, List.forall₂_map_left_iff] at each
  refine (forall₂_with_mem each).imp fun m outcome here => ?_
  obtain ⟨isThere, answered⟩ := here
  have isMember : memberRow m ∈ member members := List.mem_map_of_mem isThere
  have isBatch : ((memberRow m).ord, m.2) ∈ Numbering.withOrdinality members := isThere
  cases holder : book.holderOf m.2.command.tenantId m.2.command.idempotencyKey with
  | some event =>
      have isHeld : (book.holderOf (memberRow m).tenantId
          (memberRow m).idempotencyKey).isSome = true := by
        rw [show book.holderOf (memberRow m).tenantId (memberRow m).idempotencyKey = some event
          from holder]
        rfl
      rw [Function.comp_apply, @outcome_of_held env book members _ isHeld] at answered
      cases answered
      exact .held isHeld
  | none =>
      cases gate : admissible book members (memberRow m).ord with
      | true =>
          obtain ⟨isClaimed, proceeds, isOutcome⟩ :=
            @outcome_of_admissible env book members _ onePerEvent isMember gate holder
          rw [Function.comp_apply, isOutcome] at answered
          cases answered
          exact .appended holder isClaimed proceeds
      | false =>
          obtain ⟨⟨accountId, currency, rfl⟩, obstructed⟩ := outcome_of_withheld isBatch
            (batchable m.2 (Numbering.mem_of_mem_withOrdinality isThere)) gate holder answered
          exact .withheld gate holder obstructed

/-- Two members appended under one key are one member. -/
theorem ord_of_sameKey
    (onePerEvent : UniqueIndex.Holds TransactionRow.eventKey
      (batchTxn env (proceeding env book book members)))
    {one other : Nat × BatchMember} {eventId transactionId otherEvent otherTransaction : Uuid}
    (isOne : MemberOutcomeOf env book members one (.appended eventId transactionId))
    (isOther : MemberOutcomeOf env book members other (.appended otherEvent otherTransaction))
    (tenant : one.2.command.tenantId = other.2.command.tenantId)
    (key : one.2.command.idempotencyKey = other.2.command.idempotencyKey) :
    one.1 = other.1 := by
  cases isOne with
  | appended _ oneClaimed oneProceeds =>
      cases isOther with
      | appended _ otherClaimed otherProceeds =>
          have sameClaim := UniqueIndex.holds_eq claimed_spec.2 oneClaimed otherClaimed
            rfl (by simp [EventRow.claimKey, claimEvent, memberRow, tenant, key])
          have sameEvent : env.eventId one.1 = env.eventId other.1 :=
            congrArg EventRow.id sameClaim
          have sameRow := List.inj_on_of_nodup_map (proceeding_nodup onePerEvent) oneProceeds
            otherProceeds (by simp [tenant, sameEvent])
          exact congrArg ProceedingRow.ord sameRow

/-- A member accepted for the first time was appended. -/
theorem appended_of_accepted {stored : BatchMember → Option StoredResult}
    {m : Nat × BatchMember} {answer : Except WriteError Posted} {key : String × String}
    (told : ∃ outcome, MemberOutcomeOf env book members m outcome ∧
      answer = answerOf (stored m.2) outcome)
    (accepted : acceptedKey (.post m.2.command, .ofPosted answer) = some key) :
    ∃ eventId transactionId,
      MemberOutcomeOf env book members m (.appended eventId transactionId) ∧
        key = (m.2.command.tenantId, m.2.command.idempotencyKey) := by
  obtain ⟨outcome, spec, rfl⟩ := told
  cases outcome with
  | appended eventId transactionId =>
      exact ⟨eventId, transactionId, spec, (Option.some.inj accepted).symm⟩
  | accountUnknown accountId currency =>
      cases accepted
  | keyAlreadyClaimed =>
      cases found : stored m.2 <;>
        simp only [answerOf, found] at accepted <;> cases accepted

/-- No key is accepted twice by one batch. -/
theorem once_members (batchable : ∀ m ∈ members, Batchable m)
    (ran : claimAndAppendBatch env book book members = (.ok outcomes, writes))
    (stored : BatchMember → Option StoredResult) :
    ((members.zip (answersForMembers outcomes
      ((membersReplayingAnEarlierWrite members outcomes).map stored))).filterMap fun pair =>
        acceptedKey (.post pair.1.command, .ofPosted pair.2)).Nodup := by
  obtain ⟨_, allowed, _, _⟩ := claimAndAppendBatch_answered ran
  have onePerEvent := ((violation_eq_none_iff ..).mp allowed).uqTxnOnePerEvent.1
  have each := forall₂_answersForMembers Prod.snd stored (outcomes_of_members batchable ran)
  rw [Numbering.map_snd_withOrdinality] at each
  generalize answersForMembers outcomes _ = answers at each ⊢
  have apart : ((Numbering.withOrdinality members).zip answers).Pairwise
      fun one other => one.1.1 ≠ other.1.1 := by
    have firsts := List.map_fst_zip each.length_eq.le
    have ordered := Numbering.withOrdinality_increasing members
    rw [← firsts, List.pairwise_map] at ordered
    exact ordered.imp fun below => below.ne
  have distinct : (((Numbering.withOrdinality members).zip answers).filterMap fun pair =>
      acceptedKey (.post pair.1.2.command, .ofPosted pair.2)).Nodup := by
    rw [List.Nodup, List.pairwise_filterMap]
    refine apart.imp_of_mem ?_
    intro one other isOne isOther ne key isKey otherKey isOtherKey same
    have oneAppended := appended_of_accepted ((List.forall₂_iff_zip.mp each).2 isOne) isKey
    have otherAppended :=
      appended_of_accepted ((List.forall₂_iff_zip.mp each).2 isOther) isOtherKey
    obtain ⟨_, _, oneSpec, rfl⟩ := oneAppended
    obtain ⟨_, _, otherSpec, rfl⟩ := otherAppended
    obtain ⟨tenant, ofKey⟩ := Prod.mk.inj same
    exact ne (ord_of_sameKey onePerEvent oneSpec otherSpec tenant ofKey)
  have ofMembers := distinct
  rw [← Numbering.map_snd_withOrdinality members, List.zip_map_left, List.filterMap_map]
  exact ofMembers

/-- What the callers of a batch are told, member by member. -/
theorem answered_of_outcome (kept : Kept book)
    (lands : Lands book (batchWrites env book book members)) {m : Nat × BatchMember}
    {planned : Planned} (isPlanned : planFor sha256 m.2.command = .ok planned)
    (isMember : planned.asMember = m.2) {outcome : MemberOutcome}
    (spec : MemberOutcomeOf env book members m outcome) :
    Answered sha256 env book (book.apply (batchWrites env book book members))
      (.post m.2.command) (.ofPosted (answerOf (storedResult
        (book.apply (batchWrites env book book members)) m.2.command.tenantId
          m.2.command.idempotencyKey m.2.hash) outcome)) := by
  have keptAfter := kept.apply lands
  have sameHash : m.2.hash = planned.hash := by
    rw [← isMember]
    rfl
  cases spec with
  | held isHeld =>
      obtain ⟨event, holder⟩ := Option.isSome_iff_exists.mp isHeld
      have holderAfter := Book.Precedes.find?_of_prefix
        (Book.Precedes.apply book (batchWrites env book book members)).events holder
      have answer : answerOf (storedResult (book.apply (batchWrites env book book members))
          m.2.command.tenantId m.2.command.idempotencyKey m.2.hash) .keyAlreadyClaimed =
            replayed (book.apply (batchWrites env book book members)) m.2.command
              planned.hash := by
        rw [sameHash]
        rfl
      rw [answer, verdict_replayed keptAfter isPlanned holderAfter]
      exact .held (proceeds_of_planned isPlanned) holder
  | withheld _ free obstructed =>
      exact .refused free obstructed (Or.inl rfl)
  | appended free isClaimed proceeds =>
      obtain ⟨_, hashed, _⟩ := planFor_ok isPlanned
      rw [← sameHash] at hashed
      have isThere : claimEvent env (memberRow m) ∈
          (book.apply (batchWrites env book book members)).events :=
        List.mem_append_right _ isClaimed
      have isTxn := List.mem_append_right book.transactions
        (List.mem_map_of_mem proceeds : _ ∈ batchTxn env (proceeding env book book members))
      exact .fresh (proceeds_of_planned isPlanned) free isThere rfl rfl hashed
        ⟨_, causedBy_of_mem keptAfter isTxn, rfl⟩

/-- The members of a batch that does not fail: each is answered, and each claim is
the acceptance of one of them. -/
theorem answered_members (kept : Kept book) (batchable : ∀ m ∈ members, Batchable m)
    (planned : ∀ m ∈ members, ∃ planned, planFor sha256 m.command = .ok planned ∧
      planned.asMember = m)
    (ran : claimAndAppendBatch env book book members = (.ok outcomes, writes)) :
    List.Forall₂ (fun m answer => Answered sha256 env book (book.apply writes)
        (.post m.command) (.ofPosted answer)) members
      (answersForMembers outcomes (storedResultBatch (book.apply writes)
        (membersReplayingAnEarlierWrite members outcomes))) ∧
    ∀ event ∈ writes.events, ∃ m answer made,
      (m, answer) ∈ members.zip (answersForMembers outcomes
        (storedResultBatch (book.apply writes)
          (membersReplayingAnEarlierWrite members outcomes))) ∧
      Verdict.ofPosted answer = .accepted event.id made false ∧
      event.tenantId = m.command.tenantId ∧
      event.idempotencyKey = m.command.idempotencyKey := by
  obtain ⟨_, allowed, _, rfl⟩ := claimAndAppendBatch_answered ran
  have lands := batchWrites_lands (Book.Precedes.refl book) batchable allowed
  have each := forall₂_answersForMembers Prod.snd (fun m =>
    storedResult (book.apply (batchWrites env book book members)) m.command.tenantId
      m.command.idempotencyKey m.hash) (outcomes_of_members batchable ran)
  rw [Numbering.map_snd_withOrdinality] at each
  constructor
  · have told : List.Forall₂ (fun (m : Nat × BatchMember) answer => Answered sha256 env book
        (book.apply (batchWrites env book book members)) (.post m.2.command) (.ofPosted answer))
        (Numbering.withOrdinality members) _ := (forall₂_with_mem each).imp fun m answer here => by
      obtain ⟨isThere, outcome, spec, rfl⟩ := here
      obtain ⟨plan, isPlanned, isMember⟩ :=
        planned m.2 (Numbering.mem_of_mem_withOrdinality isThere)
      exact answered_of_outcome kept lands isPlanned isMember spec
    have onMembers : List.Forall₂ (fun (m : BatchMember) answer => Answered sha256 env book
        (book.apply (batchWrites env book book members)) (.post m.command) (.ofPosted answer))
        ((Numbering.withOrdinality members).map Prod.snd) _ :=
      List.forall₂_map_left_iff.mpr told
    rw [Numbering.map_snd_withOrdinality] at onMembers
    exact onMembers
  · intro event isEvent
    obtain ⟨row, isRow, gate, free, rfl⟩ := claimed_spec.1 event isEvent
    obtain ⟨m, isThere, rfl⟩ := List.mem_map.mp isRow
    obtain ⟨answer, isPair, outcome, spec, rfl⟩ := mem_zip_of_forall₂ each isThere
    have ofMembers := List.mem_map_of_mem (f := Prod.map Prod.snd id) isPair
    rw [← List.zip_map_left, Numbering.map_snd_withOrdinality] at ofMembers
    cases spec with
    | held isHeld =>
        rw [show book.holderOf m.2.command.tenantId m.2.command.idempotencyKey = none from free]
          at isHeld
        cases isHeld
    | withheld gated =>
        rw [show admissible book members m.1 = true from gate] at gated
        cases gated
    | appended =>
        exact ⟨m.2, _, _, ofMembers, rfl, rfl, rfl⟩

end Members

/-- A batch that claims nothing writes nothing. -/
theorem batchWrites_none {env : Env} {book : Book} {members : List BatchMember}
    (unclaimed : claimed env book book members = []) :
    batchWrites env book book members = .none := by
  have none : proceeding env book book members = [] := by
    simp [proceeding, unclaimed]
  simp [batchWrites, unclaimed, none, batchTxn, batchDelta, proceedingAt, striped, numbered,
    proceedingLegs, Numbering.windowOffsets, entry, Writes.none]

section Arrival

variable {sha256 : List UInt8 → List UInt8} {related : BatchMember → Except WriteError Posted → Prop}

/-- Each command keeps its own plan's refusal or takes its member's answer. -/
theorem forall₂_arrival {commands : List PostTransaction} {answered : List (Except WriteError Posted)}
    (each : List.Forall₂ related (membersOf sha256 commands) answered) :
    List.Forall₂ (fun command answer =>
        (∃ refusal, planFor sha256 command = .error refusal ∧ answer = .error refusal) ∨
          ∃ planned, planFor sha256 command = .ok planned ∧ related planned.asMember answer)
      commands (answersInArrivalOrder (commands.map (planFor sha256)) answered) := by
  induction commands generalizing answered with
  | nil =>
      exact .nil
  | cons command commands inductionHypothesis =>
      rw [List.map_cons]
      cases isPlanned : planFor sha256 command with
      | error refusal =>
          have same : membersOf sha256 (command :: commands) = membersOf sha256 commands := by
            simp [membersOf, plannedMembers, isPlanned]
          rw [same] at each
          exact .cons (Or.inl ⟨refusal, isPlanned, rfl⟩) (inductionHypothesis each)
      | ok planned =>
          have same : membersOf sha256 (command :: commands) =
              planned.asMember :: membersOf sha256 commands := by
            simp [membersOf, plannedMembers, isPlanned]
          rw [same] at each
          cases each with
          | cons here rest =>
              exact .cons (Or.inr ⟨planned, isPlanned, here⟩) (inductionHypothesis rest)

/-- A member's answer is its own command's. -/
theorem mem_zip_arrival {commands : List PostTransaction}
    {answered : List (Except WriteError Posted)} {m : BatchMember}
    {answer : Except WriteError Posted}
    (isPair : (m, answer) ∈ (membersOf sha256 commands).zip answered) :
    (m.command, answer) ∈ commands.zip
      (answersInArrivalOrder (commands.map (planFor sha256)) answered) := by
  induction commands generalizing answered with
  | nil =>
      simp [membersOf, plannedMembers] at isPair
  | cons command commands inductionHypothesis =>
      rw [List.map_cons]
      cases isPlanned : planFor sha256 command with
      | error refusal =>
          have same : membersOf sha256 (command :: commands) = membersOf sha256 commands := by
            simp [membersOf, plannedMembers, isPlanned]
          rw [same] at isPair
          exact List.mem_cons_of_mem _ (inductionHypothesis isPair)
      | ok planned =>
          have same : membersOf sha256 (command :: commands) =
              planned.asMember :: membersOf sha256 commands := by
            simp [membersOf, plannedMembers, isPlanned]
          rw [same] at isPair
          cases answered with
          | nil =>
              simp at isPair
          | cons first answered =>
              rw [List.zip_cons_cons] at isPair
              rcases List.mem_cons.mp isPair with here | later
              · obtain ⟨rfl, _⟩ := planFor_ok isPlanned
                cases here
                exact List.mem_cons_self
              · exact List.mem_cons_of_mem _ (inductionHypothesis later)

/-- The keys a batch accepts are its members'. -/
theorem acceptedKeys_arrival (commands : List PostTransaction)
    (answered : List (Except WriteError Posted)) :
    ((commands.map KeyedCommand.post).zip ((answersInArrivalOrder
      (commands.map (planFor sha256)) answered).map .ofPosted)).filterMap acceptedKey =
      ((membersOf sha256 commands).zip answered).filterMap fun pair =>
        acceptedKey (.post pair.1.command, .ofPosted pair.2) := by
  induction commands generalizing answered with
  | nil =>
      rfl
  | cons command commands inductionHypothesis =>
      rw [List.map_cons, List.map_cons]
      cases isPlanned : planFor sha256 command with
      | error refusal =>
          have same : membersOf sha256 (command :: commands) = membersOf sha256 commands := by
            simp [membersOf, plannedMembers, isPlanned]
          rw [same, ← inductionHypothesis]
          exact List.filterMap_cons_none (by
            rcases verdict_of_planFor isPlanned with told | told <;>
              simp [Verdict.ofPosted, told, acceptedKey])
      | ok planned =>
          have same : membersOf sha256 (command :: commands) =
              planned.asMember :: membersOf sha256 commands := by
            simp [membersOf, plannedMembers, isPlanned]
          obtain ⟨rfl, _⟩ := planFor_ok isPlanned
          rw [same]
          cases answered with
          | nil =>
              have rest := inductionHypothesis []
              rw [List.zip_nil_right, List.filterMap_nil] at rest ⊢
              exact (List.filterMap_cons_none rfl).trans rest
          | cons first answered =>
              rw [List.zip_cons_cons, List.filterMap_cons, ← inductionHypothesis]
              exact List.filterMap_cons

end Arrival

section Batches

variable {sha256 : List UInt8 → List UInt8} {env : Env} {book : Book}
  {commands : List PostTransaction}

/-- The members' answers handed to their callers. -/
theorem performed_arrival {answered : List (Except WriteError Posted)} {writes : Writes}
    (each : List.Forall₂ (fun m answer => Answered sha256 env book (book.apply writes)
      (.post m.command) (.ofPosted answer)) (membersOf sha256 commands) answered)
    (once : (((membersOf sha256 commands).zip answered).filterMap fun pair =>
      acceptedKey (.post pair.1.command, .ofPosted pair.2)).Nodup)
    (claimed : writes.Claimed
      ((((membersOf sha256 commands).zip answered).map fun pair =>
        (.post pair.1.command, .ofPosted pair.2)))) :
    Performed sha256 env book (book.apply writes) (commands.map .post)
      ((answersInArrivalOrder (commands.map (planFor sha256)) answered).map .ofPosted) where
  answered := by
    rw [List.forall₂_map_left_iff, List.forall₂_map_right_iff]
    refine (forall₂_arrival each).imp fun command answer here => ?_
    rcases here with ⟨refusal, unplanned, rfl⟩ | ⟨planned, isPlanned, told⟩
    · exact .stopped ⟨refusal, unplanned⟩ (verdict_of_planFor unplanned)
    · obtain ⟨rfl, _⟩ := planFor_ok isPlanned
      exact told
  once := by
    rw [acceptedKeys_arrival]
    exact once
  written := ⟨writes, rfl,
    { events := fun event isThere => by
        obtain ⟨submission, made, isAnswer, tenant, key⟩ := claimed.events event isThere
        obtain ⟨⟨m, answer⟩, isPair, same⟩ := List.mem_map.mp isAnswer
        refine ⟨submission, made, ?_, tenant, key⟩
        rw [← same, List.zip_map]
        exact List.mem_map_of_mem (mem_zip_arrival isPair)
      transactions := claimed.transactions
      entries := claimed.entries
      nothing := claimed.nothing }⟩

theorem batchable_of_membersOf
    (carried : refuseAMemberTheBatchCannotCarry (membersOf sha256 commands) = .ok ()) :
    ∀ m ∈ membersOf sha256 commands, Batchable m := by
  intro m isMember
  have plain := unbatchable_of_carried carried m isMember
  have noReversal : m.command.reversesId = none := by
    by_contra reverses
    unfold unbatchable at plain
    rw [if_pos (Option.isSome_iff_ne_none.mpr reverses)] at plain
    split at plain <;> cases plain
  exact ⟨planned_of_plannedMembers sha256 commands m isMember, noReversal⟩

/-- Two members or more whose one statement fails. -/
def Operation.aborts (sha256 : List UInt8 → List UInt8) (env : Env) (book : Book) :
    Operation → Bool
  | postBatch commands =>
      decide (2 ≤ (membersOf sha256 commands).length) &&
        !(claimAndAppendBatch env book book (membersOf sha256 commands)).1.isOk
  | _ => false

theorem perform_post_run (command : PostTransaction) :
    (Operation.post command).perform sha256 env book =
      (.posted (runOn env (post sha256 command).run book).1,
        (runOn env (post sha256 command).run book).2) :=
  runOn_bind env (post sha256 command).run (fun answer => .done (Outcome.posted answer))
    (fun _ => ⟨_, rfl⟩) book

theorem perform_postBatch (commands : List PostTransaction) :
    (Operation.postBatch commands).perform sha256 env book =
      (.postedBatch (runOn env (postBatch sha256 commands) book).1,
        (runOn env (postBatch sha256 commands) book).2) :=
  runOn_bind env (postBatch sha256 commands)
    (fun answers => .done (Outcome.postedBatch answers)) (fun _ => ⟨_, rfl⟩) book

/-- A batch of one command is that command posted. -/
theorem runOn_postBatch_single (only : PostTransaction) :
    runOn env (postBatch sha256 [only]) book =
      ([(runOn env (post sha256 only).run book).1],
        (runOn env (post sha256 only).run book).2) :=
  runOn_bind env (post sha256 only).run (fun answer => .done [answer])
    (fun _ => ⟨_, rfl⟩) book

theorem postBatch_many (many : 2 ≤ commands.length) :
    postBatch sha256 commands = postTogether sha256 commands := by
  match commands, many with
  | _ :: _ :: _, _ => rfl

theorem runOn_postTogether_one {m : BatchMember} (one : membersOf sha256 commands = [m]) :
    runOn env (postTogether sha256 commands) book =
      (answersInArrivalOrder (commands.map (planFor sha256))
        [(runOn env (post sha256 m.command).run book).1],
        (runOn env (post sha256 m.command).run book).2) := by
  unfold membersOf at one
  unfold postTogether
  dsimp only
  rw [one]
  exact runOn_bind env (post sha256 m.command).run
    (fun answer => .done (answersInArrivalOrder (commands.map (planFor sha256)) [answer]))
    (fun _ => ⟨_, rfl⟩) book

theorem runOn_postTogether_many (many : 2 ≤ (membersOf sha256 commands).length) :
    runOn env (postTogether sha256 commands) book =
      (answersInArrivalOrder (commands.map (planFor sha256))
        (answeredTogether (membersOf sha256 commands)
          (batchAlone env book (membersOf sha256 commands)).1),
        book.apply (batchAlone env book (membersOf sha256 commands)).2) := by
  have together : postTogether sha256 commands =
      (appendTheBatch (membersOf sha256 commands)).run >>= fun answer => .done
        (answersInArrivalOrder (commands.map (planFor sha256))
          (answeredTogether (membersOf sha256 commands) answer)) := by
    unfold postTogether
    dsimp only
    unfold membersOf at many ⊢
    match plannedMembers (commands.map (planFor sha256)), many with
    | first :: second :: rest, _ =>
        refine bind_congr fun answer => ?_
        cases answer <;> rfl
  rw [together, runOn_bind env _ _ (fun answer => ⟨_, rfl⟩), runOn_appendTheBatch]
  rfl

/-- The post of a batch's one member. -/
theorem performed_runOn (kept : Kept book) (command : PostTransaction) :
    Performed sha256 env book (runOn env (post sha256 command).run book).2 [.post command]
      [.ofPosted (runOn env (post sha256 command).run book).1] := by
  have performed := @performed_post sha256 env book kept command
  rw [perform_post_run] at performed
  exact performed

/-- Members whose one statement succeeds. -/
theorem performed_together (kept : Kept book) {outcomes : List MemberOutcome} {writes : Writes}
    (ran : claimAndAppendBatch env book book (membersOf sha256 commands) =
      (.ok outcomes, writes)) :
    Performed sha256 env book (book.apply writes) (commands.map .post)
      ((answersInArrivalOrder (commands.map (planFor sha256))
        (answersForMembers outcomes (storedResultBatch (book.apply writes)
          (membersReplayingAnEarlierWrite (membersOf sha256 commands) outcomes)))).map
        .ofPosted) := by
  obtain ⟨carried, allowed, _, isWrites⟩ := claimAndAppendBatch_answered ran
  have batchable := batchable_of_membersOf carried
  obtain ⟨each, fresh⟩ := answered_members kept batchable
    (fun m isMember => plannedMembers_own isMember) ran
  have lands := batchWrites_lands (Book.Precedes.refl book) batchable allowed
  rw [← isWrites] at lands
  refine performed_arrival each (once_members batchable ran _)
    ⟨fun event isThere => ?_, events_of_lands lands, lands.belongs, fun empty => ?_⟩
  · obtain ⟨m, answer, made, isPair, isAnswer, tenant, key⟩ := fresh event isThere
    refine ⟨.post m.command, made, ?_, tenant, key⟩
    rw [← isAnswer]
    exact List.mem_map_of_mem (f := fun pair : BatchMember × Except WriteError Posted =>
      (KeyedCommand.post pair.1.command, Verdict.ofPosted pair.2)) isPair
  · rw [isWrites] at empty ⊢
    exact batchWrites_none empty

/-- Two commands or more, whichever of them got to a statement. -/
theorem performed_postTogether (kept : Kept book)
    (whole : (Operation.postBatch commands).aborts sha256 env book = false) :
    Performed sha256 env book (runOn env (postTogether sha256 commands) book).2
      (commands.map .post) ((runOn env (postTogether sha256 commands) book).1.map .ofPosted) := by
  match isMembers : membersOf sha256 commands with
  | [] =>
      have done : postTogether sha256 commands =
          .done (answersInArrivalOrder (commands.map (planFor sha256)) []) := by
        unfold membersOf at isMembers
        unfold postTogether
        dsimp only
        rw [isMembers]
      have arrived := @performed_arrival sha256 env book commands [] .none
        (isMembers ▸ .nil) (by simp) (Writes.claimed_none _)
      rw [Book.apply_none] at arrived
      rw [done]
      exact arrived
  | [m] =>
      rw [runOn_postTogether_one isMembers]
      obtain ⟨answered, once, writes, isAfter, claimed⟩ := performed_runOn kept m.command
      rw [isAfter] at answered ⊢
      cases answered with
      | cons here _ =>
          exact performed_arrival (isMembers ▸ .cons here .nil) (isMembers ▸ once)
            (isMembers ▸ claimed)
  | one :: two :: others =>
      have many : 2 ≤ (membersOf sha256 commands).length := by
        rw [isMembers]
        exact Nat.le_add_left 2 others.length
      rw [runOn_postTogether_many many]
      cases ran : claimAndAppendBatch env book book (membersOf sha256 commands) with
      | mk answer writes =>
          cases answer with
          | error failure =>
              simp [Operation.aborts, ran, many, Except.isOk, Except.toBool] at whole
          | ok outcomes =>
              have alone : batchAlone env book (membersOf sha256 commands) =
                  (.ok (answersForMembers outcomes (storedResultBatch (book.apply writes)
                    (membersReplayingAnEarlierWrite (membersOf sha256 commands)
                      outcomes))), writes) := by
                unfold batchAlone
                rw [ran]
              rw [alone]
              exact performed_together kept ran

/-- A batch that does not fail as a whole, performed. -/
theorem performed_postBatch (kept : Kept book)
    (whole : (Operation.postBatch commands).aborts sha256 env book = false) :
    Performed sha256 env book ((Operation.postBatch commands).perform sha256 env book).2
      (commands.map .post)
      ((Operation.postBatch commands).perform sha256 env book).1.verdicts := by
  rw [perform_postBatch]
  match commands, whole with
  | [], _ =>
      exact ⟨.nil, List.nodup_nil, .none, (Book.apply_none book).symm, Writes.claimed_none _⟩
  | [only], _ =>
      rw [runOn_postBatch_single]
      exact performed_runOn kept only
  | first :: second :: rest, whole =>
      rw [@postBatch_many sha256 (first :: second :: rest) (Nat.le_add_left 2 rest.length)]
      exact performed_postTogether kept whole

/-- A batch that fails as a whole accepts none of its commands. -/
theorem aborted_postBatch (aborts : (Operation.postBatch commands).aborts sha256 env book = true) :
    ((Operation.postBatch commands).perform sha256 env book).2 = book ∧
      List.Forall₂ (fun _ verdict => verdict = .refused ∨ verdict = .failed) commands
        ((Operation.postBatch commands).perform sha256 env book).1.verdicts := by
  unfold Operation.aborts at aborts
  rw [Bool.and_eq_true, decide_eq_true_eq] at aborts
  obtain ⟨many, fails⟩ := aborts
  have manyCommands : 2 ≤ commands.length := by
    have fewer : (membersOf sha256 commands).length ≤ (commands.map (planFor sha256)).length :=
      List.length_filterMap_le ..
    rw [List.length_map] at fewer
    exact many.trans fewer
  rw [perform_postBatch, postBatch_many manyCommands, runOn_postTogether_many many]
  unfold batchAlone
  cases ran : claimAndAppendBatch env book book (membersOf sha256 commands) with
  | mk answer writes =>
      cases answer with
      | ok outcomes =>
          rw [ran] at fails
          cases fails
      | error failure =>
          refine ⟨Book.apply_none book, ?_⟩
          have each : List.Forall₂ (fun _ answer => answer = .error (.storage failure.rendered))
              (membersOf sha256 commands) (answeredTogether (membersOf sha256 commands)
                (.error (.storage failure))) := by
            rw [answeredTogether, List.forall₂_map_right_iff, List.forall₂_same]
            exact fun _ _ => rfl
          change List.Forall₂ _ _ (List.map _ _)
          rw [List.forall₂_map_right_iff]
          refine (forall₂_arrival each).imp fun command answer here => ?_
          rcases here with ⟨refusal, unplanned, rfl⟩ | ⟨planned, isPlanned, rfl⟩
          · exact verdict_of_planFor unplanned
          · exact Or.inr rfl

end Batches

end OpenLedger
