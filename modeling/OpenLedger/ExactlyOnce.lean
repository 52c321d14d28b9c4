import OpenLedger.BatchSubmissions

/-!
# Exactly once

A history is a book with everything that was ever submitted to it and what each
caller was told.  Over every history a key is accepted once; its body submitted
again is told what was made the first time, another body is turned away, and
nothing in the book is of a submission that was not accepted.
-/

namespace OpenLedger

open Postgres

/-- A book, and what was submitted to it with what each was told. -/
inductive History (sha256 : List UInt8 → List UInt8) (chart : Chart) :
    Book → Xid → List (KeyedCommand × Verdict) → Prop where
  | empty : History sha256 chart (Book.empty chart) 0 []
  | perform {book : Book} {next : Xid} {past : List (KeyedCommand × Verdict)}
      (history : History sha256 chart book next past) (operation : Operation) (env : Env)
      (assigned : next ≤ env.xid) :
      History sha256 chart (operation.perform sha256 env book).2 (env.xid + 1)
        (past ++ operation.submissions.zip (operation.perform sha256 env book).1.verdicts)

/-- An operation that is not a failed batch, performed. -/
theorem performed_operation {sha256 : List UInt8 → List UInt8} {env : Env} {book : Book}
    (kept : Kept book) (operation : Operation)
    (whole : operation.aborts sha256 env book = false) :
    Performed sha256 env book (operation.perform sha256 env book).2 operation.submissions
      (operation.perform sha256 env book).1.verdicts := by
  cases operation with
  | post command =>
      exact performed_post kept command
  | postBatch commands =>
      exact performed_postBatch kept whole
  | openAccount command =>
      exact performed_openAccount kept
  | definePeriod command =>
      exact performed_definePeriod kept
  | closePeriod command =>
      exact performed_closePeriod kept

section Bodies

variable {sha256 : List UInt8 → List UInt8} {book after : Book}

/-- A close that was planned stays planned. -/
theorem closePlan_later (precedes : book.Precedes after) {command : ClosePeriod}
    {plan : ClosePlan} (planned : closePlan book command = .ok plan) :
    closePlan after command = .ok plan := by
  unfold closePlan periodCloseContext at planned ⊢
  cases isPeriod : book.period? command.tenantId command.periodCode with
  | none =>
      rw [isPeriod] at planned
      cases planned
  | some period =>
      have laterPeriod : after.period? command.tenantId command.periodCode = some period :=
        Book.Precedes.find?_of_prefix precedes.periods isPeriod
      rw [isPeriod] at planned
      rw [laterPeriod]
      dsimp only [Option.map_some] at planned ⊢
      cases isAccount : book.accounts.find? _ with
      | none =>
          rw [isAccount] at planned
          cases planned
      | some account =>
          rw [Book.Precedes.find?_of_prefix precedes.accounts isAccount]
          rw [isAccount] at planned
          exact planned

/-- What got to its key once gets to it again. -/
theorem KeyedCommand.proceeds_later (precedes : book.Precedes after) {command : KeyedCommand}
    (proceeds : ¬ command.StopsBeforeClaim sha256 book) :
    ¬ command.StopsBeforeClaim sha256 after := by
  intro stops
  cases command with
  | post command =>
      exact proceeds stops
  | openAccount command =>
      refine proceeds fun triple isTriple => stops triple ?_
      unfold chartTripleForPurpose at isTriple ⊢
      rw [← precedes.chart]
      exact isTriple
  | definePeriod command =>
      exact proceeds stops
  | closePeriod command =>
      obtain ⟨refusal, unplanned⟩ := stops
      cases planned : closePlan book command with
      | error earlier =>
          exact proceeds ⟨earlier, planned⟩
      | ok plan =>
          rw [closePlan_later precedes planned] at unplanned
          cases unplanned

/-- What an event made it has made. -/
theorem KeyedCommand.MadeBy.later (precedes : book.Precedes after) {command : KeyedCommand}
    {event : EventRow} {made : Made} (isMade : command.MadeBy book event made) :
    command.MadeBy after event made := by
  cases command with
  | post command | closePeriod command =>
      obtain ⟨transaction, caused, rfl⟩ := isMade
      exact ⟨transaction, Book.Precedes.find?_of_prefix precedes.transactions caused, rfl⟩
  | openAccount command =>
      obtain ⟨account, under, rfl⟩ := isMade
      exact ⟨account, Book.Precedes.find?_of_prefix precedes.accounts under, rfl⟩
  | definePeriod command =>
      obtain ⟨period, found, rfl⟩ := isMade
      exact ⟨period, Book.Precedes.find?_of_prefix precedes.periods found, rfl⟩

end Bodies

section Same

variable {sha256 : List UInt8 → List UInt8} {book : Book} {first second : KeyedCommand}
  {bytes : List UInt8}

def KeyedCommand.kind : KeyedCommand → CommandKind
  | post _ => .post
  | openAccount _ => .openAccount
  | definePeriod _ => .definePeriod
  | closePeriod _ => .closePeriod

/-- The bytes of each operation begin with its tag. -/
theorem KeyedCommand.tag_of_canonicalBytes {command : KeyedCommand}
    (rendered : command.canonicalBytes = .ok bytes) :
    ∃ rest, bytes = utf8Bytes command.kind.tag ++ rest := by
  cases command with
  | post command =>
      exact (Command.post command).tag_of_canonicalBytes rendered
  | openAccount command =>
      have isBytes : command.canonicalBytes = bytes := Except.ok.inj rendered
      rw [← isBytes, OpenAccount.canonicalBytes]
      simp only [List.append_assoc]
      exact ⟨_, rfl⟩
  | definePeriod command =>
      exact (Command.definePeriod command).tag_of_canonicalBytes rendered
  | closePeriod command =>
      exact (Command.closePeriod command).tag_of_canonicalBytes rendered

theorem KeyedCommand.kind_eq (isFirst : first.canonicalBytes = .ok bytes)
    (isSecond : second.canonicalBytes = .ok bytes) : first.kind = second.kind := by
  obtain ⟨firstRest, isBytes⟩ := tag_of_canonicalBytes isFirst
  obtain ⟨secondRest, sameBytes⟩ := tag_of_canonicalBytes isSecond
  exact CommandKind.eq_of_tag_append (isBytes.symm.trans sameBytes)

/-- One body's answer is the other's, when the two have the same bytes. -/
theorem KeyedCommand.repeated_of_made (isFirst : first.canonicalBytes = .ok bytes)
    (isSecond : second.canonicalBytes = .ok bytes) {event : EventRow} {made : Made}
    (isMade : first.MadeBy book event made) :
    second.repeated book event = second.onceMore event.id made := by
  have oneKind := kind_eq isFirst isSecond
  cases first with
  | post first =>
      cases second with
      | post second =>
          obtain ⟨transaction, caused, rfl⟩ := isMade
          rw [repeated, caused]
          rfl
      | openAccount | definePeriod | closePeriod => cases oneKind
  | openAccount first =>
      cases second with
      | openAccount second =>
          obtain ⟨account, under, rfl⟩ := isMade
          have equal : first.canonicalBytes = second.canonicalBytes :=
            (Except.ok.inj isFirst).trans (Except.ok.inj isSecond).symm
          obtain ⟨_, purpose, kind, owner, currency, _⟩ :=
            OpenAccount.fields_of_canonicalBytes equal
          unfold accountUnder at under
          rw [purpose, kind, owner, currency] at under
          have sameAccount : accountUnder book second event.tenantId = some account := under
          rw [repeated, sameAccount]
          rfl
      | post | definePeriod | closePeriod => cases oneKind
  | definePeriod first =>
      cases second with
      | definePeriod second =>
          obtain ⟨period, found, rfl⟩ := isMade
          obtain ⟨_, code, _⟩ := (DefinePeriod.canonicalBytes_eq_iff isFirst).mp isSecond
          rw [code] at found
          rw [repeated, found]
          rfl
      | post | openAccount | closePeriod => cases oneKind
  | closePeriod first =>
      cases second with
      | closePeriod second =>
          rfl
      | post | openAccount | definePeriod => cases oneKind

/-- The same bytes get as far. -/
theorem KeyedCommand.proceeds_of_same (isFirst : first.canonicalBytes = .ok bytes)
    (isSecond : second.canonicalBytes = .ok bytes) (rendered : second.Rendered)
    (proceeds : ¬ first.StopsBeforeClaim sha256 book) :
    ¬ second.StopsBeforeClaim sha256 book := by
  have oneKind := kind_eq isFirst isSecond
  cases first with
  | post first =>
      cases second with
      | post second =>
          obtain ⟨_, _, status, _, _, postings⟩ :=
            (PostTransaction.canonicalBytes_eq_iff isFirst).mp isSecond
          obtain ⟨payload, isPayload⟩ := rendered
          have hashed : second.idempotencyHash sha256 = .ok (sha256 bytes) := by
            rw [PostTransaction.idempotencyHash, show second.canonicalBytes = .ok bytes from isSecond]
            rfl
          cases isPlanned : planFor sha256 first with
          | error refusal =>
              exact absurd ⟨refusal, isPlanned⟩ proceeds
          | ok planned =>
              obtain ⟨_, _, _, isAppend⟩ := planFor_ok isPlanned
              rw [status, postings] at isAppend
              rintro ⟨refusal, unplanned⟩
              rw [planFor, hashed] at unplanned
              dsimp only at unplanned
              rw [isPayload] at unplanned
              dsimp only at unplanned
              rw [isAppend] at unplanned
              cases unplanned
      | openAccount | definePeriod | closePeriod => cases oneKind
  | openAccount first =>
      cases second with
      | openAccount second =>
          have equal : first.canonicalBytes = second.canonicalBytes :=
            (Except.ok.inj isFirst).trans (Except.ok.inj isSecond).symm
          obtain ⟨_, purpose, kind, owner, _⟩ := OpenAccount.fields_of_canonicalBytes equal
          intro stops
          refine proceeds fun triple isTriple => ?_
          rw [purpose] at isTriple
          have disagrees := stops triple isTriple
          unfold theOwnerTheTypeAndTheSchemaDisagreeAbout at disagrees ⊢
          rw [kind, owner, purpose]
          exact disagrees
      | post | definePeriod | closePeriod => cases oneKind
  | definePeriod first =>
      cases second with
      | definePeriod second =>
          obtain ⟨payload, isPayload⟩ := rendered
          have hashed : second.idempotencyHash sha256 = .ok (sha256 bytes) := by
            rw [DefinePeriod.idempotencyHash, show second.canonicalBytes = .ok bytes from isSecond]
            rfl
          exact fun stops => stops _ payload hashed isPayload
      | post | openAccount | closePeriod => cases oneKind
  | closePeriod first =>
      cases second with
      | closePeriod second =>
          have equal : first.canonicalBytes = second.canonicalBytes :=
            (Except.ok.inj isFirst).trans (Except.ok.inj isSecond).symm
          obtain ⟨tenant, code, currency⟩ := ClosePeriod.canonicalBytes_eq_iff.mp equal
          cases planned : closePlan book first with
          | error refusal =>
              exact absurd ⟨refusal, planned⟩ proceeds
          | ok plan =>
              have alike : closePlan book second = .ok plan := by
                unfold closePlan periodCloseContext at planned ⊢
                rw [tenant, code, currency] at planned
                exact planned
              rintro ⟨refusal, unplanned⟩
              rw [alike] at unplanned
              cases unplanned
      | post | openAccount | definePeriod => cases oneKind

end Same

section Memory

variable {sha256 : List UInt8 → List UInt8} {env : Env} {book after : Book}
  {past : List (KeyedCommand × Verdict)}

/-- A key is held by the event its command was accepted with, and what that event
made is there. -/
structure KeyedCommand.HeldBy (sha256 : List UInt8 → List UInt8) (book : Book)
    (command : KeyedCommand) (event : EventRow) (made : Made) : Prop where
  isThere : event ∈ book.events
  tenant : event.tenantId = command.tenantId
  key : event.idempotencyKey = command.idempotencyKey
  hashed : command.idempotencyHash sha256 = .ok event.idempotencyHash
  isMade : command.MadeBy book event made
  proceeds : ¬ command.StopsBeforeClaim sha256 book

theorem KeyedCommand.HeldBy.later (precedes : book.Precedes after) {command : KeyedCommand}
    {event : EventRow} {made : Made} (held : command.HeldBy sha256 book event made) :
    command.HeldBy sha256 after event made where
  isThere := precedes.events.subset held.isThere
  tenant := held.tenant
  key := held.key
  hashed := held.hashed
  isMade := held.isMade.later precedes
  proceeds := proceeds_later precedes held.proceeds

/-- What a book keeps of its history. -/
structure Remembers (sha256 : List UInt8 → List UInt8) (book : Book)
    (past : List (KeyedCommand × Verdict)) : Prop where
  accepted : ∀ command eventId made, (command, Verdict.accepted eventId made false) ∈ past →
    ∃ event, event.id = eventId ∧ command.HeldBy sha256 book event made
  claimed : ∀ event ∈ book.events, ∃ command made,
    (command, Verdict.accepted event.id made false) ∈ past ∧
      event.tenantId = command.tenantId ∧ event.idempotencyKey = command.idempotencyKey
  once : (past.filterMap acceptedKey).Nodup

/-- A held key accepts nothing for the first time. -/
theorem heldVerdict_ne_accepted (command : KeyedCommand) (book : Book) (event : EventRow)
    (eventId : Uuid) (made : Made) :
    command.heldVerdict sha256 book event ≠ .accepted eventId made false := by
  unfold KeyedCommand.heldVerdict
  by_cases same : command.idempotencyHash sha256 = .ok event.idempotencyHash
  · rw [if_pos same]
    cases command with
    | post command =>
        exact nofun
    | openAccount command =>
        unfold KeyedCommand.repeated
        dsimp only
        split <;> exact nofun
    | definePeriod command =>
        unfold KeyedCommand.repeated
        dsimp only
        split <;> exact nofun
    | closePeriod command =>
        exact nofun
  · rw [if_neg same]
    exact nofun

/-- What a first acceptance is: the key was free, and the event holding it now made
what was answered. -/
theorem Answered.accepted (precedes : book.Precedes after) {command : KeyedCommand}
    {eventId : Uuid} {made : Made}
    (answered : Answered sha256 env book after command (.accepted eventId made false)) :
    book.holderOf command.tenantId command.idempotencyKey = none ∧
      ∃ event, event.id = eventId ∧ command.HeldBy sha256 after event made := by
  generalize isVerdict : Verdict.accepted eventId made false = verdict at answered
  cases answered with
  | stopped _ isRefusal =>
      subst isVerdict
      rcases isRefusal with told | told <;> cases told
  | held _ _ =>
      exact absurd isVerdict.symm (heldVerdict_ne_accepted command after _ eventId made)
  | failed _ =>
      cases isVerdict
  | refused _ _ isRefusal =>
      subst isVerdict
      rcases isRefusal with told | told <;> cases told
  | fresh proceeds free isThere tenant key hashed isMade =>
      cases isVerdict
      exact ⟨free, _, rfl, isThere, tenant, key, hashed, isMade,
        KeyedCommand.proceeds_later precedes proceeds⟩

/-- An operation performed is remembered. -/
theorem Remembers.perform (kept : Kept book) (precedes : book.Precedes after)
    (remembers : Remembers sha256 book past) {submissions : List KeyedCommand}
    {verdicts : List Verdict}
    (performed : Performed sha256 env book after submissions verdicts) :
    Remembers sha256 after (past ++ submissions.zip verdicts) := by
  have each : ∀ {command verdict}, (command, verdict) ∈ submissions.zip verdicts →
      Answered sha256 env book after command verdict :=
    (List.forall₂_iff_zip.mp performed.answered).2
  constructor
  · intro command eventId made isAccepted
    rcases List.mem_append.mp isAccepted with inPast | isNew
    · obtain ⟨event, isEvent, held⟩ := remembers.accepted command eventId made inPast
      exact ⟨event, isEvent, held.later precedes⟩
    · exact ((each isNew).accepted precedes).2
  · intro event isThere
    obtain ⟨writes, rfl, claimed⟩ := performed.written
    rw [Book.events_apply] at isThere
    rcases List.mem_append.mp isThere with wasThere | isNew
    · obtain ⟨command, made, inPast, named⟩ := remembers.claimed event wasThere
      exact ⟨command, made, List.mem_append_left _ inPast, named⟩
    · obtain ⟨command, made, isAnswer, named⟩ := claimed.events event isNew
      exact ⟨command, made, List.mem_append_right _ isAnswer, named⟩
  · rw [List.filterMap_append, List.nodup_append]
    refine ⟨remembers.once, performed.once, ?_⟩
    -- a key of the past is held, and a key accepted now was free
    intro key inPast otherKey isNew same
    subst same
    obtain ⟨⟨earlier, earlierVerdict⟩, isEarlier, earlierKey⟩ := List.mem_filterMap.mp inPast
    obtain ⟨⟨now, nowVerdict⟩, isNow, nowKey⟩ := List.mem_filterMap.mp isNew
    obtain ⟨eventId, made, told, rfl⟩ := acceptedKey_eq_some earlierKey
    obtain ⟨newEventId, newMade, newTold, sameKey⟩ := acceptedKey_eq_some nowKey
    obtain ⟨tenant, key⟩ := Prod.mk.inj sameKey
    dsimp only at told newTold tenant key
    subst told newTold
    obtain ⟨event, _, held⟩ := remembers.accepted earlier eventId made isEarlier
    obtain ⟨free, _⟩ := (each isNow).accepted precedes
    have holder := holderOf_of_mem kept held.isThere
    rw [held.tenant, held.key, tenant, key, free] at holder
    cases holder

/-- A batch that failed as a whole leaves nothing to remember. -/
theorem Remembers.aborted (remembers : Remembers sha256 book past)
    {submissions : List KeyedCommand} {verdicts : List Verdict}
    (refused : ∀ answer ∈ submissions.zip verdicts, answer.2 = .refused ∨ answer.2 = .failed) :
    Remembers sha256 book (past ++ submissions.zip verdicts) where
  accepted := fun command eventId made isAccepted => by
    rcases List.mem_append.mp isAccepted with inPast | isNew
    · exact remembers.accepted command eventId made inPast
    · rcases refused _ isNew with told | told <;> cases told
  claimed := fun event isThere => by
    obtain ⟨command, made, inPast, named⟩ := remembers.claimed event isThere
    exact ⟨command, made, List.mem_append_left _ inPast, named⟩
  once := by
    have none : (submissions.zip verdicts).filterMap acceptedKey = [] := by
      rw [List.filterMap_eq_nil_iff]
      intro answer isAnswer
      obtain ⟨command, verdict⟩ := answer
      rcases refused _ isAnswer with told | told
      · subst told
        rfl
      · subst told
        rfl
    rw [List.filterMap_append, none, List.append_nil]
    exact remembers.once

end Memory

section Histories

variable {sha256 : List UInt8 → List UInt8} {chart : Chart} {book : Book} {next : Xid}
  {past : List (KeyedCommand × Verdict)}

/-- What each submission of a run is told. -/
def pastOf (sha256 : List UInt8 → List UInt8) :
    List (Operation × Env) → Book → List (KeyedCommand × Verdict)
  | [], _ => []
  | (operation, env) :: operations, book =>
      operation.submissions.zip (operation.perform sha256 env book).1.verdicts ++
        pastOf sha256 operations (operation.perform sha256 env book).2

theorem history_performAll (history : History sha256 chart book next past)
    {operations : List (Operation × Env)} (ascending : Ascending operations next) :
    History sha256 chart (performAll sha256 operations book) (nextAfter operations next)
      (past ++ pastOf sha256 operations book) := by
  induction operations generalizing book next past with
  | nil =>
      rw [pastOf, List.append_nil]
      exact history
  | cons operation operations inductionHypothesis =>
      rw [pastOf, ← List.append_assoc]
      exact inductionHypothesis (history.perform operation.1 operation.2 ascending.1) ascending.2

theorem kept_of_history (history : History sha256 chart book next past) : Kept book := by
  induction history with
  | empty =>
      exact Kept.empty chart
  | perform _ operation env _ inductionHypothesis =>
      exact (kept_perform sha256 operation env inductionHypothesis).1

/-- A batch that fails as a whole accepts nothing and leaves the book. -/
theorem aborted_operation {env : Env} {operation : Operation}
    (aborts : operation.aborts sha256 env book = true) :
    (operation.perform sha256 env book).2 = book ∧
      ∀ answer ∈ operation.submissions.zip (operation.perform sha256 env book).1.verdicts,
        answer.2 = .refused ∨ answer.2 = .failed := by
  cases operation with
  | postBatch commands =>
      obtain ⟨same, refused⟩ := aborted_postBatch aborts
      refine ⟨same, fun answer isAnswer => ?_⟩
      have each : List.Forall₂ (fun _ verdict => verdict = Verdict.refused ∨ verdict = .failed)
          (commands.map KeyedCommand.post)
          ((Operation.postBatch commands).perform sha256 env book).1.verdicts :=
        List.forall₂_map_left_iff.mpr refused
      exact (List.forall₂_iff_zip.mp each).2 isAnswer
  | post command | openAccount command | definePeriod command | closePeriod command =>
      cases aborts

/-- Every history is remembered. -/
theorem remembers_of_history (history : History sha256 chart book next past) :
    Remembers sha256 book past := by
  induction history with
  | empty =>
      constructor
      · intro command eventId made isAccepted
        cases isAccepted
      · intro event isThere
        cases isThere
      · exact List.nodup_nil
  | @perform book _ past history operation env _ inductionHypothesis =>
      have kept := kept_of_history history
      have precedes := (kept_perform sha256 operation env kept).2
      cases aborts : operation.aborts sha256 env book with
      | false =>
          exact inductionHypothesis.perform kept precedes
            (performed_operation kept operation aborts)
      | true =>
          obtain ⟨same, refused⟩ := aborted_operation aborts
          rw [same]
          exact inductionHypothesis.aborted refused

/-- What is accepted is accepted once and is in the book, and every transaction of
the book is the one of a command that was accepted. -/
structure OnceEach (book : Book) (past : List (KeyedCommand × Verdict)) : Prop where
  once : (past.filterMap acceptedKey).Nodup
  durable : ∀ command eventId made, (command, Verdict.accepted eventId made false) ∈ past →
    ∃ event ∈ book.events, event.id = eventId ∧ event.tenantId = command.tenantId ∧
      event.idempotencyKey = command.idempotencyKey ∧ command.MadeBy book event made
  claimed : ∀ event ∈ book.events, ∃ command made,
    (command, Verdict.accepted event.id made false) ∈ past ∧
      event.tenantId = command.tenantId ∧ event.idempotencyKey = command.idempotencyKey
  caused : ∀ transaction ∈ book.transactions, ∃ event ∈ book.events,
    event.tenantId = transaction.tenantId ∧ event.id = transaction.eventId ∧
      ∀ other ∈ book.transactions, other.tenantId = transaction.tenantId →
        other.eventId = transaction.eventId → other = transaction

/-- What a command is due, given everything submitted before it: a body accepted
before is told what was made then, another body is turned away, and a key never
accepted is accepted now or stays free for a reason the book shows. -/
structure KeyedCommand.Due (sha256 : List UInt8 → List UInt8) (env : Env) (book : Book)
    (past : List (KeyedCommand × Verdict)) (command : KeyedCommand) (verdict : Verdict) :
    Prop where
  again : ∀ first eventId made bytes, (first, Verdict.accepted eventId made false) ∈ past →
    first.tenantId = command.tenantId → first.idempotencyKey = command.idempotencyKey →
    first.canonicalBytes = .ok bytes → command.canonicalBytes = .ok bytes → command.Rendered →
    verdict = command.onceMore eventId made
  reused : ∀ first eventId made, (first, Verdict.accepted eventId made false) ∈ past →
    first.tenantId = command.tenantId → first.idempotencyKey = command.idempotencyKey →
    first.idempotencyHash sha256 ≠ command.idempotencyHash sha256 →
    verdict = .keyReused ∨
      (command.StopsBeforeClaim sha256 book ∧ (verdict = .refused ∨ verdict = .failed))
  fresh : (command.tenantId, command.idempotencyKey) ∉ past.filterMap acceptedKey →
    (∃ eventId made, verdict = .accepted eventId made false) ∨ verdict = .failed ∨
      ((command.StopsBeforeClaim sha256 book ∨ command.Obstructed env book) ∧
        (verdict = .refused ∨ verdict = .periodAlreadyClosed))

/-- A key that was accepted is held by its event. -/
theorem Remembers.holder (kept : Kept book) (remembers : Remembers sha256 book past)
    {command first : KeyedCommand} {eventId : Uuid} {made : Made}
    (isAccepted : (first, Verdict.accepted eventId made false) ∈ past)
    (tenant : first.tenantId = command.tenantId)
    (key : first.idempotencyKey = command.idempotencyKey) :
    ∃ event, event.id = eventId ∧ first.HeldBy sha256 book event made ∧
      book.holderOf command.tenantId command.idempotencyKey = some event := by
  obtain ⟨event, isEvent, held⟩ := remembers.accepted first eventId made isAccepted
  have holder := holderOf_of_mem kept held.isThere
  rw [held.tenant, held.key, tenant, key] at holder
  exact ⟨event, isEvent, held, holder⟩

/-- A held key answers by its holder, whatever was decided before the key was read. -/
theorem Answered.of_held {env : Env} {after : Book} {command : KeyedCommand} {verdict : Verdict}
    {event : EventRow} (answered : Answered sha256 env book after command verdict)
    (holder : book.holderOf command.tenantId command.idempotencyKey = some event) :
    (¬ command.StopsBeforeClaim sha256 book ∧
        verdict = command.heldVerdict sha256 after event) ∨
      (command.StopsBeforeClaim sha256 book ∧ (verdict = .refused ∨ verdict = .failed)) := by
  cases answered with
  | stopped stops isRefusal =>
      exact Or.inr ⟨stops, isRefusal⟩
  | held proceeds isHeld =>
      rw [holder, Option.some.injEq] at isHeld
      subst isHeld
      exact Or.inl ⟨proceeds, rfl⟩
  | failed free | refused free | fresh _ free =>
      rw [free] at holder
      cases holder

/-- What an operation tells each command is what the command is due. -/
theorem due_of_answered {env : Env} {after : Book} (kept : Kept book)
    (precedes : book.Precedes after) (remembers : Remembers sha256 book past)
    {command : KeyedCommand} {verdict : Verdict}
    (answered : Answered sha256 env book after command verdict) :
    command.Due sha256 env book past verdict where
  again := by
    intro first eventId made bytes isAccepted tenant key isFirst isSecond rendered
    obtain ⟨event, rfl, held, holder⟩ := remembers.holder kept isAccepted tenant key
    have proceeds := KeyedCommand.proceeds_of_same isFirst isSecond rendered held.proceeds
    rcases answered.of_held holder with ⟨_, rfl⟩ | ⟨stops, _⟩
    · have sameHash : command.idempotencyHash sha256 = .ok event.idempotencyHash := by
        have hashes : ∀ {one : KeyedCommand}, one.canonicalBytes = .ok bytes →
            one.idempotencyHash sha256 = .ok (sha256 bytes) := by
          intro one rendered
          cases one with
          | post one =>
              rw [KeyedCommand.canonicalBytes] at rendered
              rw [KeyedCommand.idempotencyHash, PostTransaction.idempotencyHash, rendered]
              rfl
          | definePeriod one =>
              rw [KeyedCommand.canonicalBytes] at rendered
              rw [KeyedCommand.idempotencyHash, DefinePeriod.idempotencyHash, rendered]
              rfl
          | openAccount one | closePeriod one =>
              rw [← Except.ok.inj rendered]
              rfl
        rw [hashes isSecond, ← hashes isFirst]
        exact held.hashed
      rw [KeyedCommand.heldVerdict, if_pos sameHash]
      exact KeyedCommand.repeated_of_made isFirst isSecond (held.isMade.later precedes)
    · exact absurd stops proceeds
  reused := by
    intro first eventId made isAccepted tenant key different
    obtain ⟨event, rfl, held, holder⟩ := remembers.holder kept isAccepted tenant key
    rcases answered.of_held holder with ⟨_, rfl⟩ | stopped
    · rw [held.hashed] at different
      rw [KeyedCommand.heldVerdict, if_neg (Ne.symm different)]
      exact Or.inl rfl
    · exact Or.inr stopped
  fresh := by
    intro never
    cases answered with
    | stopped stops isRefusal =>
        rcases isRefusal with told | told
        · exact Or.inr (Or.inr ⟨Or.inl stops, Or.inl told⟩)
        · exact Or.inr (Or.inl told)
    | held proceeds isHeld =>
        obtain ⟨isThere, tenant, key⟩ := holderOf_spec isHeld
        obtain ⟨first, made, isAccepted, sameTenant, sameKey⟩ := remembers.claimed _ isThere
        refine absurd (List.mem_filterMap.mpr ⟨_, isAccepted, ?_⟩) never
        rw [acceptedKey, ← sameTenant, ← sameKey, tenant, key]
    | failed _ =>
        exact Or.inr (Or.inl rfl)
    | refused _ obstructed isRefusal =>
        exact Or.inr (Or.inr ⟨Or.inr obstructed, isRefusal⟩)
    | fresh =>
        exact Or.inl ⟨_, _, rfl⟩

/-- Over every history: what was accepted was accepted once, is in the book, and is
all there is in it; and whatever is submitted next is told what it is due, or
belongs to a batch that failed and left the book as it was. -/
theorem exactly_once (history : History sha256 chart book next past) (operation : Operation)
    (env : Env) :
    OnceEach book past ∧
      (operation.aborts sha256 env book = false →
        ∀ answer ∈ operation.submissions.zip (operation.perform sha256 env book).1.verdicts,
          answer.1.Due sha256 env book past answer.2) ∧
      (operation.aborts sha256 env book = true →
        ∀ answer ∈ operation.submissions.zip (operation.perform sha256 env book).1.verdicts,
          answer.2 = .refused ∨ answer.2 = .failed) ∧
      ((operation.submissions.zip (operation.perform sha256 env book).1.verdicts).filterMap
        acceptedKey = [] → (operation.perform sha256 env book).2 = book) := by
  have kept := kept_of_history history
  have remembers := remembers_of_history history
  refine ⟨?_, fun whole answer isAnswer => ?_, fun aborts => (aborted_operation aborts).2, ?_⟩
  · constructor
    · exact remembers.once
    · intro command eventId made isAccepted
      obtain ⟨event, isEvent, held⟩ := remembers.accepted command eventId made isAccepted
      exact ⟨event, held.isThere, isEvent, held.tenant, held.key, held.isMade⟩
    · exact remembers.claimed
    · intro transaction isThere
      obtain ⟨event, isEvent, tenant, id, _⟩ := kept.caused transaction isThere
      refine ⟨event, isEvent, tenant, id, fun other isOther sameTenant sameEvent => ?_⟩
      have found := causedBy_of_mem kept isOther
      rw [sameTenant, sameEvent, causedBy_of_mem kept isThere] at found
      exact (Option.some.inj found).symm
  · have performed := performed_operation kept operation whole
    have precedes := (kept_perform sha256 operation env kept).2
    exact due_of_answered kept precedes remembers
      ((List.forall₂_iff_zip.mp performed.answered).2 isAnswer)
  · intro nothing
    cases aborts : operation.aborts sha256 env book with
    | true =>
        exact (aborted_operation aborts).1
    | false =>
        obtain ⟨writes, isAfter, claimed⟩ := (performed_operation kept operation aborts).written
        have noEvents : writes.events = [] := by
          rw [List.eq_nil_iff_forall_not_mem]
          intro event isNew
          obtain ⟨command, made, isAnswer, _⟩ := claimed.events event isNew
          cases List.filterMap_eq_nil_iff.mp nothing _ isAnswer
        rw [isAfter, claimed.nothing noEvents, Book.apply_none]

end Histories

namespace Shop

/-- A fee posted once. -/
def feePosted : List (Operation × Env) := opened ++ [(.post firstFee, envOf 4)]

/-- Submitted again, it is told of the first posting, and the book stays. -/
theorem feePosted_once : OnceEach (performAll id feePosted (Book.empty chart))
      (pastOf id feePosted (Book.empty chart)) ∧
    ((Operation.post firstFee).perform id (envOf 5)
      (performAll id feePosted (Book.empty chart))).1.verdicts =
        [.accepted (uuid 4000) (.transaction (some (uuid 4100))) true] ∧
    ((Operation.post firstFee).perform id (envOf 5)
      (performAll id feePosted (Book.empty chart))).2 =
        performAll id feePosted (Book.empty chart) := by
  have history : History id chart (performAll id feePosted (Book.empty chart))
      (nextAfter feePosted 0) (pastOf id feePosted (Book.empty chart)) :=
    history_performAll .empty (by decide)
  have told : ((Operation.post firstFee).perform id (envOf 5)
      (performAll id feePosted (Book.empty chart))).1.verdicts =
        [.accepted (uuid 4000) (.transaction (some (uuid 4100))) true] := by
    have answer : (runOn (envOf 5) (post id firstFee).run
        (performAll id feePosted (Book.empty chart))).1 =
          .ok ⟨uuid 4000, some (uuid 4100), true⟩ := by
      decide +kernel
    rw [perform_post_run, answer]
    rfl
  have owed := exactly_once history (.post firstFee) (envOf 5)
  refine ⟨owed.1, told, owed.2.2.2 ?_⟩
  rw [told]
  rfl

end Shop

end OpenLedger
