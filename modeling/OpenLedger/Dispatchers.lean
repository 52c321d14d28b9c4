import OpenLedger.Batching
import Mathlib.Logic.Relation

/-!
# The dispatchers

Callers push and dispatchers drain, hand the baton on, post, answer and wait, in
any order.  Waiting is on one notification that stores a single permit, so the
invariant is about who will still come back to the queue: whoever is not asleep
and not about to be.
-/

namespace OpenLedger

open Program

/-- The most members one statement may carry. -/
def maxBatchMembers : Nat := 25

/-- Where a dispatcher stands in its loop. -/
inductive Phase where
  | draining
  /-- A batch in hand, and whether the drain left work behind. -/
  | handingOn (batch : List Submission) (leaves : Bool)
  /-- The drain came back empty, and the wait has not begun. -/
  | emptyHanded
  | waiting
  | woken
  | posting (batch : List Submission)
  | answering (owed : List (Except WriteError Posted × Nat))

/-- A dispatcher that comes back to the queue before it waits. -/
def Phase.returns : Phase → Prop
  | .emptyHanded => False
  | .waiting => False
  | _ => True

/-- The batch a dispatcher holds and has not posted yet. -/
def Phase.batch : Phase → List Submission
  | .handingOn batch _ => batch
  | .posting batch => batch
  | _ => []

/-- The answers a dispatcher holds and has not sent yet. -/
def Phase.owed : Phase → List (Except WriteError Posted × Nat)
  | .answering owed => owed
  | _ => []

/-- The channels of the callers in a dispatcher's hands. -/
def Phase.callers (phase : Phase) : List Nat :=
  phase.batch.map Submission.answer ++ phase.owed.map Prod.snd

/-- A batch that was posted, what was said to the storage, and its answers. -/
structure Turn where
  batch : List Submission
  exchanges : List Exchanged
  answers : List (Except WriteError Posted)

/-- The queue, its notification and the pool, beside what has been pushed,
posted and sent so far. -/
structure Pool where
  queue : List Submission
  permit : Bool
  dispatchers : List Phase
  /-- Callers whose command is queued and whose notification is still to come. -/
  notifying : Nat
  pushed : List PostTransaction
  turns : List Turn
  sent : List (Except WriteError Posted × Nat)

namespace Pool

def start (dispatchers : Nat) : Pool where
  queue := []
  permit := false
  dispatchers := List.replicate dispatchers .draining
  notifying := 0
  pushed := []
  turns := []
  sent := []

/-- The lock section of a push: a fresh channel at the back of the queue. -/
def enqueued (pool : Pool) (command : PostTransaction) : Pool :=
  { pool with
    queue := pool.queue ++ [⟨command, pool.pushed.length⟩]
    pushed := pool.pushed ++ [command] }

def moved (pool : Pool) (index : Nat) (phase : Phase) : Pool :=
  { pool with dispatchers := pool.dispatchers.set index phase }

/-- One notification: it wakes a waiter, or is stored when nobody waits. -/
inductive NotifyOne (pool : Pool) : Pool → Prop where
  | wakes {index : Nat} (isWaiting : pool.dispatchers[index]? = some .waiting) :
      NotifyOne pool (pool.moved index .woken)
  | stores (nobody : .waiting ∉ pool.dispatchers) : NotifyOne pool { pool with permit := true }

/-- The lock section of a drain, with its decision about the baton. -/
def drained (pool : Pool) (index : Nat) : Pool :=
  let taken := takeWhateverIsWaiting maxBatchMembers pool.queue
  { pool.moved index (if taken.1.isEmpty then .emptyHanded else .handingOn taken.1 !taken.2.isEmpty)
    with queue := taken.2 }

/-- One step of a caller or of a dispatcher. -/
inductive Step (sha256 : List UInt8 → List UInt8) (pool : Pool) : Pool → Prop where
  | push (command : PostTransaction) {after : Pool}
      (notified : (pool.enqueued command).NotifyOne after) : Step sha256 pool after
  | drain {index : Nat} (isHere : pool.dispatchers[index]? = some .draining) :
      Step sha256 pool (pool.drained index)
  | handOn {index : Nat} {batch : List Submission} {after : Pool}
      (isHere : pool.dispatchers[index]? = some (.handingOn batch true))
      (notified : (pool.moved index (.posting batch)).NotifyOne after) : Step sha256 pool after
  | keep {index : Nat} {batch : List Submission}
      (isHere : pool.dispatchers[index]? = some (.handingOn batch false)) :
      Step sha256 pool (pool.moved index (.posting batch))
  | consume {index : Nat} (isHere : pool.dispatchers[index]? = some .emptyHanded)
      (stored : pool.permit = true) :
      Step sha256 pool { pool.moved index .draining with permit := false }
  | sleep {index : Nat} (isHere : pool.dispatchers[index]? = some .emptyHanded)
      (noPermit : pool.permit = false) : Step sha256 pool (pool.moved index .waiting)
  | wake {index : Nat} (isHere : pool.dispatchers[index]? = some .woken) :
      Step sha256 pool (pool.moved index .draining)
  | post {index : Nat} {batch : List Submission} {exchanges : List Exchanged}
      {answers : List (Except WriteError Posted)}
      (isHere : pool.dispatchers[index]? = some (.posting batch))
      (conversation :
        (postBatch sha256 (batch.map Submission.command)).Converses exchanges answers) :
      Step sha256 pool
        { pool.moved index (.answering (answers.zip (batch.map Submission.answer))) with
          turns := pool.turns ++ [⟨batch, exchanges, answers⟩] }
  | answer {index : Nat} {answer : Except WriteError Posted × Nat}
      {owed : List (Except WriteError Posted × Nat)}
      (isHere : pool.dispatchers[index]? = some (.answering (answer :: owed))) :
      Step sha256 pool
        { pool.moved index (.answering owed) with sent := pool.sent ++ [answer] }
  | finish {index : Nat} (isHere : pool.dispatchers[index]? = some (.answering [])) :
      Step sha256 pool (pool.moved index .draining)

/-- A step where a push may also be caught between its lock and its notification. -/
inductive TornStep (sha256 : List UInt8 → List UInt8) (pool : Pool) : Pool → Prop where
  | whole {after : Pool} (step : Step sha256 pool after) : TornStep sha256 pool after
  | enqueue (command : PostTransaction) :
      TornStep sha256 pool { pool.enqueued command with notifying := pool.notifying + 1 }
  | notify {after : Pool} (pending : 0 < pool.notifying)
      (notified : { pool with notifying := pool.notifying - 1 }.NotifyOne after) :
      TornStep sha256 pool after

/-- Work is waiting, and nobody will come for it. -/
def Stranded (pool : Pool) : Prop :=
  pool.queue ≠ [] ∧ (∀ phase ∈ pool.dispatchers, phase = .waiting) ∧ pool.permit = false

/-- Work that is waiting will be looked for: by a dispatcher that returns, or
through a notification stored or still to come. -/
def Attended (pool : Pool) : Prop :=
  pool.queue ≠ [] → pool.permit = true ∨ (∃ phase ∈ pool.dispatchers, Phase.returns phase) ∨
    0 < pool.notifying

section Attendance

variable {pool after : Pool} {index : Nat} {phase : Phase}

theorem exists_moved {old : Phase} (isHere : pool.dispatchers[index]? = some old)
    (returns : Phase.returns phase) :
    ∃ other ∈ (pool.moved index phase).dispatchers, Phase.returns other := by
  have below := (List.getElem?_eq_some_iff.mp isHere).1
  exact ⟨phase, List.mem_set below phase, returns⟩

/-- Whoever else returns still does. -/
theorem exists_moved_other {old : Phase} (isHere : pool.dispatchers[index]? = some old)
    (notOld : ¬Phase.returns old) (found : ∃ other ∈ pool.dispatchers, Phase.returns other) :
    ∃ other ∈ (pool.moved index phase).dispatchers, Phase.returns other := by
  obtain ⟨other, member, returns⟩ := found
  obtain ⟨place, isOther⟩ := List.mem_iff_getElem?.mp member
  have elsewhere : index ≠ place := by
    rintro rfl
    rw [isHere, Option.some.injEq] at isOther
    exact notOld (isOther ▸ returns)
  refine ⟨other, List.mem_of_getElem? (i := place) ?_, returns⟩
  rw [moved, List.getElem?_set_ne elsewhere, isOther]

/-- A notification attends to whatever is waiting. -/
theorem NotifyOne.attended (notified : pool.NotifyOne after) : after.Attended := by
  intro _
  cases notified with
  | wakes isWaiting =>
      exact Or.inr (Or.inl (exists_moved isWaiting trivial))
  | stores nobody =>
      exact Or.inl rfl

theorem Step.attended {sha256 : List UInt8 → List UInt8} (step : Step sha256 pool after)
    (attended : pool.Attended) : after.Attended := by
  cases step with
  | push command notified =>
      exact notified.attended
  | @drain index isHere =>
      intro notEmpty
      have drains := takeWhateverIsWaiting_drains (Nat.succ_le_succ (Nat.zero_le 24)) pool.queue
      by_cases isEmpty : (takeWhateverIsWaiting maxBatchMembers pool.queue).1 = []
      · -- the queue was empty, and the drain left it so
        refine absurd ?_ notEmpty
        have noQueue := drains.emptyOnlyWhenEmpty.mp isEmpty
        have nothingLeft : (takeWhateverIsWaiting maxBatchMembers pool.queue).2 = [] := by
          rw [noQueue]
          rfl
        exact nothingLeft
      · refine Or.inr (Or.inl (exists_moved isHere ?_))
        rw [List.isEmpty_eq_false_iff.mpr isEmpty]
        trivial
  | handOn isHere notified =>
      exact notified.attended
  | keep isHere =>
      exact fun _ => Or.inr (Or.inl (exists_moved isHere trivial))
  | consume isHere stored =>
      exact fun _ => Or.inr (Or.inl (exists_moved isHere trivial))
  | sleep isHere noPermit =>
      intro notEmpty
      rcases attended notEmpty with stored | returns | pending
      · rw [noPermit] at stored
        cases stored
      · exact Or.inr (Or.inl (exists_moved_other isHere id returns))
      · exact Or.inr (Or.inr pending)
  | wake isHere =>
      exact fun _ => Or.inr (Or.inl (exists_moved isHere trivial))
  | post isHere conversation =>
      exact fun _ => Or.inr (Or.inl (exists_moved isHere trivial))
  | answer isHere =>
      exact fun _ => Or.inr (Or.inl (exists_moved isHere trivial))
  | finish isHere =>
      exact fun _ => Or.inr (Or.inl (exists_moved isHere trivial))

theorem TornStep.attended {sha256 : List UInt8 → List UInt8} (step : TornStep sha256 pool after)
    (attended : pool.Attended) : after.Attended := by
  cases step with
  | whole step =>
      exact step.attended attended
  | enqueue command =>
      exact fun _ => Or.inr (Or.inr (Nat.succ_pos _))
  | notify pending notified =>
      exact notified.attended

theorem attended_start (count : Nat) : (start count).Attended := fun notEmpty =>
  absurd rfl notEmpty

/-- An attended pool is not stranded, unless a caller is about to notify. -/
theorem Attended.not_stranded (attended : pool.Attended) (stranded : pool.Stranded) :
    0 < pool.notifying := by
  obtain ⟨notEmpty, allWait, noPermit⟩ := stranded
  rcases attended notEmpty with stored | ⟨phase, member, returns⟩ | pending
  · rw [noPermit] at stored
    cases stored
  · rw [allWait phase member] at returns
    cases returns
  · exact pending

/-- Whole pushes leave no caller about to notify. -/
theorem NotifyOne.notifying (notified : pool.NotifyOne after) :
    after.notifying = pool.notifying := by
  cases notified with
  | wakes isWaiting =>
      rfl
  | stores nobody =>
      rfl

theorem Step.notifying {sha256 : List UInt8 → List UInt8} (step : Step sha256 pool after) :
    after.notifying = pool.notifying := by
  cases step with
  | push command notified =>
      exact notified.notifying
  | handOn isHere notified =>
      exact notified.notifying
  | _ =>
      rfl

end Attendance

/-- Every caller so far stands in one place: queued, in a dispatcher's hands, or
answered. -/
def Accounted (pool : Pool) : Prop :=
  (pool.queue.map Submission.answer ++
    (pool.dispatchers.flatMap Phase.callers ++ pool.sent.map Prod.snd)).Perm
      (List.range pool.pushed.length)

/-- An answer is the one a posted batch gave the caller's own command. -/
def Answered (pool : Pool) (answer : Except WriteError Posted × Nat) : Prop :=
  ∃ turn ∈ pool.turns, ∃ (place : Nat) (submission : Submission),
    turn.batch[place]? = some submission ∧ submission.answer = answer.2 ∧
      turn.answers[place]? = some answer.1

/-- Submissions carry what their callers pushed, and answers are their callers'
own. -/
structure Own (sha256 : List UInt8 → List UInt8) (pool : Pool) : Prop where
  queued : ∀ submission ∈ pool.queue, pool.pushed[submission.answer]? = some submission.command
  held : ∀ phase ∈ pool.dispatchers, ∀ submission ∈ phase.batch,
    pool.pushed[submission.answer]? = some submission.command
  posted : ∀ turn ∈ pool.turns,
    (postBatch sha256 (turn.batch.map Submission.command)).Converses turn.exchanges turn.answers ∧
      ∀ submission ∈ turn.batch, pool.pushed[submission.answer]? = some submission.command
  owed : ∀ phase ∈ pool.dispatchers, ∀ answer ∈ phase.owed, pool.Answered answer
  sent : ∀ answer ∈ pool.sent, pool.Answered answer

section Accounts

variable {pool after : Pool} {index : Nat} {old phase : Phase}

/-- What the dispatchers hold, one of them apart. -/
theorem hands_moved (isHere : pool.dispatchers[index]? = some old) :
    ∃ others, (pool.dispatchers.flatMap Phase.callers).Perm (old.callers ++ others) ∧
      ∀ phase, ((pool.moved index phase).dispatchers.flatMap Phase.callers).Perm
        (phase.callers ++ others) := by
  obtain ⟨below, rfl⟩ := List.getElem?_eq_some_iff.mp isHere
  refine ⟨(pool.dispatchers.eraseIdx index).flatMap Phase.callers, ?_, fun phase => ?_⟩
  · have apart := (List.getElem_cons_eraseIdx_perm below).flatMap_right Phase.callers
    exact apart.symm
  · exact (List.set_perm_cons_eraseIdx below phase).flatMap_right Phase.callers

/-- A dispatcher that goes on with the callers it had, or passes them on. -/
theorem Accounted.carry (accounted : pool.Accounted)
    (isHere : pool.dispatchers[index]? = some old)
    (isDispatchers : after.dispatchers = (pool.moved index phase).dispatchers)
    (isPushed : after.pushed = pool.pushed)
    (conserved : (after.queue.map Submission.answer ++
        (phase.callers ++ after.sent.map Prod.snd)).Perm
      (pool.queue.map Submission.answer ++ (old.callers ++ pool.sent.map Prod.snd))) :
    after.Accounted := by
  obtain ⟨others, isHeld, isMoved⟩ := hands_moved isHere
  unfold Accounted at accounted ⊢
  rw [isDispatchers, isPushed]
  refine List.Perm.trans ?_ accounted
  rw [List.perm_iff_count] at conserved isHeld ⊢
  intro caller
  have moved := (List.perm_iff_count.mp (isMoved phase)) caller
  have kept := conserved caller
  have before := isHeld caller
  simp only [List.count_append] at moved kept before ⊢
  omega

theorem NotifyOne.accounted (notified : pool.NotifyOne after) (accounted : pool.Accounted) :
    after.Accounted := by
  cases notified with
  | wakes isWaiting =>
      exact accounted.carry isWaiting rfl rfl (.refl _)
  | stores nobody =>
      exact accounted

theorem accounted_enqueued (accounted : pool.Accounted) (command : PostTransaction) :
    (pool.enqueued command).Accounted := by
  unfold Accounted at accounted ⊢
  have oneMore : List.range (pool.pushed ++ [command]).length =
      List.range pool.pushed.length ++ [pool.pushed.length] := by
    rw [List.length_append, List.length_singleton, List.range_succ]
  refine List.Perm.trans ?_ (oneMore ▸ accounted.append_right [pool.pushed.length])
  rw [List.perm_iff_count]
  intro caller
  simp only [enqueued, List.map_append, List.map_cons, List.map_nil, List.count_append]
  omega

/-- After a drain, a dispatcher has the callers of its batch in hand. -/
theorem callers_drained {batch : List Submission} {leaves : Bool} :
    (if batch.isEmpty then .emptyHanded else .handingOn batch leaves : Phase).callers =
      batch.map Submission.answer := by
  cases batch with
  | nil =>
      rfl
  | cons head company =>
      exact List.append_nil _

/-- After a post, a dispatcher owes each caller of its batch an answer. -/
theorem callers_answering {batch : List Submission} {answers : List (Except WriteError Posted)}
    (oneEach : answers.length = batch.length) :
    (Phase.answering (answers.zip (batch.map Submission.answer))).callers =
      (Phase.posting batch).callers := by
  have sameLength : (batch.map Submission.answer).length ≤ answers.length := by
    rw [List.length_map, oneEach]
  exact (List.map_snd_zip sameLength).trans (List.append_nil _).symm

theorem length_of_postBatch {sha256 : List UInt8 → List UInt8} {batch : List Submission}
    {exchanges : List Exchanged} {answers : List (Except WriteError Posted)}
    (conversation :
      (postBatch sha256 (batch.map Submission.command)).Converses exchanges answers) :
    answers.length = batch.length := by
  rw [((postBatch_keeps _).converses conversation).oneEach, List.length_map]

theorem Step.accounted {sha256 : List UInt8 → List UInt8} (step : Step sha256 pool after)
    (accounted : pool.Accounted) : after.Accounted := by
  cases step with
  | push command notified =>
      exact notified.accounted (accounted_enqueued accounted command)
  | @drain index isHere =>
      have drains := takeWhateverIsWaiting_drains (Nat.succ_le_succ (Nat.zero_le 24)) pool.queue
      refine accounted.carry isHere rfl rfl ?_
      rw [callers_drained, ← List.append_assoc]
      refine List.Perm.append_right _ ?_
      have conserved := drains.nothingLost.map Submission.answer
      rw [List.map_append] at conserved
      exact List.perm_append_comm.trans conserved
  | handOn isHere notified =>
      exact notified.accounted (accounted.carry isHere rfl rfl (.refl _))
  | keep isHere =>
      exact accounted.carry isHere rfl rfl (.refl _)
  | consume isHere stored =>
      exact accounted.carry isHere rfl rfl (.refl _)
  | sleep isHere noPermit =>
      exact accounted.carry isHere rfl rfl (.refl _)
  | wake isHere =>
      exact accounted.carry isHere rfl rfl (.refl _)
  | post isHere conversation =>
      refine accounted.carry isHere rfl rfl (List.Perm.append_left _ ?_)
      rw [callers_answering (length_of_postBatch conversation)]
      exact .refl _
  | @answer index answer owed isHere =>
      refine accounted.carry isHere rfl rfl (List.Perm.append_left _ ?_)
      show ((owed.map Prod.snd) ++ (pool.sent ++ [answer]).map Prod.snd).Perm
        ((answer :: owed).map Prod.snd ++ pool.sent.map Prod.snd)
      rw [List.map_append, ← List.append_assoc]
      exact List.perm_append_singleton _ _
  | finish isHere =>
      exact accounted.carry isHere rfl rfl (.refl _)

end Accounts

section Ownership

variable {sha256 : List UInt8 → List UInt8} {pool after : Pool} {index : Nat}
  {old phase : Phase}

/-- The book of pushes and of posted batches is only added to. -/
structure Recorded (pool after : Pool) : Prop where
  pushed : pool.pushed <+: after.pushed
  turns : pool.turns ⊆ after.turns

theorem Recorded.answered (recorded : pool.Recorded after)
    {answer : Except WriteError Posted × Nat} (answered : pool.Answered answer) :
    after.Answered answer := by
  obtain ⟨turn, isTurn, rest⟩ := answered
  exact ⟨turn, recorded.turns isTurn, rest⟩

theorem Recorded.pushed_at (recorded : pool.Recorded after) {caller : Nat}
    {command : PostTransaction} (isPushed : pool.pushed[caller]? = some command) :
    after.pushed[caller]? = some command := by
  obtain ⟨more, isAfter⟩ := recorded.pushed
  rw [← isAfter, List.getElem?_append_left (List.getElem?_eq_some_iff.mp isPushed).1, isPushed]

/-- A pool whose every new piece is owned. -/
theorem Own.carry (own : pool.Own sha256) (recorded : pool.Recorded after)
    (queued : ∀ submission ∈ after.queue, submission ∈ pool.queue ∨
      after.pushed[submission.answer]? = some submission.command)
    (dispatchers : ∀ other ∈ after.dispatchers, other ∈ pool.dispatchers ∨
      ((∀ submission ∈ other.batch,
        after.pushed[submission.answer]? = some submission.command) ∧
        ∀ answer ∈ other.owed, after.Answered answer))
    (posted : ∀ turn ∈ after.turns, turn ∈ pool.turns ∨
      (postBatch sha256 (turn.batch.map Submission.command)).Converses turn.exchanges
          turn.answers ∧
        ∀ submission ∈ turn.batch, after.pushed[submission.answer]? = some submission.command)
    (sent : ∀ answer ∈ after.sent, answer ∈ pool.sent ∨ after.Answered answer) :
    after.Own sha256 := by
  refine ⟨fun submission isQueued => ?_, fun other isOther => ?_, fun turn isTurn => ?_,
    fun other isOther => ?_, fun answer isSent => ?_⟩
  · rcases queued submission isQueued with isOld | isNew
    · exact recorded.pushed_at (own.queued submission isOld)
    · exact isNew
  · rcases dispatchers other isOther with isOld | ⟨isNew, _⟩
    · exact fun submission isHeld => recorded.pushed_at (own.held other isOld submission isHeld)
    · exact isNew
  · rcases posted turn isTurn with isOld | isNew
    · exact ⟨(own.posted turn isOld).1, fun submission isMember =>
        recorded.pushed_at ((own.posted turn isOld).2 submission isMember)⟩
    · exact isNew
  · rcases dispatchers other isOther with isOld | ⟨_, isNew⟩
    · exact fun answer isOwed => recorded.answered (own.owed other isOld answer isOwed)
    · exact isNew
  · rcases sent answer isSent with isOld | isNew
    · exact recorded.answered (own.sent answer isOld)
    · exact isNew

theorem Own.moved (own : pool.Own sha256)
    (held : ∀ submission ∈ phase.batch, pool.pushed[submission.answer]? = some submission.command)
    (owed : ∀ answer ∈ phase.owed, pool.Answered answer) : (pool.moved index phase).Own sha256 := by
  have recorded : pool.Recorded (pool.moved index phase) :=
    ⟨List.prefix_refl _, List.Subset.refl _⟩
  refine own.carry recorded (fun _ => Or.inl) (fun other isOther => ?_) (fun _ => Or.inl)
    (fun _ => Or.inl)
  rcases List.mem_or_eq_of_mem_set isOther with isOld | rfl
  · exact Or.inl isOld
  · exact Or.inr ⟨held, owed⟩

theorem NotifyOne.own (notified : pool.NotifyOne after) (own : pool.Own sha256) :
    after.Own sha256 := by
  cases notified with
  | wakes isWaiting =>
      exact own.moved nofun nofun
  | stores nobody =>
      exact ⟨own.queued, own.held, own.posted, own.owed, own.sent⟩

theorem own_enqueued (own : pool.Own sha256) (command : PostTransaction) :
    (pool.enqueued command).Own sha256 := by
  have recorded : pool.Recorded (pool.enqueued command) :=
    ⟨List.prefix_append _ _, List.Subset.refl _⟩
  refine own.carry recorded (fun submission isQueued => ?_) (fun _ => Or.inl) (fun _ => Or.inl)
    (fun _ => Or.inl)
  rcases List.mem_append.mp isQueued with isOld | isNew
  · exact Or.inl isOld
  · obtain rfl := List.mem_singleton.mp isNew
    exact Or.inr List.getElem?_concat_length

theorem batch_drained {batch : List Submission} {leaves : Bool} :
    (if batch.isEmpty then .emptyHanded else .handingOn batch leaves : Phase).batch = batch := by
  cases batch <;> rfl

theorem owed_drained {batch : List Submission} {leaves : Bool} :
    (if batch.isEmpty then .emptyHanded else .handingOn batch leaves : Phase).owed = [] := by
  cases batch <;> rfl

/-- The answers of a posted batch go to the callers at their places. -/
theorem answered_of_turn (turn : Turn) (isTurn : turn ∈ pool.turns)
    {answer : Except WriteError Posted × Nat}
    (isOwed : answer ∈ turn.answers.zip (turn.batch.map Submission.answer)) :
    pool.Answered answer := by
  obtain ⟨place, isHere⟩ := List.mem_iff_getElem?.mp isOwed
  obtain ⟨isAnswer, isCaller⟩ := List.getElem?_zip_eq_some.mp isHere
  rw [List.getElem?_map, Option.map_eq_some_iff] at isCaller
  obtain ⟨submission, isSubmission, isChannel⟩ := isCaller
  exact ⟨turn, isTurn, place, submission, isSubmission, isChannel, isAnswer⟩

theorem Step.own (step : Step sha256 pool after) (own : pool.Own sha256) :
    after.Own sha256 := by
  cases step with
  | push command notified =>
      exact notified.own (own_enqueued own command)
  | @drain index isHere =>
      have drains := takeWhateverIsWaiting_drains (Nat.succ_le_succ (Nat.zero_le 24)) pool.queue
      have recorded : pool.Recorded (pool.drained index) :=
        ⟨List.prefix_refl _, List.Subset.refl _⟩
      refine own.carry recorded (fun submission isLeft => Or.inl (drains.leftInOrder.subset isLeft))
        (fun other isOther => ?_) (fun _ => Or.inl) (fun _ => Or.inl)
      rcases List.mem_or_eq_of_mem_set isOther with isOld | rfl
      · exact Or.inl isOld
      · refine Or.inr ⟨fun submission isTaken => ?_, fun answer isOwed => ?_⟩
        · rw [batch_drained] at isTaken
          exact own.queued submission (drains.batchInOrder.subset isTaken)
        · rw [owed_drained] at isOwed
          cases isOwed
  | handOn isHere notified =>
      have held := own.held _ (List.mem_of_getElem? isHere)
      exact notified.own (own.moved held nofun)
  | keep isHere =>
      have held := own.held _ (List.mem_of_getElem? isHere)
      exact own.moved held nofun
  | @consume index isHere stored =>
      have moved : (pool.moved index .draining).Own sha256 := own.moved nofun nofun
      exact ⟨moved.queued, moved.held, moved.posted, moved.owed, moved.sent⟩
  | sleep isHere noPermit =>
      exact own.moved nofun nofun
  | wake isHere =>
      exact own.moved nofun nofun
  | @post index batch exchanges answers isHere conversation =>
      have held : ∀ submission ∈ batch,
          pool.pushed[submission.answer]? = some submission.command :=
        own.held _ (List.mem_of_getElem? isHere)
      refine own.carry ⟨List.prefix_refl _, List.subset_append_left _ _⟩ (fun _ => Or.inl)
        (fun other isOther => ?_) (fun turn isTurn => ?_) (fun _ => Or.inl)
      · rcases List.mem_or_eq_of_mem_set isOther with isOld | rfl
        · exact Or.inl isOld
        · refine Or.inr ⟨nofun, fun answer isOwed => ?_⟩
          have isTurn : (⟨batch, exchanges, answers⟩ : Turn) ∈
              pool.turns ++ [⟨batch, exchanges, answers⟩] :=
            List.mem_append_right _ (List.mem_singleton_self _)
          exact answered_of_turn ⟨batch, exchanges, answers⟩ isTurn isOwed
      · rcases List.mem_append.mp isTurn with isOld | isNew
        · exact Or.inl isOld
        · obtain rfl := List.mem_singleton.mp isNew
          exact Or.inr ⟨conversation, held⟩
  | @answer index answer owed isHere =>
      have owes : ∀ other ∈ answer :: owed, pool.Answered other :=
        own.owed _ (List.mem_of_getElem? isHere)
      refine own.carry ⟨List.prefix_refl _, List.Subset.refl _⟩ (fun _ => Or.inl)
        (fun other isOther => ?_) (fun _ => Or.inl) (fun other isSent => ?_)
      · rcases List.mem_or_eq_of_mem_set isOther with isOld | rfl
        · exact Or.inl isOld
        · exact Or.inr ⟨nofun, fun other isOwed => owes other (List.mem_cons_of_mem _ isOwed)⟩
      · rcases List.mem_append.mp isSent with isOld | isNew
        · exact Or.inl isOld
        · obtain rfl := List.mem_singleton.mp isNew
          exact Or.inr (owes other List.mem_cons_self)
  | finish isHere =>
      exact own.moved nofun nofun

theorem TornStep.accounted (step : TornStep sha256 pool after) (accounted : pool.Accounted) :
    after.Accounted := by
  cases step with
  | whole step =>
      exact step.accounted accounted
  | enqueue command =>
      exact accounted_enqueued accounted command
  | notify pending notified =>
      exact notified.accounted accounted

theorem TornStep.own (step : TornStep sha256 pool after) (own : pool.Own sha256) :
    after.Own sha256 := by
  cases step with
  | whole step =>
      exact step.own own
  | enqueue command =>
      have queued := own_enqueued own command
      exact ⟨queued.queued, queued.held, queued.posted, queued.owed, queued.sent⟩
  | notify pending notified =>
      exact notified.own ⟨own.queued, own.held, own.posted, own.owed, own.sent⟩

end Ownership

section Progress

variable {sha256 : List UInt8 → List UInt8} {pool after : Pool} {index : Nat} {phase : Phase}

/-- The dispatcher is back at the queue, and these callers have their answers. -/
structure TurnOver (sha256 : List UInt8 → List UInt8) (pool : Pool) (index : Nat)
    (callers : List Nat) (after : Pool) : Prop where
  reached : Relation.ReflTransGen (Step sha256) pool after
  isBack : after.dispatchers[index]? = some .draining
  answered : ∀ caller ∈ callers, caller ∈ after.sent.map Prod.snd

theorem moved_at (isHere : pool.dispatchers[index]? = some phase) (next : Phase) :
    (pool.moved index next).dispatchers[index]? = some next :=
  List.getElem?_set_self (List.getElem?_eq_some_iff.mp isHere).1

theorem Step.sent_subset (step : Step sha256 pool after) : pool.sent ⊆ after.sent := by
  have kept : ∀ {before later : Pool}, before.NotifyOne later → before.sent = later.sent := by
    intro before later notified
    cases notified with
    | wakes isWaiting =>
        rfl
    | stores nobody =>
        rfl
  cases step with
  | push command notified =>
      exact fun _ member => kept notified ▸ member
  | handOn isHere notified =>
      exact fun _ member => kept notified ▸ member
  | answer isHere =>
      exact List.subset_append_left _ _
  | _ =>
      exact List.Subset.refl _

theorem sent_subset (reached : Relation.ReflTransGen (Step sha256) pool after) :
    pool.sent ⊆ after.sent := by
  induction reached with
  | refl =>
      exact List.Subset.refl _
  | tail _ step inductionHypothesis =>
      exact fun _ member => step.sent_subset (inductionHypothesis member)

/-- A dispatcher that owes answers sends them one after another. -/
theorem turnOver_answering {owed : List (Except WriteError Posted × Nat)}
    (isHere : pool.dispatchers[index]? = some (.answering owed)) :
    ∃ after, TurnOver sha256 pool index (owed.map Prod.snd) after := by
  induction owed generalizing pool with
  | nil =>
      exact ⟨_, .single (.finish isHere), moved_at isHere _,
        fun _ isCaller => absurd isCaller List.not_mem_nil⟩
  | cons answer owed inductionHypothesis =>
      obtain ⟨after, ended⟩ := @inductionHypothesis
        { pool.moved index (.answering owed) with sent := pool.sent ++ [answer] }
        (moved_at isHere _)
      refine ⟨after, .head (.answer isHere) ended.reached, ended.isBack, fun caller isCaller => ?_⟩
      rcases List.mem_cons.mp isCaller with rfl | isLater
      · have isSent := sent_subset ended.reached
          (List.mem_append_right pool.sent (List.mem_singleton_self answer))
        exact List.mem_map_of_mem isSent
      · exact ended.answered caller isLater

/-- A dispatcher that holds a batch posts it, and owes its callers the answers. -/
theorem turnOver_posting {batch : List Submission}
    (isHere : pool.dispatchers[index]? = some (.posting batch)) :
    ∃ after, TurnOver sha256 pool index (batch.map Submission.answer) after := by
  obtain ⟨exchanges, answers, conversation⟩ : ∃ exchanges answers,
      (postBatch sha256 (batch.map Submission.command)).Converses exchanges answers := by
    obtain ⟨exchanges, conversation⟩ := Program.converses_run
      (fun _ _ => (.error (.message "unavailable"), ()))
      (postBatch sha256 (batch.map Submission.command)) ()
    exact ⟨exchanges, _, conversation⟩
  let owing : Phase := .answering (answers.zip (batch.map Submission.answer))
  obtain ⟨after, ended⟩ := @turnOver_answering sha256
    { pool.moved index owing with turns := pool.turns ++ [⟨batch, exchanges, answers⟩] }
    index (answers.zip (batch.map Submission.answer)) (moved_at isHere owing)
  have sameLength : (batch.map Submission.answer).length ≤ answers.length := by
    rw [List.length_map, length_of_postBatch conversation]
  refine ⟨after, .head (.post isHere conversation) ended.reached, ended.isBack, ?_⟩
  rw [← List.map_snd_zip sameLength]
  exact ended.answered

/-- A notification leaves whoever is not waiting where it is. -/
theorem NotifyOne.stays (notified : pool.NotifyOne after)
    (isHere : pool.dispatchers[index]? = some phase) (awake : phase ≠ .waiting) :
    after.dispatchers[index]? = some phase := by
  cases notified with
  | @wakes other isWaiting =>
      have elsewhere : other ≠ index := by
        rintro rfl
        rw [isHere, Option.some.injEq] at isWaiting
        exact awake isWaiting
      exact (List.getElem?_set_ne elsewhere).trans isHere
  | stores nobody =>
      exact isHere

theorem exists_notifyOne (pool : Pool) : ∃ after, pool.NotifyOne after := by
  by_cases isWaiting : .waiting ∈ pool.dispatchers
  · obtain ⟨index, isHere⟩ := List.mem_iff_getElem?.mp isWaiting
    exact ⟨_, .wakes isHere⟩
  · exact ⟨_, .stores isWaiting⟩

/-- Whoever is in a dispatcher's hands can be answered before it drains again. -/
theorem turnOver (isHere : pool.dispatchers[index]? = some phase) (busy : phase.callers ≠ []) :
    ∃ after, TurnOver sha256 pool index phase.callers after := by
  cases phase with
  | posting batch =>
      obtain ⟨after, ended⟩ := @turnOver_posting sha256 pool index batch isHere
      exact ⟨after, ended.reached, ended.isBack, fun caller isCaller =>
        ended.answered caller (List.append_nil (batch.map Submission.answer) ▸ isCaller)⟩
  | answering owed =>
      exact turnOver_answering isHere
  | handingOn batch leaves =>
      have isCallers : batch.map Submission.answer ++ [] = batch.map Submission.answer :=
        List.append_nil _
      have posting := moved_at isHere (.posting batch)
      cases leaves with
      | false =>
          obtain ⟨after, ended⟩ := @turnOver_posting sha256 _ index batch posting
          exact ⟨after, .head (.keep isHere) ended.reached, ended.isBack, fun caller isCaller =>
            ended.answered caller (isCallers ▸ isCaller)⟩
      | true =>
          obtain ⟨notified, isNotified⟩ := exists_notifyOne (pool.moved index (.posting batch))
          obtain ⟨after, ended⟩ := @turnOver_posting sha256 notified index batch
            (isNotified.stays posting nofun)
          exact ⟨after, .head (.handOn isHere isNotified) ended.reached, ended.isBack,
            fun caller isCaller => ended.answered caller (isCallers ▸ isCaller)⟩
  | _ =>
      exact absurd rfl busy

end Progress

section Runs

variable {sha256 : List UInt8 → List UInt8} {pool : Pool}

/-- What a pool owes its callers: each stands in one place, is answered at most
once and with what its own command was answered in its batch, and can be
answered once a dispatcher has taken it. -/
structure Served (sha256 : List UInt8 → List UInt8) (pool : Pool) : Prop where
  placedOnce : pool.Accounted
  answeredOnce : (pool.sent.map Prod.snd).Nodup
  ownAnswer : ∀ answer caller, (answer, caller) ∈ pool.sent →
    ∃ turn ∈ pool.turns, ∃ (place : Nat) (command : PostTransaction),
      pool.pushed[caller]? = some command ∧ turn.batch[place]? = some ⟨command, caller⟩ ∧
      turn.answers[place]? = some answer ∧
      NeverCrossed sha256 (turn.batch.map Submission.command) turn.exchanges turn.answers
  canBeAnswered : ∀ (index : Nat) phase, pool.dispatchers[index]? = some phase →
    phase.callers ≠ [] → ∃ after, TurnOver sha256 pool index phase.callers after

theorem accounted_start (count : Nat) : (start count).Accounted := by
  have noHands : (start count).dispatchers.flatMap Phase.callers = [] := by
    rw [List.flatMap_eq_nil_iff]
    intro phase isPhase
    rw [List.eq_of_mem_replicate isPhase]
    rfl
  unfold Accounted
  rw [noHands]
  exact .refl _

theorem own_start (count : Nat) : (start count).Own sha256 := by
  have idle : ∀ phase ∈ (start count).dispatchers, phase = .draining :=
    fun phase isPhase => List.eq_of_mem_replicate isPhase
  refine ⟨nofun, fun phase isPhase submission isHeld => ?_, nofun,
    fun phase isPhase answer isOwed => ?_, nofun⟩
  · rw [idle phase isPhase] at isHeld
    cases isHeld
  · rw [idle phase isPhase] at isOwed
    cases isOwed

/-- The invariants hold of every pool a run of torn steps reaches. -/
theorem invariants_of_reached {count : Nat}
    (reached : Relation.ReflTransGen (TornStep sha256) (start count) pool) :
    pool.Attended ∧ pool.Accounted ∧ pool.Own sha256 := by
  induction reached with
  | refl =>
      exact ⟨attended_start count, accounted_start count, own_start count⟩
  | tail _ step inductionHypothesis =>
      obtain ⟨attended, accounted, own⟩ := inductionHypothesis
      exact ⟨step.attended attended, step.accounted accounted, step.own own⟩

theorem served_of_reached {count : Nat}
    (reached : Relation.ReflTransGen (TornStep sha256) (start count) pool) :
    pool.Served sha256 := by
  obtain ⟨_, accounted, own⟩ := invariants_of_reached reached
  have callersOnce : (pool.queue.map Submission.answer ++
      (pool.dispatchers.flatMap Phase.callers ++ pool.sent.map Prod.snd)).Nodup :=
    accounted.nodup_iff.mpr List.nodup_range
  refine ⟨accounted, ?_, fun answer caller isSent => ?_, fun _ _ => turnOver⟩
  · exact (List.nodup_append.mp (List.nodup_append.mp callersOnce).2.1).2.1
  · obtain ⟨turn, isTurn, place, ⟨command, channel⟩, isMember, rfl, isAnswer⟩ :=
      own.sent (answer, caller) isSent
    obtain ⟨conversation, pushed⟩ := own.posted turn isTurn
    exact ⟨turn, isTurn, place, command, pushed _ (List.mem_of_getElem? isMember), isMember,
      isAnswer, (postBatch_keeps _).converses conversation⟩

/-- Whole pushes are torn ones whose notification is never still to come. -/
theorem torn_of_reached {count : Nat}
    (reached : Relation.ReflTransGen (Step sha256) (start count) pool) :
    Relation.ReflTransGen (TornStep sha256) (start count) pool ∧ pool.notifying = 0 := by
  induction reached with
  | refl =>
      exact ⟨.refl, rfl⟩
  | tail _ step inductionHypothesis =>
      exact ⟨inductionHypothesis.1.tail (.whole step),
        step.notifying.trans inductionHypothesis.2⟩

end Runs

end Pool

/-- However many dispatchers there are, and however their steps and the callers'
interleave, work that is waiting has someone to come for it, and every caller a
dispatcher takes is answered once, with its own command's answer.  A push caught
between its lock and its notification is the one that comes for its own work. -/
theorem no_submission_is_stranded (sha256 : List UInt8 → List UInt8) (count : Nat) :
    (∀ pool, Relation.ReflTransGen (Pool.Step sha256) (Pool.start count) pool →
      ¬pool.Stranded) ∧
    ∀ pool, Relation.ReflTransGen (Pool.TornStep sha256) (Pool.start count) pool →
      (pool.Stranded → 0 < pool.notifying) ∧ pool.Served sha256 := by
  refine ⟨fun pool reached stranded => ?_, fun pool reached => ⟨?_, Pool.served_of_reached reached⟩⟩
  · obtain ⟨torn, nobodyNotifies⟩ := Pool.torn_of_reached reached
    have notifies := (Pool.invariants_of_reached torn).1.not_stranded stranded
    omega
  · exact (Pool.invariants_of_reached reached).1.not_stranded

namespace Shop

/-- One dispatcher, at work, when the first command arrives. -/
def onePushed : Pool := { (Pool.start 1).enqueued firstFee with permit := true }

theorem onePushed_reached :
    Relation.ReflTransGen (Pool.Step id) (Pool.start 1) onePushed :=
  .single (.push firstFee (.stores (by
    intro isWaiting
    cases List.eq_of_mem_replicate isWaiting)))

theorem onePushed_not_stranded : ¬onePushed.Stranded ∧ onePushed.Served id :=
  ⟨(no_submission_is_stranded id 1).1 onePushed onePushed_reached,
    ((no_submission_is_stranded id 1).2 onePushed (Pool.torn_of_reached onePushed_reached).1).2⟩

end Shop

end OpenLedger
