import OpenLedger.BatchAnswers
import OpenLedger.Lib.Drain

/-!
# The accumulator's queue

Which commands may share a statement, and which of the waiting ones a dispatcher
takes when its turn comes.  The head of the queue decides the batch, the company
behind it is collected by one pass, and everyone else is stepped over.
-/

namespace OpenLedger

open Drain

/-- Whether a command may ride a shared statement. -/
inductive Batchability where
  | ridesWithOthers
  | postsAlone
deriving DecidableEq, Repr

def batchabilityOf (command : PostTransaction) : Batchability :=
  if command.resolvesId.isSome || command.reversesId.isSome ||
      decide (command.status = .pending) then .postsAlone
  else .ridesWithOthers

/-- One caller, waiting: the command it wants posted and the channel its own
answer goes back down, which no other submission has. -/
structure Submission where
  command : PostTransaction
  answer : Nat

/-- Whether one waiting caller may join the batch being formed behind `tenant`. -/
def ridesWithTheBatch (batch : List Submission) (tenant : String) (waiter : Submission) : Bool :=
  decide (waiter.command.tenantId = tenant) &&
    decide (batchabilityOf waiter.command = .ridesWithOthers) &&
    !batch.any fun member =>
      decide (member.command.idempotencyKey = waiter.command.idempotencyKey)

/-- Grow the head's batch out of the queue behind it, up to the ceiling: a waiter
that joins is removed from the position just tested, and one that does not is
stepped over. -/
def collectTheCompanyBehind (tenant : String) (ceiling : Nat)
    (batch waiting : List Submission) (position : Nat) : List Submission × List Submission :=
  if running : position < waiting.length ∧ batch.length < ceiling then
    if ridesWithTheBatch batch tenant waiting[position] then
      collectTheCompanyBehind tenant ceiling (batch ++ [waiting[position]])
        (waiting.eraseIdx position) position
    else collectTheCompanyBehind tenant ceiling batch waiting (position + 1)
  else (batch, waiting)
termination_by waiting.length - position
decreasing_by
  · rw [List.length_eraseIdx_of_lt running.1]
    omega
  · omega

/-- Take whatever is waiting right now: never more than the ceiling, and never
anything the head cannot share a statement with.  The batch, and what is left. -/
def takeWhateverIsWaiting (ceiling : Nat) : List Submission → List Submission × List Submission
  | [] => ([], [])
  | head :: waiting =>
      if batchabilityOf head.command = .ridesWithOthers then
        collectTheCompanyBehind head.command.tenantId ceiling [head] waiting 0
      else ([head], waiting)

/-- The company a tenant's batch admits. -/
def ridesBehind (tenant : String) (batch : List Submission) (waiter : Submission) : Bool :=
  ridesWithTheBatch batch tenant waiter

/-- The index loop is one pass over what stands behind its position. -/
theorem collectTheCompanyBehind_eq (tenant : String) (ceiling : Nat)
    (batch skipped waiting : List Submission) :
    collectTheCompanyBehind tenant ceiling batch (skipped ++ waiting) skipped.length =
      ((pass (ridesBehind tenant) ceiling batch waiting).1,
        skipped ++ (pass (ridesBehind tenant) ceiling batch waiting).2) := by
  induction waiting generalizing batch skipped with
  | nil =>
      rw [collectTheCompanyBehind, dif_neg (by simp)]
      rfl
  | cons waiter waiting inductionHypothesis =>
      have inside : skipped.length < (skipped ++ waiter :: waiting).length := by simp
      have here : (skipped ++ waiter :: waiting)[skipped.length] = waiter := by simp
      rw [collectTheCompanyBehind, Drain.pass]
      by_cases room : batch.length < ceiling
      · rw [dif_pos ⟨inside, room⟩, if_pos room, here]
        by_cases joins : ridesWithTheBatch batch tenant waiter = true
        · have removed : (skipped ++ waiter :: waiting).eraseIdx skipped.length =
              skipped ++ waiting := by
            rw [List.eraseIdx_append_of_length_le (Nat.le_refl _), Nat.sub_self]
            rfl
          rw [if_pos joins, ridesBehind, if_pos joins, removed]
          exact inductionHypothesis (batch ++ [waiter]) skipped
        · have further := inductionHypothesis batch (skipped ++ [waiter])
          rw [List.append_assoc, List.length_append] at further
          rw [if_neg joins, ridesBehind, if_neg joins]
          exact further.trans (by rw [List.append_assoc]; rfl)
      · rw [dif_neg (fun running => room running.2), if_neg room]

section Rules

/-- What may travel in one statement: one tenant, each key once, and a command
that posts alone by itself. -/
structure SharesAStatement (batch : List Submission) : Prop where
  oneTenant : ∀ member ∈ batch, ∀ other ∈ batch,
    member.command.tenantId = other.command.tenantId
  oneKeyEach : (batch.map fun member => member.command.idempotencyKey).Nodup
  alone : ∀ member ∈ batch, batchabilityOf member.command = .postsAlone → batch = [member]

/-- A batch behind its tenant, while it is being formed. -/
structure Forming (tenant : String) (batch : List Submission) : Prop where
  sameTenant : ∀ member ∈ batch, member.command.tenantId = tenant
  rides : ∀ member ∈ batch, batchabilityOf member.command = .ridesWithOthers
  oneKeyEach : (batch.map fun member => member.command.idempotencyKey).Nodup

variable {tenant : String} {batch : List Submission} {waiter : Submission}

theorem ridesBehind_iff :
    ridesBehind tenant batch waiter = true ↔
      waiter.command.tenantId = tenant ∧
      batchabilityOf waiter.command = .ridesWithOthers ∧
      waiter.command.idempotencyKey ∉ batch.map fun member => member.command.idempotencyKey := by
  simp [ridesBehind, ridesWithTheBatch, and_assoc]

theorem ridesBehind_antitone (more : List Submission)
    (rides : ridesBehind tenant (batch ++ more) waiter = true) :
    ridesBehind tenant batch waiter = true := by
  rw [ridesBehind_iff] at rides ⊢
  refine ⟨rides.1, rides.2.1, fun travelling => rides.2.2 ?_⟩
  rw [List.map_append]
  exact List.mem_append_left _ travelling

theorem Forming.append (forming : Forming tenant batch)
    (rides : ridesBehind tenant batch waiter = true) : Forming tenant (batch ++ [waiter]) := by
  obtain ⟨sameTenant, ridesAlong, newKey⟩ := ridesBehind_iff.mp rides
  refine ⟨fun member isMember => ?_, fun member isMember => ?_, ?_⟩
  · rcases List.mem_append.mp isMember with isOld | isNew
    · exact forming.sameTenant member isOld
    · exact List.mem_singleton.mp isNew ▸ sameTenant
  · rcases List.mem_append.mp isMember with isOld | isNew
    · exact forming.rides member isOld
    · exact List.mem_singleton.mp isNew ▸ ridesAlong
  · rw [List.map_append, List.map_singleton]
    refine List.nodup_append.mpr ⟨forming.oneKeyEach, List.nodup_singleton _, ?_⟩
    intro key isOld other isNew
    obtain rfl := List.mem_singleton.mp isNew
    rintro rfl
    exact newKey isOld

theorem forming_head {head : Submission} (rides : batchabilityOf head.command = .ridesWithOthers) :
    Forming head.command.tenantId [head] :=
  ⟨fun _ isMember => by rw [List.mem_singleton.mp isMember],
    fun _ isMember => by rw [List.mem_singleton.mp isMember, rides],
    List.nodup_singleton _⟩

theorem Forming.sharesAStatement (forming : Forming tenant batch) : SharesAStatement batch := by
  refine ⟨fun member isMember other isOther => ?_, forming.oneKeyEach,
    fun member isMember postsAlone => ?_⟩
  · rw [forming.sameTenant member isMember, forming.sameTenant other isOther]
  · rw [forming.rides member isMember] at postsAlone
    cases postsAlone

/-- Whoever does not ride with a batch could not share its statement. -/
theorem Forming.refuses (forming : Forming tenant batch) (notEmpty : batch ≠ [])
    (stepped : ridesBehind tenant batch waiter = false) :
    ¬SharesAStatement (batch ++ [waiter]) := by
  intro shares
  have isLast : waiter ∈ batch ++ [waiter] :=
    List.mem_append_right _ (List.mem_singleton_self waiter)
  obtain ⟨first, isFirst⟩ := List.exists_mem_of_ne_nil batch notEmpty
  have sameTenant : waiter.command.tenantId = tenant :=
    (shares.oneTenant waiter isLast first (List.mem_append_left _ isFirst)).trans
      (forming.sameTenant first isFirst)
  have rides : batchabilityOf waiter.command = .ridesWithOthers := by
    cases batchable : batchabilityOf waiter.command with
    | ridesWithOthers =>
        rfl
    | postsAlone =>
        have single := shares.alone waiter isLast batchable
        rw [List.append_eq_cons_iff] at single
        rcases single with ⟨isEmpty, _⟩ | ⟨rest, isBatch, isRest⟩
        · exact absurd isEmpty notEmpty
        · rw [eq_comm, List.append_eq_nil_iff] at isRest
          cases isRest.2
  have newKey : waiter.command.idempotencyKey ∉
      batch.map fun member => member.command.idempotencyKey := by
    have distinct := shares.oneKeyEach
    rw [List.map_append, List.map_singleton] at distinct
    exact fun travelling => (List.nodup_append.mp distinct).2.2 _ travelling _
      (List.mem_singleton_self _) rfl
  rw [ridesBehind_iff.mpr ⟨sameTenant, rides, newKey⟩] at stepped
  cases stepped

end Rules

section Drains

variable {ceiling : Nat}

theorem takeWhateverIsWaiting_rides {head : Submission}
    (rides : batchabilityOf head.command = .ridesWithOthers) (waiting : List Submission) :
    takeWhateverIsWaiting ceiling (head :: waiting) =
      pass (ridesBehind head.command.tenantId) ceiling [head] waiting := by
  rw [takeWhateverIsWaiting, if_pos rides]
  exact collectTheCompanyBehind_eq head.command.tenantId ceiling [head] [] waiting

theorem takeWhateverIsWaiting_alone {head : Submission}
    (postsAlone : batchabilityOf head.command = .postsAlone) (waiting : List Submission) :
    takeWhateverIsWaiting ceiling (head :: waiting) = ([head], waiting) := by
  rw [takeWhateverIsWaiting, postsAlone]
  rfl

/-- The head is taken first, and what stands behind it is split in order. -/
theorem takeWhateverIsWaiting_splits (head : Submission) (waiting : List Submission) :
    ∃ company, (takeWhateverIsWaiting ceiling (head :: waiting)).1 = head :: company ∧
      Splits waiting company (takeWhateverIsWaiting ceiling (head :: waiting)).2 := by
  cases batchable : batchabilityOf head.command with
  | ridesWithOthers =>
      rw [takeWhateverIsWaiting_rides batchable]
      exact pass_splits [head] waiting
  | postsAlone =>
      rw [takeWhateverIsWaiting_alone batchable]
      exact ⟨[], rfl, .leaveAll waiting⟩

theorem sharesAStatement_nil : SharesAStatement [] :=
  ⟨fun _ isMember => absurd isMember List.not_mem_nil, List.nodup_nil,
    fun _ isMember => absurd isMember List.not_mem_nil⟩

theorem sharesAStatement_alone {head : Submission} : SharesAStatement [head] := by
  refine ⟨fun member isMember other isOther => ?_, List.nodup_singleton _,
    fun member isMember _ => ?_⟩
  · rw [List.mem_singleton.mp isMember, List.mem_singleton.mp isOther]
  · rw [List.mem_singleton.mp isMember]

/-- What one drain does with a queue. -/
structure DrainedInOrder (ceiling : Nat) (queue batch left : List Submission) : Prop where
  nothingLost : (batch ++ left).Perm queue
  batchInOrder : batch.Sublist queue
  leftInOrder : left.Sublist queue
  emptyOnlyWhenEmpty : batch = [] ↔ queue = []
  oldestFirst : batch.head? = queue.head?
  atMostTheCeiling : batch.length ≤ ceiling
  sharesAStatement : SharesAStatement batch
  noneLeftBehind : batch.length < ceiling →
    ∀ waiter ∈ left, ¬SharesAStatement (batch ++ [waiter])

theorem takeWhateverIsWaiting_drains (atLeastOne : 1 ≤ ceiling) (queue : List Submission) :
    DrainedInOrder ceiling queue (takeWhateverIsWaiting ceiling queue).1
      (takeWhateverIsWaiting ceiling queue).2 := by
  cases queue with
  | nil =>
      exact ⟨.refl _, .slnil, .slnil, Iff.rfl, rfl, Nat.zero_le _, sharesAStatement_nil,
        fun _ _ isMember => absurd isMember List.not_mem_nil⟩
  | cons head waiting =>
      obtain ⟨company, isBatch, splits⟩ := @takeWhateverIsWaiting_splits ceiling head waiting
      have whole := Splits.take head splits
      rw [← isBatch] at whole
      have notEmpty : (takeWhateverIsWaiting ceiling (head :: waiting)).1 ≠ [] := by
        rw [isBatch]
        exact List.cons_ne_nil _ _
      refine ⟨whole.perm, whole.taken_sublist, whole.left_sublist,
        ⟨fun isEmpty => absurd isEmpty notEmpty, nofun⟩, by rw [isBatch]; rfl, ?_, ?_, ?_⟩
      all_goals cases batchable : batchabilityOf head.command
      case refine_1.ridesWithOthers =>
        rw [takeWhateverIsWaiting_rides batchable]
        exact length_pass atLeastOne waiting
      case refine_1.postsAlone =>
        rw [takeWhateverIsWaiting_alone batchable]
        exact atLeastOne
      case refine_2.ridesWithOthers =>
        rw [takeWhateverIsWaiting_rides batchable]
        exact (pass_keeps (fun _ _ => Forming.append) (forming_head batchable)
          waiting).sharesAStatement
      case refine_2.postsAlone =>
        rw [takeWhateverIsWaiting_alone batchable]
        exact sharesAStatement_alone
      case refine_3.ridesWithOthers =>
        intro room waiter isLeft
        have forming : Forming head.command.tenantId
            (takeWhateverIsWaiting ceiling (head :: waiting)).1 := by
          rw [takeWhateverIsWaiting_rides batchable]
          exact pass_keeps (fun _ _ => Forming.append) (forming_head batchable) waiting
        refine forming.refuses notEmpty ?_
        rw [takeWhateverIsWaiting_rides batchable] at room isLeft ⊢
        exact pass_maximal (fun _ more _ => ridesBehind_antitone more) room waiter isLeft
      case refine_3.postsAlone =>
        rw [takeWhateverIsWaiting_alone batchable]
        intro _ waiter _ shares
        have single := shares.alone head List.mem_cons_self batchable
        cases single

end Drains

section Runs

/-- What happens to a queue: a caller's arrival, or a dispatcher's drain. -/
inductive QueueEvent where
  | push (submission : Submission)
  | drain (ceiling : Nat)

/-- The batches the drains of a run take, one a drain. -/
def batchesOf : List QueueEvent → List Submission → List (List Submission)
  | [], _ => []
  | .push submission :: events, queue => batchesOf events (queue ++ [submission])
  | .drain ceiling :: events, queue =>
      (takeWhateverIsWaiting ceiling queue).1 ::
        batchesOf events (takeWhateverIsWaiting ceiling queue).2

/-- Every drain takes the head, so nobody is overtaken for ever. -/
theorem taken_soon {events : List QueueEvent} {ahead behind : List Submission}
    {submission : Submission}
    (enough : ahead.length < (batchesOf events (ahead ++ submission :: behind)).length) :
    ∃ batch ∈ (batchesOf events (ahead ++ submission :: behind)).take (ahead.length + 1),
      submission ∈ batch := by
  induction events generalizing ahead behind with
  | nil =>
      cases enough
  | cons event events inductionHypothesis =>
      cases event with
      | push other =>
          rw [batchesOf, List.append_assoc, List.cons_append] at enough ⊢
          exact inductionHypothesis enough
      | drain ceiling =>
          rw [batchesOf] at enough ⊢
          rw [List.take_succ_cons]
          cases ahead with
          | nil =>
              obtain ⟨company, isBatch, _⟩ :=
                @takeWhateverIsWaiting_splits ceiling submission behind
              refine ⟨_, List.mem_cons_self, ?_⟩
              rw [List.nil_append, isBatch]
              exact List.mem_cons_self
          | cons head ahead =>
              obtain ⟨company, isBatch, splits⟩ :=
                @takeWhateverIsWaiting_splits ceiling head (ahead ++ submission :: behind)
              rw [List.cons_append] at enough ⊢
              rcases splits.stays with isTaken | ⟨aheadLeft, behindLeft, isLeft, fewer⟩
              · refine ⟨_, List.mem_cons_self, ?_⟩
                rw [isBatch]
                exact List.mem_cons_of_mem _ isTaken
              · -- one fewer stands ahead, and one drain of them is spent
                rw [isLeft] at enough ⊢
                rw [List.length_cons, List.length_cons] at enough
                obtain ⟨batch, isBatch, isMember⟩ :=
                  inductionHypothesis (Nat.lt_of_le_of_lt fewer (Nat.lt_of_succ_lt_succ enough))
                have sooner := List.take_subset_take_left
                  (batchesOf events (aheadLeft ++ submission :: behindLeft))
                  (Nat.succ_le_succ fewer)
                exact ⟨batch, List.mem_cons_of_mem _ (sooner isBatch), isMember⟩

/-- A drain loses, duplicates and reorders nothing, and whoever has `p` others
ahead is taken by the drain after the next `p`. -/
theorem drain_takes_in_order {ceiling : Nat} (atLeastOne : 1 ≤ ceiling)
    (queue : List Submission) :
    DrainedInOrder ceiling queue (takeWhateverIsWaiting ceiling queue).1
      (takeWhateverIsWaiting ceiling queue).2 ∧
    ∀ ahead submission behind events, queue = ahead ++ submission :: behind →
      ahead.length < (batchesOf events queue).length →
      ∃ batch ∈ (batchesOf events queue).take (ahead.length + 1), submission ∈ batch := by
  refine ⟨takeWhateverIsWaiting_drains atLeastOne queue, ?_⟩
  rintro ahead submission behind events rfl enough
  exact taken_soon enough

end Runs

namespace Shop

/-- Two callers in the shop's queue, the first of them posting alone. -/
def pendingFee : Submission := ⟨command "later" 1000 .pending none 1, 0⟩

def waitingFee : Submission := ⟨command "fee" 2000 .posted none 1, 1⟩

theorem waitingFee_taken_in_order :
    DrainedInOrder 25 [pendingFee, waitingFee]
      (takeWhateverIsWaiting 25 [pendingFee, waitingFee]).1
      (takeWhateverIsWaiting 25 [pendingFee, waitingFee]).2 ∧
    ∃ batch ∈ (batchesOf [.drain 25, .push pendingFee, .drain 25] [pendingFee, waitingFee]).take 2,
      waitingFee ∈ batch :=
  ⟨(drain_takes_in_order (by decide) [pendingFee, waitingFee]).1,
    (@drain_takes_in_order 25 (by decide) [pendingFee, waitingFee]).2 [pendingFee] waitingFee []
      [.drain 25, .push pendingFee, .drain 25] rfl Nat.one_lt_two⟩

end Shop

end OpenLedger
