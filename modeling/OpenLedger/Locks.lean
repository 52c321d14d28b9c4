import OpenLedger.BatchAnswers
import OpenLedger.Lib.WaitsFor

/-!
# The locks of concurrent writers

A statement takes its locks one by one: the idempotency keys its `INSERT` claims, in
the order they are fed to it, then the balance rows its upsert is ordered by.  It
holds each until its bracket ends, and waits for one another bracket holds.  The rows
have one order for every statement; the keys of a batch have the order its members
arrived in.
-/

namespace OpenLedger

open Postgres WaitsFor

/-- What a claim inserts under: the tenant and its idempotency key. -/
abbrev ClaimKey := String × String

/-- What a writer waits for: another's claim of a key, or a balance row. -/
inductive Lock where
  | claim (key : ClaimKey)
  | row (key : StripeKey)
deriving DecidableEq, Repr

namespace Lock

/-- A lock as one of two kinds. -/
def kind : Lock → ClaimKey ⊕ StripeKey
  | claim key => .inl key
  | row key => .inr key

/-- A lock of the first of the two, which a statement takes before any row. -/
def isClaim : Lock → Bool
  | claim _ => true
  | row _ => false

end Lock

namespace Request

/-- The keys a statement's `INSERT` is fed, in order.  A batch feeds its admissible
members as they stand. -/
def claimKeys (snapshot : Book) : Request → List ClaimKey
  | .claimAndAppend command _ _ _ => [(command.tenantId, command.idempotencyKey)]
  | .claimAndAppendBatch members =>
      ((member members).filter fun m => admissible snapshot members m.ord).map fun m =>
        (m.tenantId, m.idempotencyKey)
  | .claimAndOpenAccount command _ _ _ => [(command.tenantId, command.idempotencyKey)]
  | .claimAndDefinePeriod command _ _ => [(command.tenantId, command.idempotencyKey)]
  | .claimAndClosePeriod command _ _ _ => [(command.tenantId, command.idempotencyKey)]
  | _ => []

/-- The balance rows it upserts behind its claims, sorted.  A claim that met a held key
carries nothing on. -/
def upsertedRows (env : Env) (snapshot current : Book) : Request → List UpsertRow
  | .claimAndAppend command _ _ append =>
      if (current.holderOf command.tenantId command.idempotencyKey).isSome then []
      else striped snapshot env.stripeAffinity (delta snapshot command append)
  | .claimAndAppendBatch members =>
      striped snapshot env.stripeAffinity
        (batchDelta members (proceeding env snapshot current members))
  | .claimAndClosePeriod command _ _ plan =>
      if (current.holderOf command.tenantId command.idempotencyKey).isSome then []
      else striped snapshot env.stripeAffinity (closeDelta env snapshot command plan)
  | _ => []

/-- What the bracket of a claim commits: a close's checkpoint rides behind it. -/
def bracketWrites (env : Env) (snapshot current : Book) : Request → Writes
  | .claimAndClosePeriod command hash payload plan =>
      let writes := (Postgres.claimAndClosePeriod env snapshot current command hash payload plan).2
      writes.append (Postgres.checkpointTheClose env (current.apply writes) (current.apply writes)
        command plan (env.transactionId 0) env.xid).2
  | request => (statement env snapshot current request).2

end Request

/-- A bracket at its claiming statement: the locks it holds, those it has still to ask
for, and whether it has got to its balance rows. -/
structure Writer where
  env : Env
  request : Request
  snapshot : Book
  held : List Lock
  wanted : List Lock
  located : Bool

namespace Writer

def start (env : Env) (request : Request) (snapshot : Book) : Writer where
  env := env
  request := request
  snapshot := snapshot
  held := []
  wanted := (request.claimKeys snapshot).map Lock.claim
  located := false

/-- The lock a writer asks for next, unless it is its own. -/
def asked (writer : Writer) : Option Lock :=
  writer.wanted.head?.filter fun lock => decide (lock ∉ writer.held)

/-- `ON CONFLICT DO NOTHING`: a key that is held, or that the statement has claimed
itself, is not claimed. -/
def meets (writer : Writer) (committed : Book) : Lock → Bool
  | .claim key => decide (.claim key ∈ writer.held) || (committed.holderOf key.1 key.2).isSome
  | .row _ => false

/-- The writer past the first lock it wants. -/
def past (writer : Writer) (committed : Book) (lock : Lock) : Writer :=
  { writer with
    wanted := writer.wanted.tail
    held := if writer.meets committed lock then writer.held else lock :: writer.held }

/-- Its claims made, the statement upserts its rows. -/
def locate (writer : Writer) (committed : Book) : Writer :=
  { writer with
    wanted := ((writer.request.upsertedRows writer.env writer.snapshot committed).map
      UpsertRow.toStripeKey).map Lock.row
    located := true }

end Writer

/-- The open brackets over what is committed. -/
structure Locking where
  committed : Book
  writers : List Writer

namespace Locking

inductive Action where
  | begin (env : Env) (request : Request)
  | ask (index : Nat)
  | locate (index : Nat)
  | commit (index : Nat)
  | rollback (index : Nat)

/-- Whether a bracket other than this one holds a lock. -/
def heldByAnother (locking : Locking) (index : Nat) (lock : Lock) : Bool :=
  (locking.writers.eraseIdx index).any fun other => decide (lock ∈ other.held)

/-- One step of one bracket, where it may be taken. -/
def step (locking : Locking) : Action → Option Locking
  | .begin env request =>
      some { locking with
        writers := locking.writers ++ [Writer.start env request locking.committed] }
  | .ask index =>
      locking.writers[index]?.bind fun writer =>
        writer.wanted.head?.bind fun lock =>
          if locking.heldByAnother index lock then none
          else some { locking with
            writers := locking.writers.set index (writer.past locking.committed lock) }
  | .locate index =>
      locking.writers[index]?.bind fun writer =>
        if writer.wanted = [] ∧ writer.located = false then
          some { locking with
            writers := locking.writers.set index (writer.locate locking.committed) }
        else none
  | .commit index =>
      locking.writers[index]?.bind fun writer =>
        if writer.wanted = [] ∧ writer.located = true then
          some {
            committed := locking.committed.apply
              (writer.request.bracketWrites writer.env writer.snapshot locking.committed)
            writers := locking.writers.eraseIdx index }
        else none
  | .rollback index =>
      locking.writers[index]?.map fun _ =>
        { locking with writers := locking.writers.eraseIdx index }

def Holds (locking : Locking) (index : Nat) (lock : Lock) : Prop :=
  ∃ writer, locking.writers[index]? = some writer ∧ lock ∈ writer.held

def Asks (locking : Locking) (index : Nat) (lock : Lock) : Prop :=
  ∃ writer, locking.writers[index]? = some writer ∧ writer.asked = some lock

/-- Writers that wait for each other in a circle. -/
def Deadlocked (locking : Locking) : Prop :=
  ∃ index, Relation.TransGen (Waits locking.Holds locking.Asks) index index

/-- A statement that begins feeds its claims along a relation on the keys. -/
def Action.Feeds (before : ClaimKey → ClaimKey → Prop) (committed : Book) : Action → Prop
  | .begin _ request => (request.claimKeys committed).Pairwise fun earlier later =>
      earlier ≠ later → before earlier later
  | _ => True

/-- What concurrent writers reach over a book, when each feeds its claims along one
relation. -/
inductive Reached (before : ClaimKey → ClaimKey → Prop) (book : Book) : Locking → Prop
  | start : Reached before book ⟨book, []⟩
  | step {locking after : Locking} {action : Action} (reached : Reached before book locking)
      (feeds : action.Feeds before locking.committed)
      (stepped : locking.step action = some after) : Reached before book after

end Locking

/-- The rows are upserted in the order of their ranks. -/
def RowBefore (left right : StripeKey) : Prop := left.rank < right.rank

theorem rowBefore_acyclic : Acyclic RowBefore := by
  have : IsTrans StripeKey RowBefore := ⟨fun _ _ _ => lt_trans⟩
  have : Std.Irrefl RowBefore := ⟨fun _ => lt_irrefl _⟩
  exact acyclic_of_strict RowBefore

theorem StripeKey.rank_injective : Function.Injective StripeKey.rank := by
  intro left right same
  simp only [StripeKey.rank, EmbeddingLike.apply_eq_iff_eq, Prod.mk.injEq] at same
  obtain ⟨tenant, account, currency, stripe⟩ := same
  cases left
  cases right
  simp_all

/-- Every statement upserts its rows in that order. -/
theorem upsertedRows_ordered (env : Env) (snapshot current : Book) (request : Request) :
    ((request.upsertedRows env snapshot current).map UpsertRow.toStripeKey).Pairwise
      fun left right => left ≠ right → RowBefore left right := by
  have sorted : ∀ deltas, ((striped snapshot env.stripeAffinity deltas).map
      UpsertRow.toStripeKey).Pairwise fun left right => left ≠ right → RowBefore left right := by
    intro deltas
    refine List.pairwise_map.mpr ((List.pairwise_insertionSort (fun left right : UpsertRow =>
      left.rank ≤ right.rank) _).imp fun inOrder apart => ?_)
    exact lt_of_le_of_ne inOrder fun same => apart (StripeKey.rank_injective same)
  have nothing : (([] : List UpsertRow).map UpsertRow.toStripeKey).Pairwise
      fun left right => left ≠ right → RowBefore left right := List.Pairwise.nil
  cases request with
  | claimAndAppend command hash payload append =>
      rw [Request.upsertedRows]
      split
      · exact nothing
      · exact sorted _
  | claimAndAppendBatch members =>
      exact sorted _
  | claimAndClosePeriod command hash payload plan =>
      rw [Request.upsertedRows]
      split
      · exact nothing
      · exact sorted _
  | _ =>
      exact nothing

section Order

variable {before : ClaimKey → ClaimKey → Prop}

/-- Along the relation on the keys, then row by row, and every claim before any row. -/
def LockBefore (before : ClaimKey → ClaimKey → Prop) (left right : Lock) : Prop :=
  Sum.Lex before RowBefore left.kind right.kind

theorem lockBefore_acyclic (acyclic : Acyclic before) : Acyclic (LockBefore before) :=
  (acyclic.lex rowBefore_acyclic).on Lock.kind

/-- A writer takes its claims along the relation on the keys, and its rows, in order,
behind every claim. -/
structure Writer.Ordered (before : ClaimKey → ClaimKey → Prop) (writer : Writer) : Prop where
  along : Along (LockBefore before) writer.held writer.wanted
  claiming : writer.located = false →
    (∀ lock ∈ writer.held, lock.isClaim = true) ∧ ∀ lock ∈ writer.wanted, lock.isClaim = true

namespace Writer.Ordered

variable {writer : Writer}

theorem start (env : Env) (request : Request) (snapshot : Book)
    (fed : (request.claimKeys snapshot).Pairwise fun earlier later =>
      earlier ≠ later → before earlier later) :
    (Writer.start env request snapshot).Ordered before := by
  constructor
  · refine Along.start (List.pairwise_map.mpr (fed.imp fun inOrder apart => ?_))
    exact Sum.Lex.inl (inOrder fun same => apart (congrArg Lock.claim same))
  · intro _
    refine ⟨fun _ member => absurd member List.not_mem_nil, fun lock member => ?_⟩
    obtain ⟨key, _, rfl⟩ := List.mem_map.mp member
    rfl

theorem past (ordered : writer.Ordered before) (committed : Book) {lock : Lock}
    (first : writer.wanted.head? = some lock) :
    (writer.past committed lock).Ordered before := by
  obtain ⟨rest, isWanted⟩ := List.head?_eq_some_iff.mp first
  have along := ordered.along
  rw [isWanted] at along
  constructor
  · rw [Writer.past, isWanted, List.tail_cons]
    dsimp only
    split
    · exact along.skip
    · exact along.take
  · intro claiming
    obtain ⟨heldClaims, wantedClaims⟩ := ordered.claiming claiming
    rw [isWanted] at wantedClaims
    rw [Writer.past, isWanted, List.tail_cons]
    refine ⟨fun other member => ?_, fun other member =>
      wantedClaims other (List.mem_cons_of_mem _ member)⟩
    dsimp only at member
    split at member
    · exact heldClaims other member
    · rcases List.mem_cons.mp member with rfl | isHeld
      · exact wantedClaims other List.mem_cons_self
      · exact heldClaims other isHeld

theorem locate (ordered : writer.Ordered before) (claiming : writer.located = false)
    (committed : Book) : (writer.locate committed).Ordered before := by
  constructor
  · constructor
    · intro lock isHeld other isWanted _
      obtain ⟨row, _, rfl⟩ := List.mem_map.mp isWanted
      have isClaim := (ordered.claiming claiming).1 lock isHeld
      cases lock with
      | claim key => exact Sum.Lex.sep key row
      | row key => cases isClaim
    · refine List.pairwise_map.mpr ((upsertedRows_ordered _ _ _ _).imp fun inOrder apart => ?_)
      exact Sum.Lex.inr (inOrder fun same => apart (congrArg Lock.row same))
  · intro isLocated
    cases isLocated

/-- What a writer asks for is behind everything it holds. -/
theorem asks (ordered : writer.Ordered before) {held asked : Lock} (isHeld : held ∈ writer.held)
    (isAsked : writer.asked = some asked) : LockBefore before held asked := by
  rw [Writer.asked, Option.filter_eq_some_iff] at isAsked
  obtain ⟨first, notHeld⟩ := isAsked
  obtain ⟨rest, isWanted⟩ := List.head?_eq_some_iff.mp first
  have along := ordered.along
  rw [isWanted] at along
  exact along.asks (of_decide_eq_true notHeld) held isHeld

end Writer.Ordered

namespace Locking

variable {book : Book} {locking after : Locking}

/-- One step keeps every writer in order. -/
theorem step_ordered {action : Action}
    (ordered : ∀ writer ∈ locking.writers, writer.Ordered before)
    (feeds : action.Feeds before locking.committed)
    (stepped : locking.step action = some after) :
    ∀ writer ∈ after.writers, writer.Ordered before := by
  have replaced : ∀ {index : Nat} {writer : Writer}, writer.Ordered before →
      ∀ other ∈ locking.writers.set index writer, other.Ordered before := by
    intro index writer isOrdered other member
    rcases List.mem_or_eq_of_mem_set member with isOld | rfl
    · exact ordered other isOld
    · exact isOrdered
  have rest : ∀ {index : Nat}, ∀ other ∈ locking.writers.eraseIdx index, other.Ordered before :=
    fun other member => ordered other (List.mem_of_mem_eraseIdx member)
  cases action with
  | begin env request =>
      obtain rfl := Option.some.inj stepped
      intro writer member
      rcases List.mem_append.mp member with isOld | isNew
      · exact ordered writer isOld
      · rw [List.mem_singleton.mp isNew]
        exact Writer.Ordered.start env request _ feeds
  | ask index =>
      obtain ⟨writer, here, asked⟩ := Option.bind_eq_some_iff.mp stepped
      obtain ⟨lock, first, taken⟩ := Option.bind_eq_some_iff.mp asked
      split at taken
      · cases taken
      · obtain rfl := Option.some.inj taken
        exact replaced ((ordered writer (List.mem_of_getElem? here)).past _ first)
  | locate index =>
      obtain ⟨writer, here, located⟩ := Option.bind_eq_some_iff.mp stepped
      split at located
      · rename_i claiming
        obtain rfl := Option.some.inj located
        exact replaced ((ordered writer (List.mem_of_getElem? here)).locate claiming.2 _)
      · cases located
  | commit index =>
      obtain ⟨writer, here, ended⟩ := Option.bind_eq_some_iff.mp stepped
      split at ended
      · obtain rfl := Option.some.inj ended
        exact rest
      · cases ended
  | rollback index =>
      obtain ⟨writer, here, rfl⟩ := Option.map_eq_some_iff.mp stepped
      exact rest

theorem ordered_of_reached (reached : Reached before book locking) :
    ∀ writer ∈ locking.writers, writer.Ordered before := by
  induction reached with
  | start =>
      exact fun _ member => absurd member List.not_mem_nil
  | step _ feeds stepped inductionHypothesis =>
      exact step_ordered inductionHypothesis feeds stepped

/-- A run of statements that only go on feeds nothing. -/
theorem reached_of_actions (reached : Reached before book locking) {actions : List Action}
    {after : Locking} (feeds : ∀ action ∈ actions, ∀ committed, action.Feeds before committed)
    (ran : actions.foldlM Locking.step locking = some after) : Reached before book after := by
  induction actions generalizing locking with
  | nil =>
      rw [← Option.some.inj ran]
      exact reached
  | cons action rest inductionHypothesis =>
      rw [List.foldlM_cons] at ran
      obtain ⟨next, stepped, ran⟩ := Option.bind_eq_some_iff.mp ran
      have further := Reached.step reached (feeds action List.mem_cons_self _) stepped
      exact inductionHypothesis further
        (fun later member => feeds later (List.mem_cons_of_mem _ member)) ran

end Locking

end Order

/-- Writers whose statements all feed their claims along one relation on the keys that has
no circle never wait for each other in a circle. -/
theorem writers_in_one_order_never_deadlock {before : ClaimKey → ClaimKey → Prop}
    (acyclic : Acyclic before) {book : Book} {locking : Locking}
    (reached : Locking.Reached before book locking) : ¬ locking.Deadlocked := by
  have ordered := Locking.ordered_of_reached reached
  rintro ⟨index, circle⟩
  refine no_circle (lockBefore_acyclic acyclic) ?_ index circle
  rintro taker held asked ⟨writer, here, isHeld⟩ ⟨same, alsoHere, isAsked⟩
  obtain rfl : writer = same := Option.some.inj (here.symm.trans alsoHere)
  exact (ordered writer (List.mem_of_getElem? here)).asks isHeld isAsked

/-- Statements that claim one key feed their claims along any relation. -/
theorem feeds_of_single {before : ClaimKey → ClaimKey → Prop} {committed : Book} {env : Env}
    {request : Request} (single : (request.claimKeys committed).length ≤ 1) :
    (Locking.Action.begin env request).Feeds before committed := by
  rw [Locking.Action.Feeds]
  cases keys : request.claimKeys committed with
  | nil =>
      exact List.Pairwise.nil
  | cons first rest =>
      rw [keys, List.length_cons] at single
      have noMore : rest = [] := List.length_eq_zero_iff.mp (by omega)
      rw [noMore]
      exact List.pairwise_singleton _ _

/-- Two statements that feed the same two keys first, in opposite orders, each take one
and wait for the other's. -/
theorem opposite_claims_deadlock {book : Book} {first second : ClaimKey} (apart : first ≠ second)
    (env otherEnv : Env) (request other : Request) {rest otherRest : List ClaimKey}
    (feeds : request.claimKeys book = first :: second :: rest)
    (otherFeeds : other.claimKeys book = second :: first :: otherRest)
    (free : book.holderOf first.1 first.2 = none)
    (otherFree : book.holderOf second.1 second.2 = none) :
    ∃ locking, Locking.Reached (fun _ _ => True) book locking ∧ locking.Deadlocked := by
  have anyOrder : ∀ keys : List ClaimKey,
      keys.Pairwise fun earlier later => earlier ≠ later → True :=
    fun _ => List.pairwise_of_forall fun _ _ _ => trivial
  have began : Locking.Reached (fun _ _ => True) book
      ⟨book, [Writer.start env request book, Writer.start otherEnv other book]⟩ :=
    .step (.step .start
        (show (Locking.Action.begin env request).Feeds _ _ from anyOrder _) rfl)
      (show (Locking.Action.begin otherEnv other).Feeds _ _ from anyOrder _) rfl
  have firstTaken : Locking.Reached (fun _ _ => True) book
      ⟨book, [{ Writer.start env request book with
          held := [.claim first], wanted := (second :: rest).map Lock.claim },
        Writer.start otherEnv other book]⟩ := by
    refine .step began (show (Locking.Action.ask 0).Feeds _ _ from trivial) ?_
    simp [Locking.step, Locking.heldByAnother, Writer.start, Writer.past, Writer.meets, feeds, free]
  have bothTaken : Locking.Reached (fun _ _ => True) book
      ⟨book, [{ Writer.start env request book with
          held := [.claim first], wanted := (second :: rest).map Lock.claim },
        { Writer.start otherEnv other book with
          held := [.claim second], wanted := (first :: otherRest).map Lock.claim }]⟩ := by
    refine .step firstTaken (show (Locking.Action.ask 1).Feeds _ _ from trivial) ?_
    simp [Locking.step, Locking.heldByAnother, Writer.start, Writer.past, Writer.meets,
      otherFeeds, otherFree, apart.symm]
  refine ⟨_, bothTaken, 0, Relation.TransGen.tail (.single ?_) ?_ (b := 1)⟩
  · exact ⟨.claim second, ⟨_, rfl, by simp [Writer.asked, apart.symm]⟩,
      ⟨_, rfl, List.mem_singleton_self _⟩⟩
  · exact ⟨.claim first, ⟨_, rfl, by simp [Writer.asked, apart]⟩,
      ⟨_, rfl, List.mem_singleton_self _⟩⟩

namespace Shop

/-- The batch a dispatcher makes of two fees. -/
def feeBatch (first second : String) : Request :=
  .claimAndAppendBatch (plannedMembers ([command first 1000 .posted none 1,
    command second 2000 .posted none 2].map (planFor id)))

/-- Two dispatchers carry one pair of keys, one submitted again behind the other. -/
theorem crossed_batches_deadlock :
    ∃ locking, Locking.Reached (fun _ _ => True) (performAll id opened (Book.empty chart))
      locking ∧ locking.Deadlocked :=
  @opposite_claims_deadlock _ ("shop", "one") ("shop", "two") (by decide) (envOf 4) (envOf 5)
    (feeBatch "one" "two") (feeBatch "two" "one") [] [] (by decide +kernel) (by decide +kernel)
    (by decide +kernel) (by decide +kernel)

/-- The two keys in the order both batches carry them. -/
def OneThenTwo (earlier later : ClaimKey) : Prop :=
  earlier = ("shop", "one") ∧ later = ("shop", "two")

theorem oneThenTwo_acyclic : Acyclic OneThenTwo := by
  have : IsTrans ClaimKey OneThenTwo :=
    ⟨fun _ _ _ first second => absurd (first.2.symm.trans second.1) (by decide)⟩
  have : Std.Irrefl OneThenTwo := ⟨fun _ both => absurd (both.1.symm.trans both.2) (by decide)⟩
  exact acyclic_of_strict OneThenTwo

/-- A fee posted on its own. -/
def feePost (key : String) : Request :=
  match planFor id (command key 3000 .posted none 3) with
  | .ok planned => .claimAndAppend planned.command planned.hash planned.payload planned.append
  | .error _ => .rollback

/-- Two batches that carry the keys in one order, and a post beside them. -/
def sharing : Locking :=
  let book := performAll id opened (Book.empty chart)
  ⟨book, [Writer.start (envOf 4) (feeBatch "one" "two") book,
    Writer.start (envOf 5) (feeBatch "one" "two") book,
    Writer.start (envOf 6) (feePost "three") book]⟩

/-- The first batch takes both keys and its first row, the post its own key. -/
def sharingGoesOn : List Locking.Action :=
  [.ask 0, .ask 0, .locate 0, .ask 0, .ask 2, .locate 2]

def shared : Locking :=
  (sharingGoesOn.foldlM Locking.step sharing).get (by decide +kernel)

/-- One batch waits for a key and the post for a row that the other batch holds, and they
do not wait in a circle. -/
theorem batches_in_one_order :
    ∃ locking, Locking.Reached OneThenTwo (performAll id opened (Book.empty chart)) locking ∧
      locking.writers.map Writer.held =
        [[.row ⟨"shop", till, "USD", 0⟩, .claim ("shop", "two"), .claim ("shop", "one")], [],
          [.claim ("shop", "three")]] ∧
      locking.writers.map Writer.asked =
        [some (.row ⟨"shop", fees, "USD", 0⟩), some (.claim ("shop", "one")),
          some (.row ⟨"shop", till, "USD", 0⟩)] ∧
      ¬ locking.Deadlocked := by
  have feeds : ∀ env, (Locking.Action.begin env (feeBatch "one" "two")).Feeds OneThenTwo
      (performAll id opened (Book.empty chart)) := by
    intro env
    have keys : (feeBatch "one" "two").claimKeys (performAll id opened (Book.empty chart)) =
        [("shop", "one"), ("shop", "two")] := by
      decide +kernel
    rw [Locking.Action.Feeds, keys]
    exact List.pairwise_pair.mpr fun _ => ⟨rfl, rfl⟩
  have alone : ((feePost "three").claimKeys (performAll id opened (Book.empty chart))).length ≤
      1 := by
    decide +kernel
  have begun : Locking.Reached OneThenTwo (performAll id opened (Book.empty chart)) sharing :=
    .step (.step (.step .start (feeds (envOf 4)) rfl) (feeds (envOf 5)) rfl)
      (@feeds_of_single OneThenTwo _ (envOf 6) _ alone) rfl
  have onward : ∀ action ∈ sharingGoesOn, ∀ committed, action.Feeds OneThenTwo committed := by
    intro action member committed
    simp only [sharingGoesOn, List.mem_cons, List.not_mem_nil, or_false] at member
    rcases member with rfl | rfl | rfl | rfl | rfl | rfl <;> exact trivial
  have reached : Locking.Reached OneThenTwo (performAll id opened (Book.empty chart)) shared :=
    Locking.reached_of_actions begun onward (Option.some_get _).symm
  exact ⟨shared, reached, by decide +kernel, by decide +kernel,
    writers_in_one_order_never_deadlock oneThenTwo_acyclic reached⟩

end Shop

end OpenLedger
