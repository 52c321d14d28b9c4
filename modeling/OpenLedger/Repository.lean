import OpenLedger.Lib.Program
import OpenLedger.Writes

/-!
# The outbound port

What the writer service asks of storage: one request per statement the adapter
runs, plus the transaction bracket around them.  A use-case is a `Program` over
these requests, so it can be run against one book, interleaved with others, or
met with any answer at all.
-/

namespace OpenLedger

/-- The storage error, opaque to the service: a backend's own, or a text.  The text a
backend's error is rendered to is known by that error. -/
inductive StorageError where
  | backend (error : DbError)
  | message (text : String)
  | rendering (error : DbError)
deriving DecidableEq, Repr

/-- The error a failure's text is boxed into. -/
def StorageError.rendered : StorageError → StorageError
  | .backend error => .rendering error
  | .message text => .message text
  | .rendering error => .rendering error

/-- What the single call answered for one coalesced delta: its counter, or
`none` when no such account holds this currency. -/
structure BalanceUpsert where
  accountId : Uuid
  currency : String
  lastSeq : Option Int
deriving DecidableEq, Repr

/-- The first writer's appended posting, still uncommitted. -/
structure Appended where
  eventId : Uuid
  transactionId : Uuid
  balanceUpserts : List BalanceUpsert
deriving DecidableEq, Repr

/-- Why the single call refused to write a superseding transaction. -/
inductive SupersedeRefusal where
  | resolveTargetUnknown
  | resolveTargetNotPending
  | reverseTargetUnknown
  | reverseTargetNotReversible
  | targetAlreadySuperseded
deriving DecidableEq, Repr

/-- What the single call answered after claiming the key. -/
inductive Claimed where
  | appended (appended : Appended)
  | supersessionRefused (refusal : SupersedeRefusal)
deriving DecidableEq, Repr

/-- One member of a batch: what a single post hands the claim. -/
structure BatchMember where
  command : PostTransaction
  hash : List UInt8
  payload : Json
  append : Append

/-- What the batched statement answered for one member. -/
inductive MemberOutcome where
  | appended (eventId transactionId : Uuid)
  | accountUnknown (accountId : Uuid) (currency : String)
  | keyAlreadyClaimed
deriving DecidableEq, Repr

/-- The event an already-claimed key stored, and the transaction it caused. -/
abbrev StoredResult := Uuid × Option Uuid

inductive OpenedAccount where
  | opened (eventId : Uuid) (account : Account)
  | alreadyExists

abbrev StoredAccount := Uuid × Option Account

inductive DefinedPeriod where
  | defined (eventId : Uuid) (period : Period)
  /-- `pk_periods`. -/
  | exists
  /-- `ex_periods__no_overlap`. -/
  | overlaps
  /-- `ck_periods__tz_known`. -/
  | zoneUnknown

abbrev StoredPeriod := Uuid × Option Period

/-- Everything a close needs from the book before it claims anything. -/
structure PeriodCloseContext where
  startsAt : Timestamp
  endsAt : Timestamp
  retainedEarnings : Option Uuid
deriving DecidableEq, Repr

/-- What both statements of a close bind beyond the command. -/
structure ClosePlan where
  startsAt : Timestamp
  endsAt : Timestamp
  retainedEarnings : Uuid
  closesAt : Timestamp
deriving DecidableEq, Repr

inductive ClosedPeriod where
  | closed (eventId transactionId : Uuid) (computedAtXid : Xid) (swept : List SweptPosition)
  | alreadyClosed
deriving DecidableEq, Repr

/-- One statement of the adapter, or one end of the bracket. -/
inductive Request where
  | begin
  | claimAndAppend (command : PostTransaction) (hash : List UInt8) (payload : Json)
      (append : Append)
  | claimAndAppendBatch (members : List BatchMember)
  | storedResult (command : PostTransaction) (hash : List UInt8)
  | storedResultBatch (members : List BatchMember)
  | chartTripleForPurpose (purpose : String)
  | claimAndOpenAccount (command : OpenAccount) (hash : List UInt8) (payload : Json)
      (triple : ChartTriple)
  | storedAccount (command : OpenAccount) (hash : List UInt8)
  | claimAndDefinePeriod (command : DefinePeriod) (hash : List UInt8) (payload : Json)
  | storedPeriod (command : DefinePeriod) (hash : List UInt8)
  | periodCloseContext (command : ClosePeriod)
  | claimAndClosePeriod (command : ClosePeriod) (hash : List UInt8) (payload : Json)
      (plan : ClosePlan)
  | checkpointTheClose (command : ClosePeriod) (plan : ClosePlan) (transactionId : Uuid)
      (computedAtXid : Xid)
  | storedClose (command : ClosePeriod) (hash : List UInt8)
  | commit
  | rollback

namespace Request

/-- What a request answers when the storage does not fail. -/
def Answer : Request → Type
  | begin => Unit
  | claimAndAppend .. => Option Claimed
  | claimAndAppendBatch .. => List MemberOutcome
  | storedResult .. => Option StoredResult
  | storedResultBatch .. => List (Option StoredResult)
  | chartTripleForPurpose .. => Option ChartTriple
  | claimAndOpenAccount .. => Option OpenedAccount
  | storedAccount .. => Option StoredAccount
  | claimAndDefinePeriod .. => Option DefinedPeriod
  | storedPeriod .. => Option StoredPeriod
  | periodCloseContext .. => Option PeriodCloseContext
  | claimAndClosePeriod .. => Option ClosedPeriod
  | checkpointTheClose .. => Nat
  | storedClose .. => Option Uuid
  | commit => Unit
  | rollback => Unit

abbrev Reply (request : Request) : Type := Except StorageError request.Answer

/-- Whether a request is a statement, and no end of the bracket. -/
def isStatement : Request → Bool
  | begin => false
  | commit => false
  | rollback => false
  | _ => true

/-- Whether a request claims an idempotency key. -/
def isClaim : Request → Bool
  | claimAndAppend .. => true
  | claimAndAppendBatch .. => true
  | claimAndOpenAccount .. => true
  | claimAndDefinePeriod .. => true
  | claimAndClosePeriod .. => true
  | _ => false

/-- Whether a request ends the bracket. -/
def isEnd : Request → Bool
  | commit => true
  | rollback => true
  | _ => false

end Request

/-- A use-case over the port, which may stop with a refusal. -/
abbrev UseCase (ε α : Type) := ExceptT ε (Program Request Request.Reply) α

/-- Ask storage, folding its failure into the caller's own refusals. -/
def ask {ε : Type} (storage : StorageError → ε) (request : Request) :
    UseCase ε request.Answer :=
  ExceptT.mk <| .ask request fun reply => .done (reply.mapError storage)

/-- Stop with a refusal. -/
def refuse {ε α : Type} (refusal : ε) : UseCase ε α := ExceptT.mk (.done (.error refusal))

@[simp]
theorem run_ask_bind {ε α : Type} (storage : StorageError → ε) (request : Request)
    (next : request.Answer → UseCase ε α) :
    (ask storage request >>= next).run =
      .ask request fun reply =>
        match reply with
        | .error failure => .done (.error (storage failure))
        | .ok answer => (next answer).run := by
  rw [ExceptT.run_bind]
  simp only [ask, ExceptT.run_mk, Program.ask_bind]
  congr 1
  funext reply
  cases reply <;> rfl

@[simp]
theorem run_refuse {ε α : Type} (refusal : ε) :
    (refuse refusal : UseCase ε α).run = .done (.error refusal) := rfl

@[simp]
theorem run_refuse_bind {ε α β : Type} (refusal : ε) (next : α → UseCase ε β) :
    (refuse refusal >>= next).run = .done (.error refusal) := rfl

@[simp]
theorem run_pure_useCase {ε α : Type} (answer : α) :
    (pure answer : UseCase ε α).run = .done (.ok answer) := rfl

end OpenLedger
