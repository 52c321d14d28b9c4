import OpenLedger.Apply
import OpenLedger.Postgres.Repository
import OpenLedger.Service

/-!
# Operations and runs

The service over the Postgres repository, one operation after another: what an
operation answers, the book it leaves, and the books such runs reach.
-/

namespace OpenLedger

open Postgres

/-- One writer's connection: what is committed, and what its open bracket has
written on top of it. -/
structure Connection where
  committed : Book
  written : Writes

/-- What the open bracket sees. -/
def Connection.working (connection : Connection) : Book :=
  connection.committed.apply connection.written

/-- The connection after a request that wrote `writes`. -/
def Connection.after (connection : Connection) (request : Request) (writes : Writes) :
    Connection :=
  match request with
  | .begin => ⟨connection.committed, .none⟩
  | .commit => ⟨connection.working, .none⟩
  | .rollback => ⟨connection.committed, .none⟩
  | _ => ⟨connection.committed, connection.written.append writes⟩

/-- Answer one request with nobody else writing: the snapshot and the current
content are both what the bracket sees. -/
def handle (env : Env) (request : Request) (connection : Connection) :
    request.Reply × Connection :=
  let answered := statement env connection.working connection.working request
  (answered.1, connection.after request answered.2)

/-- Run a use-case over a book: its answer and the book it leaves committed. -/
def runOn {α : Type} (env : Env) (program : Program Request Request.Reply α) (book : Book) :
    α × Book :=
  let ended := program.run (handle env) ⟨book, .none⟩
  (ended.1, ended.2.committed)

/-- What the service can be asked. -/
inductive Operation where
  | post (command : PostTransaction)
  | postBatch (commands : List PostTransaction)
  | openAccount (command : OpenAccount)
  | definePeriod (command : DefinePeriod)
  | closePeriod (command : ClosePeriod)

/-- What it answers. -/
inductive Outcome where
  | posted (answer : Except WriteError Posted)
  | postedBatch (answers : List (Except WriteError Posted))
  | opened (answer : Except OpenAccountError AccountOpened)
  | defined (answer : Except DefinePeriodError PeriodDefined)
  | closed (answer : Except ClosePeriodError PeriodClosed)

/-- What an accepted post answered. -/
def Outcome.posted? : Outcome → Option Posted
  | .posted (.ok answer) => some answer
  | _ => none

theorem Outcome.eq_of_posted? {outcome : Outcome} {answer : Posted}
    (accepted : outcome.posted? = some answer) : outcome = .posted (.ok answer) := by
  cases outcome with
  | posted reply =>
      cases reply with
      | ok found =>
          rw [Option.some.inj accepted]
      | error refusal =>
          cases accepted
  | _ =>
      cases accepted

namespace Operation

variable (sha256 : List UInt8 → List UInt8)

/-- The use-case an operation runs. -/
def program : Operation → Program Request Request.Reply Outcome
  | post command => do return .posted (← (OpenLedger.post sha256 command).run)
  | postBatch commands => do return .postedBatch (← OpenLedger.postBatch sha256 commands)
  | openAccount command => do return .opened (← (OpenLedger.openAccount sha256 command).run)
  | definePeriod command => do return .defined (← (OpenLedger.definePeriod sha256 command).run)
  | closePeriod command => do return .closed (← (OpenLedger.closePeriod sha256 command).run)

/-- Perform an operation over a book, with nobody else writing. -/
def perform (operation : Operation) (env : Env) (book : Book) : Outcome × Book :=
  runOn env (operation.program sha256) book

end Operation

/-- The books a run of operations reaches from the empty one, with the lowest
transaction id the next writer can be given. -/
inductive Reachable (sha256 : List UInt8 → List UInt8) (chart : Chart) : Book → Xid → Prop where
  | empty : Reachable sha256 chart (Book.empty chart) 0
  | perform {book : Book} {next : Xid} (reachable : Reachable sha256 chart book next)
      (operation : Operation) (env : Env) (assigned : next ≤ env.xid) :
      Reachable sha256 chart (operation.perform sha256 env book).2 (env.xid + 1)

section Runs

variable (sha256 : List UInt8 → List UInt8)

/-- Perform operations one after another, each in its own environment. -/
def performAll (operations : List (Operation × Env)) (book : Book) : Book :=
  operations.foldl (fun book operation => (operation.1.perform sha256 operation.2 book).2) book

/-- The id after the last one assigned. -/
def nextAfter (operations : List (Operation × Env)) (next : Xid) : Xid :=
  operations.foldl (fun _ operation => operation.2.xid + 1) next

/-- Whether the writers' ids ascend from `next`. -/
def Ascending : List (Operation × Env) → Xid → Prop
  | [], _ => True
  | operation :: operations, next =>
      next ≤ operation.2.xid ∧ Ascending operations (operation.2.xid + 1)

instance Ascending.decidable (operations : List (Operation × Env)) (next : Xid) :
    Decidable (Ascending operations next) :=
  match operations with
  | [] => .isTrue trivial
  | operation :: operations =>
      haveI := Ascending.decidable operations (operation.2.xid + 1)
      inferInstanceAs (Decidable (_ ∧ _))

theorem Reachable.performAll {sha256 : List UInt8 → List UInt8} {chart : Chart} {book : Book}
    {next : Xid} (reachable : Reachable sha256 chart book next)
    {operations : List (Operation × Env)} (ascending : Ascending operations next) :
    Reachable sha256 chart (performAll sha256 operations book)
      (nextAfter operations next) := by
  induction operations generalizing book next with
  | nil =>
      exact reachable
  | cons operation operations inductionHypothesis =>
      exact inductionHypothesis (reachable.perform operation.1 operation.2 ascending.1)
        ascending.2

end Runs

/-! ## A small ledger

A tenant with a till, a fee account and an equity account, for the runs that
evaluate. -/

namespace Shop

def chart : Chart where
  types := [
    ⟨"till", .asset, .debit, .none⟩,
    ⟨"fees", .revenue, .credit, .none⟩,
    ⟨"retained_earnings", .equity, .credit, .none⟩]
  codesNodup := by decide

/-- The number a shop row is known by. -/
def uuid (number : Nat) : Uuid := ⟨number % 2 ^ 128, Nat.mod_lt _ (by decide)⟩

/-- A writer's environment: its ids are counted from its transaction id. -/
def envOf (xid : Xid) : Env where
  stripeAffinity := 0
  xid := xid
  now := 0
  eventId := fun index => uuid (1000 * xid + index)
  transactionId := fun index => uuid (1000 * xid + 100 + index)
  entryId := fun index => uuid (1000 * xid + 200 + index)
  accountId := uuid xid
  tzKnown := fun _ => true

def till : Uuid := uuid 1
def fees : Uuid := uuid 2
def retainedEarnings : Uuid := uuid 3

def tillOpening : OpenAccount :=
  (OpenAccount.new "shop" "till" "till" ⟨.house, none⟩ "USD" none none).toOption.get
    (by decide +kernel)

def firstPeriod : DefinePeriod :=
  (DefinePeriod.new "shop" "first" "first" ⟨0, 0⟩ ⟨1000000, 0⟩ "UTC").toOption.get
    (by decide +kernel)

def firstClose : ClosePeriod :=
  (ClosePeriod.new "shop" "first" "USD").toOption.get (by decide +kernel)

def oneCent : Posting := (Posting.new fees till 1 "USD").toOption.get (by decide +kernel)

def firstFee : PostTransaction :=
  (PostTransaction.new "shop" "fee" (some ⟨1000, 0⟩) .posted none none
    [oneCent]).toOption.get (by decide +kernel)

/-- The shop's operations, each the first of its kind where the request is
refused before it gets to the service. -/
def opening (key purpose : String) : Operation :=
  .openAccount ((OpenAccount.new "shop" key purpose ⟨.house, none⟩ "USD" none
    none).toOption.getD tillOpening)

def period (code : String) (startsAt endsAt : Int) : Operation :=
  .definePeriod ((DefinePeriod.new "shop" code code ⟨startsAt, 0⟩ ⟨endsAt, 0⟩
    "UTC").toOption.getD firstPeriod)

def closing (code : String) : Operation :=
  .closePeriod ((ClosePeriod.new "shop" code "USD").toOption.getD firstClose)

/-- A movement of `amount` from the fee account into the till. -/
def fee (amount : Int64) : Posting :=
  (Posting.new fees till amount "USD").toOption.getD oneCent

/-- A command effective at a nanosecond of 1970. -/
def command (key : String) (nanos : Int) (status : TransactionStatus)
    (resolvesId : Option Uuid) (amount : Int64) : PostTransaction :=
  (PostTransaction.new "shop" key (some ⟨nanos, 0⟩) status resolvesId none
    [fee amount]).toOption.getD firstFee

/-- A reversal on its target's own date. -/
def reversal (key : String) (reversesId : Uuid) : PostTransaction :=
  (PostTransaction.new "shop" key none .posted none (some reversesId) []).toOption.getD firstFee

/-- The three accounts, opened by the writers 1 to 3. -/
def opened : List (Operation × Env) := [
  (opening "till" "till", envOf 1),
  (opening "fees" "fees", envOf 2),
  (opening "equity" "retained_earnings", envOf 3)]

/-- A fee in each of two periods. -/
def feesInPeriods : List (Operation × Env) := opened ++ [
  (period "first" 0 1000000, envOf 4),
  (period "second" 1000000 2000000, envOf 5),
  (.post (command "fee" 1000 .posted none 70), envOf 6),
  (.post (command "later" 1500000 .posted none 30), envOf 7)]

def closedForward : List (Operation × Env) :=
  feesInPeriods ++ [(closing "first", envOf 8), (closing "second", envOf 9)]

/-- The year after its two closes: a fee that arrives late for the first period, and one
after both. -/
def yearGoesOn : List (Operation × Env) := closedForward ++ [
  (.post (command "late" 700000 .posted none 5), envOf 10),
  (.post (command "after" 2500000 .posted none 9), envOf 11)]

def yearBook : Book := performAll id yearGoesOn (Book.empty chart)

theorem yearBook_reachable : Reachable id chart yearBook (nextAfter yearGoesOn 0) :=
  Reachable.empty.performAll (by decide)

end Shop

section Evaluation

variable {α : Type} (env : Env)

theorem runOn_bind {β : Type} (program : Program Request Request.Reply β)
    (next : β → Program Request Request.Reply α)
    (pureNext : ∀ answer, ∃ result, next answer = .done result) (book : Book) :
    runOn env (program >>= next) book =
      ((runOn env (next (runOn env program book).1) book).1, (runOn env program book).2) := by
  obtain ⟨result, isDone⟩ := pureNext (runOn env program book).1
  simp only [runOn, Program.run_bind] at isDone ⊢
  rw [isDone]
  rfl

end Evaluation

end OpenLedger
