import OpenLedger.Brackets

/-!
# Interleaved writers

Any number of operations run beside each other over one database.  A statement
takes its snapshot, waits until no open bracket holds a key or a balance row it
touches, and then runs against what is committed; a writer is given its
transaction id before it first writes; a bracket's rows become visible at its
commit.  Brackets commit in any order, and any statement may fail.
-/

namespace OpenLedger

open Postgres

/-- What two open brackets wrote has no key in common: neither waits for the
other. -/
structure Writes.Apart (left right : Writes) : Prop where
  pkEvents : UniqueIndex.Apart EventRow.primaryKey left.events right.events
  claims : UniqueIndex.Apart EventRow.claimKey left.events right.events
  pkTxn : UniqueIndex.Apart TransactionRow.primaryKey left.transactions right.transactions
  uqTxnOnePerEvent :
    UniqueIndex.Apart TransactionRow.eventKey left.transactions right.transactions
  uqTxnOneSupersession :
    UniqueIndex.Apart TransactionRow.supersessionKey left.transactions right.transactions
  pkAccounts : UniqueIndex.Apart AccountRow.primaryKey left.accounts right.accounts
  uqAccountsOwned : UniqueIndex.Apart AccountRow.ownedKey left.accounts right.accounts
  uqAccountsHouse : UniqueIndex.Apart AccountRow.houseKey left.accounts right.accounts
  pkEntries : UniqueIndex.Apart EntryRow.primaryKey left.entries right.entries
  pkPeriods : UniqueIndex.Apart PeriodRow.primaryKey left.periods right.periods
  exPeriodsNoOverlap : ∀ row ∈ left.periods, ∀ other ∈ right.periods, ¬ row.Overlaps other
  pkCloses : UniqueIndex.Apart CloseRow.primaryKey left.closes right.closes
  uqClosesTxn : UniqueIndex.Apart CloseRow.transactionKey left.closes right.closes
  pkPeriodBalances :
    UniqueIndex.Apart PeriodBalanceRow.primaryKey left.periodBalances right.periodBalances
  rows : ∀ key ∈ left.upserts.map UpsertRow.toStripeKey,
    key ∉ right.upserts.map UpsertRow.toStripeKey

namespace Writes

/-- The locks two brackets would wait for each other over, each with whether
they share it. -/
def apartChecks (left right : Writes) : List Bool := [
  decide (UniqueIndex.Apart EventRow.primaryKey left.events right.events),
  decide (UniqueIndex.Apart EventRow.claimKey left.events right.events),
  decide (UniqueIndex.Apart TransactionRow.primaryKey left.transactions right.transactions),
  decide (UniqueIndex.Apart TransactionRow.eventKey left.transactions right.transactions),
  decide (UniqueIndex.Apart TransactionRow.supersessionKey left.transactions
    right.transactions),
  decide (UniqueIndex.Apart AccountRow.primaryKey left.accounts right.accounts),
  decide (UniqueIndex.Apart AccountRow.ownedKey left.accounts right.accounts),
  decide (UniqueIndex.Apart AccountRow.houseKey left.accounts right.accounts),
  decide (UniqueIndex.Apart EntryRow.primaryKey left.entries right.entries),
  decide (UniqueIndex.Apart PeriodRow.primaryKey left.periods right.periods),
  decide (∀ row ∈ left.periods, ∀ other ∈ right.periods, ¬ row.Overlaps other),
  decide (UniqueIndex.Apart CloseRow.primaryKey left.closes right.closes),
  decide (UniqueIndex.Apart CloseRow.transactionKey left.closes right.closes),
  decide (UniqueIndex.Apart PeriodBalanceRow.primaryKey left.periodBalances
    right.periodBalances),
  decide (∀ key ∈ left.upserts.map UpsertRow.toStripeKey,
    key ∉ right.upserts.map UpsertRow.toStripeKey)]

theorem apart_iff (left right : Writes) :
    left.Apart right ↔ (apartChecks left right).all id = true := by
  simp only [apartChecks, List.all_cons, List.all_nil, id, Bool.and_true, Bool.and_eq_true,
    decide_eq_true_eq]
  constructor
  · intro apart
    exact ⟨apart.pkEvents, apart.claims, apart.pkTxn, apart.uqTxnOnePerEvent,
      apart.uqTxnOneSupersession, apart.pkAccounts, apart.uqAccountsOwned,
      apart.uqAccountsHouse, apart.pkEntries, apart.pkPeriods, apart.exPeriodsNoOverlap,
      apart.pkCloses, apart.uqClosesTxn, apart.pkPeriodBalances, apart.rows⟩
  · rintro ⟨events, claims, txn, event, supersession, accounts, owned, house, entries,
      periods, overlap, closes, closesTxn, balances, rows⟩
    exact ⟨events, claims, txn, event, supersession, accounts, owned, house, entries,
      periods, overlap, closes, closesTxn, balances, rows⟩

instance (left right : Writes) : Decidable (left.Apart right) :=
  decidable_of_iff' _ (apart_iff left right)

namespace Apart

theorem symm {left right : Writes} (apart : left.Apart right) : right.Apart left where
  pkEvents := apart.pkEvents.symm
  claims := apart.claims.symm
  pkTxn := apart.pkTxn.symm
  uqTxnOnePerEvent := apart.uqTxnOnePerEvent.symm
  uqTxnOneSupersession := apart.uqTxnOneSupersession.symm
  pkAccounts := apart.pkAccounts.symm
  uqAccountsOwned := apart.uqAccountsOwned.symm
  uqAccountsHouse := apart.uqAccountsHouse.symm
  pkEntries := apart.pkEntries.symm
  pkPeriods := apart.pkPeriods.symm
  exPeriodsNoOverlap := fun row isRight other isLeft overlaps =>
    apart.exPeriodsNoOverlap other isLeft row isRight overlaps.symm
  pkCloses := apart.pkCloses.symm
  uqClosesTxn := apart.uqClosesTxn.symm
  pkPeriodBalances := apart.pkPeriodBalances.symm
  rows := fun key isRight isLeft => apart.rows key isLeft isRight

theorem none (right : Writes) : Writes.none.Apart right := by
  constructor <;> simp [Writes.none]

/-- Two statements of one bracket wait for nobody when neither does. -/
theorem append {first second right : Writes} (firstApart : first.Apart right)
    (secondApart : second.Apart right) : (first.append second).Apart right where
  pkEvents := firstApart.pkEvents.append secondApart.pkEvents
  claims := firstApart.claims.append secondApart.claims
  pkTxn := firstApart.pkTxn.append secondApart.pkTxn
  uqTxnOnePerEvent := firstApart.uqTxnOnePerEvent.append secondApart.uqTxnOnePerEvent
  uqTxnOneSupersession :=
    firstApart.uqTxnOneSupersession.append secondApart.uqTxnOneSupersession
  pkAccounts := firstApart.pkAccounts.append secondApart.pkAccounts
  uqAccountsOwned := firstApart.uqAccountsOwned.append secondApart.uqAccountsOwned
  uqAccountsHouse := firstApart.uqAccountsHouse.append secondApart.uqAccountsHouse
  pkEntries := firstApart.pkEntries.append secondApart.pkEntries
  pkPeriods := firstApart.pkPeriods.append secondApart.pkPeriods
  exPeriodsNoOverlap := fun row member =>
    (List.mem_append.mp member).elim (firstApart.exPeriodsNoOverlap row)
      (secondApart.exPeriodsNoOverlap row)
  pkCloses := firstApart.pkCloses.append secondApart.pkCloses
  uqClosesTxn := firstApart.uqClosesTxn.append secondApart.uqClosesTxn
  pkPeriodBalances := firstApart.pkPeriodBalances.append secondApart.pkPeriodBalances
  rows := fun key member => by
    rw [Writes.append, List.map_append, List.mem_append] at member
    exact member.elim (firstApart.rows key) (secondApart.rows key)

end Apart

def isEmpty (writes : Writes) : Bool :=
  writes.events.isEmpty && writes.transactions.isEmpty && writes.accounts.isEmpty &&
    writes.upserts.isEmpty && writes.entries.isEmpty && writes.periods.isEmpty &&
    writes.closes.isEmpty && writes.periodBalances.isEmpty

end Writes

section Behind

variable {book : Book} {writes other : Writes}

/-- A counter another bracket does not touch reads the same behind it. -/
theorem Book.counter_behind (book : Book) {key : StripeKey}
    (untouched : key ∉ other.upserts.map UpsertRow.toStripeKey) :
    (book.apply other).inputOn key = book.inputOn key ∧
      (book.apply other).outputOn key = book.outputOn key ∧
      (book.apply other).lastSeqOn key = book.lastSeqOn key := by
  have skipped : ∀ row ∈ other.upserts, decide (row.toStripeKey = key) = false := by
    intro row member
    exact decide_eq_false fun same => untouched (same ▸ List.mem_map_of_mem member)
  have input : UpsertRow.inputTo key other.upserts = 0 := Tally.sumWhere_eq_zero skipped
  have output : UpsertRow.outputTo key other.upserts = 0 := Tally.sumWhere_eq_zero skipped
  have legs : UpsertRow.legsTo key other.upserts = 0 := Tally.sumWhere_eq_zero skipped
  rw [Book.inputOn_apply, Book.outputOn_apply, Book.lastSeqOn_apply, input, output, legs]
  exact ⟨add_zero _, add_zero _, add_zero _⟩

theorem Admits.behind {tzKnown : String → Bool} (admits : Admits tzKnown book writes)
    (apart : writes.Apart other) : Admits tzKnown (book.apply other) writes where
  pkEvents := admits.pkEvents.behind apart.pkEvents
  pkTxn := admits.pkTxn.behind apart.pkTxn
  uqTxnOnePerEvent := admits.uqTxnOnePerEvent.behind apart.uqTxnOnePerEvent
  uqTxnOneSupersession := admits.uqTxnOneSupersession.behind apart.uqTxnOneSupersession
  ckTxnNoSelfReference := admits.ckTxnNoSelfReference
  pkAccounts := admits.pkAccounts.behind apart.pkAccounts
  uqAccountsOwned := admits.uqAccountsOwned.behind apart.uqAccountsOwned
  uqAccountsHouse := admits.uqAccountsHouse.behind apart.uqAccountsHouse
  pkEntries := admits.pkEntries.behind apart.pkEntries
  ckPeriodsNonEmpty := admits.ckPeriodsNonEmpty
  ckPeriodsTzKnown := admits.ckPeriodsTzKnown
  pkPeriods := admits.pkPeriods.behind apart.pkPeriods
  exPeriodsNoOverlap := fun row isNew held isHeld =>
    (List.mem_append.mp isHeld).elim (admits.exPeriodsNoOverlap row isNew held)
      (apart.exPeriodsNoOverlap row isNew held)
  ckClosesTxnInPeriod := admits.ckClosesTxnInPeriod
  pkCloses := admits.pkCloses.behind apart.pkCloses
  uqClosesTxn := admits.uqClosesTxn.behind apart.uqClosesTxn
  pkPeriodBalances := admits.pkPeriodBalances.behind apart.pkPeriodBalances
  upsertsOnce := admits.upsertsOnce
  upsertsFit := fun row member => by
    obtain ⟨input, output, legs⟩ :=
      book.counter_behind (apart.rows _ (List.mem_map_of_mem member))
    rw [input, output, legs]
    exact admits.upsertsFit row member
  periodBalancesFit := admits.periodBalancesFit

/-- Writes that land still land behind another bracket's that they are apart
from. -/
theorem Lands.behind (lands : Lands book writes) (apart : writes.Apart other) :
    Lands (book.apply other) writes := by
  have precedes := Book.Precedes.apply book other
  obtain ⟨tzKnown, admits⟩ := lands.admitted
  have numbers : ∀ key, (writes.entriesOn key).map EntryRow.accountSeq =
      Numbering.countingFrom ((book.apply other).lastSeqOn key)
        (writes.entriesOn key).length := by
    intro key
    rw [lands.numbers key]
    cases mine : writes.entriesOn key with
    | nil =>
        rfl
    | cons e rest =>
        have isMine : e ∈ writes.entriesOn key := by
          rw [mine]
          exact List.mem_cons_self
        obtain ⟨member, sameKey⟩ := List.mem_filter.mp isMine
        have touched := lands.upserted e member
        rw [of_decide_eq_true sameKey] at touched
        rw [(book.counter_behind (apart.rows key touched)).2.2]
  exact
  { toLandsEntries :=
      { inputs := lands.inputs
        outputs := lands.outputs
        counts := lands.counts
        numbers := numbers
        upserted := lands.upserted
        belongs := lands.belongs
        onAccount := fun e member => Book.account?_later precedes (lands.onAccount e member)
        positive := lands.positive
        foots := lands.foots }
    admitted := ⟨tzKnown, admits.behind apart⟩
    claims := lands.claims.behind apart.claims
    nonEmpty := fun transaction member =>
      (lands.nonEmpty transaction member).imp_left fun entryless => entryless.later precedes
    supersedes := fun transaction member => (lands.supersedes transaction member).later precedes
    pendingPlain := lands.pendingPlain
    notBoth := lands.notBoth
    caused := lands.caused
    closed := lands.closed
    named := lands.named
    ofPeriod := fun close member => by
      obtain ⟨period, isThere, closes⟩ := lands.ofPeriod close member
      exact ⟨period, List.mem_append_left _ isThere, closes⟩
    checkpointed := lands.checkpointed
    balancesOnAccount := fun row member =>
      Book.account?_later precedes (lands.balancesOnAccount row member)
    apart := lands.apart
    charted := lands.charted }

/-- Another bracket's commit is growth. -/
theorem grows_of_commit (kept : Kept book) (lands : Lands book other)
    (apart : writes.Apart other) : Grows writes book (book.apply other) where
  precedes := Book.Precedes.apply book other
  kept := fun _ => kept.apply lands
  lands := fun mine => mine.behind apart

end Behind

/-- What a bracket commits it still commits after others did. -/
theorem Commits.later {α : Type} {env : Env} {program : Program Request Request.Reply α}
    {written : Writes} {before after : Book}
    (commits : Commits env program ⟨before, written⟩) (grows : Grows written before after) :
    Commits env program ⟨after, written⟩ := by
  refine Program.upholds_transfer (fun request lands isCommit => grows.lands (lands isCommit))
    (fun request reply next step => ?_) (fun _ _ => trivial) commits
  cases step with
  | answered seen grown =>
      exact Step.answered request (grows.trans seen) grown
  | failed grown failure =>
      exact Step.failed request (grows.trans grown) failure

/-- A statement a session ran: what it asked, and what was committed when its
snapshot was taken and when it ran. -/
structure Ran where
  request : Request
  snapshot : Book
  current : Book

/-- One operation on its connection: what it is, what is left of its use-case,
what its bracket has written, the snapshot of the statement it is at, whether it has its
transaction id yet, and the statements behind it.  A session is started with the
id it is going to be given. -/
structure Session where
  operation : Operation
  env : Env
  program : Program Request Request.Reply Outcome
  written : Writes
  snapshot : Option Book
  assigned : Bool
  trace : List Ran

/-- The database and everyone connected to it. -/
structure Machine where
  committed : Book
  next : Xid
  sessions : List Session

/-- What can happen next. -/
inductive Action where
  | start (operation : Operation) (env : Env)
  /-- A transaction of somebody else takes an id. -/
  | elsewhere
  | assign (index : Nat)
  | look (index : Nat)
  | run (index : Nat)
  /-- The statement fails and its bracket is gone uncommitted; a commit that lands while
  its reply is lost is not among the failures. -/
  | fail (index : Nat) (failure : StorageError)

/-- A use-case that ends drops its transaction, which rolls back what is not
committed. -/
def Session.advance (session : Session) (program : Program Request Request.Reply Outcome)
    (written : Writes) (trace : List Ran) : Session :=
  { session with
    program
    written :=
      match program with
      | .done _ => .none
      | .ask _ _ => written
    snapshot := none
    trace }

/-- What a session's statement answers and writes. -/
def Session.answered (session : Session) (snapshot committed : Book) (request : Request) :
    request.Reply × Writes :=
  statement session.env (snapshot.apply session.written) (committed.apply session.written)
    request

/-- Where a session's statement leaves its connection. -/
def Session.reached (session : Session) (snapshot committed : Book) (request : Request) :
    Connection :=
  Connection.after ⟨committed, session.written⟩ request
    (session.answered snapshot committed request).2

namespace Machine

variable (sha256 : List UInt8 → List UInt8)

def initial (chart : Chart) : Machine := ⟨Book.empty chart, 0, []⟩

def replace (machine : Machine) (index : Nat) (session : Session) : Machine :=
  { machine with sessions := machine.sessions.set index session }

/-- Whether no other open bracket holds what a statement writes. -/
def Unblocked (machine : Machine) (index : Nat) (writes : Writes) : Prop :=
  ∀ other ∈ machine.sessions.zipIdx, other.2 ≠ index → writes.Apart other.1.written

instance (machine : Machine) (index : Nat) (writes : Writes) :
    Decidable (machine.Unblocked index writes) :=
  inferInstanceAs (Decidable (∀ other ∈ machine.sessions.zipIdx, _))

/-- Run the statement a session is at. -/
def runStatement (machine : Machine) (index : Nat) (session : Session) : Option Machine :=
  match session.snapshot, session.program with
  | some snapshot, .ask request next =>
      let answered := session.answered snapshot machine.committed request
      let reached := session.reached snapshot machine.committed request
      if (session.assigned = true ∨ answered.2.isEmpty = true) ∧
          machine.Unblocked index answered.2 then
        some { machine.replace index (session.advance (next answered.1) reached.written
            (session.trace ++ [⟨request, snapshot, machine.committed⟩])) with
          committed := reached.committed }
      else none
  | _, _ => none

/-- One step, where it is possible. -/
def step (machine : Machine) : Action → Option Machine
  | .start operation env =>
      some { machine with
        sessions := machine.sessions ++
          [⟨operation, env, operation.program sha256, .none, none, false, []⟩] }
  | .elsewhere => some { machine with next := machine.next + 1 }
  | .assign index =>
      machine.sessions[index]?.bind fun session =>
        if session.assigned = false ∧ session.env.xid = machine.next then
          some { machine.replace index { session with assigned := true } with
            next := machine.next + 1 }
        else none
  | .look index =>
      machine.sessions[index]?.map fun session =>
        machine.replace index { session with snapshot := some machine.committed }
  | .run index => machine.sessions[index]?.bind (machine.runStatement index)
  | .fail index failure =>
      machine.sessions[index]?.bind fun session =>
        match session.program with
        | .done _ => none
        | .ask _ next =>
            some (machine.replace index
              (session.advance (next (.error failure)) .none session.trace))

/-- A sequence of steps. -/
def steps (machine : Machine) (actions : List Action) : Option Machine :=
  actions.foldlM (Machine.step sha256) machine

end Machine

/-- The machines some interleaving reaches from the empty book. -/
inductive Interleaved (sha256 : List UInt8 → List UInt8) (chart : Chart) : Machine → Prop where
  | initial : Interleaved sha256 chart (Machine.initial chart)
  | step {machine after : Machine} (interleaved : Interleaved sha256 chart machine)
      (action : Action) (stepped : machine.step sha256 action = some after) :
      Interleaved sha256 chart after

theorem Interleaved.steps {sha256 : List UInt8 → List UInt8} {chart : Chart}
    {machine after : Machine} (interleaved : Interleaved sha256 chart machine)
    {actions : List Action} (stepped : machine.steps sha256 actions = some after) :
    Interleaved sha256 chart after := by
  induction actions generalizing machine with
  | nil =>
      obtain rfl : machine = after := by simpa [Machine.steps] using stepped
      exact interleaved
  | cons action actions inductionHypothesis =>
      rw [Machine.steps, List.foldlM_cons] at stepped
      obtain ⟨between, first, rest⟩ := Option.bind_eq_some_iff.mp stepped
      exact inductionHypothesis (interleaved.step action first) rest

namespace Shop

/-- A session's next statements, each with nobody in between. -/
def statements (index count : Nat) : List Action :=
  (List.replicate count [Action.look index, .run index]).flatten

/-- An operation from its start on, with nobody in between. -/
def session (index : Nat) (xid : Xid) (operation : Operation) (count : Nat) : List Action :=
  [.start operation (envOf xid), .assign index] ++ statements index count

/-- The three accounts opened and a period of one millisecond defined, by the
writers 1 to 4. -/
def ready : List Action :=
  .elsewhere :: session 0 1 (opening "till" "till") 4 ++
    session 1 2 (opening "fees" "fees") 4 ++
    session 2 3 (opening "equity" "retained_earnings") 4 ++
    session 3 4 (period "first" 0 1000000) 3

/-- The machine after these steps, or the fresh one where one is impossible. -/
def machineAfter (actions : List Action) : Machine :=
  ((Machine.initial chart).steps id actions).getD (Machine.initial chart)

theorem interleaved_machineAfter (actions : List Action) :
    Interleaved id chart (machineAfter actions) := by
  unfold machineAfter
  cases stepped : (Machine.initial chart).steps id actions with
  | none =>
      exact .initial
  | some after =>
      exact Interleaved.initial.steps stepped

end Shop

end OpenLedger
