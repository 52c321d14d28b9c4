import OpenLedger.Provenance
import OpenLedger.Sequential

/-!
# Submissions and their verdicts

Four operations share one key space.  What each of them does with the key it was
submitted under is the same for all: a key that is held answers what holds it, and
a key that is free is claimed or stays free.
-/

namespace OpenLedger

open Postgres

/-- What is submitted under one idempotency key. -/
inductive KeyedCommand where
  | post (command : PostTransaction)
  | openAccount (command : OpenAccount)
  | definePeriod (command : DefinePeriod)
  | closePeriod (command : ClosePeriod)

/-- What an accepted submission made. -/
inductive Made where
  | transaction (id : Option Uuid)
  | account (account : Account)
  | period (period : Period)

/-- What a submission is told. -/
inductive Verdict where
  | accepted (eventId : Uuid) (made : Made) (replayed : Bool)
  | periodAlreadyClosed
  | keyReused
  | refused
  /-- The storage failed, or disagreed with the service. -/
  | failed

def WriteError.verdict : WriteError → Verdict
  | .keyReused => .keyReused
  | .internal _ => .failed
  | .storage _ => .failed
  | _ => .refused

def OpenAccountError.verdict : OpenAccountError → Verdict
  | .keyReused => .keyReused
  | .internal _ => .failed
  | .storage _ => .failed
  | _ => .refused

def DefinePeriodError.verdict : DefinePeriodError → Verdict
  | .keyReused => .keyReused
  | .internal _ => .failed
  | .storage _ => .failed
  | _ => .refused

def ClosePeriodError.verdict : ClosePeriodError → Verdict
  | .keyReused => .keyReused
  | .periodAlreadyClosed _ _ => .periodAlreadyClosed
  | .internal _ => .failed
  | .storage _ => .failed
  | _ => .refused

namespace Verdict

def ofPosted : Except WriteError Posted → Verdict
  | .ok posted => .accepted posted.eventId (.transaction posted.transactionId) posted.replayed
  | .error refusal => refusal.verdict

def ofOpened : Except OpenAccountError AccountOpened → Verdict
  | .ok opened => .accepted opened.eventId (.account opened.account) opened.replayed
  | .error refusal => refusal.verdict

def ofDefined : Except DefinePeriodError PeriodDefined → Verdict
  | .ok defined => .accepted defined.eventId (.period defined.period) defined.replayed
  | .error refusal => refusal.verdict

/-- A close has no replay to answer. -/
def ofClosed : Except ClosePeriodError PeriodClosed → Verdict
  | .ok closed => .accepted closed.eventId (.transaction (some closed.transactionId)) false
  | .error refusal => refusal.verdict

end Verdict

/-- The submissions an operation carries, in its callers' order. -/
def Operation.submissions : Operation → List KeyedCommand
  | post command => [.post command]
  | postBatch commands => commands.map .post
  | openAccount command => [.openAccount command]
  | definePeriod command => [.definePeriod command]
  | closePeriod command => [.closePeriod command]

/-- What each of them was told. -/
def Outcome.verdicts : Outcome → List Verdict
  | posted answer => [.ofPosted answer]
  | postedBatch answers => answers.map .ofPosted
  | opened answer => [.ofOpened answer]
  | defined answer => [.ofDefined answer]
  | closed answer => [.ofClosed answer]

namespace KeyedCommand

def tenantId : KeyedCommand → String
  | post command => command.tenantId
  | openAccount command => command.tenantId
  | definePeriod command => command.tenantId
  | closePeriod command => command.tenantId

def idempotencyKey : KeyedCommand → String
  | post command => command.idempotencyKey
  | openAccount command => command.idempotencyKey
  | definePeriod command => command.idempotencyKey
  | closePeriod command => command.idempotencyKey

def canonicalBytes : KeyedCommand → Except Invalid (List UInt8)
  | post command => command.canonicalBytes
  | openAccount command => .ok command.canonicalBytes
  | definePeriod command => command.canonicalBytes
  | closePeriod command => .ok command.canonicalBytes

def idempotencyHash (sha256 : List UInt8 → List UInt8) : KeyedCommand → Except Invalid (List UInt8)
  | post command => command.idempotencyHash sha256
  | openAccount command => .ok (command.idempotencyHash sha256)
  | definePeriod command => command.idempotencyHash sha256
  | closePeriod command => .ok (command.idempotencyHash sha256)

/-- The payload has a text for the offset its instants came in. -/
def Rendered : KeyedCommand → Prop
  | post command => ∃ payload, command.payload = .ok payload
  | definePeriod command => ∃ payload, command.payload = .ok payload
  | _ => True

/-- Refused before the key is looked at: by the plan, by the chart, by the texts of
a definition, or by the two reads of a close. -/
def StopsBeforeClaim (sha256 : List UInt8 → List UInt8) (book : Book) : KeyedCommand → Prop
  | post command => ∃ refusal, planFor sha256 command = .error refusal
  | openAccount command => ∀ triple, chartTripleForPurpose book command.purpose = some triple →
      (theOwnerTheTypeAndTheSchemaDisagreeAbout command triple).isSome = true
  | definePeriod command => ∀ hash payload, command.idempotencyHash sha256 = .ok hash →
      command.payload ≠ .ok payload
  | closePeriod command => ∃ refusal, closePlan book command = .error refusal

/-- What in the book refuses a submission whose key is free. -/
def Obstructed (env : Env) (book : Book) : KeyedCommand → Prop
  | post command =>
      gateAdmits command (supersedeTarget book command) = false ∨
        (∃ id other, supersededId command = some id ∧ other ∈ book.transactions ∧
          other.supersessionKey = some (command.tenantId, id)) ∨
        ∃ leg ∈ expandPostings command.postings,
          book.account? command.tenantId leg.accountId leg.currency = none
  | openAccount command => ∃ account ∈ book.accounts, account.tenantId = command.tenantId ∧
      account.ownerType = command.ownerType ∧ account.purpose = command.purpose ∧
      account.currency = command.currency ∧
      (command.ownerType = .house ∨ account.ownerId = command.ownerId)
  | definePeriod command => (∃ period ∈ book.periods, period.tenantId = command.tenantId ∧
      (period.code = command.code ∨ (definedRow command).Overlaps period)) ∨
        env.tzKnown command.tz = false
  | closePeriod command => ∃ close ∈ book.closes, close.IsOf command

/-- What an event made, by the lookups a replay makes. -/
def MadeBy (book : Book) (event : EventRow) : KeyedCommand → Made → Prop
  | post _, made => ∃ transaction, book.causedBy event.tenantId event.id = some transaction ∧
      made = .transaction (some transaction.id)
  | openAccount command, made => ∃ account,
      accountUnder book command event.tenantId = some account ∧
        made = .account (accountFrom account)
  | definePeriod command, made => ∃ period, book.period? event.tenantId command.code = some period ∧
      made = .period (periodFrom period)
  | closePeriod _, made => ∃ transaction,
      book.causedBy event.tenantId event.id = some transaction ∧
        made = .transaction (some transaction.id)

/-- What the holder of a key answers its own body. -/
def repeated (book : Book) (event : EventRow) : KeyedCommand → Verdict
  | post _ => .accepted event.id
      (.transaction ((book.causedBy event.tenantId event.id).map TransactionRow.id)) true
  | openAccount command =>
      match accountUnder book command event.tenantId with
      | some account => .accepted event.id (.account (accountFrom account)) true
      | none => .failed
  | definePeriod command =>
      match book.period? event.tenantId command.code with
      | some period => .accepted event.id (.period (periodFrom period)) true
      | none => .failed
  | closePeriod _ => .periodAlreadyClosed

/-- What the holder of a key answers any body. -/
def heldVerdict (sha256 : List UInt8 → List UInt8) (book : Book) (event : EventRow)
    (submission : KeyedCommand) : Verdict :=
  if submission.idempotencyHash sha256 = .ok event.idempotencyHash then
    submission.repeated book event
  else .keyReused

/-- What a repeat of an accepted submission is told. -/
def onceMore (eventId : Uuid) (made : Made) : KeyedCommand → Verdict
  | closePeriod _ => .periodAlreadyClosed
  | _ => .accepted eventId made true

end KeyedCommand

/-- How a submission was answered over the book it met, and what of it is in the
book that was left. -/
inductive Answered (sha256 : List UInt8 → List UInt8) (env : Env) (book after : Book)
    (submission : KeyedCommand) : Verdict → Prop where
  | stopped {verdict : Verdict} (stops : submission.StopsBeforeClaim sha256 book)
      (isRefusal : verdict = .refused ∨ verdict = .failed) :
      Answered sha256 env book after submission verdict
  | held {event : EventRow} (proceeds : ¬ submission.StopsBeforeClaim sha256 book)
      (isHeld : book.holderOf submission.tenantId submission.idempotencyKey = some event) :
      Answered sha256 env book after submission (submission.heldVerdict sha256 after event)
  | failed (free : book.holderOf submission.tenantId submission.idempotencyKey = none) :
      Answered sha256 env book after submission .failed
  | refused {verdict : Verdict}
      (free : book.holderOf submission.tenantId submission.idempotencyKey = none)
      (obstructed : submission.Obstructed env book)
      (isRefusal : verdict = .refused ∨ verdict = .periodAlreadyClosed) :
      Answered sha256 env book after submission verdict
  | fresh {event : EventRow} {made : Made}
      (proceeds : ¬ submission.StopsBeforeClaim sha256 book)
      (free : book.holderOf submission.tenantId submission.idempotencyKey = none)
      (isThere : event ∈ after.events) (tenant : event.tenantId = submission.tenantId)
      (key : event.idempotencyKey = submission.idempotencyKey)
      (hashed : submission.idempotencyHash sha256 = .ok event.idempotencyHash)
      (isMade : submission.MadeBy after event made) :
      Answered sha256 env book after submission (.accepted event.id made false)

/-- What is written is of the events that were claimed, and every one of those is a
fresh acceptance. -/
structure Writes.Claimed (writes : Writes) (answers : List (KeyedCommand × Verdict)) : Prop where
  events : ∀ event ∈ writes.events, ∃ submission made,
    (submission, Verdict.accepted event.id made false) ∈ answers ∧
      event.tenantId = submission.tenantId ∧
      event.idempotencyKey = submission.idempotencyKey
  transactions : ∀ transaction ∈ writes.transactions, ∃ event ∈ writes.events,
    event.tenantId = transaction.tenantId ∧ event.id = transaction.eventId
  entries : ∀ entry ∈ writes.entries, ∃ transaction ∈ writes.transactions,
    entry.BelongsTo transaction
  nothing : writes.events = [] → writes = .none

theorem Writes.claimed_none (answers : List (KeyedCommand × Verdict)) :
    Writes.none.Claimed answers := by
  constructor <;> simp [Writes.none]

/-- The key an answer accepted for the first time. -/
def acceptedKey : KeyedCommand × Verdict → Option (String × String)
  | (submission, .accepted _ _ false) => some (submission.tenantId, submission.idempotencyKey)
  | _ => none

theorem acceptedKey_eq_some {answer : KeyedCommand × Verdict} {key : String × String}
    (accepted : acceptedKey answer = some key) :
    ∃ eventId made, answer.2 = .accepted eventId made false ∧
      key = (answer.1.tenantId, answer.1.idempotencyKey) := by
  obtain ⟨submission, verdict⟩ := answer
  unfold acceptedKey at accepted
  split at accepted
  · rename_i eventId made same
    cases same
    exact ⟨eventId, made, rfl, (Option.some.inj accepted).symm⟩
  · cases accepted

/-- One operation performed: each submission answered, no key accepted twice, and
only what was accepted written. -/
structure Performed (sha256 : List UInt8 → List UInt8) (env : Env) (book after : Book)
    (submissions : List KeyedCommand) (verdicts : List Verdict) : Prop where
  answered : List.Forall₂ (Answered sha256 env book after) submissions verdicts
  once : ((submissions.zip verdicts).filterMap acceptedKey).Nodup
  written : ∃ writes, after = book.apply writes ∧
    writes.Claimed (submissions.zip verdicts)

section Holders

variable {book : Book} {tenantId key : String} {event : EventRow}

theorem holderOf_spec (held : book.holderOf tenantId key = some event) :
    event ∈ book.events ∧ event.tenantId = tenantId ∧ event.idempotencyKey = key := by
  have found := List.find?_some held
  simp only [Bool.and_eq_true, decide_eq_true_eq] at found
  exact ⟨List.mem_of_find?_eq_some held, found.1, found.2⟩

/-- The one event of a key holds it. -/
theorem holderOf_of_mem (kept : Kept book) (isThere : event ∈ book.events) :
    book.holderOf event.tenantId event.idempotencyKey = some event :=
  UniqueIndex.find?_of_mem kept.uqEventsIdempotency isThere rfl fun other => by
    simp [EventRow.claimKey]

/-- Looked up with a hash, a held key finds its holder or nothing. -/
theorem find?_holder (kept : Kept book) (held : book.holderOf tenantId key = some event)
    (hash : List UInt8) :
    (book.events.find? fun other => decide (other.tenantId = tenantId) &&
        decide (other.idempotencyKey = key) && decide (other.idempotencyHash = hash)) =
      if event.idempotencyHash = hash then some event else none := by
  obtain ⟨isThere, tenant, ofKey⟩ := holderOf_spec held
  have alone : ∀ other ∈ book.events, other.tenantId = tenantId →
      other.idempotencyKey = key → other = event := by
    intro other isOther sameTenant sameKey
    have found := holderOf_of_mem kept isOther
    rw [sameTenant, sameKey, held] at found
    exact (Option.some.inj found).symm
  by_cases same : event.idempotencyHash = hash
  · rw [if_pos same]
    cases found : book.events.find? fun other => decide (other.tenantId = tenantId) &&
        decide (other.idempotencyKey = key) && decide (other.idempotencyHash = hash) with
    | none =>
        have missed := List.find?_eq_none.mp found event isThere
        simp [tenant, ofKey, same] at missed
    | some other =>
        have carried := List.find?_some found
        simp only [Bool.and_eq_true, decide_eq_true_eq] at carried
        rw [alone other (List.mem_of_find?_eq_some found) carried.1.1 carried.1.2]
  · rw [if_neg same, List.find?_eq_none]
    intro other isOther carried
    simp only [Bool.and_eq_true, decide_eq_true_eq] at carried
    rw [alone other isOther carried.1.1 carried.1.2] at carried
    exact same carried.2

end Holders

/-- An event's transaction is found by the event. -/
theorem causedBy_of_mem {book : Book} (kept : Kept book) {transaction : TransactionRow}
    (isThere : transaction ∈ book.transactions) :
    book.causedBy transaction.tenantId transaction.eventId = some transaction :=
  UniqueIndex.find?_of_mem kept.uqTxnOnePerEvent isThere rfl fun other => by
    simp [TransactionRow.eventKey]

theorem heldVerdict_of_hash {sha256 : List UInt8 → List UInt8} {book : Book}
    {event : EventRow} (submission : KeyedCommand) {hash : List UInt8}
    (hashed : submission.idempotencyHash sha256 = .ok hash) :
    submission.heldVerdict sha256 book event =
      if event.idempotencyHash = hash then submission.repeated book event else .keyReused := by
  unfold KeyedCommand.heldVerdict
  by_cases same : event.idempotencyHash = hash
  · rw [if_pos same, if_pos (by rw [hashed, same])]
  · rw [if_neg same, if_neg]
    rw [hashed, Except.ok.injEq]
    exact Ne.symm same

/-- A claim over a free key whose one event is the submission's. -/
theorem answered_fresh {sha256 : List UInt8 → List UInt8} {env : Env} {book : Book}
    {submission : KeyedCommand} {writes : Writes} {event : EventRow} {made : Made}
    (claims : writes.events = [event])
    (proceeds : ¬ submission.StopsBeforeClaim sha256 book)
    (free : book.holderOf submission.tenantId submission.idempotencyKey = none)
    (tenant : event.tenantId = submission.tenantId)
    (key : event.idempotencyKey = submission.idempotencyKey)
    (hashed : submission.idempotencyHash sha256 = .ok event.idempotencyHash)
    (isMade : submission.MadeBy (book.apply writes) event made) :
    Answered sha256 env book (book.apply writes) submission
      (.accepted event.id made false) := by
  have isThere : event ∈ (book.apply writes).events := by
    rw [Book.events_apply, claims]
    exact List.mem_append_right _ (List.mem_singleton_self event)
  exact .fresh proceeds free isThere tenant key hashed isMade

/-- What such a claim writes is its one event's. -/
theorem claimed_of_event {submission : KeyedCommand} {writes : Writes} {event : EventRow}
    {made : Made} (claims : writes.events = [event])
    (tenant : event.tenantId = submission.tenantId)
    (key : event.idempotencyKey = submission.idempotencyKey)
    (transactions : ∀ transaction ∈ writes.transactions, ∃ event ∈ writes.events,
      event.tenantId = transaction.tenantId ∧ event.id = transaction.eventId)
    (entries : ∀ entry ∈ writes.entries, ∃ transaction ∈ writes.transactions,
      entry.BelongsTo transaction) :
    writes.Claimed [(submission, .accepted event.id made false)] where
  events := fun other isThere => by
    rw [claims] at isThere
    rw [List.mem_singleton.mp isThere]
    exact ⟨submission, made, List.mem_singleton_self _, tenant, key⟩
  transactions := transactions
  entries := entries
  nothing := fun empty => by
    rw [claims] at empty
    cases empty

/-- The transactions of writes that land are their events'. -/
theorem events_of_lands {book : Book} {writes : Writes} (lands : Lands book writes) :
    ∀ transaction ∈ writes.transactions, ∃ event ∈ writes.events,
      event.tenantId = transaction.tenantId ∧ event.id = transaction.eventId := by
  intro transaction isThere
  obtain ⟨event, isEvent, tenant, id, _⟩ := lands.caused transaction isThere
  exact ⟨event, isEvent, tenant, id⟩

/-- A checkpoint over a claim's rows is that claim's too. -/
theorem Writes.Claimed.checkpointed {writes : Writes} {answers : List (KeyedCommand × Verdict)}
    (rows : List PeriodBalanceRow) (claimed : writes.Claimed answers)
    (claims : writes.events ≠ []) :
    (writes.append { periodBalances := rows }).Claimed answers where
  events := by simpa [Writes.append] using claimed.events
  transactions := by simpa [Writes.append] using claimed.transactions
  entries := by simpa [Writes.append] using claimed.entries
  nothing := fun empty => absurd (List.append_eq_nil_iff.mp empty).1 claims

section Performing

variable {sha256 : List UInt8 → List UInt8} {env : Env} {book : Book}

theorem once_single (submission : KeyedCommand) (verdict : Verdict) :
    (([submission].zip [verdict]).filterMap acceptedKey).Nodup := by
  rw [List.zip_cons_cons, List.zip_nil_right, List.filterMap_cons, List.filterMap_nil]
  cases acceptedKey (submission, verdict) with
  | none =>
      exact List.nodup_nil
  | some key =>
      exact List.nodup_singleton key

theorem performed_single {submission : KeyedCommand} {verdict : Verdict} {writes : Writes}
    (answered : Answered sha256 env book (book.apply writes) submission verdict)
    (claimed : writes.Claimed [(submission, verdict)]) :
    Performed sha256 env book (book.apply writes) [submission] [verdict] :=
  ⟨.cons answered .nil, once_single _ _, writes, rfl, claimed⟩

/-- Nothing is written. -/
theorem performed_unwritten {submission : KeyedCommand} {verdict : Verdict}
    (answered : Answered sha256 env book book submission verdict) :
    Performed sha256 env book book [submission] [verdict] :=
  ⟨.cons answered .nil, once_single _ _, .none, (Book.apply_none book).symm,
    Writes.claimed_none _⟩

end Performing

end OpenLedger
