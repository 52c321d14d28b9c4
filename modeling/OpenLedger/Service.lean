import OpenLedger.Repository

/-!
# The writer service

The use-cases over the port: post one command or a batch of them, open an
account, define a period, close one.  Each is the source's orchestration, step
for step, with every refusal answered after the rollback that makes it true.
-/

namespace OpenLedger

/-- What posting can answer instead of `Posted`. -/
inductive WriteError where
  | keyReused
  | accountUnknown (accountId : Uuid) (currency : String)
  | overflow
  | resolveTargetUnknown (resolvesId : Uuid)
  | resolveTargetNotPending (resolvesId : Uuid)
  | reverseTargetUnknown (reversesId : Uuid)
  | reverseTargetNotReversible (reversesId : Uuid)
  | targetAlreadySuperseded (transactionId : Uuid)
  | internal (detail : String)
  | storage (failure : StorageError)
deriving DecidableEq, Repr

inductive OpenAccountError where
  | keyReused
  | accountTypeUnknown (purpose : String)
  | accountExists (purpose currency : String)
  | accountOwnerMismatched (ownerType : String) (ownerIdGiven : Bool)
  | accountTypeRequiresAnOwner (purpose : String)
  | internal (detail : String)
  | storage (failure : StorageError)
deriving DecidableEq, Repr

inductive DefinePeriodError where
  | keyReused
  | periodExists (code : String)
  | periodOverlaps (code : String)
  | periodZoneUnknown (tz : String)
  | internal (detail : String)
  | storage (failure : StorageError)
deriving DecidableEq, Repr

inductive ClosePeriodError where
  | periodUnknown (code : String)
  | periodAlreadyClosed (code currency : String)
  | retainedEarningsUnknown (currency : String)
  | keyReused
  | internal (detail : String)
  | storage (failure : StorageError)
deriving DecidableEq, Repr

/-- Everything a command carries into its statement, computed before any SQL
runs. -/
structure Planned where
  command : PostTransaction
  hash : List UInt8
  payload : Json
  append : Append

def Planned.asMember (planned : Planned) : BatchMember :=
  ⟨planned.command, planned.hash, planned.payload, planned.append⟩

section Posting

variable (sha256 : List UInt8 → List UInt8)

/-- The pure work of one command, all of it, before any SQL. -/
def planFor (command : PostTransaction) : Except WriteError Planned :=
  match command.idempotencyHash sha256 with
  | .error invalid =>
      .error (.internal ("the idempotency hash failed after validation: " ++ invalid.detail))
  | .ok hash =>
      match command.payload with
      | .error invalid =>
          .error (.internal ("the payload rendering failed after validation: " ++ invalid.detail))
      | .ok payload =>
          match planAppend command.postings command.status with
          | .error _ => .error .overflow
          | .ok append => .ok ⟨command, hash, payload, append⟩

theorem planFor_ok {sha256 : List UInt8 → List UInt8} {command : PostTransaction}
    {planned : Planned} (isPlanned : planFor sha256 command = .ok planned) :
    planned.command = command ∧ command.idempotencyHash sha256 = .ok planned.hash ∧
      command.payload = .ok planned.payload ∧
      planAppend command.postings command.status = .ok planned.append := by
  unfold planFor at isPlanned
  split at isPlanned
  · cases isPlanned
  · rename_i hash hashed
    split at isPlanned
    · cases isPlanned
    · rename_i payload rendered
      split at isPlanned
      · cases isPlanned
      · rename_i append appended
        cases isPlanned
        exact ⟨rfl, hashed, rendered, appended⟩

/-- Read the single call's answer and close the bracket: commit when every
delta came back with its counter, and otherwise roll back and name the first
account that has none. -/
def commitOrRefuseUnknownAccount (appended : Appended)
    (deltas : OrdMap AccountKey Delta) : UseCase WriteError Posted := do
  if appended.balanceUpserts.length ≠ deltas.entries.length then
    ask .storage .rollback
    refuse (.internal ("the single call answered " ++
      toString appended.balanceUpserts.length ++ " balance upserts for " ++
      toString deltas.entries.length ++ " deltas"))
  else
    match appended.balanceUpserts.find? fun upsert => upsert.lastSeq.isNone with
    | some missing =>
        ask .storage .rollback
        refuse (.accountUnknown missing.accountId missing.currency)
    | none =>
        ask .storage .commit
        return ⟨appended.eventId, some appended.transactionId, false⟩

/-- A reversal's append was derived by the statement, so there is no plan to
reconcile it against: commit it as it stands. -/
def commitDerivedReversal (appended : Appended) : UseCase WriteError Posted := do
  ask .storage .commit
  return ⟨appended.eventId, some appended.transactionId, false⟩

/-- The refusal under the verb the command asked; a refusal without the
matching pointer is a disagreement about the statement. -/
def supersedeRefusalNamed (command : PostTransaction) (refusal : SupersedeRefusal) :
    WriteError :=
  let disagreement :=
    WriteError.internal "the single call refused a supersession the command never asked for"
  match refusal with
  | .resolveTargetUnknown => command.resolvesId.elim disagreement .resolveTargetUnknown
  | .resolveTargetNotPending => command.resolvesId.elim disagreement .resolveTargetNotPending
  | .reverseTargetUnknown => command.reversesId.elim disagreement .reverseTargetUnknown
  | .reverseTargetNotReversible =>
      command.reversesId.elim disagreement .reverseTargetNotReversible
  | .targetAlreadySuperseded =>
      (command.resolvesId.or command.reversesId).elim disagreement .targetAlreadySuperseded

/-- Roll back first, then name the target. -/
def refuseUnsupersedableTarget (command : PostTransaction) (refusal : SupersedeRefusal) :
    UseCase WriteError Posted := do
  ask .storage .rollback
  refuse (supersedeRefusalNamed command refusal)

/-- The key was already claimed: answer the stored result, or refuse the reuse. -/
def replayOrRefuse (command : PostTransaction) (hash : List UInt8) :
    UseCase WriteError Posted := do
  let stored ← ask .storage (.storedResult command hash)
  ask .storage .rollback
  match (stored : Option StoredResult) with
  | some (eventId, transactionId) => return ⟨eventId, transactionId, true⟩
  | none => refuse .keyReused

/-- Post atomically, or return the stored result. -/
def post (command : PostTransaction) : UseCase WriteError Posted :=
  match planFor sha256 command with
  | .error refusal => refuse refusal
  | .ok planned => do
      ask .storage .begin
      let claimed ← ask .storage
        (.claimAndAppend command planned.hash planned.payload planned.append)
      match (claimed : Option Claimed) with
      | some (.appended appended) =>
          if command.reversesId.isSome then commitDerivedReversal appended
          else commitOrRefuseUnknownAccount appended planned.append.deltas
      | some (.supersessionRefused refusal) => refuseUnsupersedableTarget command refusal
      | none => replayOrRefuse command planned.hash

/-- The members an earlier caller beat to their key, in member order. -/
def membersReplayingAnEarlierWrite (members : List BatchMember)
    (outcomes : List MemberOutcome) : List BatchMember :=
  ((members.zip outcomes).filter fun answered =>
    decide (answered.2 = .keyAlreadyClaimed)).map Prod.fst

/-- One lookup for the whole batch, and none when no member needs it. -/
def replayedResultsFor (replaying : List BatchMember) :
    UseCase WriteError (List (Option StoredResult)) :=
  if replaying.isEmpty then pure []
  else ask .storage (.storedResultBatch replaying)

/-- Each member's answer, the replay lookup's answers handed out in order to
the members whose key was already held. -/
def answersForMembers :
    List MemberOutcome → List (Option StoredResult) → List (Except WriteError Posted)
  | [], _ => []
  | .appended eventId transactionId :: outcomes, replayed =>
      .ok ⟨eventId, some transactionId, false⟩ :: answersForMembers outcomes replayed
  | .accountUnknown accountId currency :: outcomes, replayed =>
      .error (.accountUnknown accountId currency) :: answersForMembers outcomes replayed
  | .keyAlreadyClaimed :: outcomes, some (eventId, transactionId) :: replayed =>
      .ok ⟨eventId, transactionId, true⟩ :: answersForMembers outcomes replayed
  | .keyAlreadyClaimed :: outcomes, none :: replayed =>
      .error .keyReused :: answersForMembers outcomes replayed
  | .keyAlreadyClaimed :: outcomes, [] =>
      .error (.internal "the batched replay lookup ran out of answers") ::
        answersForMembers outcomes []

/-- Each caller's answer in the order the commands came: a command its own plan
refused keeps that refusal, and every other takes the next answer. -/
def answersInArrivalOrder :
    List (Except WriteError Planned) → List (Except WriteError Posted) →
      List (Except WriteError Posted)
  | [], _ => []
  | .error refusal :: planned, answered =>
      .error refusal :: answersInArrivalOrder planned answered
  | .ok _ :: planned, answer :: answered =>
      answer :: answersInArrivalOrder planned answered
  | .ok _ :: planned, [] =>
      .error (.internal "the batch answered fewer members than it carried") ::
        answersInArrivalOrder planned []

/-- Two counts the adapter and the service must agree about. -/
def disagreementOver (answered asked : Nat) (statement : String) : Option WriteError :=
  if answered = asked then none
  else some (.internal ("the " ++ statement ++ " answered " ++ toString answered ++
    " rows for " ++ toString asked ++ " members"))

/-- The bracket for N members: one statement, the replay lookup for whichever
members came back already claimed, commit. -/
def appendTheBatch (members : List BatchMember) :
    UseCase WriteError (List (Except WriteError Posted)) := do
  ask .storage .begin
  let outcomes ← ask .storage (.claimAndAppendBatch members)
  match disagreementOver (List.length outcomes) members.length "batched claim" with
  | some refusal =>
      ask .storage .rollback
      refuse refusal
  | none =>
      let replaying := membersReplayingAnEarlierWrite members outcomes
      let replayed ← replayedResultsFor replaying
      match disagreementOver replayed.length replaying.length "batched replay lookup" with
      | some refusal =>
          ask .storage .rollback
          refuse refusal
      | none =>
          ask .storage .commit
          return answersForMembers outcomes replayed

/-- The members a batch carries on: the commands their own plan did not refuse. -/
def plannedMembers (planned : List (Except WriteError Planned)) : List BatchMember :=
  planned.filterMap fun
    | .ok planned => some planned.asMember
    | .error _ => none

/-- One member's copy of the batch's fate: a storage failure travels as its text, for each
member needs an answer of its own. -/
def refusalForOneMember : WriteError → WriteError
  | .storage failure => .storage failure.rendered
  | refusal => refusal

/-- Two or more independent commands, sharing one statement.  What fails the
batch as a whole reaches every member that got to the statement. -/
def postTogether (commands : List PostTransaction) :
    Program Request Request.Reply (List (Except WriteError Posted)) :=
  let planned := commands.map (planFor sha256)
  match plannedMembers planned with
  | [] => .done (answersInArrivalOrder planned [])
  | [only] => do
      let answered ← (post sha256 only.command).run
      return answersInArrivalOrder planned [answered]
  | members => do
      match ← (appendTheBatch members).run with
      | .ok answered => return answersInArrivalOrder planned answered
      | .error refused =>
          return answersInArrivalOrder planned
            (members.map fun _ => .error (refusalForOneMember refused))

/-- Post N independent commands, each caller answered on its own. -/
def postBatch (commands : List PostTransaction) :
    Program Request Request.Reply (List (Except WriteError Posted)) :=
  match commands with
  | [] => .done []
  | [only] => do
      let answered ← (post sha256 only).run
      return [answered]
  | many => postTogether sha256 many

end Posting

section Opening

/-- The two owner rules the schema holds as checks, asked before the insert. -/
def theOwnerTheTypeAndTheSchemaDisagreeAbout (command : OpenAccount) (triple : ChartTriple) :
    Option OpenAccountError :=
  let ownerIdGiven := command.ownerId.isSome
  if command.ownerType.isTheHouse = ownerIdGiven then
    some (.accountOwnerMismatched command.ownerType.canonical ownerIdGiven)
  else if triple.mustBeOwned && command.ownerType.isTheHouse then
    some (.accountTypeRequiresAnOwner command.purpose)
  else none

def refuseTheOpeningAfterRollback (refusal : OpenAccountError) :
    UseCase OpenAccountError AccountOpened := do
  ask .storage .rollback
  refuse refusal

def commitTheOpenedAccount (eventId : Uuid) (account : Account) :
    UseCase OpenAccountError AccountOpened := do
  ask .storage .commit
  return ⟨eventId, account, false⟩

def replayTheOpenedAccountOrRefuseTheKey (command : OpenAccount) (hash : List UInt8) :
    UseCase OpenAccountError AccountOpened := do
  let stored ← ask .storage (.storedAccount command hash)
  ask .storage .rollback
  match (stored : Option StoredAccount) with
  | some (eventId, some account) => return ⟨eventId, account, true⟩
  | some (eventId, none) =>
      refuse (.internal ("event " ++ eventId.hyphenated ++
        " claimed this key with this body and no account carries its natural key"))
  | none => refuse .keyReused

/-- Open one account atomically, or return the stored result.  The two refusals
that need the chart come before the claim, so the key is untouched. -/
def openAccount (sha256 : List UInt8 → List UInt8) (command : OpenAccount) :
    UseCase OpenAccountError AccountOpened := do
  let hash := command.idempotencyHash sha256
  ask .storage .begin
  match (← ask .storage (.chartTripleForPurpose command.purpose) : Option ChartTriple) with
  | none => refuseTheOpeningAfterRollback (.accountTypeUnknown command.purpose)
  | some triple =>
      match theOwnerTheTypeAndTheSchemaDisagreeAbout command triple with
      | some refusal => refuseTheOpeningAfterRollback refusal
      | none =>
          let claimed ← ask .storage
            (.claimAndOpenAccount command hash command.payload triple)
          match (claimed : Option OpenedAccount) with
          | some (.opened eventId account) => commitTheOpenedAccount eventId account
          | some .alreadyExists =>
              refuseTheOpeningAfterRollback (.accountExists command.purpose command.currency)
          | none => replayTheOpenedAccountOrRefuseTheKey command hash

end Opening

section Periods

def refuseTheDefinitionAfterRollback (refusal : DefinePeriodError) :
    UseCase DefinePeriodError PeriodDefined := do
  ask .storage .rollback
  refuse refusal

def commitTheDefinedPeriod (eventId : Uuid) (period : Period) :
    UseCase DefinePeriodError PeriodDefined := do
  ask .storage .commit
  return ⟨eventId, period, false⟩

def replayTheDefinedPeriodOrRefuseTheKey (command : DefinePeriod) (hash : List UInt8) :
    UseCase DefinePeriodError PeriodDefined := do
  let stored ← ask .storage (.storedPeriod command hash)
  ask .storage .rollback
  match (stored : Option StoredPeriod) with
  | some (eventId, some period) => return ⟨eventId, period, true⟩
  | some (eventId, none) =>
      refuse (.internal ("event " ++ eventId.hyphenated ++
        " claimed this key with this body and no period carries its code"))
  | none => refuse .keyReused

/-- Define one period atomically, or return the stored result. -/
def definePeriod (sha256 : List UInt8 → List UInt8) (command : DefinePeriod) :
    UseCase DefinePeriodError PeriodDefined :=
  match command.idempotencyHash sha256, command.payload with
  | .error invalid, _ => refuse (.internal invalid.detail)
  | _, .error invalid => refuse (.internal invalid.detail)
  | .ok hash, .ok payload => do
      ask .storage .begin
      let claimed ← ask .storage (.claimAndDefinePeriod command hash payload)
      match (claimed : Option DefinedPeriod) with
      | some (.defined eventId period) => commitTheDefinedPeriod eventId period
      | some .exists => refuseTheDefinitionAfterRollback (.periodExists command.code)
      | some .overlaps => refuseTheDefinitionAfterRollback (.periodOverlaps command.code)
      | some .zoneUnknown => refuseTheDefinitionAfterRollback (.periodZoneUnknown command.tz)
      | none => replayTheDefinedPeriodOrRefuseTheKey command hash

def refuseTheCloseAfterRollback (refusal : ClosePeriodError) :
    UseCase ClosePeriodError PeriodClosed := do
  ask .storage .rollback
  refuse refusal

/-- Step 4, then the commit: the checkpoint runs after the statement that wrote
the closing entries. -/
def checkpointAndCommitTheClose (command : ClosePeriod) (plan : ClosePlan)
    (eventId transactionId : Uuid) (computedAtXid : Xid) (swept : List SweptPosition) :
    UseCase ClosePeriodError PeriodClosed := do
  let checkpointRows ← ask .storage
    (.checkpointTheClose command plan transactionId computedAtXid)
  ask .storage .commit
  return {
    eventId, transactionId, computedAtXid, swept
    checkpointRows := (checkpointRows : Nat)
    periodCode := command.periodCode
    currency := command.currency
    effectiveAt := plan.closesAt }

/-- The derived key is held: by this very close, or by another request. -/
def refuseTheRepeatedClose (command : ClosePeriod) (hash : List UInt8) :
    UseCase ClosePeriodError PeriodClosed := do
  let held ← ask .storage (.storedClose command hash)
  ask .storage .rollback
  if (held : Option Uuid).isSome then
    refuse (.periodAlreadyClosed command.periodCode command.currency)
  else refuse .keyReused

/-- Close one period for one currency: the two reads that can refuse, the claim
with its sweep and its close row, then the checkpoint, then the commit. -/
def closePeriod (sha256 : List UInt8 → List UInt8) (command : ClosePeriod) :
    UseCase ClosePeriodError PeriodClosed := do
  let hash := command.idempotencyHash sha256
  ask .storage .begin
  match (← ask .storage (.periodCloseContext command) : Option PeriodCloseContext) with
  | none => refuseTheCloseAfterRollback (.periodUnknown command.periodCode)
  | some context =>
      match context.retainedEarnings with
      | none => refuseTheCloseAfterRollback (.retainedEarningsUnknown command.currency)
      | some retainedEarnings =>
          match theLastInstantInside context.endsAt with
          | none =>
              refuseTheCloseAfterRollback (.internal
                "the period ends at the first representable instant, so it has no closing instant one microsecond inside it")
          | some closesAt =>
              let plan : ClosePlan :=
                ⟨context.startsAt, context.endsAt, retainedEarnings, closesAt⟩
              let claimed ← ask .storage
                (.claimAndClosePeriod command hash command.payload plan)
              match (claimed : Option ClosedPeriod) with
              | some (.closed eventId transactionId computedAtXid swept) =>
                  checkpointAndCommitTheClose command plan eventId transactionId
                    computedAtXid swept
              | some .alreadyClosed =>
                  refuseTheCloseAfterRollback
                    (.periodAlreadyClosed command.periodCode command.currency)
              | none => refuseTheRepeatedClose command hash

end Periods

end OpenLedger
