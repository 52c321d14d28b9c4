import OpenLedger.Postgres.Append

/-!
# Closing a period

`PERIOD_CLOSE_CONTEXT`, `CLAIM_AND_CLOSE_PERIOD`, `CHECKPOINT_THE_CLOSE` and
`STORED_CLOSE`.  The sweep and the checkpoint are two statements over two
snapshots: the closing legs have to exist before the checkpoint aggregates
them.
-/

namespace OpenLedger.Postgres

/-- The period's bounds, and the house account the sweep lands in. -/
def periodCloseContext (book : Book) (command : ClosePeriod) : Option PeriodCloseContext :=
  (book.period? command.tenantId command.periodCode).map fun period =>
    { startsAt := period.startsAt
      endsAt := period.endsAt
      retainedEarnings := (book.accounts.find? fun account =>
        decide (account.tenantId = period.tenantId) &&
          decide (account.purpose = "retained_earnings") &&
          decide (account.ownerType = .house) &&
          decide (account.currency = command.currency)).map AccountRow.id }

/-- The category of the account an entry is on, where the account holds the
entry's currency. -/
def categoryOf (book : Book) (entry : EntryRow) : Option Category :=
  (book.account? entry.tenantId entry.accountId entry.currency).map AccountRow.category

/-- Whether an entry is on a temporary (income-statement) account. -/
def isTemporary (book : Book) (entry : EntryRow) : Bool :=
  (categoryOf book entry).any Category.isTemporary

/-- The entries a sweep is about: posted, of a temporary account other than the
destination, effective before the period end and below the cursor. -/
def sweepAdmits (snapshot : Book) (tenantId currency : String) (endsAt : Timestamp)
    (retainedEarnings : Uuid) (cursor : Xid) (e : EntryRow) : Bool :=
  decide (e.tenantId = tenantId) && decide (e.currency = currency) &&
    snapshot.isPosted e && isTemporary snapshot e &&
    decide (e.accountId ≠ retainedEarnings) && decide (e.effectiveAt < endsAt) &&
    decide (e.xactId < cursor)

/-- Every temporary account's non-zero debit-positive position, in account
order. -/
def position (snapshot : Book) (tenantId currency : String) (endsAt : Timestamp)
    (retainedEarnings : Uuid) (cursor : Xid) : List SweptPosition :=
  let admits := sweepAdmits snapshot tenantId currency endsAt retainedEarnings cursor
  let accounts := (((snapshot.entries.filter admits).map EntryRow.accountId).dedup).insertionSort
    (· ≤ ·)
  (accounts.map fun accountId =>
    ⟨accountId, Tally.sumWhere (fun e => admits e && decide (e.accountId = accountId))
      EntryRow.signed snapshot.entries⟩).filter fun swept =>
        decide (swept.positionMinor ≠ 0)

/-- The leg that moves a position out of its account. -/
def legOut (currency : String) (p : SweptPosition) : Leg :=
  ⟨p.accountId, currency, if 0 < p.positionMinor then .credit else .debit,
    |p.positionMinor|⟩

/-- The leg that moves it into retained earnings. -/
def legIn (currency : String) (retainedEarnings : Uuid) (p : SweptPosition) : Leg :=
  ⟨retainedEarnings, currency, if 0 < p.positionMinor then .debit else .credit,
    |p.positionMinor|⟩

/-- One leg out of each swept account with offset zero, and one into retained
earnings each, walked back in account order. -/
def leg (currency : String) (retainedEarnings : Uuid) (positions : List SweptPosition) :
    List (Leg × Nat) :=
  positions.map (fun p => (legOut currency p, 0)) ++
    (Numbering.windowOffsets (fun _ => ())
      (fun left right => left.accountId ≤ right.accountId) positions).map fun numbered =>
        (legIn currency retainedEarnings numbered.1, numbered.2)

/-- The positions a close sweeps, at its snapshot and its own transaction id. -/
def sweptBy (env : Env) (snapshot : Book) (command : ClosePeriod) (plan : ClosePlan) :
    List SweptPosition :=
  position snapshot command.tenantId command.currency plan.endsAt plan.retainedEarnings env.xid

def closeLegs (env : Env) (snapshot : Book) (command : ClosePeriod) (plan : ClosePlan) :
    List (Leg × Nat) :=
  leg command.currency plan.retainedEarnings (sweptBy env snapshot command plan)

def closeDelta (env : Env) (snapshot : Book) (command : ClosePeriod) (plan : ClosePlan) :
    List DeltaRow :=
  groupDeltas command.tenantId ((closeLegs env snapshot command plan).map Prod.fst)

/-- What steps 1 to 3 write when the derived key is free. -/
def closeWrites (env : Env) (snapshot current : Book) (command : ClosePeriod)
    (hash : List UInt8) (payload : Json) (plan : ClosePlan) : Writes :=
  let upserts := striped snapshot env.stripeAffinity (closeDelta env snapshot command plan)
  { events := [{
      tenantId := command.tenantId
      id := env.eventId 0
      kind := "period_close"
      source := "api"
      idempotencyKey := command.idempotencyKey
      idempotencyHash := hash
      payload := payload
      effectiveAt := plan.closesAt
      xactId := env.xid }]
    transactions := [{
      tenantId := command.tenantId
      id := env.transactionId 0
      eventId := env.eventId 0
      kind := "period_close"
      status := .posted
      effectiveAt := plan.closesAt
      resolvesId := none
      reversesId := none
      xactId := env.xid }]
    upserts := upserts
    entries := entry env (balance current upserts)
      ((closeLegs env snapshot command plan).map fun numbered =>
        ⟨command.tenantId, env.transactionId 0, numbered.1, numbered.2, plan.closesAt⟩)
    closes := [{
      tenantId := command.tenantId
      periodCode := command.periodCode
      currency := command.currency
      startsAt := plan.startsAt
      endsAt := plan.endsAt
      transactionId := env.transactionId 0
      txnEffectiveAt := plan.closesAt
      computedAtXid := env.xid }] }

/-- The `bigint` casts of the closing statement. -/
def closeCasts (env : Env) (snapshot : Book) (command : ClosePeriod) (plan : ClosePlan) :
    List Int :=
  ((sweptBy env snapshot command plan).flatMap fun p =>
      [p.positionMinor, |p.positionMinor|]) ++
    (closeDelta env snapshot command plan).flatMap fun d => [d.input, d.output]

/-- `pk_closes` already holds a close this writer did not put there. -/
def refusalFromTheCloseRace : DbError → Option ClosedPeriod
  | .constraint .pkCloses => some .alreadyClosed
  | _ => none

/-- One row of the closing statement's answer: the claim, the transaction, the
cursor, and one swept position. -/
structure ClosedRow where
  eventId : Uuid
  transactionId : Option Uuid
  computedAtXid : Xid
  swept : Option SweptPosition
deriving DecidableEq, Repr

/-- The final `SELECT`: one row a swept position, or one anchored row. -/
def closeRows (env : Env) (positions : List SweptPosition) : List ClosedRow :=
  match positions with
  | [] => [⟨env.eventId 0, some (env.transactionId 0), env.xid, none⟩]
  | _ => positions.map fun p =>
      ⟨env.eventId 0, some (env.transactionId 0), env.xid, some p⟩

/-- What the rows mean: none is the derived key already held. -/
def closedFromTheRows (rows : List ClosedRow) : Except StorageError (Option ClosedPeriod) :=
  match rows with
  | [] => .ok none
  | first :: _ =>
      match first.transactionId with
      | none => .error (.message
          "the closing statement claimed a key and wrote no transaction")
      | some transactionId =>
          .ok (some (.closed first.eventId transactionId first.computedAtXid
            (rows.filterMap ClosedRow.swept)))

/-- `claim_and_close_period`: steps 1 to 3. -/
def claimAndClosePeriod (env : Env) (snapshot current : Book) (command : ClosePeriod)
    (hash : List UInt8) (payload : Json) (plan : ClosePlan) :
    Except StorageError (Option ClosedPeriod) × Writes :=
  if (current.holderOf command.tenantId command.idempotencyKey).isSome then
    (closedFromTheRows [], .none)
  else
    let writes := closeWrites env snapshot current command hash payload plan
    match (ensureBigints (closeCasts env snapshot command plan)).toOption,
        violation env.tzKnown current writes with
    | none, _ => (.error (.backend .numericValueOutOfRange), .none)
    | some (), some error =>
        match refusalFromTheCloseRace error with
        | some refused => (.ok (some refused), .none)
        | none => (.error (.backend error), .none)
    | some (), none => (closedFromTheRows (closeRows env (sweptBy env snapshot command plan)),
        writes)

/-- The entries a checkpoint claims: posted, effective before the period end,
and below the cursor or the close's own. -/
def checkpointAdmits (book : Book) (tenantId currency : String) (endsAt : Timestamp)
    (cursor : Xid) (transactionId : Uuid) (e : EntryRow) : Bool :=
  decide (e.tenantId = tenantId) && decide (e.currency = currency) && book.isPosted e &&
    decide (e.effectiveAt < endsAt) &&
    (decide (e.xactId < cursor) || decide (e.transactionId = transactionId))

/-- `CHECKPOINT_THE_CLOSE`: gross sums per account over the admitted entries. -/
def checkpointRows (snapshot : Book) (command : ClosePeriod) (plan : ClosePlan)
    (transactionId : Uuid) (cursor : Xid) : List PeriodBalanceRow :=
  let admits := checkpointAdmits snapshot command.tenantId command.currency plan.endsAt cursor
    transactionId
  (((snapshot.entries.filter admits).map EntryRow.accountId).dedup).map fun accountId =>
    let side (direction : Direction) : Int :=
      Tally.sumWhere (fun e => admits e && decide (e.accountId = accountId) &&
        decide (e.direction = direction)) EntryRow.amountMinor snapshot.entries
    ⟨command.tenantId, command.periodCode, command.currency, accountId, side .debit,
      side .credit⟩

/-- `checkpoint_the_close`: step 4, answering how many rows it wrote. -/
def checkpointTheClose (env : Env) (snapshot current : Book) (command : ClosePeriod)
    (plan : ClosePlan) (transactionId : Uuid) (cursor : Xid) :
    Except StorageError Nat × Writes :=
  let rows := checkpointRows snapshot command plan transactionId cursor
  let writes : Writes := { periodBalances := rows }
  match violation env.tzKnown current writes with
  | some error => (.error (.backend error), .none)
  | none => (.ok rows.length, writes)

/-- `stored_close`: the event holding the derived key, if its body is this one. -/
def storedClose (book : Book) (command : ClosePeriod) (hash : List UInt8) : Option Uuid :=
  (book.events.find? fun event =>
    decide (event.tenantId = command.tenantId) &&
      decide (event.idempotencyKey = command.idempotencyKey) &&
      decide (event.idempotencyHash = hash)).map EventRow.id

end OpenLedger.Postgres
