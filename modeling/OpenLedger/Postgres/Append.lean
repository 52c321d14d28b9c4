import OpenLedger.Repository

/-!
# The single call

`CLAIM_AND_APPEND`: claim the idempotency key and ride the whole append on the
claimed row.  The stages carry the statement's own names.  A stage that reads
takes the statement's snapshot; what a unique index or an upsert meets is the
current content of the table.
-/

namespace OpenLedger.Postgres

/-- What the server and the writer hand one bracket: the writer's stripe
affinity, the transaction id, the clock, the ids the column defaults draw and
the time zones the server knows. -/
structure Env where
  stripeAffinity : Nat
  xid : Xid
  now : Timestamp
  eventId : Nat → Uuid
  transactionId : Nat → Uuid
  entryId : Nat → Uuid
  accountId : Uuid
  tzKnown : String → Bool

/-- One coalesced delta, as the `delta` stages emit it. -/
structure DeltaRow where
  tenantId : String
  accountId : Uuid
  currency : String
  input : Int
  output : Int
  legs : Nat
deriving DecidableEq, Repr

/-- A tenant's account and currency, whatever the stripe. -/
abbrev TenantAccountKey := String × AccountKey

/-- The key the batch's deltas are coalesced under. -/
def DeltaRow.tenantKey (delta : DeltaRow) : TenantAccountKey :=
  (delta.tenantId, toLex (delta.accountId, delta.currency))

/-- One leg on its way into the journal, with its offset back from its
counter. -/
structure LegRow where
  tenantId : String
  transactionId : Uuid
  leg : Leg
  seqOffset : Nat
  effectiveAt : Timestamp
deriving DecidableEq, Repr

/-- A balance row the upsert returned: its key and its advanced counter. -/
structure CounterRow extends StripeKey where
  lastSeq : Int
deriving DecidableEq, Repr

/-- Coalesce legs per account and currency: the SQL twin of `coalesce`. -/
def groupDeltas (tenantId : String) (legs : List Leg) : List DeltaRow :=
  (legs.map Leg.key).dedup.map fun key =>
    ⟨tenantId, (ofLex key).1, (ofLex key).2, sideSum .debit key legs,
      sideSum .credit key legs, legCount key legs⟩

/-- A delta on the stripe its account's count and the writer's affinity pick. -/
def DeltaRow.onStripeOf (delta : DeltaRow) (affinity : Nat) (account : AccountRow) :
    UpsertRow :=
  { tenantId := account.tenantId
    accountId := account.id
    currency := account.currency
    stripe := affinity % account.stripeCount
    input := delta.input
    output := delta.output
    legs := delta.legs }

/-- A delta joined to its account.  One whose account does not exist holding the
currency matches nothing. -/
def DeltaRow.joined (snapshot : Book) (affinity : Nat) (delta : DeltaRow) : Option UpsertRow :=
  (snapshot.account? delta.tenantId delta.accountId delta.currency).map
    (delta.onStripeOf affinity)

/-- Join each delta to its account and pick its stripe, in lock order. -/
def striped (snapshot : Book) (affinity : Nat) (deltas : List DeltaRow) : List UpsertRow :=
  (deltas.filterMap (DeltaRow.joined snapshot affinity)).insertionSort
    fun left right => left.rank ≤ right.rank

/-- The upsert's `RETURNING`: each row's counter after its legs. -/
def balance (current : Book) (striped : List UpsertRow) : List CounterRow :=
  striped.map fun upsert =>
    ⟨upsert.toStripeKey, current.lastSeqOn upsert.toStripeKey + upsert.legs⟩

/-- The counter a leg of this account and currency is numbered by. -/
def counterOf (balance : List CounterRow) (tenantId : String) (accountId : Uuid)
    (currency : String) : Option CounterRow :=
  balance.find? fun counter =>
    decide (counter.tenantId = tenantId) && decide (counter.accountId = accountId) &&
      decide (counter.currency = currency)

/-- One leg beside its counter, as the journal row it becomes. -/
def landed (xid : Xid) (id : Uuid) (numbered : LegRow × CounterRow) : EntryRow where
  tenantId := numbered.1.tenantId
  id := id
  transactionId := numbered.1.transactionId
  accountId := numbered.1.leg.accountId
  direction := numbered.1.leg.direction
  amountMinor := numbered.1.leg.amountMinor
  currency := numbered.1.leg.currency
  stripe := numbered.2.stripe
  accountSeq := numbered.2.lastSeq - numbered.1.seqOffset
  effectiveAt := numbered.1.effectiveAt
  xactId := xid

/-- Land the legs, numbered `last_seq - seq_offset` on their counter's stripe. -/
def entry (env : Env) (balance : List CounterRow) (legs : List LegRow) : List EntryRow :=
  (legs.filterMap fun row =>
    (counterOf balance row.tenantId row.leg.accountId row.leg.currency).map fun counter =>
      (row, counter)).mapIdx fun index numbered =>
        landed env.xid (env.entryId index) numbered

/-- The transaction a superseding command names, as the gate reads it. -/
structure SupersedeTarget where
  effectiveAt : Timestamp
  status : TransactionStatus
  kind : String
  isSuperseding : Bool
  targetAlreadySuperseded : Bool
deriving DecidableEq, Repr

/-- The pointer a superseding command carries: at most one is given. -/
def supersededId (command : PostTransaction) : Option Uuid :=
  command.resolvesId.or command.reversesId

def supersedeTarget (snapshot : Book) (command : PostTransaction) : Option SupersedeTarget :=
  (supersededId command).bind fun target =>
    (snapshot.transaction? command.tenantId target).map fun x =>
      { effectiveAt := x.effectiveAt
        status := x.status
        kind := x.kind
        isSuperseding := x.resolvesId.isSome || x.reversesId.isSome
        targetAlreadySuperseded := snapshot.transactions.any fun rr =>
          decide (rr.tenantId = command.tenantId) && rr.names x.id }

/-- The transaction's date: the caller's, else the target's, else `now()`. -/
def effective (env : Env) (command : PostTransaction) (target : Option SupersedeTarget) :
    Timestamp :=
  ((command.effectiveAt.map OffsetDateTime.stored).or
    (target.map SupersedeTarget.effectiveAt)).getD env.now

/-- The `WHERE` of `txn`: nothing is superseded, or the target may be. -/
def gateAdmits (command : PostTransaction) (target : Option SupersedeTarget) : Bool :=
  (command.resolvesId.isNone && command.reversesId.isNone) ||
    (command.resolvesId.isSome && target.any fun g =>
      decide (g.status = .pending) && !g.targetAlreadySuperseded) ||
    (command.reversesId.isSome && target.any fun g =>
      decide (g.kind = "posting") && !g.isSuperseding && !g.targetAlreadySuperseded)

/-- The entries of one transaction. -/
def entriesOf (book : Book) (tenantId : String) (transactionId : Uuid) : List EntryRow :=
  book.entries.filter fun entry =>
    decide (entry.tenantId = tenantId) && decide (entry.transactionId = transactionId)

/-- An entry's leg with its direction flipped. -/
def mirrorOf (entry : EntryRow) : Leg :=
  ⟨entry.accountId, entry.currency, entry.direction.flip, entry.amountMinor⟩

/-- A posted target's legs flipped, each with its offset counted back from its
account's last position.  A pending target derives nothing. -/
def mirrorLeg (snapshot : Book) (command : PostTransaction)
    (target : Option SupersedeTarget) : List (Leg × Nat) :=
  match command.reversesId with
  | none => []
  | some reversed =>
      if target.map SupersedeTarget.status = some .posted then
        (Numbering.windowOffsets (fun entry => (mirrorOf entry).key)
          (fun left right => left.accountSeq ≤ right.accountSeq)
          (entriesOf snapshot command.tenantId reversed)).map fun numbered =>
            (mirrorOf numbered.1, numbered.2)
      else []

def mirrorDelta (command : PostTransaction) (mirrored : List (Leg × Nat)) : List DeltaRow :=
  groupDeltas command.tenantId (mirrored.map Prod.fst)

/-- The planned deltas, as the bound arrays carry them. -/
def plannedDelta (command : PostTransaction) (append : Append) : List DeltaRow :=
  append.deltas.entries.map fun entry =>
    ⟨command.tenantId, (ofLex entry.1).1, (ofLex entry.1).2, entry.2.input, entry.2.output,
      entry.2.legs⟩

/-- Whichever side exists: the caller's planned deltas, or the derived ones. -/
def delta (snapshot : Book) (command : PostTransaction) (append : Append) : List DeltaRow :=
  plannedDelta command append ++
    mirrorDelta command (mirrorLeg snapshot command (supersedeTarget snapshot command))

/-- One row of the statement's answer. -/
structure ClaimedRow where
  eventId : Uuid
  transactionId : Option Uuid
  accountId : Option Uuid
  currency : Option String
  lastSeq : Option Int
  targetStatus : Option TransactionStatus
  targetKind : Option String
  targetIsSuperseding : Option Bool
  targetAlreadySuperseded : Option Bool
deriving DecidableEq, Repr

/-- The transaction row, withheld when the gate refuses. -/
def txn (env : Env) (snapshot : Book) (command : PostTransaction) : List TransactionRow :=
  let target := supersedeTarget snapshot command
  if gateAdmits command target then
    [{ tenantId := command.tenantId
       id := env.transactionId 0
       eventId := env.eventId 0
       kind := "posting"
       status := command.status
       effectiveAt := effective env command target
       resolvesId := command.resolvesId
       reversesId := command.reversesId
       xactId := env.xid }]
  else []

/-- The legs of `txn`, planned and mirrored. -/
def appendedLegs (env : Env) (snapshot : Book) (command : PostTransaction)
    (append : Append) : List LegRow :=
  let target := supersedeTarget snapshot command
  (txn env snapshot command).flatMap fun t =>
    (append.legs.zip append.seqOffsets ++ mirrorLeg snapshot command target).map fun numbered =>
      ⟨command.tenantId, t.id, numbered.1, numbered.2, effective env command target⟩

/-- What the statement writes when the key is free. -/
def appendWrites (env : Env) (snapshot current : Book) (command : PostTransaction)
    (hash : List UInt8) (payload : Json) (append : Append) : Writes :=
  let upserts := striped snapshot env.stripeAffinity (delta snapshot command append)
  { events := [{
      tenantId := command.tenantId
      id := env.eventId 0
      kind := "posting"
      source := "api"
      idempotencyKey := command.idempotencyKey
      idempotencyHash := hash
      payload := payload
      effectiveAt := effective env command (supersedeTarget snapshot command)
      xactId := env.xid }]
    transactions := txn env snapshot command
    upserts := upserts
    entries := entry env (balance current upserts) (appendedLegs env snapshot command append) }

/-- The final `SELECT`: one row a delta in account order, or one anchored row
when there is none. -/
def appendRows (env : Env) (snapshot current : Book) (command : PostTransaction)
    (append : Append) : List ClaimedRow :=
  let target := supersedeTarget snapshot command
  let counters := balance current (striped snapshot env.stripeAffinity
    (delta snapshot command append))
  let row (accountId : Option Uuid) (currency : Option String) (lastSeq : Option Int) :
      ClaimedRow :=
    { eventId := env.eventId 0
      transactionId := ((txn env snapshot command).head?).map TransactionRow.id
      accountId, currency, lastSeq
      targetStatus := target.map SupersedeTarget.status
      targetKind := target.map SupersedeTarget.kind
      targetIsSuperseding := target.map SupersedeTarget.isSuperseding
      targetAlreadySuperseded := target.map SupersedeTarget.targetAlreadySuperseded }
  match (delta snapshot command append).insertionSort fun left right =>
      toLex (left.accountId, left.currency) ≤ toLex (right.accountId, right.currency) with
  | [] => [row none none none]
  | deltas => deltas.map fun d =>
      row (some d.accountId) (some d.currency)
        ((counterOf counters d.tenantId d.accountId d.currency).map CounterRow.lastSeq)

/-- The whole statement.  A held key answers no row and runs nothing. -/
def claimAndAppendStatement (env : Env) (snapshot current : Book) (command : PostTransaction)
    (hash : List UInt8) (payload : Json) (append : Append) :
    Except DbError (List ClaimedRow × Writes) :=
  if (current.holderOf command.tenantId command.idempotencyKey).isSome then
    .ok ([], .none)
  else do
    ensureBigints ((mirrorDelta command (mirrorLeg snapshot command
      (supersedeTarget snapshot command))).flatMap fun d => [d.input, d.output])
    let writes := appendWrites env snapshot current command hash payload append
    match violation env.tzKnown current writes with
    | some error => .error error
    | none => .ok (appendRows env snapshot current command append, writes)

/-- Name the refusal from the target columns, under the verb the command asked. -/
def diagnoseSupersedeRefusal (command : PostTransaction) (row : ClaimedRow) :
    Except StorageError SupersedeRefusal :=
  if command.resolvesId.isSome then
    match row.targetStatus, row.targetAlreadySuperseded with
    | none, _ => .ok .resolveTargetUnknown
    | some .posted, _ => .ok .resolveTargetNotPending
    | some .pending, some true => .ok .targetAlreadySuperseded
    | _, _ => .error (.message "the single call gated the resolution for no reason it names")
  else if command.reversesId.isSome then
    match row.targetKind with
    | none => .ok .reverseTargetUnknown
    | some kind =>
        if kind ≠ "posting" then .ok .reverseTargetNotReversible
        else if row.targetIsSuperseding = some true then .ok .reverseTargetNotReversible
        else if row.targetAlreadySuperseded = some true then .ok .targetAlreadySuperseded
        else .error (.message "the single call gated the reversal for no reason it names")
  else .error (.message "the single call gated a transaction that supersedes nothing")

/-- Each delta-carrying row's counter. -/
def collectBalanceUpserts (rows : List ClaimedRow) : List BalanceUpsert :=
  rows.filterMap fun row =>
    row.accountId.bind fun accountId =>
      row.currency.map fun currency => ⟨accountId, currency, row.lastSeq⟩

/-- What the rows mean: none is a held key, a withheld transaction a refusal,
and anything else the append. -/
def claimedFromTheRows (command : PostTransaction) (rows : List ClaimedRow) :
    Except StorageError (Option Claimed) :=
  match rows with
  | [] => .ok none
  | first :: _ =>
      match first.transactionId with
      | none => (diagnoseSupersedeRefusal command first).map fun refusal =>
          some (.supersessionRefused refusal)
      | some transactionId =>
          .ok (some (.appended
            ⟨first.eventId, transactionId, collectBalanceUpserts rows⟩))

/-- A unique violation on the supersession index is the race's refusal. -/
def refusalFromSupersessionRace : DbError → Option Claimed
  | .constraint .uqTxnOneSupersession => some (.supersessionRefused .targetAlreadySuperseded)
  | _ => none

/-- `claim_and_append`: run the one statement and interpret its answer. -/
def claimAndAppend (env : Env) (snapshot current : Book) (command : PostTransaction)
    (hash : List UInt8) (payload : Json) (append : Append) :
    Except StorageError (Option Claimed) × Writes :=
  match claimAndAppendStatement env snapshot current command hash payload append with
  | .error error =>
      match refusalFromSupersessionRace error with
      | some refused => (.ok (some refused), .none)
      | none => (.error (.backend error), .none)
  | .ok (rows, writes) => (claimedFromTheRows command rows, writes)

/-- `stored_result`: the hash is in the `WHERE`, so another body finds no row. -/
def storedResult (book : Book) (tenantId idempotencyKey : String) (hash : List UInt8) :
    Option StoredResult :=
  (book.events.find? fun event =>
    decide (event.tenantId = tenantId) && decide (event.idempotencyKey = idempotencyKey) &&
      decide (event.idempotencyHash = hash)).map fun event =>
        (event.id, (book.causedBy event.tenantId event.id).map TransactionRow.id)

end OpenLedger.Postgres
