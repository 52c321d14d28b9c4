import OpenLedger.Postgres.Append

/-!
# The batched call

`CLAIM_AND_APPEND_BATCH`: the same append for N independent commands in one
statement, with a member ordinal threaded through every stage, the existence
gate above the claim and the walk-back in a window function.
-/

namespace OpenLedger.Postgres

/-- One member as the claim arrays bind it, under its ordinal. -/
structure MemberRow where
  ord : Nat
  tenantId : String
  idempotencyKey : String
  hash : List UInt8
  payload : Json
  effectiveAt : Option Timestamp

/-- One leg as the leg arrays bind it, under its member's ordinal and its own
position in that member's posting order. -/
structure MemberLegRow where
  ord : Nat
  legOrd : Nat
  tenantId : String
  leg : Leg
deriving DecidableEq, Repr

/-- A delta at member grain. -/
structure MemberDeltaRow where
  ord : Nat
  delta : DeltaRow
deriving DecidableEq, Repr

/-- Ordinals are positions, counted from one. -/
def member (members : List BatchMember) : List MemberRow :=
  (Numbering.withOrdinality members).map fun m =>
    ⟨m.1, m.2.command.tenantId, m.2.command.idempotencyKey, m.2.hash, m.2.payload,
      m.2.command.effectiveAt.map OffsetDateTime.stored⟩

def memberLeg (members : List BatchMember) : List MemberLegRow :=
  (Numbering.withOrdinality members).flatMap fun m =>
    (Numbering.withOrdinality m.2.append.legs).map fun leg =>
      ⟨m.1, leg.1, m.2.command.tenantId, leg.2⟩

def memberDelta (members : List BatchMember) : List MemberDeltaRow :=
  (Numbering.withOrdinality members).flatMap fun m =>
    (groupDeltas m.2.command.tenantId m.2.append.legs).map fun delta => ⟨m.1, delta⟩

/-- Whether an account and currency a member names is missing. -/
def accountMissing (snapshot : Book) (delta : DeltaRow) : Bool :=
  (snapshot.account? delta.tenantId delta.accountId delta.currency).isNone

/-- The gate: a member that names some account, and only existing ones. -/
def admissible (snapshot : Book) (members : List BatchMember) (ord : Nat) : Bool :=
  let deltas := (memberDelta members).filter fun row => decide (row.ord = ord)
  !deltas.isEmpty && deltas.all fun row => !accountMissing snapshot row.delta

/-- The first missing account of a member, in account order. -/
def unknownAccount (snapshot : Book) (members : List BatchMember) (ord : Nat) :
    Option (Uuid × String) :=
  ((((memberDelta members).filter fun row =>
      decide (row.ord = ord) && accountMissing snapshot row.delta).map fun row =>
        (toLex (row.delta.accountId, row.delta.currency) : AccountKey)).insertionSort
          (· ≤ ·)).head?.map ofLex

/-- Asked only of the members the gate withheld. -/
def keyHeldByAnEarlierWrite (snapshot : Book) (members : List BatchMember) (m : MemberRow) :
    Bool :=
  !admissible snapshot members m.ord &&
    (snapshot.holderOf m.tenantId m.idempotencyKey).isSome

/-- The event a member's claim inserts. -/
def claimEvent (env : Env) (m : MemberRow) : EventRow where
  tenantId := m.tenantId
  id := env.eventId m.ord
  kind := "posting"
  source := "api"
  idempotencyKey := m.idempotencyKey
  idempotencyHash := m.hash
  payload := m.payload
  effectiveAt := m.effectiveAt.getD 0
  xactId := env.xid

/-- One member's claim after the earlier ones: it meets a conflict when its key
is held or was claimed by an earlier member. -/
def claimNext (env : Env) (snapshot current : Book) (members : List BatchMember)
    (events : List EventRow) (m : MemberRow) : List EventRow :=
  if admissible snapshot members m.ord = true ∧
      (current.holderOf m.tenantId m.idempotencyKey).isNone = true ∧
      (events.any fun event => decide (event.tenantId = m.tenantId) &&
        decide (event.idempotencyKey = m.idempotencyKey)) = false then
    events ++ [claimEvent env m]
  else events

/-- The admissible members' claims that met no conflict.  Two members of one
key claim once. -/
def claimed (env : Env) (snapshot current : Book) (members : List BatchMember) :
    List EventRow :=
  (member members).foldl (claimNext env snapshot current members) []

/-- A member that passed the gate and won its key, rejoined to its ordinal,
with the transaction inserted for it. -/
structure ProceedingRow where
  ord : Nat
  eventId : Uuid
  tenantId : String
  transactionId : Uuid
  effectiveAt : Timestamp
deriving DecidableEq, Repr

/-- The claims rejoined to their members by key.  Two members of one key would
both join its claim, and `uq_txn__one_per_event` refuses what follows. -/
def proceeding (env : Env) (snapshot current : Book) (members : List BatchMember) :
    List ProceedingRow :=
  (member members).filterMap fun m =>
    ((claimed env snapshot current members).find? fun event =>
      decide (event.tenantId = m.tenantId) &&
        decide (event.idempotencyKey = m.idempotencyKey)).map fun event =>
          ⟨m.ord, event.id, m.tenantId, env.transactionId m.ord, m.effectiveAt.getD 0⟩

def proceedingAt (rows : List ProceedingRow) (ord : Nat) : Option ProceedingRow :=
  rows.find? fun row => decide (row.ord = ord)

def batchTxn (env : Env) (rows : List ProceedingRow) : List TransactionRow :=
  rows.map fun row =>
    { tenantId := row.tenantId
      id := row.transactionId
      eventId := row.eventId
      kind := "posting"
      status := .posted
      effectiveAt := row.effectiveAt
      resolvesId := none
      reversesId := none
      xactId := env.xid }

/-- The member deltas re-coalesced across the proceeding members. -/
def batchDelta (members : List BatchMember) (rows : List ProceedingRow) : List DeltaRow :=
  let deltas := ((memberDelta members).filter fun row =>
    (proceedingAt rows row.ord).isSome).map MemberDeltaRow.delta
  (deltas.map DeltaRow.tenantKey).dedup.map fun key =>
    let mine := fun delta : DeltaRow => decide (delta.tenantKey = key)
    ⟨key.1, (ofLex key.2).1, (ofLex key.2).2,
      Tally.sumWhere mine DeltaRow.input deltas,
      Tally.sumWhere mine DeltaRow.output deltas,
      ((deltas.filter mine).map DeltaRow.legs).sum⟩

/-- A proceeding member's leg, on the stripe its account's upsert picked. -/
structure NumberedRow where
  ord : Nat
  legOrd : Nat
  stripeKey : StripeKey
  row : LegRow
deriving DecidableEq, Repr

/-- The proceeding members' legs, joined to their transactions and stripes. -/
def proceedingLegs (members : List BatchMember) (rows : List ProceedingRow)
    (upserts : List UpsertRow) : List NumberedRow :=
  (memberLeg members).filterMap fun ml =>
    (proceedingAt rows ml.ord).bind fun p =>
      (upserts.find? fun s => decide (s.tenantId = ml.tenantId) &&
        decide (s.accountId = ml.leg.accountId) &&
        decide (s.currency = ml.leg.currency)).map fun s =>
          ⟨ml.ord, ml.legOrd, s.toStripeKey,
            ⟨ml.tenantId, p.transactionId, ml.leg, 0, p.effectiveAt⟩⟩

/-- The walk-back across members, counted by the window function per counter in
the order the members and their legs came. -/
def numbered (members : List BatchMember) (rows : List ProceedingRow)
    (upserts : List UpsertRow) : List LegRow :=
  (Numbering.windowOffsets NumberedRow.stripeKey
    (fun left right => toLex (left.ord, left.legOrd) ≤ toLex (right.ord, right.legOrd))
    (proceedingLegs members rows upserts)).map fun offset =>
      { offset.1.row with seqOffset := offset.2 }

/-- What the statement writes. -/
def batchWrites (env : Env) (snapshot current : Book) (members : List BatchMember) : Writes :=
  let rows := proceeding env snapshot current members
  let upserts := striped snapshot env.stripeAffinity (batchDelta members rows)
  { events := claimed env snapshot current members
    transactions := batchTxn env rows
    upserts := upserts
    entries := entry env (balance current upserts) (numbered members rows upserts) }

/-- One row of the statement's answer, one per member. -/
structure MemberAnswerRow where
  eventId : Option Uuid
  transactionId : Option Uuid
  admissible : Bool
  keyAlreadyHeld : Bool
  unknownAccountId : Option Uuid
  unknownCurrency : Option String
deriving DecidableEq, Repr

/-- The final `SELECT`, anchored on the members and in their order. -/
def batchRows (env : Env) (snapshot current : Book) (members : List BatchMember) :
    List MemberAnswerRow :=
  (member members).map fun m =>
    let unknown := unknownAccount snapshot members m.ord
    { eventId := ((claimed env snapshot current members).find? fun event =>
        decide (event.tenantId = m.tenantId) &&
          decide (event.idempotencyKey = m.idempotencyKey)).map EventRow.id
      transactionId := (proceedingAt (proceeding env snapshot current members) m.ord).map
        ProceedingRow.transactionId
      admissible := admissible snapshot members m.ord
      keyAlreadyHeld := keyHeldByAnEarlierWrite snapshot members m
      unknownAccountId := unknown.map Prod.fst
      unknownCurrency := unknown.map Prod.snd }

/-- The whole statement. -/
def claimAndAppendBatchStatement (env : Env) (snapshot current : Book)
    (members : List BatchMember) : Except DbError (List MemberAnswerRow × Writes) := do
  ensureBigints ((memberDelta members).flatMap fun row => [row.delta.input, row.delta.output])
  if (member members).any fun m =>
      admissible snapshot members m.ord && m.effectiveAt.isNone then
    .error .notNullViolation
  else
    let deltas := batchDelta members (proceeding env snapshot current members)
    ensureBigints (deltas.flatMap fun d => [d.input, d.output, d.legs])
    let writes := batchWrites env snapshot current members
    match violation env.tzKnown current writes with
    | some error => .error error
    | none => .ok (batchRows env snapshot current members, writes)

/-- Why a member may not ride in a batch, if it may not. -/
def unbatchable (command : PostTransaction) : Option String :=
  if command.resolvesId.isSome then some "resolves another transaction"
  else if command.reversesId.isSome then some "reverses another transaction"
  else if command.status = .pending then some "is pending"
  else none

/-- The batch carries plain posted postings only. -/
def refuseAMemberTheBatchCannotCarry (members : List BatchMember) :
    Except StorageError Unit :=
  match (members.mapIdx fun position m => (position, unbatchable m.command)).findSome?
      fun judged => judged.2.map fun reason => (judged.1, reason) with
  | none => .ok ()
  | some (position, reason) =>
      .error (.message ("member " ++ toString position ++ " of a batch of " ++
        toString members.length ++ " " ++ reason ++
        ", and the batched statement carries plain posted postings only"))

/-- One member's answer: the key claim first, the account gate second. -/
def outcomeForMember (row : MemberAnswerRow) : Except StorageError MemberOutcome :=
  if row.keyAlreadyHeld then .ok .keyAlreadyClaimed
  else if !row.admissible then
    match row.unknownAccountId, row.unknownCurrency with
    | some accountId, some currency => .ok (.accountUnknown accountId currency)
    | _, _ => .error (.message
        "the batched call withheld a member's claim and named no account for it")
  else
    match row.eventId with
    | none => .ok .keyAlreadyClaimed
    | some eventId =>
        match row.transactionId with
        | none => .error (.message
            "the batched call claimed a member's key and wrote it no transaction")
        | some transactionId => .ok (.appended eventId transactionId)

/-- `claim_and_append_batch`. -/
def claimAndAppendBatch (env : Env) (snapshot current : Book) (members : List BatchMember) :
    Except StorageError (List MemberOutcome) × Writes :=
  match refuseAMemberTheBatchCannotCarry members with
  | .error refusal => (.error refusal, .none)
  | .ok () =>
      match claimAndAppendBatchStatement env snapshot current members with
      | .error error => (.error (.backend error), .none)
      | .ok (rows, writes) => (rows.mapM outcomeForMember, writes)

/-- `STORED_RESULT_BATCH`: one answer a member, in the order given. -/
def storedResultBatch (book : Book) (members : List BatchMember) :
    List (Option StoredResult) :=
  members.map fun m =>
    storedResult book m.command.tenantId m.command.idempotencyKey m.hash

end OpenLedger.Postgres
