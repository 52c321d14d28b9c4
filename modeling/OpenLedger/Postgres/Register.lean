import OpenLedger.Postgres.Append

/-!
# Opening an account and defining a period

`CHART_TRIPLE`, `CLAIM_AND_OPEN_ACCOUNT`, `STORED_ACCOUNT`,
`CLAIM_AND_DEFINE_PERIOD` and `STORED_PERIOD`: one insert riding on the claim,
and the lookups that find its row again by the natural key.
-/

namespace OpenLedger.Postgres

/-- The chart's own row for one purpose. -/
def chartTripleForPurpose (book : Book) (purpose : String) : Option ChartTriple :=
  (book.chart.type? purpose).map fun type =>
    ⟨type.category, type.normalBalance, type.counterpartyScope⟩

/-- The register's row as the answer carries it. -/
def accountFrom (row : AccountRow) : Account where
  accountId := row.id
  ownerType := row.ownerType
  ownerId := row.ownerId
  purpose := row.purpose
  category := row.category
  normalBalance := row.normalBalance
  counterpartyScope := row.counterpartyScope
  currency := row.currency
  stripeCount := row.stripeCount
  metadata := row.metadata
  createdAt := row.createdAt

/-- `opened`: the account row, absences coalesced to the column defaults. -/
def openedRow (env : Env) (command : OpenAccount) (triple : ChartTriple) : AccountRow where
  tenantId := command.tenantId
  id := env.accountId
  ownerType := command.ownerType
  ownerId := command.ownerId
  purpose := command.purpose
  category := triple.category
  normalBalance := triple.normalBalance
  counterpartyScope := triple.counterpartyScope
  currency := command.currency
  stripeCount := command.stripeCount.getD 1
  metadata := command.metadata.getD (Json.object [])
  createdAt := env.now

def openWrites (env : Env) (command : OpenAccount) (hash : List UInt8) (payload : Json)
    (triple : ChartTriple) : Writes where
  events := [{
    tenantId := command.tenantId
    id := env.eventId 0
    kind := "account_opened"
    source := "api"
    idempotencyKey := command.idempotencyKey
    idempotencyHash := hash
    payload := payload
    effectiveAt := env.now
    xactId := env.xid }]
  accounts := [openedRow env command triple]

/-- The two unique indexes are the only detection of an existing account. -/
def refusalFromTheAccountRace : DbError → Option OpenedAccount
  | .constraint .uqAccountsOwned => some .alreadyExists
  | .constraint .uqAccountsHouse => some .alreadyExists
  | _ => none

/-- `claim_and_open_account`. -/
def claimAndOpenAccount (env : Env) (current : Book) (command : OpenAccount)
    (hash : List UInt8) (payload : Json) (triple : ChartTriple) :
    Except StorageError (Option OpenedAccount) × Writes :=
  if (current.holderOf command.tenantId command.idempotencyKey).isSome then
    (.ok none, .none)
  else
    let writes := openWrites env command hash payload triple
    match violation env.tzKnown current writes with
    | some error =>
        match refusalFromTheAccountRace error with
        | some refused => (.ok (some refused), .none)
        | none => (.error (.backend error), .none)
    | none =>
        (.ok (some (.opened (env.eventId 0) (accountFrom (openedRow env command triple)))),
          writes)

/-- The account under the natural key an opening names. -/
def accountUnder (book : Book) (command : OpenAccount) (tenantId : String) :
    Option AccountRow :=
  book.accounts.find? fun account =>
    decide (account.tenantId = tenantId) &&
      decide (account.ownerType = command.ownerType) &&
      decide (account.ownerIdKey = command.ownerId.getD "") &&
      decide (account.purpose = command.purpose) &&
      decide (account.currency = command.currency)

/-- `stored_account`. -/
def storedAccount (book : Book) (command : OpenAccount) (hash : List UInt8) :
    Option StoredAccount :=
  (book.events.find? fun event =>
    decide (event.tenantId = command.tenantId) &&
      decide (event.idempotencyKey = command.idempotencyKey) &&
      decide (event.idempotencyHash = hash)).map fun event =>
        (event.id, (accountUnder book command event.tenantId).map accountFrom)

def definedRow (command : DefinePeriod) : PeriodRow where
  tenantId := command.tenantId
  code := command.code
  startsAt := command.startsAt.stored
  endsAt := command.endsAt.stored
  tz := command.tz

def periodFrom (row : PeriodRow) : Period := ⟨row.code, row.startsAt, row.endsAt, row.tz⟩

def defineWrites (env : Env) (command : DefinePeriod) (hash : List UInt8) (payload : Json) :
    Writes where
  events := [{
    tenantId := command.tenantId
    id := env.eventId 0
    kind := "period_defined"
    source := "api"
    idempotencyKey := command.idempotencyKey
    idempotencyHash := hash
    payload := payload
    effectiveAt := env.now
    xactId := env.xid }]
  periods := [definedRow command]

/-- The three refusals a definition can only hear from the database. -/
def refusalFromThePeriodConstraints : DbError → Option DefinedPeriod
  | .constraint .pkPeriods => some .exists
  | .constraint .exPeriodsNoOverlap => some .overlaps
  | .invalidParameterValue => some .zoneUnknown
  | _ => none

/-- `claim_and_define_period`. -/
def claimAndDefinePeriod (env : Env) (current : Book) (command : DefinePeriod)
    (hash : List UInt8) (payload : Json) :
    Except StorageError (Option DefinedPeriod) × Writes :=
  if (current.holderOf command.tenantId command.idempotencyKey).isSome then
    (.ok none, .none)
  else
    let writes := defineWrites env command hash payload
    match violation env.tzKnown current writes with
    | some error =>
        match refusalFromThePeriodConstraints error with
        | some refused => (.ok (some refused), .none)
        | none => (.error (.backend error), .none)
    | none =>
        (.ok (some (.defined (env.eventId 0) (periodFrom (definedRow command)))), writes)

/-- `stored_period`. -/
def storedPeriod (book : Book) (command : DefinePeriod) (hash : List UInt8) :
    Option StoredPeriod :=
  (book.events.find? fun event =>
    decide (event.tenantId = command.tenantId) &&
      decide (event.idempotencyKey = command.idempotencyKey) &&
      decide (event.idempotencyHash = hash)).map fun event =>
        (event.id, (book.period? event.tenantId command.code).map periodFrom)

end OpenLedger.Postgres
