import OpenLedger.Apply

/-!
# What every book keeps

`Lands` is what a bracket's writes satisfy of the book they are committed to,
and `Kept` is what every book satisfies.  The one theorem of the module says
that writes which land keep a book kept; each statement then only has to land.
-/

namespace OpenLedger

/-- An entry carries its transaction's date and its transaction's writer. -/
structure EntryRow.BelongsTo (entry : EntryRow) (transaction : TransactionRow) : Prop where
  tenant : transaction.tenantId = entry.tenantId
  id : transaction.id = entry.transactionId
  effectiveAt : entry.effectiveAt = transaction.effectiveAt
  xactId : entry.xactId = transaction.xactId

/-- An account is an instance of its type in the chart. -/
structure AccountRow.Charted (chart : Chart) (account : AccountRow) : Prop where
  typed : ∃ type, chart.type? account.purpose = some type ∧
    account.category = type.category ∧ account.normalBalance = type.normalBalance ∧
    account.counterpartyScope = type.counterpartyScope
  stripes : 0 < account.stripeCount

/-- A close row and the transaction it names. -/
structure CloseRow.ClosedBy (close : CloseRow) (transaction : TransactionRow) : Prop where
  tenant : transaction.tenantId = close.tenantId
  id : transaction.id = close.transactionId
  kind : transaction.kind = "period_close"
  status : transaction.status = .posted
  effectiveAt : transaction.effectiveAt = close.txnEffectiveAt
  xactId : transaction.xactId = close.computedAtXid

/-- A close row copies the bounds of its period. -/
structure CloseRow.Closes (close : CloseRow) (period : PeriodRow) : Prop where
  tenant : period.tenantId = close.tenantId
  code : period.code = close.periodCode
  startsAt : period.startsAt = close.startsAt
  endsAt : period.endsAt = close.endsAt

/-- A checkpoint row is stored under its close's key. -/
structure PeriodBalanceRow.OfClose (row : PeriodBalanceRow) (close : CloseRow) : Prop where
  tenant : row.tenantId = close.tenantId
  code : row.periodCode = close.periodCode
  currency : row.currency = close.currency

/-- What a transaction may resolve and what it may reverse. -/
structure TransactionRow.SupersedesIn (book : Book) (transaction : TransactionRow) : Prop where
  resolves : ∀ id, transaction.resolvesId = some id →
    ∃ target, book.transaction? transaction.tenantId id = some target ∧
      target.status = .pending
  reverses : ∀ id, transaction.reversesId = some id →
    ∃ target, book.transaction? transaction.tenantId id = some target ∧
      target.kind = "posting" ∧ target.supersedes = none

/-- One side of one transaction in one currency. -/
def sideOf (tenantId : String) (transactionId : Uuid) (currency : String)
    (direction : Direction) (entries : List EntryRow) : Int :=
  Tally.sumWhere (fun entry =>
    decide (entry.tenantId = tenantId) && decide (entry.transactionId = transactionId) &&
      decide (entry.currency = currency) && decide (entry.direction = direction))
    EntryRow.amountMinor entries

/-- Why a transaction may have no entry: it undoes a pending one, or it closes
a period. -/
def TransactionRow.Entryless (book : Book) (transaction : TransactionRow) : Prop :=
  transaction.kind = "period_close" ∨
    ∃ id target, transaction.reversesId = some id ∧
      book.transaction? transaction.tenantId id = some target ∧ target.status = .pending

namespace Writes

/-- The status of an entry's transaction, among the rows written with it. -/
def statusOf (writes : Writes) (entry : EntryRow) : Option TransactionStatus :=
  (writes.transactions.find? fun transaction =>
    decide (transaction.tenantId = entry.tenantId) &&
      decide (transaction.id = entry.transactionId)).map TransactionRow.status

def entriesOn (writes : Writes) (key : StripeKey) : List EntryRow :=
  writes.entries.filter fun entry => decide (entry.stripeKey = key)

def postedOn (writes : Writes) (direction : Direction) (key : StripeKey) : Int :=
  Tally.sumWhere (fun entry =>
    decide (entry.stripeKey = key) && decide (entry.direction = direction) &&
      decide (writes.statusOf entry = some .posted)) EntryRow.amountMinor writes.entries

end Writes

/-- What the entries of a bracket satisfy: they are numbered on from the
counters, the upserts add them up, each is its transaction's on a known account,
and together they foot. -/
structure LandsEntries (book : Book) (writes : Writes) : Prop where
  inputs : ∀ key, UpsertRow.inputTo key writes.upserts = writes.postedOn .debit key
  outputs : ∀ key, UpsertRow.outputTo key writes.upserts = writes.postedOn .credit key
  counts : ∀ key, UpsertRow.legsTo key writes.upserts = (writes.entriesOn key).length
  numbers : ∀ key, (writes.entriesOn key).map EntryRow.accountSeq =
    Numbering.countingFrom (book.lastSeqOn key) (writes.entriesOn key).length
  upserted : ∀ entry ∈ writes.entries,
    entry.stripeKey ∈ writes.upserts.map UpsertRow.toStripeKey
  belongs : ∀ entry ∈ writes.entries, ∃ transaction ∈ writes.transactions,
    entry.BelongsTo transaction
  onAccount : ∀ entry ∈ writes.entries,
    (book.account? entry.tenantId entry.accountId entry.currency).isSome
  positive : ∀ entry ∈ writes.entries, 0 < entry.amountMinor
  foots : ∀ tenantId transactionId currency,
    sideOf tenantId transactionId currency .debit writes.entries =
      sideOf tenantId transactionId currency .credit writes.entries

/-- What the writes of a bracket satisfy of the book they are committed to. -/
structure Lands (book : Book) (writes : Writes) : Prop extends LandsEntries book writes where
  admitted : ∃ tzKnown, Admits tzKnown book writes
  claims : UniqueIndex.Admits EventRow.claimKey book.events writes.events
  nonEmpty : ∀ transaction ∈ writes.transactions,
    transaction.Entryless book ∨
      ∃ entry ∈ writes.entries, entry.BelongsTo transaction
  supersedes : ∀ transaction ∈ writes.transactions, transaction.SupersedesIn book
  pendingPlain : ∀ transaction ∈ writes.transactions, transaction.status = .pending →
    transaction.kind = "posting" ∧ transaction.supersedes = none
  notBoth : ∀ transaction ∈ writes.transactions,
    transaction.resolvesId = none ∨ transaction.reversesId = none
  caused : ∀ transaction ∈ writes.transactions, ∃ event ∈ writes.events,
    event.tenantId = transaction.tenantId ∧ event.id = transaction.eventId ∧
      event.kind = transaction.kind
  closed : ∀ close ∈ writes.closes, ∃ transaction ∈ writes.transactions,
    close.ClosedBy transaction
  named : ∀ transaction ∈ writes.transactions, transaction.kind = "period_close" →
    ∃ close ∈ writes.closes, close.ClosedBy transaction
  ofPeriod : ∀ close ∈ writes.closes, ∃ period ∈ book.periods, close.Closes period
  checkpointed : ∀ row ∈ writes.periodBalances, ∃ close ∈ writes.closes, row.OfClose close
  balancesOnAccount : ∀ row ∈ writes.periodBalances,
    (book.account? row.tenantId row.accountId row.currency).isSome
  apart : writes.periods.Pairwise fun left right => ¬ left.Overlaps right
  charted : ∀ account ∈ writes.accounts, account.Charted book.chart

/-- What every book satisfies. -/
structure Kept (book : Book) : Prop where
  pkEvents : UniqueIndex.Holds EventRow.primaryKey book.events
  uqEventsIdempotency : UniqueIndex.Holds EventRow.claimKey book.events
  pkTxn : UniqueIndex.Holds TransactionRow.primaryKey book.transactions
  uqTxnOnePerEvent : UniqueIndex.Holds TransactionRow.eventKey book.transactions
  uqTxnOneSupersession : UniqueIndex.Holds TransactionRow.supersessionKey book.transactions
  noSelfReference : ∀ transaction ∈ book.transactions,
    transaction.names transaction.id = false
  pkAccounts : UniqueIndex.Holds AccountRow.primaryKey book.accounts
  uqAccountsOwned : UniqueIndex.Holds AccountRow.ownedKey book.accounts
  uqAccountsHouse : UniqueIndex.Holds AccountRow.houseKey book.accounts
  pkEntries : UniqueIndex.Holds EntryRow.primaryKey book.entries
  pkPeriods : UniqueIndex.Holds PeriodRow.primaryKey book.periods
  pkCloses : UniqueIndex.Holds CloseRow.primaryKey book.closes
  uqClosesTxn : UniqueIndex.Holds CloseRow.transactionKey book.closes
  pkPeriodBalances : UniqueIndex.Holds PeriodBalanceRow.primaryKey book.periodBalances
  pkBalances : (book.balances.map BalanceRow.toStripeKey).Nodup
  inputs : ∀ key, book.inputOn key = book.postedOn .debit key
  outputs : ∀ key, book.outputOn key = book.postedOn .credit key
  counts : ∀ key, book.lastSeqOn key = (book.entriesOn key).length
  numbers : ∀ key, (book.entriesOn key).map EntryRow.accountSeq =
    Numbering.countingFrom 0 (book.entriesOn key).length
  backed : ∀ entry ∈ book.entries, (book.balance? entry.stripeKey).isSome
  belongs : ∀ entry ∈ book.entries, ∃ transaction ∈ book.transactions,
    entry.BelongsTo transaction
  onAccount : ∀ entry ∈ book.entries,
    (book.account? entry.tenantId entry.accountId entry.currency).isSome
  positive : ∀ entry ∈ book.entries, 0 < entry.amountMinor
  foots : ∀ tenantId transactionId currency,
    sideOf tenantId transactionId currency .debit book.entries =
      sideOf tenantId transactionId currency .credit book.entries
  nonEmpty : ∀ transaction ∈ book.transactions,
    transaction.Entryless book ∨
      ∃ entry ∈ book.entries, entry.BelongsTo transaction
  supersedes : ∀ transaction ∈ book.transactions, transaction.SupersedesIn book
  pendingPlain : ∀ transaction ∈ book.transactions, transaction.status = .pending →
    transaction.kind = "posting" ∧ transaction.supersedes = none
  notBoth : ∀ transaction ∈ book.transactions,
    transaction.resolvesId = none ∨ transaction.reversesId = none
  caused : ∀ transaction ∈ book.transactions, ∃ event ∈ book.events,
    event.tenantId = transaction.tenantId ∧ event.id = transaction.eventId ∧
      event.kind = transaction.kind
  closed : ∀ close ∈ book.closes, ∃ transaction ∈ book.transactions,
    close.ClosedBy transaction
  named : ∀ transaction ∈ book.transactions, transaction.kind = "period_close" →
    ∃ close ∈ book.closes, close.ClosedBy transaction
  ofPeriod : ∀ close ∈ book.closes, ∃ period ∈ book.periods, close.Closes period
  checkpointed : ∀ row ∈ book.periodBalances, ∃ close ∈ book.closes, row.OfClose close
  balancesOnAccount : ∀ row ∈ book.periodBalances,
    (book.account? row.tenantId row.accountId row.currency).isSome
  periodsApart : book.periods.Pairwise fun left right => ¬ left.Overlaps right
  periodsNonEmpty : ∀ period ∈ book.periods, period.startsAt < period.endsAt
  closesInPeriod : ∀ close ∈ book.closes,
    close.startsAt ≤ close.txnEffectiveAt ∧ close.txnEffectiveAt < close.endsAt
  charted : ∀ account ∈ book.accounts, account.Charted book.chart

theorem PeriodRow.Overlaps.symm {left right : PeriodRow} (overlaps : left.Overlaps right) :
    right.Overlaps left :=
  ⟨overlaps.1.symm, overlaps.2.2, overlaps.2.1⟩

namespace Kept

variable {book : Book} {writes : Writes}

/-- A freshly migrated database keeps everything. -/
theorem empty (chart : Chart) : Kept (Book.empty chart) := by
  constructor <;>
    simp [Book.empty, Book.inputOn, Book.outputOn, Book.lastSeqOn, Book.balance?,
      Book.postedOn, Book.entriesOn, sideOf]

theorem transaction?_of_mem (kept : Kept book) {transaction : TransactionRow}
    (member : transaction ∈ book.transactions) :
    book.transaction? transaction.tenantId transaction.id = some transaction :=
  UniqueIndex.find?_of_mem kept.pkTxn member rfl fun other => by
    simp [TransactionRow.primaryKey]

theorem mem_of_transaction? {tenantId : String} {id : Uuid} {transaction : TransactionRow}
    (found : book.transaction? tenantId id = some transaction) :
    transaction ∈ book.transactions ∧ transaction.tenantId = tenantId ∧
      transaction.id = id :=
  ⟨List.mem_of_find?_eq_some found, by simpa using List.find?_some found⟩

/-- An entry's status is its transaction's. -/
theorem statusOf_of_belongs (kept : Kept book) {entry : EntryRow}
    {transaction : TransactionRow} (member : transaction ∈ book.transactions)
    (belongs : entry.BelongsTo transaction) :
    book.statusOf entry = some transaction.status := by
  rw [Book.statusOf, ← belongs.tenant, ← belongs.id, kept.transaction?_of_mem member]
  rfl

/-- A transaction the book does not have has no entries in it. -/
theorem not_isOf (kept : Kept book) {tenantId : String} {id : Uuid}
    (unknown : book.transaction? tenantId id = none) :
    ∀ e ∈ book.entries, e.isOf tenantId id = false := by
  intro e member
  by_contra mine
  rw [Bool.not_eq_false, EntryRow.isOf_iff] at mine
  obtain ⟨x, isThere, belongs⟩ := kept.belongs e member
  have found := kept.transaction?_of_mem isThere
  rw [belongs.tenant, belongs.id, mine.1, mine.2, unknown] at found
  cases found

/-- An entry is posted later exactly when it was. -/
theorem isPosted_later (kept : Kept book) {later : Book} (precedes : book.Precedes later)
    {entry : EntryRow} (member : entry ∈ book.entries) :
    later.isPosted entry = book.isPosted entry := by
  obtain ⟨transaction, isThere, belongs⟩ := kept.belongs entry member
  have known := kept.statusOf_of_belongs isThere belongs
  rw [Book.isPosted, Book.isPosted, precedes.statusOf known, known]

end Kept

section Landing

variable {book : Book} {writes : Writes}

/-- A lookup of a transaction written by the bracket finds it after the commit,
as it did among the bracket's own rows. -/
theorem Lands.transaction?_apply (kept : Kept book) (lands : Lands book writes)
    {transaction : TransactionRow} (member : transaction ∈ writes.transactions) :
    (book.apply writes).transaction? transaction.tenantId transaction.id =
        some transaction ∧
      (writes.transactions.find? fun other =>
        decide (other.tenantId = transaction.tenantId) &&
          decide (other.id = transaction.id)) = some transaction := by
  obtain ⟨tzKnown, admits⟩ := lands.admitted
  have selects : ∀ other : TransactionRow,
      (decide (other.tenantId = transaction.tenantId) &&
        decide (other.id = transaction.id)) = true ↔
          other.primaryKey = transaction.primaryKey := by
    intro other
    simp [TransactionRow.primaryKey]
  exact ⟨UniqueIndex.find?_append_of_mem admits.pkTxn kept.pkTxn member rfl selects,
    UniqueIndex.find?_of_mem admits.pkTxn.1 member rfl selects⟩

/-- A transaction the bracket writes is new. -/
theorem Lands.unknown (lands : Lands book writes) {transaction : TransactionRow}
    (member : transaction ∈ writes.transactions) :
    book.transaction? transaction.tenantId transaction.id = none := by
  obtain ⟨_, admits⟩ := lands.admitted
  refine List.find?_eq_none.mpr fun held isThere same => ?_
  simp only [Bool.and_eq_true, decide_eq_true_eq] at same
  have isNew : (transaction.tenantId, transaction.id) ∈
      writes.transactions.filterMap TransactionRow.primaryKey :=
    List.mem_filterMap.mpr ⟨transaction, member, rfl⟩
  refine admits.pkTxn.2 _ isNew (List.mem_filterMap.mpr ⟨held, isThere, ?_⟩)
  rw [TransactionRow.primaryKey, same.1, same.2]

/-- Committing leaves every earlier entry's status as it was. -/
theorem Lands.statusOf_apply_old (kept : Kept book) {entry : EntryRow}
    (member : entry ∈ book.entries) :
    (book.apply writes).statusOf entry = book.statusOf entry := by
  obtain ⟨transaction, isThere, belongs⟩ := kept.belongs entry member
  have known := kept.statusOf_of_belongs isThere belongs
  rw [known]
  exact (Book.Precedes.apply book writes).statusOf known

/-- A new entry's status is read among the rows written with it. -/
theorem Lands.statusOf_apply_new (kept : Kept book) (lands : Lands book writes)
    {entry : EntryRow} (member : entry ∈ writes.entries) :
    (book.apply writes).statusOf entry = writes.statusOf entry := by
  obtain ⟨transaction, isThere, belongs⟩ := lands.belongs entry member
  obtain ⟨afterwards, among⟩ := lands.transaction?_apply kept isThere
  rw [belongs.tenant, belongs.id] at afterwards among
  rw [Book.statusOf, afterwards, Writes.statusOf, among]

theorem Lands.postedOn_apply (kept : Kept book) (lands : Lands book writes)
    (direction : Direction) (key : StripeKey) :
    (book.apply writes).postedOn direction key =
      book.postedOn direction key + writes.postedOn direction key := by
  simp only [Book.postedOn, Writes.postedOn, Book.entries_apply, Tally.sumWhere_append,
    Book.isPosted]
  congr 1
  · refine Tally.sumWhere_congr (fun entry member => ?_) fun _ _ _ => rfl
    rw [Lands.statusOf_apply_old kept member]
  · refine Tally.sumWhere_congr (fun entry member => ?_) fun _ _ _ => rfl
    rw [lands.statusOf_apply_new kept member]

theorem Writes.entriesOn_apply (book : Book) (writes : Writes) (key : StripeKey) :
    (book.apply writes).entriesOn key = book.entriesOn key ++ writes.entriesOn key := by
  simp [Book.entriesOn, Writes.entriesOn]

theorem sideOf_append (tenantId : String) (transactionId : Uuid) (currency : String)
    (direction : Direction) (left right : List EntryRow) :
    sideOf tenantId transactionId currency direction (left ++ right) =
      sideOf tenantId transactionId currency direction left +
        sideOf tenantId transactionId currency direction right :=
  Tally.sumWhere_append ..

/-- What a transaction supersedes in a book it supersedes in any later one. -/
theorem TransactionRow.SupersedesIn.later {earlier later : Book}
    (precedes : earlier.Precedes later) {transaction : TransactionRow}
    (supersedes : transaction.SupersedesIn earlier) : transaction.SupersedesIn later where
  resolves := fun id resolved => by
    obtain ⟨target, found, pending⟩ := supersedes.resolves id resolved
    exact ⟨target, precedes.transaction? found, pending⟩
  reverses := fun id reversed => by
    obtain ⟨target, found, plain⟩ := supersedes.reverses id reversed
    exact ⟨target, precedes.transaction? found, plain⟩

theorem TransactionRow.Entryless.later {earlier later : Book}
    (precedes : earlier.Precedes later) {transaction : TransactionRow}
    (entryless : transaction.Entryless earlier) : transaction.Entryless later := by
  rcases entryless with isClose | ⟨id, target, reverses, found, pending⟩
  · exact Or.inl isClose
  · exact Or.inr ⟨id, target, reverses, precedes.transaction? found, pending⟩

theorem Book.account?_later {earlier later : Book} (precedes : earlier.Precedes later)
    {tenantId currency : String} {id : Uuid}
    (held : (earlier.account? tenantId id currency).isSome) :
    (later.account? tenantId id currency).isSome := by
  obtain ⟨account, found⟩ := Option.isSome_iff_exists.mp held
  rw [precedes.account? found]
  rfl

/-- Writes that land keep the book kept. -/
theorem Kept.apply (kept : Kept book) (lands : Lands book writes) :
    Kept (book.apply writes) := by
  obtain ⟨tzKnown, admits⟩ := lands.admitted
  have precedes := Book.Precedes.apply book writes
  exact
  { pkEvents := UniqueIndex.holds_append kept.pkEvents admits.pkEvents
    uqEventsIdempotency := UniqueIndex.holds_append kept.uqEventsIdempotency lands.claims
    pkTxn := UniqueIndex.holds_append kept.pkTxn admits.pkTxn
    uqTxnOnePerEvent :=
      UniqueIndex.holds_append kept.uqTxnOnePerEvent admits.uqTxnOnePerEvent
    uqTxnOneSupersession :=
      UniqueIndex.holds_append kept.uqTxnOneSupersession admits.uqTxnOneSupersession
    noSelfReference := fun transaction member =>
      (List.mem_append.mp member).elim (kept.noSelfReference transaction)
        (admits.ckTxnNoSelfReference transaction)
    pkAccounts := UniqueIndex.holds_append kept.pkAccounts admits.pkAccounts
    uqAccountsOwned := UniqueIndex.holds_append kept.uqAccountsOwned admits.uqAccountsOwned
    uqAccountsHouse := UniqueIndex.holds_append kept.uqAccountsHouse admits.uqAccountsHouse
    pkEntries := UniqueIndex.holds_append kept.pkEntries admits.pkEntries
    pkPeriods := UniqueIndex.holds_append kept.pkPeriods admits.pkPeriods
    pkCloses := UniqueIndex.holds_append kept.pkCloses admits.pkCloses
    uqClosesTxn := UniqueIndex.holds_append kept.uqClosesTxn admits.uqClosesTxn
    pkPeriodBalances :=
      UniqueIndex.holds_append kept.pkPeriodBalances admits.pkPeriodBalances
    pkBalances := Book.balanceKeys_apply book writes kept.pkBalances
    inputs := fun key => by
      rw [Book.inputOn_apply, lands.postedOn_apply kept, kept.inputs, lands.inputs]
    outputs := fun key => by
      rw [Book.outputOn_apply, lands.postedOn_apply kept, kept.outputs, lands.outputs]
    counts := fun key => by
      rw [Book.lastSeqOn_apply, Writes.entriesOn_apply, kept.counts, lands.counts,
        List.length_append, Nat.cast_add]
    numbers := fun key => by
      rw [Writes.entriesOn_apply, List.map_append, kept.numbers, lands.numbers, kept.counts,
        List.length_append, ← Numbering.countingFrom_append, zero_add]
    backed := fun entry member => by
      rw [Book.balance?_apply_isSome]
      exact (List.mem_append.mp member).imp (kept.backed entry) (lands.upserted entry)
    belongs := fun entry member => by
      rcases List.mem_append.mp member with old | new
      · obtain ⟨transaction, isThere, belongs⟩ := kept.belongs entry old
        exact ⟨transaction, List.mem_append_left _ isThere, belongs⟩
      · obtain ⟨transaction, isThere, belongs⟩ := lands.belongs entry new
        exact ⟨transaction, List.mem_append_right _ isThere, belongs⟩
    onAccount := fun entry member =>
      Book.account?_later precedes <|
        (List.mem_append.mp member).elim (kept.onAccount entry) (lands.onAccount entry)
    positive := fun entry member =>
      (List.mem_append.mp member).elim (kept.positive entry) (lands.positive entry)
    foots := fun tenantId transactionId currency => by
      rw [Book.entries_apply, sideOf_append, sideOf_append, kept.foots, lands.foots]
    nonEmpty := fun transaction member => by
      rcases List.mem_append.mp member with old | new
      · rcases kept.nonEmpty transaction old with entryless | ⟨entry, isThere, belongs⟩
        · exact Or.inl (entryless.later precedes)
        · exact Or.inr ⟨entry, List.mem_append_left _ isThere, belongs⟩
      · rcases lands.nonEmpty transaction new with entryless | ⟨entry, isThere, belongs⟩
        · exact Or.inl (entryless.later precedes)
        · exact Or.inr ⟨entry, List.mem_append_right _ isThere, belongs⟩
    supersedes := fun transaction member =>
      ((List.mem_append.mp member).elim (kept.supersedes transaction)
        (lands.supersedes transaction)).later precedes
    pendingPlain := fun transaction member =>
      (List.mem_append.mp member).elim (kept.pendingPlain transaction)
        (lands.pendingPlain transaction)
    notBoth := fun transaction member =>
      (List.mem_append.mp member).elim (kept.notBoth transaction) (lands.notBoth transaction)
    caused := fun transaction member => by
      rcases List.mem_append.mp member with old | new
      · obtain ⟨event, isThere, causes⟩ := kept.caused transaction old
        exact ⟨event, List.mem_append_left _ isThere, causes⟩
      · obtain ⟨event, isThere, causes⟩ := lands.caused transaction new
        exact ⟨event, List.mem_append_right _ isThere, causes⟩
    closed := fun close member => by
      rcases List.mem_append.mp member with old | new
      · obtain ⟨transaction, isThere, closes⟩ := kept.closed close old
        exact ⟨transaction, List.mem_append_left _ isThere, closes⟩
      · obtain ⟨transaction, isThere, closes⟩ := lands.closed close new
        exact ⟨transaction, List.mem_append_right _ isThere, closes⟩
    named := fun transaction member isClose => by
      rcases List.mem_append.mp member with old | new
      · obtain ⟨close, isThere, closes⟩ := kept.named transaction old isClose
        exact ⟨close, List.mem_append_left _ isThere, closes⟩
      · obtain ⟨close, isThere, closes⟩ := lands.named transaction new isClose
        exact ⟨close, List.mem_append_right _ isThere, closes⟩
    ofPeriod := fun close member => by
      obtain ⟨period, isThere, closes⟩ :=
        (List.mem_append.mp member).elim (kept.ofPeriod close) (lands.ofPeriod close)
      exact ⟨period, List.mem_append_left _ isThere, closes⟩
    checkpointed := fun row member => by
      rcases List.mem_append.mp member with old | new
      · obtain ⟨close, isThere, isOf⟩ := kept.checkpointed row old
        exact ⟨close, List.mem_append_left _ isThere, isOf⟩
      · obtain ⟨close, isThere, isOf⟩ := lands.checkpointed row new
        exact ⟨close, List.mem_append_right _ isThere, isOf⟩
    balancesOnAccount := fun row member =>
      Book.account?_later precedes <|
        (List.mem_append.mp member).elim (kept.balancesOnAccount row)
          (lands.balancesOnAccount row)
    periodsApart := by
      rw [Book.periods_apply, List.pairwise_append]
      refine ⟨kept.periodsApart, lands.apart, ?_⟩
      intro held isHeld row isNew overlaps
      exact admits.exPeriodsNoOverlap row isNew held isHeld overlaps.symm
    periodsNonEmpty := fun period member =>
      (List.mem_append.mp member).elim (kept.periodsNonEmpty period)
        (admits.ckPeriodsNonEmpty period)
    closesInPeriod := fun close member =>
      (List.mem_append.mp member).elim (kept.closesInPeriod close)
        (admits.ckClosesTxnInPeriod close)
    charted := fun account member =>
      (List.mem_append.mp member).elim (kept.charted account) (lands.charted account) }

end Landing

/-- A book after brackets that landed, one behind the other. -/
inductive Landed (wrote : Writes → Prop) (book : Book) : Book → Prop where
  | refl : Landed wrote book book
  | bracket {between : Book} {writes : Writes} (before : Landed wrote book between)
      (kept : Kept between) (lands : Lands between writes) (written : wrote writes) :
      Landed wrote book (between.apply writes)

namespace Landed

variable {wrote : Writes → Prop} {book later : Book}

theorem precedes (landed : Landed wrote book later) : book.Precedes later := by
  induction landed with
  | refl =>
      exact Book.Precedes.refl book
  | bracket _ _ _ _ inductionHypothesis =>
      exact inductionHypothesis.trans (Book.Precedes.apply _ _)

theorem trans {latest : Book} (first : Landed wrote book later)
    (second : Landed wrote later latest) : Landed wrote book latest := by
  induction second with
  | refl =>
      exact first
  | bracket _ kept lands written inductionHypothesis =>
      exact inductionHypothesis.bracket kept lands written

end Landed

end OpenLedger
