import OpenLedger.Tenants

/-!
# A statement and its tenant

Every statement about a tenant answers and writes on that tenant's rows alone
what it answers and writes on the whole book, and what it writes is the tenant's.
-/

namespace OpenLedger.Postgres

variable {mine : String → Bool} {env : Env} {snapshot current : Book}

section Constraints

variable {writes : Writes}

theorem inputOn_within (book : Book) {key : StripeKey} (isMine : mine key.tenantId = true) :
    (book.within mine).inputOn key = book.inputOn key := by
  rw [Book.inputOn, Book.inputOn, Book.balance?_within book isMine]

theorem outputOn_within (book : Book) {key : StripeKey} (isMine : mine key.tenantId = true) :
    (book.within mine).outputOn key = book.outputOn key := by
  rw [Book.outputOn, Book.outputOn, Book.balance?_within book isMine]

theorem lastSeqOn_within (book : Book) {key : StripeKey} (isMine : mine key.tenantId = true) :
    (book.within mine).lastSeqOn key = book.lastSeqOn key := by
  rw [Book.lastSeqOn, Book.lastSeqOn, Book.balance?_within book isMine]

/-- Each constraint says of a tenant's rows from the tenant's rows what it says of
them from all. -/
theorem constraintChecks_within (tzKnown : String → Bool) (book : Book)
    (own : writes.Within mine) :
    constraintChecks tzKnown (book.within mine) writes =
      constraintChecks tzKnown book writes := by
  have overlaps : (∀ row ∈ writes.periods, ∀ held ∈ (book.within mine).periods,
        ¬ row.Overlaps held) ↔
      ∀ row ∈ writes.periods, ∀ held ∈ book.periods, ¬ row.Overlaps held := by
    constructor
    · intro fenced row isNew held isHeld overlapping
      have inside : mine held.tenantId = true := by
        rw [← overlapping.1]
        exact own.periods row isNew
      exact fenced row isNew held (List.mem_filter.mpr ⟨isHeld, inside⟩) overlapping
    · intro all row isNew held isHeld
      exact all row isNew held (List.mem_filter.mp isHeld).1
  have fit : (∀ row ∈ writes.upserts,
        isBigint ((book.within mine).inputOn row.toStripeKey + row.input) = true ∧
          isBigint ((book.within mine).outputOn row.toStripeKey + row.output) = true ∧
          isBigint ((book.within mine).lastSeqOn row.toStripeKey + row.legs) = true) ↔
      ∀ row ∈ writes.upserts,
        isBigint (book.inputOn row.toStripeKey + row.input) = true ∧
          isBigint (book.outputOn row.toStripeKey + row.output) = true ∧
          isBigint (book.lastSeqOn row.toStripeKey + row.legs) = true := by
    refine forall₂_congr fun row member => ?_
    have isMine : mine row.toStripeKey.tenantId = true := own.upserts row member
    rw [inputOn_within book isMine, outputOn_within book isMine, lastSeqOn_within book isMine]
  have events : UniqueIndex.Admits EventRow.primaryKey (book.within mine).events
      writes.events ↔ UniqueIndex.Admits EventRow.primaryKey book.events writes.events :=
    Fence.admits_within (tells_pair EventRow.tenantId _) own.events
  have txn : UniqueIndex.Admits TransactionRow.primaryKey (book.within mine).transactions
        writes.transactions ↔
      UniqueIndex.Admits TransactionRow.primaryKey book.transactions writes.transactions :=
    Fence.admits_within (tells_pair TransactionRow.tenantId _) own.transactions
  have onePerEvent : UniqueIndex.Admits TransactionRow.eventKey
        (book.within mine).transactions writes.transactions ↔
      UniqueIndex.Admits TransactionRow.eventKey book.transactions writes.transactions :=
    Fence.admits_within (tells_pair TransactionRow.tenantId _) own.transactions
  have supersession : UniqueIndex.Admits TransactionRow.supersessionKey
        (book.within mine).transactions writes.transactions ↔
      UniqueIndex.Admits TransactionRow.supersessionKey book.transactions
        writes.transactions :=
    Fence.admits_within supersessionKey_tells own.transactions
  have accounts : UniqueIndex.Admits AccountRow.primaryKey (book.within mine).accounts
      writes.accounts ↔ UniqueIndex.Admits AccountRow.primaryKey book.accounts writes.accounts :=
    Fence.admits_within (tells_pair AccountRow.tenantId _) own.accounts
  have owned : UniqueIndex.Admits AccountRow.ownedKey (book.within mine).accounts
      writes.accounts ↔ UniqueIndex.Admits AccountRow.ownedKey book.accounts writes.accounts :=
    Fence.admits_within ownedKey_tells own.accounts
  have house : UniqueIndex.Admits AccountRow.houseKey (book.within mine).accounts
      writes.accounts ↔ UniqueIndex.Admits AccountRow.houseKey book.accounts writes.accounts :=
    Fence.admits_within houseKey_tells own.accounts
  have entries : UniqueIndex.Admits EntryRow.primaryKey (book.within mine).entries
      writes.entries ↔ UniqueIndex.Admits EntryRow.primaryKey book.entries writes.entries :=
    Fence.admits_within (tells_pair EntryRow.tenantId _) own.entries
  have periods : UniqueIndex.Admits PeriodRow.primaryKey (book.within mine).periods
      writes.periods ↔ UniqueIndex.Admits PeriodRow.primaryKey book.periods writes.periods :=
    Fence.admits_within (tells_pair PeriodRow.tenantId _) own.periods
  have closes : UniqueIndex.Admits CloseRow.primaryKey (book.within mine).closes
      writes.closes ↔ UniqueIndex.Admits CloseRow.primaryKey book.closes writes.closes :=
    Fence.admits_within (tells_pair CloseRow.tenantId _) own.closes
  have closesTxn : UniqueIndex.Admits CloseRow.transactionKey (book.within mine).closes
      writes.closes ↔ UniqueIndex.Admits CloseRow.transactionKey book.closes writes.closes :=
    Fence.admits_within (tells_pair CloseRow.tenantId _) own.closes
  have balances : UniqueIndex.Admits PeriodBalanceRow.primaryKey
        (book.within mine).periodBalances writes.periodBalances ↔
      UniqueIndex.Admits PeriodBalanceRow.primaryKey book.periodBalances
        writes.periodBalances :=
    Fence.admits_within (tells_pair PeriodBalanceRow.tenantId _) own.periodBalances
  simp only [constraintChecks, overlaps, fit, events, txn, onePerEvent, supersession,
    accounts, owned, house, entries, periods, closes, closesTxn, balances]

theorem violation_within (tzKnown : String → Bool) (book : Book) (own : writes.Within mine) :
    violation tzKnown (book.within mine) writes = violation tzKnown book writes := by
  rw [violation, violation, constraintChecks_within tzKnown book own]

end Constraints

/-! ## The shared stages -/

section Stages

variable {deltas : List DeltaRow} {legs : List LegRow} {upserts : List UpsertRow}

theorem striped_within (affinity : Nat) (own : ∀ delta ∈ deltas, mine delta.tenantId = true) :
    striped (snapshot.within mine) affinity deltas = striped snapshot affinity deltas := by
  unfold striped
  congr 1
  refine List.filterMap_congr fun delta member => ?_
  rw [DeltaRow.joined, DeltaRow.joined, Book.account?_within snapshot (own delta member)]

theorem striped_own {affinity : Nat} (own : ∀ delta ∈ deltas, mine delta.tenantId = true) :
    ∀ upsert ∈ striped snapshot affinity deltas, mine upsert.tenantId = true := by
  intro upsert member
  obtain ⟨delta, isDelta, joined⟩ := mem_striped.mp member
  obtain ⟨account, found, rfl⟩ := Option.map_eq_some_iff.mp joined
  have tenant : account.tenantId = delta.tenantId := (account?_spec found).2.1
  change mine account.tenantId = true
  rw [tenant]
  exact own delta isDelta

theorem balance_within (own : ∀ upsert ∈ upserts, mine upsert.tenantId = true) :
    balance (current.within mine) upserts = balance current upserts := by
  refine List.map_congr_left fun upsert member => ?_
  rw [lastSeqOn_within current (own upsert member)]

theorem entry_own {counters : List CounterRow} (own : ∀ row ∈ legs, mine row.tenantId = true) :
    ∀ e ∈ entry env counters legs, mine e.tenantId = true := by
  intro e member
  obtain ⟨index, below, rfl⟩ := List.mem_mapIdx.mp member
  obtain ⟨row, isRow, counted⟩ := List.mem_filterMap.mp (List.getElem_mem below)
  obtain ⟨counter, _, paired⟩ := Option.map_eq_some_iff.mp counted
  change mine (_ : LegRow × CounterRow).1.tenantId = true
  rw [← paired]
  exact own row isRow

theorem groupDeltas_own {tenantId : String} (isMine : mine tenantId = true) (legs : List Leg) :
    ∀ delta ∈ groupDeltas tenantId legs, mine delta.tenantId = true := by
  intro delta member
  obtain ⟨key, _, rfl⟩ := List.mem_map.mp member
  exact isMine

end Stages

/-! ## The single call -/

section Single

variable {command : PostTransaction} {append : Append} {hash : List UInt8} {payload : Json}
  (isMine : mine command.tenantId = true)

include isMine

theorem supersedeTarget_within :
    supersedeTarget (snapshot.within mine) command = supersedeTarget snapshot command := by
  unfold supersedeTarget
  congr 1
  funext target
  rw [Book.transaction?_within snapshot isMine]
  congr 1
  funext x
  have superseded : (snapshot.within mine).transactions.any (fun rr =>
      decide (rr.tenantId = command.tenantId) && rr.names x.id) =
        snapshot.transactions.any fun rr =>
          decide (rr.tenantId = command.tenantId) && rr.names x.id :=
    Fence.any_within (fun row holds => by
      rw [Bool.and_eq_true, decide_eq_true_eq] at holds
      rw [holds.1]
      exact isMine) _
  rw [superseded]

theorem mirrorLeg_within (target : Option SupersedeTarget) :
    mirrorLeg (snapshot.within mine) command target = mirrorLeg snapshot command target := by
  have entries : ∀ id, entriesOf (snapshot.within mine) command.tenantId id =
      entriesOf snapshot command.tenantId id := fun id =>
    Fence.filter_within (fun row holds => by
      rw [Bool.and_eq_true, decide_eq_true_eq] at holds
      rw [holds.1]
      exact isMine) _
  unfold mirrorLeg
  cases command.reversesId with
  | none =>
      rfl
  | some reversed =>
      dsimp only
      rw [entries]

theorem delta_within :
    delta (snapshot.within mine) command append = delta snapshot command append := by
  rw [delta, delta, supersedeTarget_within isMine, mirrorLeg_within isMine]

theorem delta_own : ∀ d ∈ delta snapshot command append, mine d.tenantId = true := by
  intro d member
  rcases List.mem_append.mp member with isPlanned | isMirrored
  · obtain ⟨entry, _, rfl⟩ := List.mem_map.mp isPlanned
    exact isMine
  · exact groupDeltas_own isMine _ d isMirrored

theorem txn_within : txn env (snapshot.within mine) command = txn env snapshot command := by
  rw [txn, txn, supersedeTarget_within isMine]

theorem appendedLegs_within :
    appendedLegs env (snapshot.within mine) command append =
      appendedLegs env snapshot command append := by
  rw [appendedLegs, appendedLegs, supersedeTarget_within isMine, mirrorLeg_within isMine,
    txn_within isMine]

theorem appendedLegs_own :
    ∀ row ∈ appendedLegs env snapshot command append, mine row.tenantId = true := by
  intro row member
  obtain ⟨t, _, isLeg⟩ := List.mem_flatMap.mp member
  obtain ⟨numbered, _, rfl⟩ := List.mem_map.mp isLeg
  exact isMine

theorem appendWrites_within :
    appendWrites env (snapshot.within mine) (current.within mine) command hash payload append =
      appendWrites env snapshot current command hash payload append := by
  simp only [appendWrites, delta_within isMine, striped_within _ (delta_own isMine),
    supersedeTarget_within isMine, txn_within isMine, appendedLegs_within isMine,
    balance_within (striped_own (delta_own isMine))]

theorem appendRows_within :
    appendRows env (snapshot.within mine) (current.within mine) command append =
      appendRows env snapshot current command append := by
  simp only [appendRows, delta_within isMine, striped_within _ (delta_own isMine),
    supersedeTarget_within isMine, txn_within isMine,
    balance_within (striped_own (delta_own isMine))]

theorem appendWrites_own :
    (appendWrites env snapshot current command hash payload append).Within mine where
  events := fun row member => by
    rw [List.mem_singleton.mp member]
    exact isMine
  transactions := fun row member => by
    change row ∈ txn env snapshot command at member
    unfold txn at member
    dsimp only at member
    split at member
    · rw [List.mem_singleton.mp member]
      exact isMine
    · exact absurd member List.not_mem_nil
  accounts := fun _ member => absurd member List.not_mem_nil
  upserts := striped_own (delta_own isMine)
  entries := entry_own (appendedLegs_own isMine)
  periods := fun _ member => absurd member List.not_mem_nil
  closes := fun _ member => absurd member List.not_mem_nil
  periodBalances := fun _ member => absurd member List.not_mem_nil

theorem claimAndAppend_within :
    claimAndAppend env (snapshot.within mine) (current.within mine) command hash payload
        append =
      claimAndAppend env snapshot current command hash payload append := by
  have same : claimAndAppendStatement env (snapshot.within mine) (current.within mine) command
      hash payload append =
        claimAndAppendStatement env snapshot current command hash payload append := by
    simp only [claimAndAppendStatement, Book.holderOf_within current isMine,
      supersedeTarget_within isMine, mirrorLeg_within isMine, appendWrites_within isMine,
      appendRows_within isMine, violation_within env.tzKnown current (appendWrites_own isMine)]
  rw [claimAndAppend, claimAndAppend, same]

end Single

/-- The events one tenant's claim under a key may be replayed from. -/
theorem claim?_within {tenantId : String} (isMine : mine tenantId = true) (book : Book)
    (key : String) (hash : List UInt8) :
    (book.within mine).events.find? (fun event =>
        decide (event.tenantId = tenantId) && decide (event.idempotencyKey = key) &&
          decide (event.idempotencyHash = hash)) =
      book.events.find? fun event =>
        decide (event.tenantId = tenantId) && decide (event.idempotencyKey = key) &&
          decide (event.idempotencyHash = hash) :=
  Fence.find?_within (fun row holds => by
    simp only [Bool.and_eq_true, decide_eq_true_eq] at holds
    rw [holds.1.1]
    exact isMine) _

/-- What is read beside the claim a replay finds is the same when it is the same
for the claim's tenant. -/
theorem replay_within {tenantId : String} {α : Type} (isMine : mine tenantId = true)
    (book : Book) (key : String) (hash : List UInt8) {read readWithin : EventRow → α}
    (same : ∀ event : EventRow, event.tenantId = tenantId → readWithin event = read event) :
    ((book.within mine).events.find? (fun event =>
        decide (event.tenantId = tenantId) && decide (event.idempotencyKey = key) &&
          decide (event.idempotencyHash = hash))).map readWithin =
      (book.events.find? fun event =>
        decide (event.tenantId = tenantId) && decide (event.idempotencyKey = key) &&
          decide (event.idempotencyHash = hash)).map read := by
  rw [claim?_within isMine]
  cases found : book.events.find? (fun event =>
      decide (event.tenantId = tenantId) && decide (event.idempotencyKey = key) &&
        decide (event.idempotencyHash = hash)) with
  | none =>
      rfl
  | some event =>
      have carried := List.find?_some found
      simp only [Bool.and_eq_true, decide_eq_true_eq] at carried
      rw [Option.map_some, Option.map_some, same event carried.1.1]

theorem storedResult_within {tenantId : String} (isMine : mine tenantId = true) (book : Book)
    (key : String) (hash : List UInt8) :
    storedResult (book.within mine) tenantId key hash = storedResult book tenantId key hash :=
  replay_within isMine book key hash fun event tenant => by
    rw [tenant, Book.causedBy_within book isMine]

/-! ## Opening an account and defining a period -/

section Register

variable {hash : List UInt8} {payload : Json}

theorem openWrites_own {command : OpenAccount} (isMine : mine command.tenantId = true)
    (triple : ChartTriple) : (openWrites env command hash payload triple).Within mine where
  events := fun row member => by
    rw [List.mem_singleton.mp member]
    exact isMine
  transactions := fun _ member => absurd member List.not_mem_nil
  accounts := fun row member => by
    rw [List.mem_singleton.mp member]
    exact isMine
  upserts := fun _ member => absurd member List.not_mem_nil
  entries := fun _ member => absurd member List.not_mem_nil
  periods := fun _ member => absurd member List.not_mem_nil
  closes := fun _ member => absurd member List.not_mem_nil
  periodBalances := fun _ member => absurd member List.not_mem_nil

theorem claimAndOpenAccount_within {command : OpenAccount}
    (isMine : mine command.tenantId = true) (triple : ChartTriple) :
    claimAndOpenAccount env (current.within mine) command hash payload triple =
      claimAndOpenAccount env current command hash payload triple := by
  simp only [claimAndOpenAccount, Book.holderOf_within current isMine,
    violation_within env.tzKnown current (openWrites_own isMine triple)]

theorem storedAccount_within {command : OpenAccount} (isMine : mine command.tenantId = true)
    (book : Book) :
    storedAccount (book.within mine) command hash = storedAccount book command hash := by
  have under : accountUnder (book.within mine) command command.tenantId =
      accountUnder book command command.tenantId :=
    Fence.find?_within (fun row holds => by
      simp only [Bool.and_eq_true, decide_eq_true_eq] at holds
      rw [holds.1.1.1.1]
      exact isMine) _
  exact replay_within isMine book _ hash fun event tenant => by rw [tenant, under]

theorem defineWrites_own {command : DefinePeriod} (isMine : mine command.tenantId = true) :
    (defineWrites env command hash payload).Within mine where
  events := fun row member => by
    rw [List.mem_singleton.mp member]
    exact isMine
  transactions := fun _ member => absurd member List.not_mem_nil
  accounts := fun _ member => absurd member List.not_mem_nil
  upserts := fun _ member => absurd member List.not_mem_nil
  entries := fun _ member => absurd member List.not_mem_nil
  periods := fun row member => by
    rw [List.mem_singleton.mp member]
    exact isMine
  closes := fun _ member => absurd member List.not_mem_nil
  periodBalances := fun _ member => absurd member List.not_mem_nil

theorem claimAndDefinePeriod_within {command : DefinePeriod}
    (isMine : mine command.tenantId = true) :
    claimAndDefinePeriod env (current.within mine) command hash payload =
      claimAndDefinePeriod env current command hash payload := by
  simp only [claimAndDefinePeriod, Book.holderOf_within current isMine,
    violation_within env.tzKnown current (defineWrites_own isMine)]

theorem storedPeriod_within {command : DefinePeriod} (isMine : mine command.tenantId = true)
    (book : Book) :
    storedPeriod (book.within mine) command hash = storedPeriod book command hash :=
  replay_within isMine book _ hash fun event tenant => by
    rw [tenant, Book.period?_within book isMine]

end Register

/-! ## Closing a period -/

section Closing

variable {command : ClosePeriod} {hash : List UInt8} {payload : Json} {plan : ClosePlan}

theorem periodCloseContext_within (isMine : mine command.tenantId = true) (book : Book) :
    periodCloseContext (book.within mine) command = periodCloseContext book command := by
  unfold periodCloseContext
  rw [Book.period?_within book isMine]
  cases found : book.period? command.tenantId command.periodCode with
  | none =>
      rfl
  | some period =>
      have carried := List.find?_some found
      simp only [Bool.and_eq_true, decide_eq_true_eq] at carried
      have house : (book.within mine).accounts.find? (fun account =>
          decide (account.tenantId = period.tenantId) &&
            decide (account.purpose = "retained_earnings") &&
            decide (account.ownerType = .house) &&
            decide (account.currency = command.currency)) =
          book.accounts.find? fun account =>
            decide (account.tenantId = period.tenantId) &&
              decide (account.purpose = "retained_earnings") &&
              decide (account.ownerType = .house) &&
              decide (account.currency = command.currency) :=
        Fence.find?_within (fun row holds => by
          simp only [Bool.and_eq_true, decide_eq_true_eq] at holds
          rw [holds.1.1.1, carried.1]
          exact isMine) _
      rw [Option.map_some, Option.map_some, house]

theorem isTemporary_within (book : Book) {e : EntryRow} (isMine : mine e.tenantId = true) :
    isTemporary (book.within mine) e = isTemporary book e := by
  rw [isTemporary, isTemporary, categoryOf, categoryOf, Book.account?_within book isMine]

section

variable {tenantId : String} (isMine : mine tenantId = true)

include isMine

theorem sweepAdmits_within (currency : String) (endsAt : Timestamp) (retainedEarnings : Uuid)
    (cursor : Xid) :
    sweepAdmits (snapshot.within mine) tenantId currency endsAt retainedEarnings cursor =
      sweepAdmits snapshot tenantId currency endsAt retainedEarnings cursor := by
  funext e
  by_cases tenant : e.tenantId = tenantId
  · have ofMine : mine e.tenantId = true := by
      rw [tenant]
      exact isMine
    rw [sweepAdmits, sweepAdmits, Book.isPosted_within snapshot ofMine,
      isTemporary_within snapshot ofMine]
  · simp [sweepAdmits, tenant]

theorem position_within (currency : String) (endsAt : Timestamp) (retainedEarnings : Uuid)
    (cursor : Xid) :
    position (snapshot.within mine) tenantId currency endsAt retainedEarnings cursor =
      position snapshot tenantId currency endsAt retainedEarnings cursor := by
  have ofTenant : ∀ e : EntryRow,
      sweepAdmits snapshot tenantId currency endsAt retainedEarnings cursor e = true →
        mine e.tenantId = true := by
    intro e holds
    simp only [sweepAdmits, Bool.and_eq_true, decide_eq_true_eq] at holds
    rw [holds.1.1.1.1.1.1]
    exact isMine
  have sums : ∀ accountId, Tally.sumWhere (fun e =>
        sweepAdmits snapshot tenantId currency endsAt retainedEarnings cursor e &&
          decide (e.accountId = accountId)) EntryRow.signed (snapshot.within mine).entries =
      Tally.sumWhere (fun e =>
        sweepAdmits snapshot tenantId currency endsAt retainedEarnings cursor e &&
          decide (e.accountId = accountId)) EntryRow.signed snapshot.entries := fun accountId =>
    Fence.sumWhere_within (fun e holds => ofTenant e (Bool.and_eq_true _ _ ▸ holds).1) _ _
  have entries : (snapshot.within mine).entries.filter
        (sweepAdmits snapshot tenantId currency endsAt retainedEarnings cursor) =
      snapshot.entries.filter
        (sweepAdmits snapshot tenantId currency endsAt retainedEarnings cursor) :=
    Fence.filter_within ofTenant _
  simp only [position, sweepAdmits_within isMine, sums, entries]

end

section

variable (isMine : mine command.tenantId = true)

include isMine

theorem sweptBy_within :
    sweptBy env (snapshot.within mine) command plan = sweptBy env snapshot command plan :=
  position_within isMine _ _ _ _

theorem closeLegs_within :
    closeLegs env (snapshot.within mine) command plan = closeLegs env snapshot command plan := by
  rw [closeLegs, closeLegs, sweptBy_within isMine]

theorem closeDelta_within :
    closeDelta env (snapshot.within mine) command plan =
      closeDelta env snapshot command plan := by
  rw [closeDelta, closeDelta, closeLegs_within isMine]

theorem closeDelta_own : ∀ d ∈ closeDelta env snapshot command plan, mine d.tenantId = true :=
  groupDeltas_own isMine _

theorem closeWrites_within :
    closeWrites env (snapshot.within mine) (current.within mine) command hash payload plan =
      closeWrites env snapshot current command hash payload plan := by
  simp only [closeWrites, closeDelta_within isMine, closeLegs_within isMine,
    striped_within _ (closeDelta_own isMine), balance_within (striped_own (closeDelta_own isMine))]

theorem closeWrites_own :
    (closeWrites env snapshot current command hash payload plan).Within mine where
  events := fun row member => by
    rw [List.mem_singleton.mp member]
    exact isMine
  transactions := fun row member => by
    rw [List.mem_singleton.mp member]
    exact isMine
  accounts := fun _ member => absurd member List.not_mem_nil
  upserts := striped_own (closeDelta_own isMine)
  entries := entry_own fun row member => by
    obtain ⟨numbered, _, rfl⟩ := List.mem_map.mp member
    exact isMine
  periods := fun _ member => absurd member List.not_mem_nil
  closes := fun row member => by
    rw [List.mem_singleton.mp member]
    exact isMine
  periodBalances := fun _ member => absurd member List.not_mem_nil

theorem claimAndClosePeriod_within :
    claimAndClosePeriod env (snapshot.within mine) (current.within mine) command hash payload
        plan =
      claimAndClosePeriod env snapshot current command hash payload plan := by
  simp only [claimAndClosePeriod, closeCasts, Book.holderOf_within current isMine,
    sweptBy_within isMine, closeDelta_within isMine, closeWrites_within isMine,
    violation_within env.tzKnown current (closeWrites_own isMine)]

theorem checkpointRows_within (transactionId : Uuid) (cursor : Xid) :
    checkpointRows (snapshot.within mine) command plan transactionId cursor =
      checkpointRows snapshot command plan transactionId cursor := by
  have admits : checkpointAdmits (snapshot.within mine) command.tenantId command.currency
      plan.endsAt cursor transactionId =
        checkpointAdmits snapshot command.tenantId command.currency plan.endsAt cursor
          transactionId := by
    funext e
    by_cases tenant : e.tenantId = command.tenantId
    · have ofMine : mine e.tenantId = true := by
        rw [tenant]
        exact isMine
      rw [checkpointAdmits, checkpointAdmits, Book.isPosted_within snapshot ofMine]
    · simp [checkpointAdmits, tenant]
  have ofTenant : ∀ e : EntryRow, checkpointAdmits snapshot command.tenantId command.currency
      plan.endsAt cursor transactionId e = true → mine e.tenantId = true := by
    intro e holds
    simp only [checkpointAdmits, Bool.and_eq_true, decide_eq_true_eq] at holds
    rw [holds.1.1.1.1]
    exact isMine
  have sums : ∀ accountId direction, Tally.sumWhere (fun e =>
        checkpointAdmits snapshot command.tenantId command.currency plan.endsAt cursor
          transactionId e && decide (e.accountId = accountId) &&
            decide (e.direction = direction)) EntryRow.amountMinor
          (snapshot.within mine).entries =
      Tally.sumWhere (fun e =>
        checkpointAdmits snapshot command.tenantId command.currency plan.endsAt cursor
          transactionId e && decide (e.accountId = accountId) &&
            decide (e.direction = direction)) EntryRow.amountMinor snapshot.entries :=
    fun accountId direction => Fence.sumWhere_within (fun e holds => by
      simp only [Bool.and_eq_true] at holds
      exact ofTenant e holds.1.1) _ _
  have entries : (snapshot.within mine).entries.filter (checkpointAdmits snapshot
        command.tenantId command.currency plan.endsAt cursor transactionId) =
      snapshot.entries.filter (checkpointAdmits snapshot command.tenantId command.currency
        plan.endsAt cursor transactionId) :=
    Fence.filter_within ofTenant _
  simp only [checkpointRows, admits, sums, entries]

theorem checkpointRows_own (transactionId : Uuid) (cursor : Xid) :
    Writes.Within mine
      { periodBalances := checkpointRows snapshot command plan transactionId cursor } := by
  constructor
  case periodBalances =>
    intro row member
    obtain ⟨accountId, _, rfl⟩ := List.mem_map.mp member
    exact isMine
  all_goals exact fun _ member => absurd member List.not_mem_nil

theorem checkpointTheClose_within (transactionId : Uuid) (cursor : Xid) :
    checkpointTheClose env (snapshot.within mine) (current.within mine) command plan
        transactionId cursor =
      checkpointTheClose env snapshot current command plan transactionId cursor := by
  simp only [checkpointTheClose, checkpointRows_within isMine,
    violation_within env.tzKnown current (checkpointRows_own isMine transactionId cursor)]

end

theorem storedClose_within (isMine : mine command.tenantId = true) (book : Book) :
    storedClose (book.within mine) command hash = storedClose book command hash :=
  replay_within isMine book _ hash fun _ _ => rfl

end Closing

/-! ## The batched call -/

section Batched

variable {members : List BatchMember} (own : ∀ m ∈ members, mine m.command.tenantId = true)

include own

theorem member_own : ∀ m ∈ member members, mine m.tenantId = true := by
  intro m isThere
  obtain ⟨batchMember, isMember, isRow⟩ := mem_member isThere
  rw [isRow]
  exact own batchMember (Numbering.mem_of_mem_withOrdinality isMember)

theorem memberDelta_own : ∀ row ∈ memberDelta members, mine row.delta.tenantId = true := by
  intro row isThere
  obtain ⟨m, isMember, inDeltas⟩ := List.mem_flatMap.mp isThere
  obtain ⟨delta, isDelta, rfl⟩ := List.mem_map.mp inDeltas
  exact groupDeltas_own (own m.2 (Numbering.mem_of_mem_withOrdinality isMember)) _ delta isDelta

theorem accountMissing_within {row : MemberDeltaRow} (isThere : row ∈ memberDelta members) :
    accountMissing (snapshot.within mine) row.delta = accountMissing snapshot row.delta := by
  rw [accountMissing, accountMissing,
    Book.account?_within snapshot (memberDelta_own own row isThere)]

theorem admissible_within (ord : Nat) :
    admissible (snapshot.within mine) members ord = admissible snapshot members ord := by
  have all : ((memberDelta members).filter fun row => decide (row.ord = ord)).all
        (fun row => !accountMissing (snapshot.within mine) row.delta) =
      ((memberDelta members).filter fun row => decide (row.ord = ord)).all
        fun row => !accountMissing snapshot row.delta := by
    rw [Bool.eq_iff_iff, List.all_eq_true, List.all_eq_true]
    refine forall₂_congr fun row member => ?_
    rw [accountMissing_within own (List.mem_filter.mp member).1]
  simp only [admissible, all]

theorem unknownAccount_within (ord : Nat) :
    unknownAccount (snapshot.within mine) members ord = unknownAccount snapshot members ord := by
  have missing : (memberDelta members).filter (fun row =>
        decide (row.ord = ord) && accountMissing (snapshot.within mine) row.delta) =
      (memberDelta members).filter fun row =>
        decide (row.ord = ord) && accountMissing snapshot row.delta :=
    List.filter_congr fun row isThere => by rw [accountMissing_within own isThere]
  rw [unknownAccount, unknownAccount, missing]

theorem keyHeldByAnEarlierWrite_within {m : MemberRow} (isThere : m ∈ member members) :
    keyHeldByAnEarlierWrite (snapshot.within mine) members m =
      keyHeldByAnEarlierWrite snapshot members m := by
  rw [keyHeldByAnEarlierWrite, keyHeldByAnEarlierWrite, admissible_within own,
    Book.holderOf_within snapshot (member_own own m isThere)]

theorem claimed_within :
    claimed env (snapshot.within mine) (current.within mine) members =
      claimed env snapshot current members := by
  have folded : ∀ (rest : List MemberRow) (events : List EventRow),
      (∀ m ∈ rest, mine m.tenantId = true) →
        rest.foldl (claimNext env (snapshot.within mine) (current.within mine) members)
            events =
          rest.foldl (claimNext env snapshot current members) events := by
    intro rest
    induction rest with
    | nil =>
        intro events _
        rfl
    | cons m rest inductionHypothesis =>
        intro events ofMine
        have next : claimNext env (snapshot.within mine) (current.within mine) members events m =
            claimNext env snapshot current members events m := by
          simp only [claimNext, admissible_within own,
            Book.holderOf_within current (ofMine m List.mem_cons_self)]
        rw [List.foldl_cons, List.foldl_cons, next,
          inductionHypothesis _ fun other member => ofMine other (List.mem_cons_of_mem _ member)]
  exact folded _ [] (member_own own)

theorem proceeding_within :
    proceeding env (snapshot.within mine) (current.within mine) members =
      proceeding env snapshot current members := by
  simp only [proceeding, claimed_within own]

theorem proceeding_own :
    ∀ row ∈ proceeding env snapshot current members, mine row.tenantId = true := by
  intro row isThere
  obtain ⟨m, isMember, _, _, rfl⟩ := mem_proceeding.mp isThere
  exact member_own own m isMember

theorem batchDelta_own (rows : List ProceedingRow) :
    ∀ d ∈ batchDelta members rows, mine d.tenantId = true := by
  intro d isThere
  have inKeys : d.tenantKey ∈ (batchDelta members rows).map DeltaRow.tenantKey :=
    List.mem_map_of_mem isThere
  rw [batchDelta_keys, List.mem_dedup, List.mem_map] at inKeys
  obtain ⟨other, isOther, sameKey⟩ := inKeys
  obtain ⟨row, isRow, rfl⟩ := List.mem_map.mp isOther
  have sameTenant : row.delta.tenantId = d.tenantId := congrArg Prod.fst sameKey
  rw [← sameTenant]
  exact memberDelta_own own row (List.mem_filter.mp isRow).1

theorem numbered_own (rows : List ProceedingRow) (upserts : List UpsertRow) :
    ∀ row ∈ numbered members rows upserts, mine row.tenantId = true := by
  intro row isThere
  obtain ⟨sorted, permutation, isNumbered⟩ := numbered_eq members rows upserts
  rw [isNumbered] at isThere
  obtain ⟨numberedRow, inZip, rfl⟩ := List.mem_map.mp isThere
  have isLeg := permutation.mem_iff.mp (List.of_mem_zip inZip).1
  obtain ⟨ml, isMemberLeg, joined⟩ := List.mem_filterMap.mp isLeg
  obtain ⟨p, _, onStripe⟩ := Option.bind_eq_some_iff.mp joined
  obtain ⟨s, _, isRow⟩ := Option.map_eq_some_iff.mp onStripe
  obtain ⟨m, isMember, inLegs⟩ := List.mem_flatMap.mp isMemberLeg
  obtain ⟨leg, _, rfl⟩ := List.mem_map.mp inLegs
  rw [← isRow]
  exact own m.2 (Numbering.mem_of_mem_withOrdinality isMember)

theorem batchWrites_within :
    batchWrites env (snapshot.within mine) (current.within mine) members =
      batchWrites env snapshot current members := by
  simp only [batchWrites, proceeding_within own, claimed_within own,
    striped_within _ (batchDelta_own own _), balance_within (striped_own (batchDelta_own own _))]

theorem batchWrites_own : (batchWrites env snapshot current members).Within mine where
  events := fun row isThere => by
    obtain ⟨m, isMember, _, _, rfl⟩ := claimed_spec.1 row isThere
    exact member_own own m isMember
  transactions := fun row isThere => by
    obtain ⟨p, isProceeding, rfl⟩ := List.mem_map.mp isThere
    exact proceeding_own own p isProceeding
  accounts := fun _ member => absurd member List.not_mem_nil
  upserts := striped_own (batchDelta_own own _)
  entries := entry_own (numbered_own own _ _)
  periods := fun _ member => absurd member List.not_mem_nil
  closes := fun _ member => absurd member List.not_mem_nil
  periodBalances := fun _ member => absurd member List.not_mem_nil

theorem batchRows_within :
    batchRows env (snapshot.within mine) (current.within mine) members =
      batchRows env snapshot current members := by
  refine List.map_congr_left fun m isThere => ?_
  simp only [unknownAccount_within own, claimed_within own, proceeding_within own,
    admissible_within own, keyHeldByAnEarlierWrite_within own isThere]

theorem claimAndAppendBatch_within :
    claimAndAppendBatch env (snapshot.within mine) (current.within mine) members =
      claimAndAppendBatch env snapshot current members := by
  have same : claimAndAppendBatchStatement env (snapshot.within mine) (current.within mine)
      members = claimAndAppendBatchStatement env snapshot current members := by
    simp only [claimAndAppendBatchStatement, admissible_within own, proceeding_within own,
      batchWrites_within own, batchRows_within own,
      violation_within env.tzKnown current (batchWrites_own own)]
  rw [claimAndAppendBatch, claimAndAppendBatch, same]

theorem storedResultBatch_within (book : Book) :
    storedResultBatch (book.within mine) members = storedResultBatch book members :=
  List.map_congr_left fun m isThere => storedResult_within (own m isThere) book _ _

end Batched

/-! ## Every statement -/

/-- A statement about some tenants answers and writes from their rows what it does
from all. -/
theorem statement_within {request : Request} (isWithin : request.Within mine) :
    statement env (snapshot.within mine) (current.within mine) request =
      statement env snapshot current request := by
  cases request with
  | begin => rfl
  | claimAndAppend command hash payload append => exact claimAndAppend_within isWithin
  | claimAndAppendBatch members => exact claimAndAppendBatch_within isWithin
  | storedResult command hash => rw [statement, statement, storedResult_within isWithin]
  | storedResultBatch members => rw [statement, statement, storedResultBatch_within isWithin]
  | chartTripleForPurpose purpose => rfl
  | claimAndOpenAccount command hash payload triple =>
      exact claimAndOpenAccount_within isWithin triple
  | storedAccount command hash => rw [statement, statement, storedAccount_within isWithin]
  | claimAndDefinePeriod command hash payload => exact claimAndDefinePeriod_within isWithin
  | storedPeriod command hash => rw [statement, statement, storedPeriod_within isWithin]
  | periodCloseContext command => rw [statement, statement, periodCloseContext_within isWithin]
  | claimAndClosePeriod command hash payload plan => exact claimAndClosePeriod_within isWithin
  | checkpointTheClose command plan transactionId computedAtXid =>
      exact checkpointTheClose_within isWithin transactionId computedAtXid
  | storedClose command hash => rw [statement, statement, storedClose_within isWithin]
  | commit => rfl
  | rollback => rfl

/-- A statement about some tenants writes their rows only. -/
theorem statement_own {request : Request} (isWithin : request.Within mine) :
    (statement env snapshot current request).2.Within mine := by
  cases request with
  | claimAndAppend command hash payload append =>
      rcases @claimAndAppend_wrote env snapshot current hash payload command append with
        same | same
      · exact same ▸ Writes.Within.none
      · exact same ▸ appendWrites_own isWithin
  | claimAndAppendBatch members =>
      rcases @claimAndAppendBatch_wrote env snapshot current members with same | same
      · exact same ▸ Writes.Within.none
      · exact same ▸ batchWrites_own isWithin
  | claimAndOpenAccount command hash payload triple =>
      rcases @claimAndOpenAccount_wrote env current hash payload command triple with same | same
      · exact same ▸ Writes.Within.none
      · exact same ▸ openWrites_own isWithin triple
  | claimAndDefinePeriod command hash payload =>
      rcases @claimAndDefinePeriod_wrote env current hash payload command with same | same
      · exact same ▸ Writes.Within.none
      · exact same ▸ defineWrites_own isWithin
  | claimAndClosePeriod command hash payload plan =>
      rcases @claimAndClosePeriod_wrote env snapshot current hash payload command plan with
        same | same
      · exact same ▸ Writes.Within.none
      · exact same ▸ closeWrites_own isWithin
  | checkpointTheClose command plan transactionId cursor =>
      change (checkpointTheClose env snapshot current command plan transactionId cursor).2.Within
        mine
      unfold checkpointTheClose
      dsimp only
      split
      · exact Writes.Within.none
      · exact checkpointRows_own isWithin transactionId cursor
  | _ => exact Writes.Within.none

end OpenLedger.Postgres
