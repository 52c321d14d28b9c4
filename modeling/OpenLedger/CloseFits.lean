import OpenLedger.Closing
import OpenLedger.DerivedKey

/-!
# Where a close stays in range

Each balance row is a `bigint` of its own, while a close adds across an account's
stripes, across the swept accounts, and onto the sums it stores.  What it does to each
side of each account is said here in terms of the entries alone, and with it exactly
when no sum of the close leaves the range.
-/

namespace OpenLedger

open Postgres

/-- The part of a debit-positive amount that is on one side. -/
def Direction.part : Direction → Int → Int
  | .debit, amount => max amount 0
  | .credit, amount => max (-amount) 0

theorem Direction.part_nonneg (direction : Direction) (amount : Int) :
    0 ≤ direction.part amount := by
  cases direction <;> exact le_max_right _ _

@[simp]
theorem Direction.part_zero (direction : Direction) : direction.part 0 = 0 := by
  cases direction <;> rfl

/-- One side of a leg is that part of what it moves. -/
theorem on_leg {l : Leg} (nonneg : 0 ≤ l.amountMinor) (direction : Direction) :
    (if l.direction = direction then l.amountMinor else 0) = direction.part (legSigned l) := by
  cases isSide : l.direction <;> cases direction <;>
    simp [legSigned, isSide, Direction.part, nonneg]

namespace Book

variable (book : Book) (tenantId currency : String) (endsAt : Timestamp)
  (retainedEarnings : Uuid)

/-- The accounts a close into a destination sweeps. -/
def sweptAccounts : List Uuid :=
  (book.accounts.filter fun account =>
    decide (account.tenantId = tenantId) && decide (account.currency = currency) &&
      account.category.isTemporary && decide (account.id ≠ retainedEarnings)).map AccountRow.id

/-- What a close adds to one side of an account: a swept account's position taken off
it, and all of them on retained earnings. -/
def closingSide (direction : Direction) (accountId : Uuid) : Int :=
  if accountId = retainedEarnings then
    ((book.sweptAccounts tenantId currency retainedEarnings).map fun swept =>
      direction.part (book.positionBefore tenantId currency endsAt swept)).sum
  else if book.sweeps tenantId currency retainedEarnings accountId then
    direction.part (-book.positionBefore tenantId currency endsAt accountId)
  else 0

/-- How many legs it adds. -/
def closingLegs (accountId : Uuid) : Nat :=
  if accountId = retainedEarnings then
    ((book.sweptAccounts tenantId currency retainedEarnings).filter fun swept =>
      decide (book.positionBefore tenantId currency endsAt swept ≠ 0)).length
  else if book.sweeps tenantId currency retainedEarnings accountId ∧
      book.positionBefore tenantId currency endsAt accountId ≠ 0 then 1
  else 0

end Book

/-- The counter an account's legs are numbered by under an affinity. -/
def AccountRow.stripeOn (account : AccountRow) (affinity : Nat) : StripeKey :=
  ⟨account.tenantId, account.id, account.currency, affinity % account.stripeCount⟩

/-- The sums of a close are in range: on every account the gross sums it stores, and
on every counter it advances the row it leaves. -/
structure CloseFits (book : Book) (affinity : Nat) (tenantId currency : String)
    (endsAt : Timestamp) (retainedEarnings : Uuid) : Prop where
  sums : ∀ account ∈ book.accounts, account.tenantId = tenantId → account.currency = currency →
    ∀ direction, isBigint (book.grossBefore tenantId currency endsAt direction account.id +
      book.closingSide tenantId currency endsAt retainedEarnings direction account.id) = true
  counters : ∀ account ∈ book.accounts, account.tenantId = tenantId →
    account.currency = currency →
      book.closingLegs tenantId currency endsAt retainedEarnings account.id ≠ 0 →
        isBigint (book.inputOn (account.stripeOn affinity) +
          book.closingSide tenantId currency endsAt retainedEarnings .debit account.id) = true ∧
        isBigint (book.outputOn (account.stripeOn affinity) +
          book.closingSide tenantId currency endsAt retainedEarnings .credit account.id) = true ∧
        isBigint (book.lastSeqOn (account.stripeOn affinity) +
          book.closingLegs tenantId currency endsAt retainedEarnings account.id) = true

section Sweep

variable {book : Book} {tenantId currency : String} {endsAt : Timestamp}
  {retainedEarnings : Uuid} {cursor : Xid}

theorem mem_sweptAccounts (kept : Kept book) {accountId : Uuid} :
    accountId ∈ book.sweptAccounts tenantId currency retainedEarnings ↔
      book.sweeps tenantId currency retainedEarnings accountId = true := by
  rw [Book.sweptAccounts, Book.sweeps, Book.isTemporaryAccount, Bool.and_eq_true,
    Option.any_eq_true, decide_eq_true_eq]
  constructor
  · intro listed
    obtain ⟨account, member, rfl⟩ := List.mem_map.mp listed
    obtain ⟨isThere, admits⟩ := List.mem_filter.mp member
    simp only [Bool.and_eq_true, decide_eq_true_eq] at admits
    obtain ⟨⟨⟨rfl, rfl⟩, temporary⟩, apart⟩ := admits
    exact ⟨⟨account, account?_of_mem kept isThere, temporary⟩, apart⟩
  · rintro ⟨⟨account, found, temporary⟩, apart⟩
    obtain ⟨isThere, ofTenant, rfl, ofCurrency⟩ := account?_spec found
    refine List.mem_map.mpr ⟨account, List.mem_filter.mpr ⟨isThere, ?_⟩, rfl⟩
    simp [ofTenant, ofCurrency, temporary, apart]

theorem sweptAccounts_nodup (kept : Kept book) :
    (book.sweptAccounts tenantId currency retainedEarnings).Nodup := by
  refine @accountIds_of_scope book tenantId kept _ fun account chosen => ?_
  simp only [Bool.and_eq_true, decide_eq_true_eq] at chosen
  exact chosen.1.1.1

/-- The swept positions are those of the accounts a close sweeps that have one. -/
theorem swept_perm (kept : Kept book) (below : ∀ e ∈ book.entries, e.xactId < cursor) :
    (position book tenantId currency endsAt retainedEarnings cursor).Perm
      (((book.sweptAccounts tenantId currency retainedEarnings).filter fun accountId =>
        decide (book.positionBefore tenantId currency endsAt accountId ≠ 0)).map
          fun accountId => ⟨accountId,
            book.positionBefore tenantId currency endsAt accountId⟩) := by
  have covers : ∀ accountId,
      netOf book tenantId currency endsAt retainedEarnings cursor accountId ≠ 0 →
        accountId ∈ book.sweptAccounts tenantId currency retainedEarnings := by
    intro accountId hasNet
    rw [netOf_eq below] at hasNet
    rw [mem_sweptAccounts kept]
    by_contra unswept
    rw [if_neg unswept] at hasNet
    exact hasNet rfl
  have isNet : ∀ accountId ∈ book.sweptAccounts tenantId currency retainedEarnings,
      netOf book tenantId currency endsAt retainedEarnings cursor accountId =
        book.positionBefore tenantId currency endsAt accountId := by
    intro accountId listed
    rw [netOf_eq below, if_pos ((mem_sweptAccounts kept).mp listed)]
  refine (position_perm (sweptAccounts_nodup kept) covers).trans (List.Perm.of_eq ?_)
  rw [List.filter_congr fun accountId listed => by rw [isNet accountId listed]]
  refine List.map_congr_left fun accountId listed => ?_
  rw [isNet accountId (List.mem_filter.mp listed).1]

/-- A sum over the swept positions is one over the accounts a close sweeps. -/
theorem sum_position (kept : Kept book) (below : ∀ e ∈ book.entries, e.xactId < cursor)
    (value : Int → Int) (zero : value 0 = 0) :
    ((position book tenantId currency endsAt retainedEarnings cursor).map fun p =>
        value p.positionMinor).sum =
      ((book.sweptAccounts tenantId currency retainedEarnings).map fun accountId =>
        value (book.positionBefore tenantId currency endsAt accountId)).sum := by
  have nodup : (book.sweptAccounts tenantId currency retainedEarnings).Nodup :=
    sweptAccounts_nodup kept
  rw [((swept_perm kept below).map _).sum_eq, List.map_map]
  refine Tally.sum_map_support (nodup.filter _) nodup (fun accountId =>
    value (book.positionBefore tenantId currency endsAt accountId)) fun accountId nonZero => ?_
  rw [List.mem_filter, decide_eq_true_eq]
  exact and_iff_left fun noPosition => nonZero ((congrArg value noPosition).trans zero)

/-- As many positions are swept as those accounts have. -/
theorem length_position (kept : Kept book) (below : ∀ e ∈ book.entries, e.xactId < cursor) :
    (position book tenantId currency endsAt retainedEarnings cursor).length =
      ((book.sweptAccounts tenantId currency retainedEarnings).filter fun accountId =>
        decide (book.positionBefore tenantId currency endsAt accountId ≠ 0)).length := by
  rw [(swept_perm kept below).length_eq, List.length_map]

/-- On each account a close adds one side of what it moves there. -/
theorem sideSum_leg (direction : Direction) (accountId : Uuid) (positions : List SweptPosition) :
    sideSum direction (toLex (accountId, currency))
        ((leg currency retainedEarnings positions).map Prod.fst) =
      Tally.sumWhere (fun p : SweptPosition => decide (p.accountId = accountId))
          (fun p => direction.part (-p.positionMinor)) positions +
        if accountId = retainedEarnings then
          (positions.map fun p => direction.part p.positionMinor).sum
        else 0 := by
  have byPart : ∀ legs : List Leg, (∀ l ∈ legs, 0 ≤ l.amountMinor) →
      sideSum direction (toLex (accountId, currency)) legs =
        Tally.sumWhere (fun l : Leg => decide (l.key = toLex (accountId, currency)))
          (fun l => direction.part (legSigned l)) legs := by
    intro legs nonneg
    rw [sideSum, Tally.sumWhere_and]
    refine Tally.sumWhere_congr (fun _ _ => rfl) fun l member _ => ?_
    rw [← on_leg (nonneg l member) direction]
    simp only [decide_eq_true_eq]
  have nonneg : ∀ l ∈ positions.map (legOut currency) ++
      positions.map (legIn currency retainedEarnings), 0 ≤ l.amountMinor := by
    intro l isLeg
    rcases List.mem_append.mp isLeg with isOut | isIn
    · obtain ⟨p, _, rfl⟩ := List.mem_map.mp isOut
      exact abs_nonneg _
    · obtain ⟨p, _, rfl⟩ := List.mem_map.mp isIn
      exact abs_nonneg _
  have perm := leg_perm currency retainedEarnings positions
  rw [byPart _ fun l isLeg => nonneg l (perm.mem_iff.mp isLeg), Tally.sumWhere_perm perm,
    Tally.sumWhere_append, Tally.sumWhere_map, Tally.sumWhere_map]
  congr 1
  · refine Tally.sumWhere_congr (fun p _ => ?_) fun p _ _ => by rw [legSigned_legOut]
    simp [legOut, Leg.key]
  · by_cases same : accountId = retainedEarnings
    · rw [if_pos same, Tally.sumWhere_eq_sum_map]
      refine congrArg List.sum (List.map_congr_left fun p _ => ?_)
      rw [legSigned_legIn, if_pos]
      simp [legIn, Leg.key, same]
    · rw [if_neg same]
      refine Tally.sumWhere_eq_zero fun p _ => ?_
      simpa [legIn, Leg.key] using Ne.symm same

/-- What a sweep adds to one side of an account. -/
theorem sideSum_position (kept : Kept book) (below : ∀ e ∈ book.entries, e.xactId < cursor)
    (direction : Direction) (accountId : Uuid) :
    sideSum direction (toLex (accountId, currency)) ((leg currency retainedEarnings
        (position book tenantId currency endsAt retainedEarnings cursor)).map Prod.fst) =
      book.closingSide tenantId currency endsAt retainedEarnings direction accountId := by
  rw [sideSum_leg, sumWhere_position_of (fun amount => direction.part (-amount)) (by simp),
    netOf_eq below, sum_position kept below direction.part direction.part_zero, Book.closingSide]
  by_cases same : accountId = retainedEarnings
  · rw [if_pos same, if_pos same, if_neg (by simp [Book.sweeps, same])]
    simp
  · rw [if_neg same, if_neg same]
    split <;> simp

theorem legCount_leg (accountId : Uuid) (positions : List SweptPosition) :
    legCount (toLex (accountId, currency))
        ((leg currency retainedEarnings positions).map Prod.fst) =
      (positions.map SweptPosition.accountId).count accountId +
        if accountId = retainedEarnings then positions.length else 0 := by
  rw [legCount, (leg_perm currency retainedEarnings positions).countP_eq, List.countP_append,
    List.countP_map, List.countP_map, List.count_eq_countP, List.countP_map]
  congr 1
  · refine List.countP_congr fun p _ => ?_
    rw [Function.comp_apply, Function.comp_apply, decide_eq_true_eq, beq_iff_eq]
    simp [legOut, Leg.key]
  · by_cases same : accountId = retainedEarnings
    · rw [if_pos same, List.countP_eq_length]
      intro p _
      simp [legIn, Leg.key, same]
    · rw [if_neg same, List.countP_eq_zero]
      intro p _ onAccount
      have sameKey := of_decide_eq_true onAccount
      simp only [legIn, Leg.key, EmbeddingLike.apply_eq_iff_eq, Prod.mk.injEq] at sameKey
      exact same sameKey.1.symm

/-- How many legs it adds. -/
theorem legCount_position (kept : Kept book) (below : ∀ e ∈ book.entries, e.xactId < cursor)
    (accountId : Uuid) :
    legCount (toLex (accountId, currency)) ((leg currency retainedEarnings
        (position book tenantId currency endsAt retainedEarnings cursor)).map Prod.fst) =
      book.closingLegs tenantId currency endsAt retainedEarnings accountId := by
  have isSwept : accountId ∈ (position book tenantId currency endsAt retainedEarnings
      cursor).map SweptPosition.accountId ↔
        book.sweeps tenantId currency retainedEarnings accountId = true ∧
          book.positionBefore tenantId currency endsAt accountId ≠ 0 := by
    rw [((swept_perm kept below).map _).mem_iff, List.map_map]
    have isId : (SweptPosition.accountId ∘ fun accountId : Uuid => (⟨accountId,
        book.positionBefore tenantId currency endsAt accountId⟩ : SweptPosition)) = id := rfl
    rw [isId, List.map_id, List.mem_filter, mem_sweptAccounts kept, decide_eq_true_eq]
  rw [legCount_leg, position_nodup.count, length_position kept below, Book.closingLegs]
  by_cases same : accountId = retainedEarnings
  · have unswept : book.sweeps tenantId currency retainedEarnings accountId = false := by
      simp [Book.sweeps, same]
    rw [if_pos same, if_pos same, if_neg fun member => ?_, zero_add]
    rw [isSwept, unswept] at member
    exact Bool.false_ne_true member.1
  · rw [if_neg same, if_neg same, add_zero, if_congr isSwept rfl rfl]

end Sweep

section Statements

variable {env : Env} {book : Book} {command : ClosePeriod} {plan : ClosePlan}

/-- A close's delta on an account: what it adds there. -/
def closeDeltaOn (book : Book) (command : ClosePeriod) (plan : ClosePlan) (accountId : Uuid) :
    DeltaRow where
  tenantId := command.tenantId
  accountId := accountId
  currency := command.currency
  input := book.closingSide command.tenantId command.currency plan.endsAt plan.retainedEarnings
    .debit accountId
  output := book.closingSide command.tenantId command.currency plan.endsAt plan.retainedEarnings
    .credit accountId
  legs := book.closingLegs command.tenantId command.currency plan.endsAt plan.retainedEarnings
    accountId

theorem mem_closeDelta (kept : Kept book) (below : ∀ e ∈ book.entries, e.xactId < env.xid)
    {delta : DeltaRow} :
    delta ∈ closeDelta env book command plan ↔
      ∃ accountId, book.closingLegs command.tenantId command.currency plan.endsAt
          plan.retainedEarnings accountId ≠ 0 ∧
        delta = closeDeltaOn book command plan accountId := by
  have isDelta : ∀ accountId,
      (⟨command.tenantId, accountId, command.currency,
        sideSum .debit (toLex (accountId, command.currency))
          ((closeLegs env book command plan).map Prod.fst),
        sideSum .credit (toLex (accountId, command.currency))
          ((closeLegs env book command plan).map Prod.fst),
        legCount (toLex (accountId, command.currency))
          ((closeLegs env book command plan).map Prod.fst)⟩ : DeltaRow) =
        closeDeltaOn book command plan accountId := by
    intro accountId
    rw [closeLegs, sweptBy, sideSum_position kept below, sideSum_position kept below,
      legCount_position kept below]
    rfl
  rw [closeDelta, groupDeltas, List.mem_map]
  constructor
  · rintro ⟨key, isKey, rfl⟩
    obtain ⟨l, isLeg, rfl⟩ := List.mem_map.mp (List.mem_dedup.mp isKey)
    obtain ⟨ofCurrency, _⟩ := leg_account isLeg
    have sameKey : l.key = toLex (l.accountId, command.currency) := by
      rw [Leg.key, ofCurrency]
    refine ⟨l.accountId, ?_, ?_⟩
    · rw [← legCount_position kept below]
      exact (List.countP_pos_iff.mpr ⟨l, isLeg, decide_eq_true sameKey⟩).ne'
    · rw [sameKey]
      exact isDelta l.accountId
  · rintro ⟨accountId, hasLegs, rfl⟩
    rw [← legCount_position kept below] at hasLegs
    obtain ⟨l, isLeg, onKey⟩ := List.countP_pos_iff.mp (Nat.pos_of_ne_zero hasLegs)
    refine ⟨toLex (accountId, command.currency), List.mem_dedup.mpr ?_, isDelta accountId⟩
    rw [← of_decide_eq_true onKey]
    exact List.mem_map_of_mem isLeg

/-- The balance rows a close upserts. -/
theorem mem_closeUpserts (kept : Kept book) (below : ∀ e ∈ book.entries, e.xactId < env.xid)
    {upsert : UpsertRow} :
    upsert ∈ striped book env.stripeAffinity (closeDelta env book command plan) ↔
      ∃ account ∈ book.accounts, account.tenantId = command.tenantId ∧
        account.currency = command.currency ∧
        book.closingLegs command.tenantId command.currency plan.endsAt plan.retainedEarnings
          account.id ≠ 0 ∧
        upsert = (closeDeltaOn book command plan account.id).onStripeOf env.stripeAffinity
          account := by
  rw [mem_striped]
  constructor
  · rintro ⟨delta, isDelta, joined⟩
    obtain ⟨accountId, hasLegs, rfl⟩ := (mem_closeDelta kept below).mp isDelta
    obtain ⟨account, found, rfl⟩ := Option.map_eq_some_iff.mp joined
    obtain ⟨isThere, ofTenant, isId, ofCurrency⟩ := account?_spec found
    have isId : account.id = accountId := isId
    rw [← isId] at hasLegs ⊢
    exact ⟨account, isThere, ofTenant, ofCurrency, hasLegs, rfl⟩
  · rintro ⟨account, isThere, ofTenant, ofCurrency, hasLegs, rfl⟩
    refine ⟨_, (mem_closeDelta kept below).mpr ⟨account.id, hasLegs, rfl⟩, ?_⟩
    have found := account?_of_mem kept isThere
    rw [ofTenant, ofCurrency] at found
    rw [DeltaRow.joined, closeDeltaOn, found]
    rfl

/-- A close's legs are on known accounts of the currency. -/
theorem known_of_closingLegs (fits : PlanFits book command plan) {accountId : Uuid}
    (hasLegs : book.closingLegs command.tenantId command.currency plan.endsAt
      plan.retainedEarnings accountId ≠ 0) :
    ∃ account ∈ book.accounts, account.tenantId = command.tenantId ∧
      account.currency = command.currency ∧ account.id = accountId := by
  rw [Book.closingLegs] at hasLegs
  split at hasLegs
  · rename_i isDestination
    obtain ⟨account, isThere, tenant, id, _, _, held⟩ := fits.destination
    exact ⟨account, isThere, tenant, held, id.trans isDestination.symm⟩
  · split at hasLegs
    · rename_i isSwept
      have temporary := (Bool.and_eq_true_iff.mp isSwept.1).1
      obtain ⟨account, found, _⟩ := (Option.any_eq_true _ _).mp temporary
      obtain ⟨isThere, tenant, id, held⟩ := account?_spec found
      exact ⟨account, isThere, tenant, held, id⟩
    · exact absurd rfl hasLegs

theorem grossBefore_nonneg (kept : Kept book) (tenantId currency : String) (instant : Timestamp)
    (direction : Direction) (accountId : Uuid) :
    0 ≤ book.grossBefore tenantId currency instant direction accountId := by
  refine Tally.sumWhere_nonneg fun e member _ => ?_
  have positive := kept.positive e member
  rw [EntryRow.on]
  split
  · exact positive.le
  · exact le_rfl

theorem closingSide_nonneg (book : Book) (tenantId currency : String) (endsAt : Timestamp)
    (retainedEarnings : Uuid) (direction : Direction) (accountId : Uuid) :
    0 ≤ book.closingSide tenantId currency endsAt retainedEarnings direction accountId := by
  rw [Book.closingSide]
  split
  · refine List.sum_nonneg fun value member => ?_
    obtain ⟨swept, _, rfl⟩ := List.mem_map.mp member
    exact direction.part_nonneg _
  · split
    · exact direction.part_nonneg _
    · exact le_rfl

/-- A swept position is on an account of its own, off which the close takes it. -/
theorem of_mem_sweptBy (kept : Kept book) (below : ∀ e ∈ book.entries, e.xactId < env.xid)
    {p : SweptPosition} (member : p ∈ sweptBy env book command plan) :
    book.closingLegs command.tenantId command.currency plan.endsAt plan.retainedEarnings
        p.accountId ≠ 0 ∧
      ∀ direction, book.closingSide command.tenantId command.currency plan.endsAt
        plan.retainedEarnings direction p.accountId = direction.part (-p.positionMinor) := by
  have apart := sweptBy_apart member
  obtain ⟨accountId, listed, rfl⟩ := List.mem_map.mp ((swept_perm kept below).mem_iff.mp member)
  obtain ⟨isSwept, nonZero⟩ := List.mem_filter.mp listed
  have sweeps := (mem_sweptAccounts kept).mp isSwept
  constructor
  · rw [Book.closingLegs, if_neg apart, if_pos ⟨sweeps, of_decide_eq_true nonZero⟩]
    exact one_ne_zero
  · intro direction
    rw [Book.closingSide, if_neg apart, if_pos sweeps]

/-- Where the stored sums are in range, so is what the close adds. -/
theorem CloseFits.added (closeFits : CloseFits book env.stripeAffinity command.tenantId
      command.currency plan.endsAt plan.retainedEarnings) (kept : Kept book)
    (fits : PlanFits book command plan) {accountId : Uuid}
    (hasLegs : book.closingLegs command.tenantId command.currency plan.endsAt
      plan.retainedEarnings accountId ≠ 0) (direction : Direction) :
    book.closingSide command.tenantId command.currency plan.endsAt plan.retainedEarnings
      direction accountId ≤ i64Max := by
  obtain ⟨account, isThere, tenant, currency, rfl⟩ := known_of_closingLegs fits hasLegs
  have stored := closeFits.sums account isThere tenant currency direction
  have gross := grossBefore_nonneg kept command.tenantId command.currency plan.endsAt direction
    account.id
  rw [isBigint, Bool.and_eq_true, decide_eq_true_eq, decide_eq_true_eq] at stored
  exact (le_add_of_nonneg_left gross).trans stored.2

/-- No cast of the closing statement is out of range then. -/
theorem CloseFits.casts (closeFits : CloseFits book env.stripeAffinity command.tenantId
      command.currency plan.endsAt plan.retainedEarnings) (kept : Kept book)
    (below : ∀ e ∈ book.entries, e.xactId < env.xid) (fits : PlanFits book command plan) :
    ∀ value ∈ closeCasts env book command plan, isBigint value = true := by
  have inRange : ∀ value, 0 ≤ value → value ≤ i64Max → isBigint value = true := by
    intro value nonneg bounded
    rw [isBigint, Bool.and_eq_true, decide_eq_true_eq, decide_eq_true_eq]
    exact ⟨le_trans (by decide) nonneg, bounded⟩
  intro value member
  rcases List.mem_append.mp member with isPosition | isDelta
  · obtain ⟨p, isSwept, isValue⟩ := List.mem_flatMap.mp isPosition
    obtain ⟨hasLegs, side⟩ := of_mem_sweptBy kept below isSwept
    have added := closeFits.added kept fits hasLegs
    have debit := added .debit
    have credit := added .credit
    rw [side] at debit credit
    have low : -p.positionMinor ≤ i64Max := (le_max_left _ _).trans debit
    have high : p.positionMinor ≤ i64Max := by
      simpa using (le_max_left _ _).trans credit
    rcases List.mem_pair.mp isValue with rfl | rfl
    · rw [isBigint, Bool.and_eq_true, decide_eq_true_eq, decide_eq_true_eq]
      unfold i64Max at low
      unfold i64Min
      exact ⟨by omega, high⟩
    · exact inRange _ (abs_nonneg _) (abs_le.mpr ⟨neg_le.mp low, high⟩)
  · obtain ⟨delta, inDelta, isValue⟩ := List.mem_flatMap.mp isDelta
    obtain ⟨accountId, hasLegs, rfl⟩ := (mem_closeDelta kept below).mp inDelta
    have added := closeFits.added kept fits hasLegs
    rcases List.mem_pair.mp isValue with rfl | rfl
    · exact inRange _ (closingSide_nonneg ..) (added .debit)
    · exact inRange _ (closingSide_nonneg ..) (added .credit)

/-- The balance rows a close leaves are in range exactly where the counters are. -/
theorem upsertsFit_iff (kept : Kept book) (below : ∀ e ∈ book.entries, e.xactId < env.xid) :
    (∀ row ∈ striped book env.stripeAffinity (closeDelta env book command plan),
      isBigint (book.inputOn row.toStripeKey + row.input) = true ∧
        isBigint (book.outputOn row.toStripeKey + row.output) = true ∧
        isBigint (book.lastSeqOn row.toStripeKey + row.legs) = true) ↔
      ∀ account ∈ book.accounts, account.tenantId = command.tenantId →
        account.currency = command.currency →
          book.closingLegs command.tenantId command.currency plan.endsAt plan.retainedEarnings
              account.id ≠ 0 →
            isBigint (book.inputOn (account.stripeOn env.stripeAffinity) +
              book.closingSide command.tenantId command.currency plan.endsAt
                plan.retainedEarnings .debit account.id) = true ∧
            isBigint (book.outputOn (account.stripeOn env.stripeAffinity) +
              book.closingSide command.tenantId command.currency plan.endsAt
                plan.retainedEarnings .credit account.id) = true ∧
            isBigint (book.lastSeqOn (account.stripeOn env.stripeAffinity) +
              book.closingLegs command.tenantId command.currency plan.endsAt
                plan.retainedEarnings account.id) = true := by
  have columns : ∀ account : AccountRow,
      ((closeDeltaOn book command plan account.id).onStripeOf env.stripeAffinity
        account).toStripeKey = account.stripeOn env.stripeAffinity := fun _ => rfl
  constructor
  · intro fit account isThere tenant currency hasLegs
    have inRange := fit _ ((mem_closeUpserts kept below).mpr
      ⟨account, isThere, tenant, currency, hasLegs, rfl⟩)
    rw [columns] at inRange
    exact inRange
  · intro fit row member
    obtain ⟨account, isThere, tenant, currency, hasLegs, rfl⟩ :=
      (mem_closeUpserts kept below).mp member
    rw [columns]
    exact fit account isThere tenant currency hasLegs

end Statements

section Checkpoint

variable {sha256 : List UInt8 → List UInt8} {env : Env} {book : Book} {command : ClosePeriod}
  {plan : ClosePlan} {answer : PeriodClosed} {writes : Writes} {after : Book}
  (closes : Closes sha256 env book command plan answer writes after)

include closes

/-- Behind a close the gross sums of an account are what they were and what it added. -/
theorem Closes.gross_after (kept : Kept book) (below : ∀ e ∈ book.entries, e.xactId < env.xid)
    (direction : Direction) (accountId : Uuid) :
    after.grossBefore command.tenantId command.currency plan.endsAt direction accountId =
      book.grossBefore command.tenantId command.currency plan.endsAt direction accountId +
        book.closingSide command.tenantId command.currency plan.endsAt plan.retainedEarnings
          direction accountId := by
  have legs : writes.entries.map EntryRow.leg = (closeLegs env book command plan).map Prod.fst := by
    rw [legs_of_landed closes.wrote.landed, closeLegRows_leg]
  have added : Tally.sumWhere (fun e : EntryRow => decide (e.accountId = accountId))
      (fun e => e.on direction) writes.entries =
        sideSum direction (toLex (accountId, command.currency))
          ((closeLegs env book command plan).map Prod.fst) := by
    rw [sumWhere_on, ← legs, sideSum, Tally.sumWhere_map]
    refine Tally.sumWhere_congr (fun e member => ?_) fun _ _ _ => rfl
    have ofCurrency := (closes.wrote.ofCurrency member).2
    have sameKey : e.leg.key = toLex (accountId, command.currency) ↔ e.accountId = accountId := by
      simp [EntryRow.leg, Leg.key, ofCurrency]
    rw [decide_eq_decide.mpr sameKey]
    rfl
  rw [Book.grossBefore, closes.sum_after kept, added, closeLegs, sweptBy,
    sideSum_position kept below]
  rfl

/-- What the checkpoint stores is in range exactly where every account's sums are. -/
theorem Closes.storedFit_iff (kept : Kept book)
    (below : ∀ e ∈ book.entries, e.xactId < env.xid) :
    (∀ row ∈ storedBehind env book command plan writes,
      isBigint row.input = true ∧ isBigint row.output = true) ↔
      ∀ account ∈ book.accounts, account.tenantId = command.tenantId →
        account.currency = command.currency →
          ∀ direction, isBigint
            (book.grossBefore command.tenantId command.currency plan.endsAt direction account.id +
              book.closingSide command.tenantId command.currency plan.endsAt
                plan.retainedEarnings direction account.id) = true := by
  have inRange : ∀ direction accountId,
      claimedSide after (closeRowOf env command plan) direction accountId =
        book.grossBefore command.tenantId command.currency plan.endsAt direction accountId +
          book.closingSide command.tenantId command.currency plan.endsAt plan.retainedEarnings
            direction accountId :=
    fun direction accountId =>
      (closes.claimedSide_eq below direction accountId).trans
        (closes.gross_after kept below direction accountId)
  rw [closes.storedBehind_eq]
  constructor
  · intro fit account _ _ _ direction
    rw [← inRange]
    by_cases claimed : ∃ e ∈ after.entries, (closeRowOf env command plan).claims after e = true ∧
        e.accountId = account.id
    · obtain ⟨e, member, isClaimed, onAccount⟩ := claimed
      obtain ⟨input, output⟩ := fit _ (List.mem_map_of_mem (List.mem_dedup.mpr
        (List.mem_map.mpr ⟨e, List.mem_filter.mpr ⟨member, isClaimed⟩, onAccount⟩)))
      cases direction
      · exact input
      · exact output
    · have noSum : claimedSide after (closeRowOf env command plan) direction account.id = 0 := by
        refine Tally.sumWhere_eq_zero fun e member => ?_
        rw [Bool.eq_false_iff]
        intro enters
        obtain ⟨isClaimed, onAccount⟩ := Bool.and_eq_true_iff.mp enters
        exact claimed ⟨e, member, isClaimed, of_decide_eq_true onAccount⟩
      rw [noSum]
      decide
  · intro fit row member
    obtain ⟨accountId, listed, rfl⟩ := List.mem_map.mp member
    obtain ⟨e, isClaimed, rfl⟩ := List.mem_map.mp (List.mem_dedup.mp listed)
    obtain ⟨isThere, claims⟩ := List.mem_filter.mp isClaimed
    obtain ⟨ofTenant, ofCurrency, _⟩ := CloseRow.claims_iff.mp claims
    have sameAccounts : (book.apply writes).accounts = book.accounts := by
      rw [closes.isWrites]
      exact List.append_nil _
    have known : ((book.apply writes).account? e.tenantId e.accountId e.currency).isSome := by
      rw [closes.entries_after] at isThere
      exact (kept.apply closes.lands).onAccount e isThere
    obtain ⟨account, found⟩ := Option.isSome_iff_exists.mp known
    obtain ⟨isAccount, tenant, id, currency⟩ := account?_spec found
    rw [sameAccounts] at isAccount
    have sums := fit account isAccount (tenant.trans ofTenant) (currency.trans ofCurrency)
    rw [id] at sums
    rw [inRange, inRange]
    exact ⟨sums .debit, sums .credit⟩

end Checkpoint

/-! ## Nothing else refuses a close -/

/-- The ids the column defaults draw for one bracket are new and apart. -/
structure Postgres.Env.Fresh (env : Env) (book : Book) (count : Nat) : Prop where
  event : ∀ event ∈ book.events, event.id ≠ env.eventId 0
  transaction : ∀ transaction ∈ book.transactions, transaction.id ≠ env.transactionId 0
  entry : ∀ index < count, ∀ entry ∈ book.entries, entry.id ≠ env.entryId index
  apart : ((List.range count).map env.entryId).Nodup

/-- Numbers out of range are sums of an upsert or of a checkpoint row. -/
theorem unfit_of_violation {tzKnown : String → Bool} {book : Book} {writes : Writes}
    (violated : violation tzKnown book writes = some .numericValueOutOfRange) :
    (¬ ∀ row ∈ writes.upserts, isBigint (book.inputOn row.toStripeKey + row.input) = true ∧
      isBigint (book.outputOn row.toStripeKey + row.output) = true ∧
      isBigint (book.lastSeqOn row.toStripeKey + row.legs) = true) ∨
    ¬ ∀ row ∈ writes.periodBalances, isBigint row.input = true ∧ isBigint row.output = true := by
  have failed := failed_of_violation violated
  simp only [constraintChecks, List.mem_cons, Prod.mk.injEq, List.not_mem_nil, or_false,
    reduceCtorEq, and_false, and_true, false_or] at failed
  exact failed.imp (fun first => of_decide_eq_false first.symm)
    fun second => of_decide_eq_false second.symm

/-- A statement whose only failing checks are of numbers fails on a number or not at
all. -/
theorem violation_numeric {tzKnown : String → Bool} {book : Book} {writes : Writes}
    (only : ∀ error, (false, error) ∈ constraintChecks tzKnown book writes →
      error = .numericValueOutOfRange) :
    violation tzKnown book writes = none ∨
      violation tzKnown book writes = some .numericValueOutOfRange := by
  cases violated : violation tzKnown book writes with
  | none =>
      exact Or.inl rfl
  | some error =>
      exact Or.inr (congrArg some (only error (failed_of_violation violated)))

section Refusals

variable {env : Env} {book : Book} {command : ClosePeriod} {plan : ClosePlan}

theorem instant_inPeriod (kept : Kept book) (fits : PlanFits book command plan) :
    plan.startsAt ≤ plan.closesAt ∧ plan.closesAt < plan.endsAt := by
  obtain ⟨period, isThere, _, _, starts, ends⟩ := fits.period
  have nonEmpty := kept.periodsNonEmpty period isThere
  rw [eq_of_theLastInstantInside fits.instant, ← starts, ← ends]
  exact ⟨Int.le_sub_one_of_lt nonEmpty, Int.sub_lt_self _ one_pos⟩

theorem length_closeEntries (env : Env) (fits : PlanFits book command plan) (hash : List UInt8)
    (payload : Json) :
    (closeWrites env book book command hash payload plan).entries.length =
      (closeLegs env book command plan).length := by
  have lengths := ((close_coheres env fits).landed env book).length_eq
  rw [closeLegRows, List.length_map] at lengths
  exact lengths.symm

/-- A close writes two legs a swept account. -/
theorem length_closeLegs (kept : Kept book) (below : ∀ e ∈ book.entries, e.xactId < env.xid) :
    (closeLegs env book command plan).length ≤ 2 * book.accounts.length := by
  have legs := (leg_perm command.currency plan.retainedEarnings
    (sweptBy env book command plan)).length_eq
  have swept : (sweptBy env book command plan).length ≤ book.accounts.length := by
    rw [sweptBy, length_position kept below]
    refine (List.length_filter_le _ _).trans ?_
    rw [Book.sweptAccounts, List.length_map]
    exact List.length_filter_le _ _
  rw [List.length_map, List.length_append, List.length_map, List.length_map] at legs
  rw [closeLegs, legs]
  omega

/-- Its entries take ids no entry has. -/
theorem closeEntries_admitted (kept : Kept book)
    (below : ∀ e ∈ book.entries, e.xactId < env.xid) (fits : PlanFits book command plan)
    (fresh : env.Fresh book (2 * book.accounts.length)) (hash : List UInt8) (payload : Json) :
    UniqueIndex.Admits EntryRow.primaryKey book.entries
      (closeWrites env book book command hash payload plan).entries := by
  have bounded : (closeWrites env book book command hash payload plan).entries.length ≤
      2 * book.accounts.length := by
    rw [length_closeEntries env fits]
    exact length_closeLegs kept below
  have ids := entry_ids env
    (balance book (striped book env.stripeAffinity (closeDelta env book command plan)))
    (closeLegRows env book command plan)
  change (closeWrites env book book command hash payload plan).entries.map EntryRow.id = _ at ids
  constructor
  · have distinct : ((closeWrites env book book command hash payload plan).entries.map
        EntryRow.id).Nodup := by
      rw [ids]
      exact fresh.apart.sublist ((List.range_sublist.mpr bounded).map _)
    have isMap : EntryRow.primaryKey = some ∘ fun e : EntryRow => (e.tenantId, e.id) := rfl
    rw [isMap, List.filterMap_eq_map]
    refine List.Nodup.of_map Prod.snd ?_
    rw [List.map_map]
    exact distinct
  · intro key isNew isHeld
    obtain ⟨e, member, isKey⟩ := List.mem_filterMap.mp isNew
    obtain ⟨other, isThere, isOther⟩ := List.mem_filterMap.mp isHeld
    have drawn := List.mem_map_of_mem (f := EntryRow.id) member
    rw [ids] at drawn
    obtain ⟨index, isIndex, isDrawn⟩ := List.mem_map.mp drawn
    have same := Option.some.inj (isOther.trans isKey.symm)
    exact fresh.entry index ((List.mem_range.mp isIndex).trans_le bounded) other isThere
      ((Prod.mk.inj same).2.trans isDrawn.symm)

/-- Over a free key, with new ids, the only checks a closing statement can fail are
those of its sums. -/
theorem closeWrites_only (kept : Kept book) (below : ∀ e ∈ book.entries, e.xactId < env.xid)
    (fits : PlanFits book command plan) (unclosed : ∀ close ∈ book.closes, ¬ close.IsOf command)
    (fresh : env.Fresh book (2 * book.accounts.length)) (hash : List UInt8) (payload : Json)
    (error : DbError)
    (failed : (false, error) ∈ constraintChecks env.tzKnown book
      (closeWrites env book book command hash payload plan)) :
    error = .numericValueOutOfRange := by
  have noEvent : UniqueIndex.Admits EventRow.primaryKey book.events
      (closeWrites env book book command hash payload plan).events := by
    refine UniqueIndex.admits_singleton fun event member key isNew isHeld => ?_
    have same := Option.some.inj (isHeld.trans isNew.symm)
    exact fresh.event event member (Prod.mk.inj same).2
  have noTxn : UniqueIndex.Admits TransactionRow.primaryKey book.transactions
      (closeWrites env book book command hash payload plan).transactions := by
    refine UniqueIndex.admits_singleton fun transaction member key isNew isHeld => ?_
    have same := Option.some.inj (isHeld.trans isNew.symm)
    exact fresh.transaction transaction member (Prod.mk.inj same).2
  have noCause : UniqueIndex.Admits TransactionRow.eventKey book.transactions
      (closeWrites env book book command hash payload plan).transactions := by
    refine UniqueIndex.admits_singleton fun transaction member key isNew isHeld => ?_
    have same := Option.some.inj (isHeld.trans isNew.symm)
    obtain ⟨event, isThere, _, isCause, _⟩ := kept.caused transaction member
    exact fresh.event event isThere (isCause.trans (Prod.mk.inj same).2)
  have noTarget : UniqueIndex.Admits TransactionRow.supersessionKey book.transactions
      (closeWrites env book book command hash payload plan).transactions :=
    UniqueIndex.admits_singleton fun _ _ _ isNew _ => absurd isNew (by simp
      [TransactionRow.supersessionKey, TransactionRow.supersedes])
  have noSelf : ∀ row ∈ (closeWrites env book book command hash payload plan).transactions,
      row.names row.id = false := by
    intro row member
    rw [List.mem_singleton.mp member]
    simp [TransactionRow.names]
  have inPeriod : ∀ row ∈ (closeWrites env book book command hash payload plan).closes,
      row.startsAt ≤ row.txnEffectiveAt ∧ row.txnEffectiveAt < row.endsAt := by
    intro row member
    rw [List.mem_singleton.mp member]
    exact instant_inPeriod kept fits
  have once : ((closeWrites env book book command hash payload plan).upserts.map
      UpsertRow.toStripeKey).Nodup := by
    have nodup := (close_coheres env fits).upserts_nodup env
    refine List.Nodup.of_map tenantKeyOf ?_
    rw [List.map_map]
    exact nodup
  have noEntry := closeEntries_admitted kept below fits fresh hash payload
  have noClose := closeWrites_unclosed env hash payload plan unclosed
  have noClosing : UniqueIndex.Admits CloseRow.transactionKey book.closes
      (closeWrites env book book command hash payload plan).closes := by
    refine UniqueIndex.admits_singleton fun close member key isNew isHeld => ?_
    have same := Option.some.inj (isHeld.trans isNew.symm)
    obtain ⟨transaction, isThere, closedBy⟩ := kept.closed close member
    exact fresh.transaction transaction isThere (closedBy.id.trans (Prod.mk.inj same).2)
  have noPeriods : (closeWrites env book book command hash payload plan).periods = [] := rfl
  have noAccounts : (closeWrites env book book command hash payload plan).accounts = [] := rfl
  have noBalances :
      (closeWrites env book book command hash payload plan).periodBalances = [] := rfl
  simp only [constraintChecks, noPeriods, noAccounts, noBalances, decide_eq_true noEvent,
    decide_eq_true noTxn, decide_eq_true noCause, decide_eq_true noTarget, decide_eq_true noSelf,
    decide_eq_true inPeriod, decide_eq_true once, decide_eq_true noEntry, decide_eq_true noClose,
    decide_eq_true noClosing, UniqueIndex.admits_nil, List.not_mem_nil, false_implies,
    implies_true, decide_true, List.mem_cons, Prod.mk.injEq, Bool.false_eq_true, false_and,
    false_or, or_false] at failed
  exact failed.2

/-- A checkpoint's only checks that can fail are those of its sums. -/
theorem checkpoint_only {sha256 : List UInt8 → List UInt8} {answer : PeriodClosed}
    {writes : Writes} {after : Book}
    (closes : Closes sha256 env book command plan answer writes after) (kept : Kept book)
    (error : DbError)
    (failed : (false, error) ∈ constraintChecks env.tzKnown (book.apply writes)
      { periodBalances := storedBehind env book command plan writes }) :
    error = .numericValueOutOfRange := by
  have balances : (book.apply writes).periodBalances = book.periodBalances := by
    rw [closes.isWrites]
    exact List.append_nil _
  have admitted : UniqueIndex.Admits PeriodBalanceRow.primaryKey
      (book.apply writes).periodBalances (storedBehind env book command plan writes) := by
    rw [balances, closes.storedBehind_eq]
    constructor
    · have isMap : PeriodBalanceRow.primaryKey = some ∘ fun row : PeriodBalanceRow =>
          (row.tenantId, row.periodCode, row.currency, row.accountId) := rfl
      rw [isMap, List.filterMap_eq_map, CloseRow.rowsIn, List.map_map]
      refine (List.nodup_dedup _).map fun left right same => ?_
      simp only [Function.comp_apply, Prod.mk.injEq, true_and] at same
      exact same
    · intro key isNew isHeld
      obtain ⟨row, member, isKey⟩ := List.mem_filterMap.mp isNew
      obtain ⟨accountId, _, rfl⟩ := List.mem_map.mp member
      obtain ⟨other, isThere, isOther⟩ := List.mem_filterMap.mp isHeld
      have same := Option.some.inj (isOther.trans isKey.symm)
      simp only [Prod.mk.injEq] at same
      obtain ⟨k, isClose, ofClose⟩ := kept.checkpointed other isThere
      exact closes.wrote.unclosed isClose ⟨ofClose.tenant.symm.trans same.1,
        ofClose.code.symm.trans same.2.1, ofClose.currency.symm.trans same.2.2.1⟩
  simp only [constraintChecks, decide_eq_true admitted, UniqueIndex.admits_nil,
    List.not_mem_nil, false_implies, implies_true, decide_true, List.map_nil, List.nodup_nil,
    List.mem_cons, Prod.mk.injEq, Bool.false_eq_true, false_and, false_or, or_false] at failed
  exact failed.2

/-- Over a free key, with new ids, a close fails on a number exactly when one of its sums
is out of range. -/
theorem closeAlone_numeric_iff (sha256 : List UInt8 → List UInt8) (kept : Kept book)
    (below : ∀ e ∈ book.entries, e.xactId < env.xid)
    (planned : closePlan book command = .ok plan)
    (free : book.holderOf command.tenantId command.idempotencyKey = none)
    (unclosed : ∀ close ∈ book.closes, ¬ close.IsOf command)
    (fresh : env.Fresh book (2 * book.accounts.length)) :
    (closeAlone sha256 env book command plan).1 =
        .error (.storage (.backend .numericValueOutOfRange)) ↔
      ¬ CloseFits book env.stripeAffinity command.tenantId command.currency plan.endsAt
        plan.retainedEarnings := by
  have fits := planFits_of_closePlan planned
  unfold closeAlone claimAndClosePeriod
  rw [free, Option.isSome_none, if_neg Bool.false_ne_true]
  dsimp only
  cases casts : ensureBigints (closeCasts env book command plan) with
  | error failure =>
      refine iff_of_true rfl fun closeFits => ?_
      have inRange := List.all_eq_true.mpr (closeFits.casts kept below fits)
      rw [ensureBigints, if_pos inRange] at casts
      cases casts
  | ok all =>
      have only := closeWrites_only kept below fits unclosed fresh
        (command.idempotencyHash sha256) command.payload
      rcases violation_numeric only with allowed | violated
      · have closes := closes_of_allowed planned free rfl allowed
        have admits := (violation_eq_none_iff ..).mp allowed
        have counters := (upsertsFit_iff kept below).mp admits.upsertsFit
        dsimp only [Except.toOption]
        rw [allowed]
        dsimp only
        rw [closedFromTheRows_closeRows]
        dsimp only
        unfold checkpointTheClose
        dsimp only
        rcases violation_numeric (checkpoint_only closes kept) with stored | unstored
        · have sums := (closes.storedFit_iff kept below).mp
            ((violation_eq_none_iff ..).mp stored).periodBalancesFit
          unfold storedBehind at stored
          rw [stored]
          refine iff_of_false (fun failed => ?_) (not_not_intro ⟨sums, counters⟩)
          cases failed
        · have sums := closes.storedFit_iff kept below
          have unfit := unfit_of_violation unstored
          unfold storedBehind at unstored
          rw [unstored]
          refine iff_of_true rfl fun closeFits => ?_
          rcases unfit with upserts | balances
          · exact upserts fun row member => absurd member List.not_mem_nil
          · exact balances (sums.mpr closeFits.sums)
      · dsimp only [Except.toOption]
        rw [violated]
        refine iff_of_true rfl fun closeFits => ?_
        rcases unfit_of_violation violated with upserts | balances
        · exact upserts ((upsertsFit_iff kept below).mpr closeFits.counters)
        · exact balances fun row member => absurd member List.not_mem_nil

/-- What a close reads before it claims fails on nothing. -/
theorem closePlan_refuses {failure : StorageError} :
    closePlan book command ≠ .error (.storage failure) := by
  intro planned
  unfold closePlan at planned
  split at planned
  · cases planned
  · split at planned
    · cases planned
    · split at planned <;> cases planned

/-- A defined period and an account to sweep into make a plan, and the only one. -/
theorem closePlan_of_rows {sha256 : List UInt8 → List UInt8} (kept : Kept book)
    (asked : book.Asked sha256) {period : PeriodRow} (isPeriod : period ∈ book.periods)
    (ofTenant : period.tenantId = command.tenantId) (ofCode : period.code = command.periodCode)
    {account : AccountRow} (isAccount : account ∈ book.accounts)
    (tenant : account.tenantId = command.tenantId) (purpose : account.purpose = "retained_earnings")
    (house : account.ownerType = .house) (currency : account.currency = command.currency) :
    ∃ plan, closePlan book command = .ok plan ∧ plan.endsAt = period.endsAt ∧
      plan.retainedEarnings = account.id := by
  have hasPeriod : (book.period? command.tenantId command.periodCode).isSome := by
    rw [Book.period?, List.find?_isSome]
    exact ⟨period, isPeriod, by simp [ofTenant, ofCode]⟩
  obtain ⟨found, isFound⟩ := Option.isSome_iff_exists.mp hasPeriod
  have carried := List.find?_some isFound
  simp only [Bool.and_eq_true, decide_eq_true_eq] at carried
  have defined := congrArg (Option.map fun found : PeriodRow =>
    ({ startsAt := found.startsAt
       endsAt := found.endsAt
       retainedEarnings := (book.accounts.find? fun account =>
         decide (account.tenantId = found.tenantId) &&
           decide (account.purpose = "retained_earnings") &&
           decide (account.ownerType = .house) &&
           decide (account.currency = command.currency)).map AccountRow.id } :
      PeriodCloseContext)) isFound
  change periodCloseContext book command = some _ at defined
  have hasAccount : (book.accounts.find? fun account =>
      decide (account.tenantId = found.tenantId) &&
        decide (account.purpose = "retained_earnings") &&
        decide (account.ownerType = .house) &&
        decide (account.currency = command.currency)).isSome := by
    rw [List.find?_isSome]
    exact ⟨account, isAccount, by simp [tenant, carried.1, purpose, house, currency]⟩
  obtain ⟨eligible, isEligible⟩ := Option.isSome_iff_exists.mp hasAccount
  obtain ⟨plan, planned⟩ := closePlan_of_context kept asked defined
    (congrArg (Option.map AccountRow.id) isEligible)
  have fits := planFits_of_closePlan planned
  obtain ⟨row, isRow, rowTenant, rowCode, _, ends⟩ := fits.period
  obtain ⟨target, isTarget, targetTenant, isId, targetPurpose, targetHouse, targetCurrency⟩ :=
    fits.destination
  have samePeriod : row = period := UniqueIndex.holds_eq kept.pkPeriods isRow isPeriod
    (congrArg some (Prod.ext (rowTenant.trans ofTenant.symm) (rowCode.trans ofCode.symm))) rfl
  have sameAccount : target = account := by
    refine UniqueIndex.holds_eq kept.uqAccountsHouse isTarget isAccount (if_pos targetHouse) ?_
    rw [AccountRow.houseKey, if_pos house, tenant, purpose, currency, targetTenant,
      targetPurpose, targetCurrency]
  exact ⟨plan, planned, by rw [← ends, samePeriod], by rw [← isId, sameAccount]⟩

end Refusals

/-- The sums of a close are in range, for the period it names and the account it sweeps
into. -/
def CloseInRange (book : Book) (affinity : Nat) (command : ClosePeriod) : Prop :=
  ∀ period ∈ book.periods, period.tenantId = command.tenantId →
    period.code = command.periodCode →
      ∀ account ∈ book.accounts, account.tenantId = command.tenantId →
        account.purpose = "retained_earnings" → account.ownerType = .house →
          account.currency = command.currency →
            CloseFits book affinity command.tenantId command.currency period.endsAt account.id

/-- In every book a run reaches: a close fails on a number exactly when its key is free
and one of its sums is out of range. -/
theorem close_fails_only_on_its_sums {sha256 : List UInt8 → List UInt8} {chart : Chart}
    {book : Book} {next : Xid} (reachable : Reachable sha256 chart book next) (env : Env)
    (assigned : next ≤ env.xid) (command : ClosePeriod)
    (fresh : env.Fresh book (2 * book.accounts.length)) :
    ((Operation.closePeriod command).perform sha256 env book).1 ≠
        .closed (.error (.storage (.backend .numericValueOutOfRange))) ↔
      (book.holderOf command.tenantId command.idempotencyKey).isSome = true ∨
        CloseInRange book env.stripeAffinity command := by
  have kept := kept_of_reachable reachable
  obtain ⟨machine, interleaved, isBook, _, _⟩ := interleaved_of_reachable reachable
  have asked : book.Asked sha256 := isBook ▸ asked_of_interleaved interleaved
  have keyed : RowsKeyed book.events book.closes := isBook ▸ keyed_of_interleaved interleaved
  have below : ∀ e ∈ book.entries, e.xactId < env.xid := fun e member =>
    (entries_below reachable e member).trans_le assigned
  have byPlan : CloseInRange book env.stripeAffinity command ↔
      ∀ plan, closePlan book command = .ok plan →
        CloseFits book env.stripeAffinity command.tenantId command.currency plan.endsAt
          plan.retainedEarnings := by
    constructor
    · intro inRange plan planned
      have fits := planFits_of_closePlan planned
      obtain ⟨period, isPeriod, ofTenant, ofCode, _, ends⟩ := fits.period
      obtain ⟨account, isAccount, tenant, id, purpose, house, currency⟩ := fits.destination
      rw [← ends, ← id]
      exact inRange period isPeriod ofTenant ofCode account isAccount tenant purpose house
        currency
    · intro fit period isPeriod ofTenant ofCode account isAccount tenant purpose house currency
      obtain ⟨plan, planned, ends, id⟩ := closePlan_of_rows kept asked isPeriod ofTenant ofCode
        isAccount tenant purpose house currency
      rw [← ends, ← id]
      exact fit plan planned
  rw [byPlan]
  cases planned : closePlan book command with
  | error refusal =>
      rw [perform_closePeriod_unplanned env book planned]
      refine iff_of_true (fun failed => ?_) (Or.inr fun plan isPlan => by cases isPlan)
      have isStorage := Except.error.inj (Outcome.closed.inj failed)
      rw [isStorage] at planned
      exact closePlan_refuses planned
  | ok plan =>
      rw [perform_closePeriod env book planned]
      cases held : book.holderOf command.tenantId command.idempotencyKey with
      | some event =>
          refine iff_of_true (fun failed => ?_) (Or.inl rfl)
          have answered := Outcome.closed.inj failed
          rw [closeAlone_held (by rw [held]; rfl), repeatedClose] at answered
          split at answered <;> cases answered
      | none =>
          have unclosed : ∀ close ∈ book.closes, ¬ close.IsOf command := by
            rintro close member ⟨tenant, code, currency⟩
            obtain ⟨event, isThere, ofTenant, ofKey⟩ := keyed close member
            rw [tenant, code, currency] at ofKey
            have isHeld := holderOf_isSome_iff.mpr
              ⟨event, isThere, ofTenant.trans tenant, ofKey⟩
            change (book.holderOf command.tenantId command.idempotencyKey).isSome = true at isHeld
            rw [held] at isHeld
            cases isHeld
          have numeric := closeAlone_numeric_iff sha256 kept below planned held unclosed fresh
          constructor
          · intro answered
            refine Or.inr fun other isPlan => ?_
            rw [← Except.ok.inj isPlan]
            by_contra unfit
            exact answered (congrArg Outcome.closed (numeric.mpr unfit))
          · rintro (isSome | fit) failed
            · cases isSome
            · exact numeric.mp (Outcome.closed.inj failed) (fit plan rfl)

namespace Shop

/-- An opening on two stripes. -/
def stripedOpening (key purpose : String) : Operation :=
  .openAccount ((OpenAccount.new "shop" key purpose ⟨.house, none⟩ "USD" (some 2)
    none).toOption.getD tillOpening)

/-- Two fees, each over half of what a balance row holds, by writers on two stripes. -/
def stripedFees : List (Operation × Env) := [
  (stripedOpening "till" "till", envOf 1),
  (stripedOpening "fees" "fees", envOf 2),
  (opening "equity" "retained_earnings", envOf 3),
  (period "first" 0 1000000, envOf 4),
  (.post (command "fee" 1000 .posted none 5000000000000000000), envOf 5),
  (.post (command "another fee" 1000 .posted none 5000000000000000000),
    { envOf 6 with stripeAffinity := 1 })]

theorem stripedFees_never_close :
    Reachable id chart (performAll id stripedFees (Book.empty chart)) 7 ∧
      ((Operation.closePeriod firstClose).perform id (envOf 7)
          (performAll id stripedFees (Book.empty chart))).1.closeRefusal? =
        some (.storage (.backend .numericValueOutOfRange)) ∧
      ((Operation.closePeriod firstClose).perform id (envOf 8)
          ((Operation.closePeriod firstClose).perform id (envOf 7)
            (performAll id stripedFees (Book.empty chart))).2).1.closeRefusal? =
        some (.storage (.backend .numericValueOutOfRange)) :=
  ⟨Reachable.empty.performAll (by decide), by decide +kernel, by decide +kernel⟩

theorem feeInPeriod_fresh : (envOf 6).Fresh (performAll id feeInPeriod (Book.empty chart))
    (2 * (performAll id feeInPeriod (Book.empty chart)).accounts.length) where
  event := by decide +kernel
  transaction := by decide +kernel
  entry := by decide +kernel
  apart := by decide +kernel

/-- The close of one fee is in range. -/
theorem feeInPeriod_closes :
    CloseInRange (performAll id feeInPeriod (Book.empty chart)) 0 firstClose := by
  have answered : ((Operation.closePeriod firstClose).perform id (envOf 6)
      (performAll id feeInPeriod (Book.empty chart))).1.closed? = some feeClosed := by
    decide +kernel
  have accepted := (close_fails_only_on_its_sums (Reachable.empty.performAll (by decide))
    (envOf 6) (by decide) firstClose feeInPeriod_fresh).mp
      (by rw [Outcome.eq_of_closed? answered]; exact nofun)
  exact accepted.resolve_left (by decide +kernel)

end Shop

end OpenLedger
