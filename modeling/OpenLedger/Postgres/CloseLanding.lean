import OpenLedger.Postgres.Close
import OpenLedger.Postgres.Landing

/-!
# What a close lands

The swept positions, one a temporary account; the closing legs, which cancel
pair by pair; and the bracket a close commits, the closing statement with its
checkpoint behind it.
-/

namespace OpenLedger.Postgres

section Position

variable {snapshot : Book} {tenantId currency : String} {endsAt : Timestamp}
  {retainedEarnings : Uuid} {cursor : Xid}

/-- The net position a sweep reads on one account. -/
def netOf (snapshot : Book) (tenantId currency : String) (endsAt : Timestamp)
    (retainedEarnings : Uuid) (cursor : Xid) (accountId : Uuid) : Int :=
  Tally.sumWhere (fun e =>
    sweepAdmits snapshot tenantId currency endsAt retainedEarnings cursor e &&
      decide (e.accountId = accountId)) EntryRow.signed snapshot.entries

/-- The swept positions are the non-zero nets. -/
theorem mem_position {p : SweptPosition} :
    p ∈ position snapshot tenantId currency endsAt retainedEarnings cursor ↔
      p.positionMinor =
          netOf snapshot tenantId currency endsAt retainedEarnings cursor p.accountId ∧
        p.positionMinor ≠ 0 := by
  constructor
  · intro member
    obtain ⟨inPositions, nonZero⟩ := List.mem_filter.mp member
    obtain ⟨accountId, _, rfl⟩ := List.mem_map.mp inPositions
    exact ⟨rfl, by simpa using nonZero⟩
  · rintro ⟨isNet, nonZero⟩
    refine List.mem_filter.mpr ⟨?_, by simpa using nonZero⟩
    have entered : ∃ e ∈ snapshot.entries,
        sweepAdmits snapshot tenantId currency endsAt retainedEarnings cursor e = true ∧
          e.accountId = p.accountId := by
      by_contra none
      apply nonZero
      rw [isNet, netOf]
      refine Tally.sumWhere_eq_zero fun e isEntry => ?_
      by_contra kept
      simp only [Bool.not_eq_false, Bool.and_eq_true, decide_eq_true_eq] at kept
      exact none ⟨e, isEntry, kept⟩
    obtain ⟨e, isEntry, admitted, onAccount⟩ := entered
    refine List.mem_map.mpr ⟨p.accountId, ?_, ?_⟩
    · rw [List.mem_insertionSort, List.mem_dedup, List.mem_map]
      exact ⟨e, List.mem_filter.mpr ⟨isEntry, admitted⟩, onAccount⟩
    · exact congrArg (SweptPosition.mk p.accountId) isNet.symm

/-- A swept account is a temporary account other than the destination. -/
theorem entry_of_mem_position {p : SweptPosition}
    (member : p ∈ position snapshot tenantId currency endsAt retainedEarnings cursor) :
    ∃ e ∈ snapshot.entries,
      sweepAdmits snapshot tenantId currency endsAt retainedEarnings cursor e = true ∧
        e.accountId = p.accountId := by
  obtain ⟨inPositions, _⟩ := List.mem_filter.mp member
  obtain ⟨accountId, isAccount, rfl⟩ := List.mem_map.mp inPositions
  rw [List.mem_insertionSort, List.mem_dedup, List.mem_map] at isAccount
  obtain ⟨e, isThere, onAccount⟩ := isAccount
  exact ⟨e, (List.mem_filter.mp isThere).1, (List.mem_filter.mp isThere).2, onAccount⟩

/-- The accounts are swept in order. -/
theorem position_ascends :
    ((position snapshot tenantId currency endsAt retainedEarnings cursor).map
      SweptPosition.accountId).Pairwise (· < ·) := by
  have distinct : ((((snapshot.entries.filter (sweepAdmits snapshot tenantId currency endsAt
      retainedEarnings cursor)).map EntryRow.accountId).dedup).insertionSort (· ≤ ·)).Nodup :=
    (List.perm_insertionSort _ _).nodup_iff.mpr (List.nodup_dedup _)
  have ascending := (List.pairwise_insertionSort (· ≤ ·) _).and distinct
  refine List.Pairwise.sublist (List.filter_sublist.map _) ?_
  rw [List.map_map]
  have same : (SweptPosition.accountId ∘ fun accountId : Uuid =>
      (⟨accountId, Tally.sumWhere (fun e => sweepAdmits snapshot tenantId currency endsAt
        retainedEarnings cursor e && decide (e.accountId = accountId)) EntryRow.signed
        snapshot.entries⟩ : SweptPosition)) = id := rfl
  rw [same, List.map_id]
  exact ascending.imp fun both => lt_of_le_of_ne both.1 both.2

/-- Each account is swept once. -/
theorem position_nodup :
    ((position snapshot tenantId currency endsAt retainedEarnings cursor).map
      SweptPosition.accountId).Nodup :=
  position_ascends.imp fun ascends => ascends.ne

/-- On each account a sum over the swept positions is its value at what the sweep reads
of it. -/
theorem sumWhere_position_of (value : Int → Int) (zero : value 0 = 0) (accountId : Uuid) :
    Tally.sumWhere (fun p : SweptPosition => decide (p.accountId = accountId))
        (fun p => value p.positionMinor)
        (position snapshot tenantId currency endsAt retainedEarnings cursor) =
      value (netOf snapshot tenantId currency endsAt retainedEarnings cursor accountId) := by
  by_cases swept : (⟨accountId, netOf snapshot tenantId currency endsAt retainedEarnings cursor
      accountId⟩ : SweptPosition) ∈
        position snapshot tenantId currency endsAt retainedEarnings cursor
  · exact Tally.sumWhere_key (fun p => value p.positionMinor) position_nodup swept
  · have noNet :
        netOf snapshot tenantId currency endsAt retainedEarnings cursor accountId = 0 := by
      by_contra nonZero
      exact swept (mem_position.mpr ⟨rfl, nonZero⟩)
    rw [noNet, zero]
    refine Tally.sumWhere_eq_zero fun p member => ?_
    rw [decide_eq_false_iff_not]
    rintro rfl
    obtain ⟨isNet, nonZero⟩ := mem_position.mp member
    exact nonZero (isNet.trans noNet)

theorem sumWhere_position (accountId : Uuid) :
    Tally.sumWhere (fun p : SweptPosition => decide (p.accountId = accountId))
        SweptPosition.positionMinor
        (position snapshot tenantId currency endsAt retainedEarnings cursor) =
      netOf snapshot tenantId currency endsAt retainedEarnings cursor accountId :=
  sumWhere_position_of id rfl accountId

/-- The swept accounts are those of a list that holds every account with a net. -/
theorem position_perm {accounts : List Uuid} (nodup : accounts.Nodup)
    (covers : ∀ accountId,
      netOf snapshot tenantId currency endsAt retainedEarnings cursor accountId ≠ 0 →
        accountId ∈ accounts) :
    (position snapshot tenantId currency endsAt retainedEarnings cursor).Perm
      ((accounts.filter fun accountId =>
        decide (netOf snapshot tenantId currency endsAt retainedEarnings cursor accountId ≠ 0)).map
          fun accountId => ⟨accountId,
            netOf snapshot tenantId currency endsAt retainedEarnings cursor accountId⟩) := by
  refine (List.perm_ext_iff_of_nodup position_nodup.of_map
    ((nodup.filter _).map fun left right same => congrArg SweptPosition.accountId same)).mpr
      fun p => ?_
  rw [mem_position, List.mem_map]
  constructor
  · rintro ⟨isNet, nonZero⟩
    have hasNet := isNet ▸ nonZero
    refine ⟨p.accountId, List.mem_filter.mpr ⟨covers _ hasNet, decide_eq_true hasNet⟩, ?_⟩
    rw [← isNet]
  · rintro ⟨accountId, listed, rfl⟩
    exact ⟨rfl, of_decide_eq_true (List.mem_filter.mp listed).2⟩

end Position

section Legs

variable {currency : String} {retainedEarnings : Uuid} {positions : List SweptPosition}

/-- The legs into retained earnings, in account order. -/
theorem leg_eq (currency : String) (retainedEarnings : Uuid) (positions : List SweptPosition) :
    ∃ sorted : List SweptPosition, sorted.Perm positions ∧
      leg currency retainedEarnings positions =
        positions.map (fun p => (legOut currency p, 0)) ++
          (sorted.map (legIn currency retainedEarnings)).zip
            (Numbering.walkBack Leg.key (sorted.map (legIn currency retainedEarnings))) := by
  refine ⟨_, List.perm_insertionSort
    (fun left right : SweptPosition => left.accountId ≤ right.accountId) _, ?_⟩
  rw [leg, Numbering.windowOffsets_eq, Numbering.walkBack_map, List.zip_map_left]
  congr 2
  refine congrArg _ (Numbering.walkBack_congr fun left _ right _ => ?_)
  simp [legIn, Leg.key]

/-- One leg out of each swept account, and one into retained earnings. -/
theorem leg_perm (currency : String) (retainedEarnings : Uuid) (positions : List SweptPosition) :
    ((leg currency retainedEarnings positions).map Prod.fst).Perm
      (positions.map (legOut currency) ++ positions.map (legIn currency retainedEarnings)) := by
  obtain ⟨sorted, permutation, isLeg⟩ := leg_eq currency retainedEarnings positions
  rw [isLeg, List.map_append, List.map_map, List.map_fst_zip (by simp)]
  exact (permutation.map _).append_left _

/-- Pair by pair, what leaves a swept account enters retained earnings. -/
theorem leg_foots (currency : String) (retainedEarnings : Uuid)
    (positions : List SweptPosition) :
    Foots ((leg currency retainedEarnings positions).map Prod.fst) := by
  intro other
  have side : ∀ direction, currencySide direction other
      ((leg currency retainedEarnings positions).map Prod.fst) =
        currencySide direction other (positions.map (legOut currency)) +
          currencySide direction other (positions.map (legIn currency retainedEarnings)) := by
    intro direction
    rw [currencySide, Tally.sumWhere_perm (leg_perm currency retainedEarnings positions),
      Tally.sumWhere_append]
    rfl
  rw [side, side]
  clear side
  induction positions with
  | nil =>
      rfl
  | cons p rest inductionHypothesis =>
      simp only [currencySide, List.map_cons, Tally.sumWhere_cons] at inductionHypothesis ⊢
      by_cases swept : 0 < p.positionMinor
      · simp only [legOut, legIn, swept, if_true] at inductionHypothesis ⊢
        by_cases same : currency = other
        · simp [same] at inductionHypothesis ⊢
          linarith
        · simpa [same] using inductionHypothesis
      · simp only [legOut, legIn, swept, if_false] at inductionHypothesis ⊢
        by_cases same : currency = other
        · simp [same] at inductionHypothesis ⊢
          linarith
        · simpa [same] using inductionHypothesis

/-- The closing legs are walked back: an account swept once has nothing behind
it, and retained earnings' legs count each other. -/
theorem leg_offsets (nodup : (positions.map SweptPosition.accountId).Nodup)
    (apart : ∀ p ∈ positions, p.accountId ≠ retainedEarnings) :
    (leg currency retainedEarnings positions).map Prod.snd =
      Numbering.walkBack Leg.key ((leg currency retainedEarnings positions).map Prod.fst) := by
  obtain ⟨sorted, permutation, isLeg⟩ := leg_eq currency retainedEarnings positions
  rw [isLeg, List.map_append, List.map_append, List.map_fst_zip (by simp),
    List.map_snd_zip (by simp), List.map_map, List.map_map]
  have outsNodup : ((positions.map (legOut currency)).map Leg.key).Nodup := by
    rw [List.map_map]
    refine List.Nodup.of_map (fun key : AccountKey => (ofLex key).1) ?_
    rw [List.map_map]
    exact nodup
  have outsApart : ∀ out ∈ positions.map (legOut currency),
      ∀ into ∈ sorted.map (legIn currency retainedEarnings), into.key ≠ out.key := by
    intro out isOut into isInto same
    obtain ⟨p, isSwept, rfl⟩ := List.mem_map.mp isOut
    obtain ⟨q, _, rfl⟩ := List.mem_map.mp isInto
    simp only [Leg.key, legOut, legIn, EmbeddingLike.apply_eq_iff_eq, Prod.mk.injEq] at same
    exact apart p isSwept same.1.symm
  have outs : (Prod.fst ∘ fun p => (legOut currency p, (0 : Nat))) = legOut currency := rfl
  rw [outs, Numbering.walkBack_append_of_apart outsApart,
    Numbering.walkBack_of_nodup outsNodup, List.map_map]
  rfl

theorem leg_positive (nonZero : ∀ p ∈ positions, p.positionMinor ≠ 0) :
    ∀ l ∈ (leg currency retainedEarnings positions).map Prod.fst, 0 < l.amountMinor := by
  intro l isLeg
  have isEither := (leg_perm currency retainedEarnings positions).mem_iff.mp isLeg
  rcases List.mem_append.mp isEither with isOut | isIn
  · obtain ⟨p, isSwept, rfl⟩ := List.mem_map.mp isOut
    exact abs_pos.mpr (nonZero p isSwept)
  · obtain ⟨p, isSwept, rfl⟩ := List.mem_map.mp isIn
    exact abs_pos.mpr (nonZero p isSwept)

/-- Every closing leg is on a swept account or on retained earnings. -/
theorem leg_account {l : Leg}
    (isLeg : l ∈ (leg currency retainedEarnings positions).map Prod.fst) :
    l.currency = currency ∧
      (l.accountId = retainedEarnings ∨ ∃ p ∈ positions, l.accountId = p.accountId) := by
  have isEither := (leg_perm currency retainedEarnings positions).mem_iff.mp isLeg
  rcases List.mem_append.mp isEither with isOut | isIn
  · obtain ⟨p, isSwept, rfl⟩ := List.mem_map.mp isOut
    exact ⟨rfl, Or.inr ⟨p, isSwept, rfl⟩⟩
  · obtain ⟨p, isSwept, rfl⟩ := List.mem_map.mp isIn
    exact ⟨rfl, Or.inl rfl⟩

end Legs

/-- What a close read before it claimed anything: the period's own bounds, the
house account its sweep lands in, and the instant one microsecond inside. -/
structure PlanFits (book : Book) (command : ClosePeriod) (plan : ClosePlan) : Prop where
  period : ∃ period ∈ book.periods, period.tenantId = command.tenantId ∧
    period.code = command.periodCode ∧ period.startsAt = plan.startsAt ∧
    period.endsAt = plan.endsAt
  destination : ∃ account ∈ book.accounts, account.tenantId = command.tenantId ∧
    account.id = plan.retainedEarnings ∧ account.purpose = "retained_earnings" ∧
    account.ownerType = .house ∧ account.currency = command.currency
  instant : theLastInstantInside plan.endsAt = some plan.closesAt

section Landing

variable {env : Env} {snapshot current : Book} {command : ClosePeriod} {plan : ClosePlan}
  {hash : List UInt8} {payload : Json}

theorem PlanFits.later {earlier later : Book} (precedes : earlier.Precedes later)
    (fits : PlanFits earlier command plan) : PlanFits later command plan where
  period := by
    obtain ⟨period, member, spec⟩ := fits.period
    exact ⟨period, precedes.periods.subset member, spec⟩
  destination := by
    obtain ⟨account, member, spec⟩ := fits.destination
    exact ⟨account, precedes.accounts.subset member, spec⟩
  instant := fits.instant

/-- What the closing context answers fits the book it was read from. -/
theorem planFits_of_context {book : Book} {context : PeriodCloseContext}
    {retainedEarnings : Uuid} {closesAt : Timestamp}
    (answered : periodCloseContext book command = some context)
    (destination : context.retainedEarnings = some retainedEarnings)
    (instant : theLastInstantInside context.endsAt = some closesAt) :
    PlanFits book command
      ⟨context.startsAt, context.endsAt, retainedEarnings, closesAt⟩ := by
  obtain ⟨period, found, rfl⟩ := Option.map_eq_some_iff.mp answered
  obtain ⟨account, isAccount, rfl⟩ := Option.map_eq_some_iff.mp destination
  have ofPeriod := List.find?_some found
  have ofAccount := List.find?_some isAccount
  simp only [Bool.and_eq_true, decide_eq_true_eq] at ofPeriod ofAccount
  exact
  { period := ⟨period, List.mem_of_find?_eq_some found, ofPeriod.1, ofPeriod.2, rfl, rfl⟩
    destination := ⟨account, List.mem_of_find?_eq_some isAccount,
      ofAccount.1.1.1.trans ofPeriod.1, rfl, ofAccount.1.1.2, ofAccount.1.2, ofAccount.2⟩
    instant := instant }

theorem sweptBy_apart {p : SweptPosition} (member : p ∈ sweptBy env snapshot command plan) :
    p.accountId ≠ plan.retainedEarnings := by
  obtain ⟨e, _, admitted, onAccount⟩ := entry_of_mem_position member
  simp only [sweepAdmits, Bool.and_eq_true, decide_eq_true_eq] at admitted
  rw [← onAccount]
  exact admitted.1.1.2

theorem sweptBy_known {p : SweptPosition} (member : p ∈ sweptBy env snapshot command plan) :
    (snapshot.account? command.tenantId p.accountId command.currency).isSome := by
  obtain ⟨e, _, admitted, onAccount⟩ := entry_of_mem_position member
  simp only [sweepAdmits, Bool.and_eq_true, decide_eq_true_eq] at admitted
  obtain ⟨⟨⟨⟨⟨⟨tenant, ofCurrency⟩, _⟩, temporary⟩, _⟩, _⟩, _⟩ := admitted
  rw [isTemporary, Option.any_eq_true] at temporary
  obtain ⟨category, ofAccount, _⟩ := temporary
  obtain ⟨account, found, _⟩ := Option.map_eq_some_iff.mp ofAccount
  rw [← onAccount, ← tenant, ← ofCurrency, found]
  rfl

/-- The rows a close's legs land from. -/
def closeLegRows (env : Env) (snapshot : Book) (command : ClosePeriod) (plan : ClosePlan) :
    List LegRow :=
  (closeLegs env snapshot command plan).map fun numbered =>
    ⟨command.tenantId, env.transactionId 0, numbered.1, numbered.2, plan.closesAt⟩

theorem closeLegRows_leg :
    (closeLegRows env snapshot command plan).map LegRow.leg =
      (closeLegs env snapshot command plan).map Prod.fst := by
  rw [closeLegRows, List.map_map]
  rfl

theorem mem_closeLegRows {row : LegRow} (member : row ∈ closeLegRows env snapshot command plan) :
    row.tenantId = command.tenantId ∧ row.transactionId = env.transactionId 0 ∧
      row.effectiveAt = plan.closesAt ∧
      row.leg ∈ (closeLegs env snapshot command plan).map Prod.fst := by
  obtain ⟨numbered, isThere, rfl⟩ := List.mem_map.mp member
  exact ⟨rfl, rfl, rfl, List.mem_map_of_mem isThere⟩

theorem close_coheres (env : Env) (fits : PlanFits snapshot command plan) :
    Coheres snapshot true (closeDelta env snapshot command plan)
      (closeLegRows env snapshot command plan) := by
  rw [closeDelta, ← closeLegRows_leg]
  refine coheres_groupDeltas (fun row member => (mem_closeLegRows member).1)
    (fun row member => ?_) ?_
  · obtain ⟨ofCurrency, onAccount⟩ := leg_account (mem_closeLegRows member).2.2.2
    rw [ofCurrency]
    rcases onAccount with isDestination | ⟨p, isSwept, same⟩
    · obtain ⟨account, isThere, tenant, id, _, _, held⟩ := fits.destination
      rw [isDestination, Book.account?, List.find?_isSome]
      exact ⟨account, isThere, by simp [tenant, id, held]⟩
    · rw [same]
      exact sweptBy_known isSwept
  · have walked : (closeLegs env snapshot command plan).map Prod.snd =
        Numbering.walkBack Leg.key ((closeLegs env snapshot command plan).map Prod.fst) :=
      leg_offsets position_nodup fun p isSwept => sweptBy_apart isSwept
    rw [closeLegRows_leg, ← walked, closeLegRows, List.map_map]
    rfl

/-- The rows of a claimed close are read back as the close. -/
theorem closedFromTheRows_closeRows (env : Env) (positions : List SweptPosition) :
    closedFromTheRows (closeRows env positions) =
      .ok (some (.closed (env.eventId 0) (env.transactionId 0) env.xid positions)) := by
  cases positions with
  | nil =>
      rfl
  | cons p rest =>
      have swept : ((p :: rest).map fun p : SweptPosition =>
          (⟨env.eventId 0, some (env.transactionId 0), env.xid, some p⟩ :
            ClosedRow)).filterMap ClosedRow.swept = p :: rest := by
        rw [List.filterMap_map]
        exact List.filterMap_some
      exact congrArg (fun swept => Except.ok (some (ClosedPeriod.closed
        (env.eventId 0) (env.transactionId 0) env.xid swept))) swept

/-- What it takes for the closing statement to answer a close. -/
theorem claimAndClosePeriod_closed {eventId transactionId : Uuid} {computedAtXid : Xid}
    {swept : List SweptPosition} {writes : Writes}
    (answered : claimAndClosePeriod env snapshot current command hash payload plan =
      (.ok (some (.closed eventId transactionId computedAtXid swept)), writes)) :
    current.holderOf command.tenantId command.idempotencyKey = none ∧
      violation env.tzKnown current
        (closeWrites env snapshot current command hash payload plan) = none ∧
      eventId = env.eventId 0 ∧ transactionId = env.transactionId 0 ∧
      computedAtXid = env.xid ∧ swept = sweptBy env snapshot command plan ∧
      writes = closeWrites env snapshot current command hash payload plan := by
  unfold claimAndClosePeriod at answered
  cases held : current.holderOf command.tenantId command.idempotencyKey with
  | some event =>
      simp [held, closedFromTheRows] at answered
  | none =>
      rw [held] at answered
      simp only [Option.isSome_none, Bool.false_eq_true, if_false] at answered
      split at answered
      · cases answered
      · rename_i error _ _
        cases race : refusalFromTheCloseRace error with
        | none =>
            simp [race] at answered
        | some refused =>
            simp only [race, Prod.mk.injEq, Except.ok.injEq, Option.some.injEq] at answered
            rw [answered.1] at race
            unfold refusalFromTheCloseRace at race
            split at race <;> cases race
      · rename_i _ allowed
        rw [closedFromTheRows_closeRows] at answered
        simp only [Prod.mk.injEq, Except.ok.injEq, Option.some.injEq,
          ClosedPeriod.closed.injEq] at answered
        obtain ⟨⟨event, transaction, cursor, positions⟩, written⟩ := answered
        exact ⟨rfl, allowed, event.symm, transaction.symm, cursor.symm, positions.symm,
          written.symm⟩

/-- What it takes for the checkpoint to be answered. -/
theorem checkpointTheClose_answered {transactionId : Uuid} {cursor : Xid} {rows : Nat}
    (answered : (checkpointTheClose env snapshot current command plan transactionId
      cursor).1 = .ok rows) :
    violation env.tzKnown current
        { periodBalances := checkpointRows snapshot command plan transactionId cursor } =
      none ∧
      rows = (checkpointRows snapshot command plan transactionId cursor).length ∧
      (checkpointTheClose env snapshot current command plan transactionId cursor).2 =
        { periodBalances := checkpointRows snapshot command plan transactionId cursor } := by
  unfold checkpointTheClose at answered ⊢
  dsimp only at answered ⊢
  split at answered
  · cases answered
  · rename_i allowed
    simp only [Except.ok.injEq] at answered
    simp only [allowed]
    exact ⟨trivial, answered.symm, trivial⟩

/-- A checkpoint's rows are on known accounts, as the entries they sum are. -/
theorem checkpointRows_onAccount {transactionId : Uuid} {cursor : Xid} (kept : Kept snapshot) :
    ∀ row ∈ checkpointRows snapshot command plan transactionId cursor,
      (snapshot.account? row.tenantId row.accountId row.currency).isSome := by
  intro row member
  obtain ⟨accountId, isAccount, rfl⟩ := List.mem_map.mp member
  obtain ⟨e, isAdmitted, rfl⟩ := List.mem_map.mp (List.mem_dedup.mp isAccount)
  obtain ⟨isThere, admits⟩ := List.mem_filter.mp isAdmitted
  simp only [checkpointAdmits, Bool.and_eq_true, decide_eq_true_eq] at admits
  have known := kept.onAccount e isThere
  rw [admits.1.1.1.1, admits.1.1.1.2] at known
  exact known

/-- The closing transaction. -/
def closingTxn (env : Env) (command : ClosePeriod) (plan : ClosePlan) : TransactionRow where
  tenantId := command.tenantId
  id := env.transactionId 0
  eventId := env.eventId 0
  kind := "period_close"
  status := .posted
  effectiveAt := plan.closesAt
  resolvesId := none
  reversesId := none
  xactId := env.xid

/-- A closing statement that met no constraint lands. -/
theorem closeWrites_lands (hash : List UInt8) (payload : Json)
    (precedes : snapshot.Precedes current)
    (fits : PlanFits snapshot command plan)
    (free : current.holderOf command.tenantId command.idempotencyKey = none)
    (allowed : violation env.tzKnown current
      (closeWrites env snapshot current command hash payload plan) = none) :
    Lands current (closeWrites env snapshot current command hash payload plan) := by
  have admits := (violation_eq_none_iff ..).mp allowed
  have coheres := close_coheres env fits
  have transactions : ∀ transaction ∈
      (closeWrites env snapshot current command hash payload plan).transactions,
      transaction = closingTxn env command plan := fun _ member => List.mem_singleton.mp member
  have isOf : ∀ row ∈ closeLegRows env snapshot command plan,
      row.IsOf env.xid true (closingTxn env command plan) := by
    intro row member
    obtain ⟨tenant, id, at_, _⟩ := mem_closeLegRows member
    exact
    { tenant := tenant.symm
      id := id.symm
      effectiveAt := at_.symm
      xactId := rfl
      status := by simp [closingTxn] }
  exact
  { toLandsEntries := by
      refine coheres.landsEntries precedes rfl rfl admits.pkTxn.1
        (fun row member => ⟨closingTxn env command plan, List.mem_singleton_self _,
          isOf row member⟩)
        (fun row member => leg_positive (fun p isSwept => (mem_position.mp isSwept).2) row.leg
          (mem_closeLegRows member).2.2.2)
        (legSideOf_foots (fun row member => (mem_closeLegRows member).1)
          (fun row member => (mem_closeLegRows member).2.1) ?_)
      rw [closeLegRows_leg]
      exact leg_foots command.currency plan.retainedEarnings (sweptBy env snapshot command plan)
    admitted := ⟨env.tzKnown, admits⟩
    claims := claims_of_free free
    nonEmpty := fun transaction member => by
      rw [transactions transaction member]
      exact Or.inl (Or.inl rfl)
    supersedes := fun transaction member => by
      rw [transactions transaction member]
      exact ⟨fun _ resolves => absurd resolves (Option.some_ne_none _).symm,
        fun _ reverses => absurd reverses (Option.some_ne_none _).symm⟩
    notBoth := fun transaction member => by
      obtain rfl := List.mem_singleton.mp member
      exact Or.inl rfl
    checkpointed := fun _ member => by cases member
    balancesOnAccount := fun _ member => by cases member
    pendingPlain := fun transaction member pending => by
      rw [transactions transaction member] at pending
      cases pending
    caused := fun transaction member => by
      rw [transactions transaction member]
      exact ⟨_, List.mem_singleton_self _, rfl, rfl, rfl⟩
    closed := fun close member => by
      obtain rfl := List.mem_singleton.mp member
      exact ⟨closingTxn env command plan, List.mem_singleton_self _,
        ⟨rfl, rfl, rfl, rfl, rfl, rfl⟩⟩
    named := fun transaction member _ => by
      rw [transactions transaction member]
      exact ⟨_, List.mem_singleton_self _, ⟨rfl, rfl, rfl, rfl, rfl, rfl⟩⟩
    ofPeriod := fun close member => by
      obtain rfl := List.mem_singleton.mp member
      obtain ⟨period, isThere, tenant, code, starts, ends⟩ := (fits.later precedes).period
      exact ⟨period, isThere, ⟨tenant, code, starts, ends⟩⟩
    apart := List.Pairwise.nil
    charted := fun account member => by cases member }

end Landing

end OpenLedger.Postgres
