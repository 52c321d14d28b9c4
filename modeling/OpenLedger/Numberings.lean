import OpenLedger.Runs
import OpenLedger.Postgres.AppendLanding
import OpenLedger.Postgres.BatchLanding
import OpenLedger.Postgres.CloseLanding

/-!
# Plans and numberings

A plan is a function of its postings: when it exists, what each account and
currency moves, and which position each leg takes.  The statements that derive
legs of their own number them by a window function instead, and come to the
same numbers.
-/

namespace OpenLedger

section Coalescing

variable {legs : List Leg}

theorem coalesce_concat (legs : List Leg) (leg : Leg) :
    coalesce (legs ++ [leg]) = (coalesce legs).bind fun deltas => coalesceLeg deltas leg := by
  rw [coalesce, coalesce, List.foldlM_append]
  cases legs.foldlM coalesceLeg .empty with
  | error overflow =>
      rfl
  | ok deltas =>
      exact bind_pure (coalesceLeg deltas leg)

theorem sideSum_nonneg (positive : ∀ leg ∈ legs, 0 < leg.amountMinor) (direction : Direction)
    (key : AccountKey) : 0 ≤ sideSum direction key legs :=
  Tally.sumWhere_nonneg fun leg member _ => (positive leg member).le

/-- What was coalesced so far never exceeds what all the legs come to. -/
theorem sideSum_take_le (positive : ∀ leg ∈ legs, 0 < leg.amountMinor) (direction : Direction)
    (key : AccountKey) (count : Nat) :
    sideSum direction key (legs.take count) ≤ sideSum direction key legs := by
  have restPositive : ∀ leg ∈ legs.drop count, 0 < leg.amountMinor :=
    fun leg member => positive leg (List.mem_of_mem_drop member)
  have rest := sideSum_nonneg restPositive direction key
  have split : sideSum direction key legs =
      sideSum direction key (legs.take count) + sideSum direction key (legs.drop count) := by
    rw [sideSum, sideSum, sideSum, ← Tally.sumWhere_append, List.take_append_drop]
  omega

/-- One leg is refused exactly when its own side leaves the range. -/
theorem coalesceLeg_error_iff {deltas : OrdMap AccountKey Delta}
    (coalesced : Coalesced deltas legs) (leg : Leg) :
    coalesceLeg deltas leg = .error ⟨⟩ ↔
      checkedAdd (sideSum leg.direction leg.key legs) leg.amountMinor = none := by
  rw [coalesceLeg, coalesced_getD coalesced]
  cases leg.direction with
  | debit =>
      cases checkedAdd (sideSum .debit leg.key legs) leg.amountMinor with
      | none => simp
      | some total => simp
  | credit =>
      cases checkedAdd (sideSum .credit leg.key legs) leg.amountMinor with
      | none => simp
      | some total => simp

theorem checkedAdd_eq_none_iff {left right : Int} (leftNonneg : 0 ≤ left)
    (rightNonneg : 0 ≤ right) :
    checkedAdd left right = none ↔ i64Max < left + right := by
  have above : i64Min ≤ left + right := by
    unfold i64Min
    omega
  simp [checkedAdd, above]

/-- Positive legs coalesce exactly when no side of any account and currency
exceeds 64-bit minor units. -/
theorem coalesce_error_iff (positive : ∀ leg ∈ legs, 0 < leg.amountMinor) :
    coalesce legs = .error ⟨⟩ ↔
      ∃ direction key, i64Max < sideSum direction key legs := by
  induction legs using List.reverseRecOn with
  | nil =>
      simp [coalesce, sideSum, i64Max, pure, Except.pure]
  | append_singleton earlier leg inductionHypothesis =>
      have earlierPositive : ∀ other ∈ earlier, 0 < other.amountMinor := fun other member =>
        positive other (List.mem_append_left _ member)
      have legPositive : 0 < leg.amountMinor :=
        positive leg (List.mem_append_right _ (List.mem_singleton_self leg))
      have grows : ∀ direction key,
          sideSum direction key earlier ≤ sideSum direction key (earlier ++ [leg]) := by
        intro direction key
        have before := sideSum_take_le positive direction key earlier.length
        rwa [List.take_left] at before
      rw [coalesce_concat]
      cases done : coalesce earlier with
      | error overflow =>
          obtain ⟨direction, key, exceeds⟩ := (inductionHypothesis earlierPositive).mp done
          have exceedsStill := exceeds.trans_le (grows direction key)
          exact ⟨fun _ => ⟨direction, key, exceedsStill⟩, fun _ => rfl⟩
      | ok deltas =>
          have fits : ∀ direction key, sideSum direction key earlier ≤ i64Max := by
            intro direction key
            by_contra exceeds
            have refused := (inductionHypothesis earlierPositive).mpr
              ⟨direction, key, not_le.mp exceeds⟩
            rw [done] at refused
            cases refused
          rw [Except.bind, coalesceLeg_error_iff (coalesce_ok done),
            checkedAdd_eq_none_iff (sideSum_nonneg earlierPositive _ _) legPositive.le]
          constructor
          · intro exceeds
            refine ⟨leg.direction, leg.key, ?_⟩
            rwa [sideSum_concat, if_pos ⟨rfl, rfl⟩]
          · intro hasExceeding
            obtain ⟨direction, key, exceeds⟩ := hasExceeding
            rw [sideSum_concat] at exceeds
            split at exceeds
            · rename_i own
              obtain ⟨rfl, rfl⟩ := own
              exact exceeds
            · have fitsHere := fits direction key
              omega

theorem sideSum_perm {left right : List Leg} (permutation : left.Perm right)
    (direction : Direction) (key : AccountKey) :
    sideSum direction key left = sideSum direction key right :=
  Tally.sumWhere_perm permutation

theorem coalesced_perm {left right : List Leg} (permutation : left.Perm right)
    {deltas : OrdMap AccountKey Delta} (coalesced : Coalesced deltas left) :
    Coalesced deltas right := by
  intro key
  have sameCount : legCount key left = legCount key right := permutation.countP_eq _
  rw [coalesced key, sameCount, sideSum_perm permutation, sideSum_perm permutation]

theorem coalesced_unique {first second : OrdMap AccountKey Delta}
    (isFirst : Coalesced first legs) (isSecond : Coalesced second legs) : first = second :=
  OrdMap.eq_of_get? fun key => (isFirst key).trans (isSecond key).symm

end Coalescing

section Plans

variable {postings : List Posting} {status : TransactionStatus} {append : Append}

theorem length_expandPostings (postings : List Posting) :
    (expandPostings postings).length = 2 * postings.length := by
  induction postings with
  | nil =>
      rfl
  | cons posting rest inductionHypothesis =>
      have expanded : expandPostings (posting :: rest) =
          [⟨posting.source, posting.currency, .credit, posting.amountMinor⟩,
            ⟨posting.destination, posting.currency, .debit, posting.amountMinor⟩] ++
            expandPostings rest := rfl
      rw [expanded, List.length_append, inductionHypothesis, List.length_cons]
      simp only [List.length_cons, List.length_nil]
      omega

/-- A posting's credit leg stands at twice its place, its debit leg right after. -/
theorem getElem?_expandPostings {index : Nat} {posting : Posting}
    (here : postings[index]? = some posting) :
    (expandPostings postings)[2 * index]? =
        some ⟨posting.source, posting.currency, .credit, posting.amountMinor⟩ ∧
      (expandPostings postings)[2 * index + 1]? =
        some ⟨posting.destination, posting.currency, .debit, posting.amountMinor⟩ := by
  induction postings generalizing index with
  | nil =>
      cases here
  | cons first rest inductionHypothesis =>
      have expanded : expandPostings (first :: rest) =
          ⟨first.source, first.currency, .credit, first.amountMinor⟩ ::
            ⟨first.destination, first.currency, .debit, first.amountMinor⟩ ::
              expandPostings rest := rfl
      cases index with
      | zero =>
          obtain rfl := Option.some.inj here
          rw [expanded]
          exact ⟨rfl, rfl⟩
      | succ index =>
          have further := inductionHypothesis here
          have twice : 2 * (index + 1) = 2 * index + 1 + 1 := by omega
          rw [expanded, twice, List.getElem?_cons_succ, List.getElem?_cons_succ,
            List.getElem?_cons_succ, List.getElem?_cons_succ]
          exact further

theorem planAppend_error_iff (postings : List Posting) (status : TransactionStatus) :
    planAppend postings status = .error ⟨⟩ ↔ coalesce (expandPostings postings) = .error ⟨⟩ := by
  cases coalesced : coalesce (expandPostings postings) with
  | error overflow =>
      simp [planAppend, coalesced, bind, Except.bind]
  | ok deltas =>
      simp [planAppend, coalesced, bind, Except.bind, pure, Except.pure]

/-- What each account and currency of a plan moves: its legs' sums when they
land on the books, nothing when they are a claim about what may happen. -/
theorem planAppend_deltas (planned : planAppend postings status = .ok append)
    (key : AccountKey) :
    append.deltas.get? key =
      if legCount key append.legs = 0 then none
      else if status = .posted then
        some ⟨sideSum .debit key append.legs, sideSum .credit key append.legs,
          legCount key append.legs⟩
      else some ⟨0, 0, legCount key append.legs⟩ := by
  obtain ⟨_, _, deltas, coalesced, isDeltas⟩ := planAppend_ok planned
  rw [isDeltas, OrdMap.get?_mapValues, coalesced key]
  by_cases none : legCount key append.legs = 0
  · rw [if_pos none, if_pos none]
    rfl
  · rw [if_neg none, if_neg none]
    cases status with
    | pending => rfl
    | posted => rfl

/-- The order of the postings decides neither whether there is a plan nor what
it moves. -/
theorem planAppend_perm {reordered : List Posting} (permutation : postings.Perm reordered)
    (status : TransactionStatus) :
    (planAppend reordered status).map Append.deltas =
      (planAppend postings status).map Append.deltas := by
  have legs : (expandPostings postings).Perm (expandPostings reordered) :=
    permutation.flatMap_right _
  have positive : ∀ chosen : List Posting, ∀ leg ∈ expandPostings chosen,
      0 < leg.amountMinor := fun _ _ member => amountMinor_pos_of_mem_expandPostings member
  have sameRefusal : planAppend reordered status = .error ⟨⟩ ↔
      planAppend postings status = .error ⟨⟩ := by
    rw [planAppend_error_iff, planAppend_error_iff, coalesce_error_iff (positive _),
      coalesce_error_iff (positive _)]
    simp only [sideSum_perm legs]
  cases before : planAppend postings status with
  | error overflow =>
      rw [sameRefusal.mpr before]
  | ok append =>
      cases after : planAppend reordered status with
      | error overflow =>
          rw [sameRefusal.mp after] at before
          cases before
      | ok other =>
          obtain ⟨isLegs, _, deltas, coalesced, isDeltas⟩ := planAppend_ok before
          obtain ⟨isLegs', _, deltas', coalesced', isDeltas'⟩ := planAppend_ok after
          rw [isLegs] at coalesced
          rw [isLegs'] at coalesced'
          have same := coalesced_unique (coalesced_perm legs coalesced) coalesced'
          simp only [Except.map, isDeltas, isDeltas', same]

/-- A plan is exact, and a list is refused on its sums alone: those of a pending
list count although it moves nothing. -/
theorem planAppend_exact (postings : List Posting) (status : TransactionStatus) :
    (planAppend postings status = .error ⟨⟩ ↔
        ∃ direction key, i64Max < sideSum direction key (expandPostings postings)) ∧
      (∀ reordered, postings.Perm reordered →
        (planAppend reordered status).map Append.deltas =
          (planAppend postings status).map Append.deltas) ∧
      ∀ append, planAppend postings status = .ok append →
        append.legs.length = 2 * postings.length ∧
          append.seqOffsets.length = append.legs.length ∧
          (∀ index posting, postings[index]? = some posting →
            append.legs[2 * index]? =
                some ⟨posting.source, posting.currency, .credit, posting.amountMinor⟩ ∧
              append.legs[2 * index + 1]? =
                some ⟨posting.destination, posting.currency, .debit, posting.amountMinor⟩) ∧
          (∀ key, append.deltas.get? key =
            if legCount key append.legs = 0 then none
            else if status = .posted then
              some ⟨sideSum .debit key append.legs, sideSum .credit key append.legs,
                legCount key append.legs⟩
            else some ⟨0, 0, legCount key append.legs⟩) ∧
          (∀ count direction key, 0 ≤ sideSum direction key (append.legs.take count) ∧
            sideSum direction key (append.legs.take count) ≤ i64Max) ∧
          ∀ key delta, append.deltas.get? key = some delta → ∀ counter : Int,
            ((append.legs.zip append.seqOffsets).filter fun numbered =>
                decide (numbered.1.key = key)).map (fun numbered =>
                  counter + delta.legs - numbered.2) =
              Numbering.countingFrom counter delta.legs := by
  have positive : ∀ leg ∈ expandPostings postings, 0 < leg.amountMinor :=
    fun _ member => amountMinor_pos_of_mem_expandPostings member
  have refused : planAppend postings status = .error ⟨⟩ ↔
      ∃ direction key, i64Max < sideSum direction key (expandPostings postings) := by
    rw [planAppend_error_iff, coalesce_error_iff positive]
  refine ⟨refused, fun reordered permutation => planAppend_perm permutation status,
    fun append planned => ?_⟩
  obtain ⟨legs, offsets, _⟩ := planAppend_ok planned
  refine ⟨?_, ?_, ?_, planAppend_deltas planned, ?_, ?_⟩
  · rw [legs, length_expandPostings]
  · rw [offsets, Numbering.length_walkBack]
  · intro index posting here
    rw [legs]
    exact getElem?_expandPostings here
  · intro count direction key
    rw [legs]
    have fits : sideSum direction key (expandPostings postings) ≤ i64Max := by
      by_contra exceeds
      have isRefused := refused.mpr ⟨direction, key, not_le.mp exceeds⟩
      rw [planned] at isRefused
      cases isRefused
    have taken := sideSum_take_le positive direction key count
    exact ⟨sideSum_nonneg (fun leg member => positive leg (List.mem_of_mem_take member)) _ _,
      taken.trans fits⟩
  · intro key delta held counter
    have count : delta.legs = legCount key append.legs := by
      rw [planAppend_deltas planned] at held
      split at held
      · cases held
      · split at held
        · rw [← Option.some.inj held]
        · rw [← Option.some.inj held]
    rw [count, offsets]
    exact Numbering.numbers_walkBack Leg.key append.legs key counter

theorem Shop.twoFees_planned :
    ∃ append, planAppend [Shop.fee 70, Shop.fee 30] .posted = .ok append ∧
      append.deltas.get? (toLex (Shop.till, "USD")) = some ⟨100, 0, 2⟩ := by
  have fits : (planAppend [Shop.fee 70, Shop.fee 30] .posted).toOption.isSome = true := by
    decide +kernel
  cases planned : planAppend [Shop.fee 70, Shop.fee 30] .posted with
  | error overflow =>
      rw [planned] at fits
      cases fits
  | ok append =>
      have exact := (planAppend_exact [Shop.fee 70, Shop.fee 30] .posted).2.2 append planned
      refine ⟨append, rfl, ?_⟩
      rw [exact.2.2.2.1, (planAppend_ok planned).1]
      decide +kernel

/-- Two fees that together exceed what an account may move. -/
theorem Shop.pending_overflow_refused :
    ¬ ∀ (postings : List Posting) (status : TransactionStatus),
      planAppend postings status = .error ⟨⟩ ↔
        status = .posted ∧
          ∃ direction key, i64Max < sideSum direction key (expandPostings postings) := by
  intro claimed
  have refused : planAppend [Shop.fee 9223372036854775807, Shop.fee 9223372036854775807]
      .pending = .error ⟨⟩ := by
    rw [planAppend_error_iff, coalesce_error_iff fun _ member =>
      amountMinor_pos_of_mem_expandPostings member]
    exact ⟨.debit, toLex (Shop.till, "USD"), by decide +kernel⟩
  have isPosted := ((claimed _ _).mp refused).1
  cases isPosted

end Plans

namespace Postgres

section Windows

variable {members : List BatchMember} {rows : List ProceedingRow} {upserts : List UpsertRow}

/-- A batch's legs are bound in the order of their ordinals. -/
theorem memberLeg_increasing (members : List BatchMember) :
    (memberLeg members).Pairwise fun left right =>
      toLex (left.ord, left.legOrd) < toLex (right.ord, right.legOrd) := by
  rw [memberLeg, List.pairwise_flatMap]
  constructor
  · intro m _
    rw [List.pairwise_map]
    refine (Numbering.withOrdinality_increasing m.2.append.legs).imp fun below => ?_
    exact Prod.Lex.toLex_lt_toLex.mpr (Or.inr ⟨rfl, below⟩)
  · refine (Numbering.withOrdinality_increasing members).imp fun below left isLeft right isRight => ?_
    obtain ⟨_, _, rfl⟩ := List.mem_map.mp isLeft
    obtain ⟨_, _, rfl⟩ := List.mem_map.mp isRight
    exact Prod.Lex.toLex_lt_toLex.mpr (Or.inl below)

theorem proceedingLegs_increasing (members : List BatchMember) (rows : List ProceedingRow)
    (upserts : List UpsertRow) :
    (proceedingLegs members rows upserts).Pairwise fun left right =>
      toLex (left.ord, left.legOrd) < toLex (right.ord, right.legOrd) := by
  rw [proceedingLegs, List.pairwise_filterMap]
  refine (memberLeg_increasing members).imp fun below left isLeft right isRight => ?_
  obtain ⟨_, _, joinedLeft⟩ := Option.bind_eq_some_iff.mp isLeft
  obtain ⟨_, _, rfl⟩ := Option.map_eq_some_iff.mp joinedLeft
  obtain ⟨_, _, joinedRight⟩ := Option.bind_eq_some_iff.mp isRight
  obtain ⟨_, _, rfl⟩ := Option.map_eq_some_iff.mp joinedRight
  exact below

/-- The window's order is the order the legs came in, so the batch walks back
along them. -/
theorem numbered_eq_walkBack (members : List BatchMember) (rows : List ProceedingRow)
    (upserts : List UpsertRow) :
    numbered members rows upserts =
      ((proceedingLegs members rows upserts).zip
        (Numbering.walkBack NumberedRow.stripeKey
          (proceedingLegs members rows upserts))).map fun offset =>
            { offset.1.row with seqOffset := offset.2 } := by
  have sorted : (proceedingLegs members rows upserts).insertionSort (fun left right =>
      toLex (left.ord, left.legOrd) ≤ toLex (right.ord, right.legOrd)) =
        proceedingLegs members rows upserts :=
    ((proceedingLegs_increasing members rows upserts).imp fun below => below.le).insertionSort_eq
  rw [numbered, Numbering.windowOffsets_eq, sorted]

/-- A batch of one member binds that member's legs. -/
theorem memberLeg_singleton (m : BatchMember) :
    (memberLeg [m]).map MemberLegRow.leg = m.append.legs := by
  simp only [memberLeg, Numbering.withOrdinality, List.mapIdx_cons, List.mapIdx_nil,
    List.flatMap_singleton, List.map_map]
  exact Numbering.map_snd_withOrdinality m.append.legs

theorem ord_of_memberLeg_singleton {m : BatchMember} {ml : MemberLegRow}
    (isLeg : ml ∈ memberLeg [m]) : ml.ord = 1 := by
  simp only [memberLeg, Numbering.withOrdinality, List.mapIdx_cons, List.mapIdx_nil,
    List.flatMap_singleton, List.mem_map] at isLeg
  obtain ⟨_, _, rfl⟩ := isLeg
  rfl

theorem tenantId_of_memberLeg_singleton {m : BatchMember} {ml : MemberLegRow}
    (isLeg : ml ∈ memberLeg [m]) : ml.tenantId = m.command.tenantId := by
  simp only [memberLeg, Numbering.withOrdinality, List.mapIdx_cons, List.mapIdx_nil,
    List.flatMap_singleton, List.mem_map] at isLeg
  obtain ⟨_, _, rfl⟩ := isLeg
  rfl

theorem numbered_of_none_proceeding (members : List BatchMember) (upserts : List UpsertRow) :
    numbered members [] upserts = [] := by
  have none : proceedingLegs members [] upserts = [] := by
    rw [proceedingLegs, List.filterMap_eq_nil_iff]
    intro ml _
    rfl
  rw [numbered_eq_walkBack, none]
  rfl

/-- A batch of one is numbered as its own plan would number it. -/
theorem numbered_singleton (affinity : Nat) {snapshot : Book} {m : BatchMember}
    {p : ProceedingRow} (isMember : p.ord = 1)
    (known : Known snapshot (batchDelta [m] [p])) :
    (numbered [m] [p] (striped snapshot affinity (batchDelta [m] [p]))).map
        (fun row => (row.leg, row.seqOffset)) =
      m.append.legs.zip (offsetsBackFromLastSeq m.append.legs) := by
  have proceeds : ∀ ml ∈ memberLeg [m], proceedingAt [p] ml.ord = some p := by
    intro ml isLeg
    simp [proceedingAt, ord_of_memberLeg_singleton isLeg, isMember]
  have legs : (proceedingLegs [m] [p] (striped snapshot affinity (batchDelta [m] [p]))).map
      (fun n => n.row.leg) = m.append.legs := by
    rw [proceedingLegs, List.map_filterMap, ← memberLeg_singleton m, ← List.filterMap_eq_map]
    refine List.filterMap_congr fun ml isLeg => ?_
    obtain ⟨s, found, _⟩ :=
      upsert_of_memberLeg affinity known isLeg (by rw [proceeds ml isLeg]; rfl)
    rw [proceeds ml isLeg, Option.bind_some, found]
    rfl
  have counters : Numbering.walkBack NumberedRow.stripeKey
      (proceedingLegs [m] [p] (striped snapshot affinity (batchDelta [m] [p]))) =
        offsetsBackFromLastSeq m.append.legs := by
    rw [offsetsBackFromLastSeq_eq, ← legs, Numbering.walkBack_map]
    refine Numbering.walkBack_congr fun left isLeft right isRight => ?_
    obtain ⟨mlLeft, legLeft, _, _, _, pickedLeft, rfl⟩ :=
      (mem_proceedingLegs affinity known).mp isLeft
    obtain ⟨mlRight, legRight, _, _, _, pickedRight, rfl⟩ :=
      (mem_proceedingLegs affinity known).mp isRight
    rw [tenantId_of_memberLeg_singleton legLeft] at pickedLeft
    rw [tenantId_of_memberLeg_singleton legRight] at pickedRight
    constructor
    · intro same
      have ofLeft := tenantKeyOf_stripeOf pickedLeft
      have ofRight := tenantKeyOf_stripeOf pickedRight
      simp only at same
      rw [same, ofRight] at ofLeft
      exact (congrArg Prod.snd ofLeft).symm
    · intro same
      have sameKey : mlLeft.leg.key = mlRight.leg.key := same
      rw [sameKey, pickedRight] at pickedLeft
      exact (Option.some.inj pickedLeft).symm
  rw [numbered_eq_walkBack, counters, ← legs, List.zip_map_left, List.map_map]
  rfl

/-- One member proceeds alone or not at all, and only past the gate. -/
theorem proceeding_singleton (env : Env) (snapshot current : Book) (m : BatchMember) :
    proceeding env snapshot current [m] = [] ∨
      ∃ p, proceeding env snapshot current [m] = [p] ∧ p.ord = 1 ∧
        Known snapshot (batchDelta [m] [p]) := by
  cases isProceeding : proceeding env snapshot current [m] with
  | nil =>
      exact Or.inl rfl
  | cons p rest =>
      have bound := List.length_filterMap_le (fun row : MemberRow =>
        ((claimed env snapshot current [m]).find? fun event =>
          decide (event.tenantId = row.tenantId) &&
            decide (event.idempotencyKey = row.idempotencyKey)).map fun event =>
              (⟨row.ord, event.id, row.tenantId, env.transactionId row.ord,
                row.effectiveAt.getD 0⟩ : ProceedingRow)) (member [m])
      have atMostOne : (p :: rest).length ≤ 1 := by
        rw [← isProceeding]
        exact bound
      have alone : rest = [] := by
        rw [List.length_cons] at atMostOne
        exact List.length_eq_zero_iff.mp (by omega)
      subst alone
      refine Or.inr ⟨p, rfl, ?_, ?_⟩
      · have isThere : p ∈ proceeding env snapshot current [m] := by
          rw [isProceeding]
          exact List.mem_singleton_self p
        obtain ⟨row, isRow, _, _, rfl⟩ := mem_proceeding.mp isThere
        simp only [member, Numbering.withOrdinality, List.mapIdx_cons, List.mapIdx_nil,
          List.map_cons, List.map_nil, List.mem_singleton] at isRow
        rw [isRow]
      · have onePerEvent : UniqueIndex.Holds TransactionRow.eventKey
            (batchTxn env (proceeding env snapshot current [m])) := by
          rw [isProceeding]
          exact List.nodup_singleton _
        have known := known_of_proceeding env onePerEvent
        rwa [isProceeding] at known

/-- Every numbering counts each counter's rows down along its own order: the
plan's along the postings, a mirror's along its target's positions, a batch's
along members and their legs, a close's along the accounts it sweeps.  A batch
of one member is numbered as the member's own plan numbers it. -/
theorem numberings_agree :
    (∀ legs : List Leg,
      (legs.zip (offsetsBackFromLastSeq legs)).map Prod.fst = legs ∧
        Numbering.CountsDown (fun _ _ => True) Leg.key legs
          (legs.zip (offsetsBackFromLastSeq legs))) ∧
      (∀ (snapshot : Book) (command : PostTransaction)
          (target : Option SupersedeTarget) (reversed : Uuid),
        command.reversesId = some reversed →
        target.map SupersedeTarget.status = some .posted →
        ∃ window : List (EntryRow × Nat),
          Numbering.CountsDown (fun left right => left.accountSeq ≤ right.accountSeq)
            (fun entry => (mirrorOf entry).key)
            (entriesOf snapshot command.tenantId reversed) window ∧
          mirrorLeg snapshot command target =
            window.map fun row => (mirrorOf row.1, row.2)) ∧
      (∀ (members : List BatchMember) (rows : List ProceedingRow)
          (upserts : List UpsertRow),
        ∃ window : List (NumberedRow × Nat),
          Numbering.CountsDown (fun left right =>
              toLex (left.ord, left.legOrd) < toLex (right.ord, right.legOrd))
            NumberedRow.stripeKey (proceedingLegs members rows upserts)
            window ∧
          numbered members rows upserts =
            window.map fun row => { row.1.row with seqOffset := row.2 }) ∧
      (∀ (currency : String) (retainedEarnings : Uuid)
          (positions : List SweptPosition),
        ∃ window : List (SweptPosition × Nat),
          Numbering.CountsDown (fun left right => left.accountId ≤ right.accountId)
            (fun p => (legIn currency retainedEarnings p).key) positions window ∧
          leg currency retainedEarnings positions =
            positions.map (fun p => (legOut currency p, 0)) ++
              window.map fun row =>
                (legIn currency retainedEarnings row.1, row.2)) ∧
      ∀ (env : Env) (snapshot current : Book) (m : BatchMember),
        let rows := proceeding env snapshot current [m]
        let landed := numbered [m] rows
          (striped snapshot env.stripeAffinity (batchDelta [m] rows))
        if rows = [] then landed = []
        else landed.map (fun row => (row.leg, row.seqOffset)) =
          m.append.legs.zip (offsetsBackFromLastSeq m.append.legs) := by
  refine ⟨?_, ?_, ?_, ?_, ?_⟩
  · intro legs
    rw [offsetsBackFromLastSeq_eq]
    exact ⟨List.map_fst_zip (Numbering.length_walkBack _ _).ge,
      Numbering.countsDown_walkBack (List.pairwise_of_forall fun _ _ => trivial)⟩
  · intro snapshot command target reversed reverses isPosted
    refine ⟨_, Numbering.countsDown_windowOffsets
      (fun entry => (mirrorOf entry).key)
      (fun left right : EntryRow => left.accountSeq ≤ right.accountSeq) _, ?_⟩
    unfold mirrorLeg
    simp only [reverses, isPosted, if_true]
  · intro members rows upserts
    exact ⟨_, Numbering.countsDown_walkBack
      (proceedingLegs_increasing members rows upserts),
      numbered_eq_walkBack members rows upserts⟩
  · intro currency retainedEarnings positions
    have counts := Numbering.countsDown_windowOffsets (fun _ : SweptPosition => ())
      (fun left right => left.accountId ≤ right.accountId) positions
    have runsDown := counts.runsDown.imp (S := fun left right : SweptPosition × Nat =>
      (legIn currency retainedEarnings left.1).key =
        (legIn currency retainedEarnings right.1).key → right.2 < left.2)
      fun below _ => below rfl
    refine ⟨_, ⟨counts.listed, counts.inOrder, runsDown,
      @Numbering.runsUp_of_runsDown _ _ (fun p => (legIn currency retainedEarnings p).key) _
        runsDown, ?_⟩, rfl⟩
    · intro chosen
      by_cases own : chosen = toLex (retainedEarnings, currency)
      · have mine : ∀ p, (legIn currency retainedEarnings p).key = chosen := fun p => own.symm
        simpa [mine] using counts.covers ()
      · have others : ∀ p, (legIn currency retainedEarnings p).key ≠ chosen :=
          fun p same => own same.symm
        simp [others]
  · intro env snapshot current m
    rcases proceeding_singleton env snapshot current m with none | one
    · simp only [none, if_true]
      exact numbered_of_none_proceeding _ _
    · obtain ⟨p, isProceeding, isMember, known⟩ := one
      simp only [isProceeding, List.cons_ne_nil, if_false]
      exact numbered_singleton env.stripeAffinity isMember known

end Windows

end Postgres

/-- A posted transaction that moved the till twice. -/
def Shop.movedTwice : Book :=
  { Book.empty Shop.chart with
    entries := [
      ⟨"shop", Shop.uuid 21, Shop.uuid 7, Shop.till, .debit, 30, "USD", 0, 5, 0, 1⟩,
      ⟨"shop", Shop.uuid 22, Shop.uuid 7, Shop.fees, .credit, 100, "USD", 0, 3, 0, 1⟩,
      ⟨"shop", Shop.uuid 23, Shop.uuid 7, Shop.till, .debit, 70, "USD", 0, 4, 0, 1⟩] }

theorem Shop.movedTwice_mirrored :
    let target : Postgres.SupersedeTarget := ⟨0, .posted, "posting", false, false⟩
    (Postgres.mirrorLeg Shop.movedTwice (Shop.reversal "undo" (Shop.uuid 7)) (some target)).map
        (fun row => (row.1.amountMinor, row.2)) = [(100, 0), (70, 1), (30, 0)] ∧
      ∃ window : List (EntryRow × Nat),
        Numbering.CountsDown (fun left right => left.accountSeq ≤ right.accountSeq)
          (fun entry => (Postgres.mirrorOf entry).key)
          (Postgres.entriesOf Shop.movedTwice (Shop.reversal "undo" (Shop.uuid 7)).tenantId
            (Shop.uuid 7)) window ∧
        Postgres.mirrorLeg Shop.movedTwice (Shop.reversal "undo" (Shop.uuid 7)) (some target) =
          window.map fun row => (Postgres.mirrorOf row.1, row.2) :=
  ⟨by decide +kernel, Postgres.numberings_agree.2.1 _ _ _ _ (by decide +kernel) rfl⟩

end OpenLedger
