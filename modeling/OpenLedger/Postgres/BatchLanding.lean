import OpenLedger.Postgres.Batch
import OpenLedger.Postgres.Landing

/-!
# What the batched call lands

The batched call threads every member through one statement.  Its deltas are
summed over the proceeding members and its legs are numbered across them, and
the two still cohere, so what the statement writes lands as a single append
does.
-/

namespace OpenLedger.Postgres

section Claims

variable {env : Env} {snapshot current : Book} {members : List BatchMember}

/-- Every claim is an admissible member's, of a key nobody held, and no key is
claimed twice. -/
theorem claimed_spec :
    (∀ event ∈ claimed env snapshot current members, ∃ m ∈ member members,
        admissible snapshot members m.ord = true ∧
          current.holderOf m.tenantId m.idempotencyKey = none ∧ event = claimEvent env m) ∧
      UniqueIndex.Holds EventRow.claimKey (claimed env snapshot current members) := by
  have folded : ∀ (rest : List MemberRow) (events : List EventRow),
      (∀ m ∈ rest, m ∈ member members) →
      ((∀ event ∈ events, ∃ m ∈ member members,
          admissible snapshot members m.ord = true ∧
            current.holderOf m.tenantId m.idempotencyKey = none ∧
            event = claimEvent env m) ∧
        UniqueIndex.Holds EventRow.claimKey events) →
      ((∀ event ∈ rest.foldl (claimNext env snapshot current members) events,
          ∃ m ∈ member members, admissible snapshot members m.ord = true ∧
            current.holderOf m.tenantId m.idempotencyKey = none ∧
            event = claimEvent env m) ∧
        UniqueIndex.Holds EventRow.claimKey
          (rest.foldl (claimNext env snapshot current members) events)) := by
    intro rest
    induction rest with
    | nil =>
        intro events _ spec
        exact spec
    | cons m rest inductionHypothesis =>
        intro events inside spec
        rw [List.foldl_cons]
        refine inductionHypothesis _ (fun other isThere =>
          inside other (List.mem_cons_of_mem _ isThere)) ?_
        unfold claimNext
        split
        · rename_i claims
          obtain ⟨isAdmissible, free, fresh⟩ := claims
          constructor
          · intro event isThere
            rcases List.mem_append.mp isThere with old | new
            · exact spec.1 event old
            · exact ⟨m, inside m List.mem_cons_self, isAdmissible,
                Option.isNone_iff_eq_none.mp free, List.mem_singleton.mp new⟩
          · refine UniqueIndex.holds_append spec.2 ⟨List.nodup_singleton _, ?_⟩
            intro key isNew isHeld
            obtain rfl := List.mem_singleton.mp isNew
            obtain ⟨held, isThere, isKey⟩ := List.mem_filterMap.mp isHeld
            simp only [EventRow.claimKey, Option.some.injEq, Prod.mk.injEq] at isKey
            have notHeld := List.any_eq_false.mp fresh held isThere
            simp [isKey.1, isKey.2, claimEvent] at notHeld
        · exact spec
  exact folded (member members) [] (fun _ isThere => isThere)
    ⟨fun event isThere => absurd isThere List.not_mem_nil, UniqueIndex.holds_nil _⟩

/-- The claims a batch makes are free keys. -/
theorem claimed_admits :
    UniqueIndex.Admits EventRow.claimKey current.events
      (claimed env snapshot current members) := by
  refine ⟨claimed_spec.2, fun key isNew isHeld => ?_⟩
  obtain ⟨event, isThere, isKey⟩ := List.mem_filterMap.mp isNew
  obtain ⟨m, _, _, free, rfl⟩ := claimed_spec.1 event isThere
  obtain ⟨held, isHeldThere, heldKey⟩ := List.mem_filterMap.mp isHeld
  rw [← isKey] at heldKey
  simp only [EventRow.claimKey, claimEvent, Option.some.injEq, Prod.mk.injEq] at heldKey
  have notHeld := List.find?_eq_none.mp free held isHeldThere
  simp [heldKey.1, heldKey.2] at notHeld

theorem member_increasing (members : List BatchMember) :
    (member members).Pairwise fun left right => left.ord < right.ord := by
  rw [member, List.pairwise_map]
  exact Numbering.withOrdinality_increasing members

/-- A proceeding row is a member beside its claim. -/
theorem mem_proceeding {p : ProceedingRow} :
    p ∈ proceeding env snapshot current members ↔
      ∃ m ∈ member members, ∃ event,
        (claimed env snapshot current members).find? (fun event =>
          decide (event.tenantId = m.tenantId) &&
            decide (event.idempotencyKey = m.idempotencyKey)) = some event ∧
          p = ⟨m.ord, event.id, m.tenantId, env.transactionId m.ord,
            m.effectiveAt.getD 0⟩ := by
  rw [proceeding, List.mem_filterMap]
  refine exists_congr fun m => and_congr_right fun _ => ?_
  rw [Option.map_eq_some_iff]
  exact exists_congr fun event => and_congr_right fun _ => eq_comm

theorem proceeding_increasing :
    (proceeding env snapshot current members).Pairwise
      fun left right => left.ord < right.ord := by
  rw [proceeding, List.pairwise_filterMap]
  refine (member_increasing members).imp fun below left isLeft right isRight => ?_
  obtain ⟨_, _, rfl⟩ := Option.map_eq_some_iff.mp isLeft
  obtain ⟨_, _, rfl⟩ := Option.map_eq_some_iff.mp isRight
  exact below

/-- The lookup by ordinal finds the member's own proceeding row. -/
theorem proceedingAt_eq_some_iff {ord : Nat} {p : ProceedingRow} :
    proceedingAt (proceeding env snapshot current members) ord = some p ↔
      p ∈ proceeding env snapshot current members ∧ p.ord = ord := by
  constructor
  · intro found
    exact ⟨List.mem_of_find?_eq_some found, by simpa using List.find?_some found⟩
  · rintro ⟨isThere, rfl⟩
    have holds : UniqueIndex.Holds (fun p : ProceedingRow => some p.ord)
        (proceeding env snapshot current members) := by
      rw [UniqueIndex.Holds, List.filterMap_eq_map', List.Nodup, List.pairwise_map]
      exact proceeding_increasing.imp fun below => below.ne
    exact UniqueIndex.find?_of_mem holds isThere rfl fun other => by simp

/-- Once no event causes two transactions, no claim is joined by two members. -/
theorem proceeding_nodup
    (onePerEvent : UniqueIndex.Holds TransactionRow.eventKey
      (batchTxn env (proceeding env snapshot current members))) :
    ((proceeding env snapshot current members).map fun p => (p.tenantId, p.eventId)).Nodup := by
  rw [UniqueIndex.Holds, batchTxn, List.filterMap_map] at onePerEvent
  simp only [Function.comp_def, TransactionRow.eventKey] at onePerEvent
  rwa [List.filterMap_eq_map'] at onePerEvent

/-- Once no event causes two transactions, the claim under a member's key is the
member's own. -/
theorem own_claim
    (onePerEvent : UniqueIndex.Holds TransactionRow.eventKey
      (batchTxn env (proceeding env snapshot current members)))
    {m : MemberRow} (isMember : m ∈ member members) {event : EventRow}
    (found : (claimed env snapshot current members).find? (fun event =>
      decide (event.tenantId = m.tenantId) &&
        decide (event.idempotencyKey = m.idempotencyKey)) = some event) :
    admissible snapshot members m.ord = true ∧
      current.holderOf m.tenantId m.idempotencyKey = none ∧ event = claimEvent env m := by
  have isClaimed := List.mem_of_find?_eq_some found
  have carried := List.find?_some found
  simp only [Bool.and_eq_true, decide_eq_true_eq] at carried
  obtain ⟨claimant, isClaimant, isAdmissible, free, isEvent⟩ := claimed_spec.1 event isClaimed
  have claimantFound : (claimed env snapshot current members).find? (fun event =>
      decide (event.tenantId = claimant.tenantId) &&
        decide (event.idempotencyKey = claimant.idempotencyKey)) = some event :=
    UniqueIndex.find?_of_mem claimed_spec.2 isClaimed rfl fun other => by
      rw [isEvent]
      simp [EventRow.claimKey, claimEvent]
  have memberProceeds := mem_proceeding.mpr ⟨m, isMember, event, found, rfl⟩
  have claimantProceeds := mem_proceeding.mpr ⟨claimant, isClaimant, event, claimantFound, rfl⟩
  have sameRow := List.inj_on_of_nodup_map (proceeding_nodup onePerEvent) memberProceeds
    claimantProceeds (by
      rw [← carried.1, isEvent]
      rfl)
  have ordinals : ((member members).map MemberRow.ord).Nodup := by
    rw [List.Nodup, List.pairwise_map]
    exact (member_increasing members).imp fun below => below.ne
  have same : m = claimant := List.inj_on_of_nodup_map ordinals isMember isClaimant
    (congrArg ProceedingRow.ord sameRow)
  subst same
  exact ⟨isAdmissible, free, isEvent⟩

/-- Once no event causes two transactions, only admissible members proceed. -/
theorem admissible_of_proceeding
    (onePerEvent : UniqueIndex.Holds TransactionRow.eventKey
      (batchTxn env (proceeding env snapshot current members)))
    {p : ProceedingRow} (isThere : p ∈ proceeding env snapshot current members) :
    admissible snapshot members p.ord = true := by
  obtain ⟨m, isMember, event, found, rfl⟩ := mem_proceeding.mp isThere
  exact (own_claim onePerEvent isMember found).1

/-- An admissible member with a free key finds a claim under it. -/
theorem claim_of_admissible {m : MemberRow} (isMember : m ∈ member members)
    (isAdmissible : admissible snapshot members m.ord = true)
    (free : current.holderOf m.tenantId m.idempotencyKey = none) :
    ∃ event ∈ claimed env snapshot current members,
      event.tenantId = m.tenantId ∧ event.idempotencyKey = m.idempotencyKey := by
  have grows : ∀ (rest : List MemberRow) (events : List EventRow), ∀ event ∈ events,
      event ∈ rest.foldl (claimNext env snapshot current members) events := by
    intro rest
    induction rest with
    | nil =>
        intro events event isThere
        exact isThere
    | cons other rest inductionHypothesis =>
        intro events event isThere
        rw [List.foldl_cons]
        apply inductionHypothesis
        unfold claimNext
        split
        · exact List.mem_append_left _ isThere
        · exact isThere
  have folded : ∀ (rest : List MemberRow) (events : List EventRow), m ∈ rest →
      ∃ event ∈ rest.foldl (claimNext env snapshot current members) events,
        event.tenantId = m.tenantId ∧ event.idempotencyKey = m.idempotencyKey := by
    intro rest
    induction rest with
    | nil =>
        intro events isThere
        cases isThere
    | cons other rest inductionHypothesis =>
        intro events isThere
        rw [List.foldl_cons]
        rcases List.mem_cons.mp isThere with rfl | later
        · by_cases fresh : (events.any fun event => decide (event.tenantId = m.tenantId) &&
              decide (event.idempotencyKey = m.idempotencyKey)) = false
          · refine ⟨claimEvent env m, grows rest _ _ ?_, rfl, rfl⟩
            rw [claimNext, if_pos ⟨isAdmissible, by rw [free]; rfl, fresh⟩]
            exact List.mem_append_right _ (List.mem_singleton_self _)
          · rw [Bool.not_eq_false, List.any_eq_true] at fresh
            obtain ⟨event, isEvent, same⟩ := fresh
            simp only [Bool.and_eq_true, decide_eq_true_eq] at same
            refine ⟨event, grows rest _ _ ?_, same⟩
            unfold claimNext
            split
            · exact List.mem_append_left _ isEvent
            · exact isEvent
        · exact inductionHypothesis _ later
  exact folded (member members) [] isMember

end Claims

section Columns

/-- A column of a grouped delta that is the sum of one amount over some of the
group's legs. -/
structure IsColumn (column : DeltaRow → Int) (keep : Leg → Bool) (amount : Leg → Int) :
    Prop where
  grouped : ∀ (tenantId : String) (key : AccountKey) (legs : List Leg),
    column ⟨tenantId, (ofLex key).1, (ofLex key).2, sideSum .debit key legs,
      sideSum .credit key legs, legCount key legs⟩ =
        Tally.sumWhere (fun leg => decide (leg.key = key) && keep leg) amount legs

theorem inputColumn :
    IsColumn DeltaRow.input (fun leg => decide (leg.direction = .debit)) Leg.amountMinor :=
  ⟨fun _ _ _ => rfl⟩

theorem outputColumn :
    IsColumn DeltaRow.output (fun leg => decide (leg.direction = .credit)) Leg.amountMinor :=
  ⟨fun _ _ _ => rfl⟩

theorem legsColumn :
    IsColumn (fun delta => (delta.legs : Int)) (fun _ => true) fun _ => 1 :=
  ⟨fun _ key legs => by
    simp [legCount, Tally.sumWhere, List.countP_eq_length_filter]⟩

variable {column : DeltaRow → Int} {keep : Leg → Bool} {amount : Leg → Int}

/-- One member's column under a key. -/
theorem IsColumn.sum_groupDeltas (isColumn : IsColumn column keep amount) (tenantId : String)
    (legs : List Leg) (key : TenantAccountKey) :
    Tally.sumWhere (fun delta : DeltaRow => decide (delta.tenantKey = key)) column
        (groupDeltas tenantId legs) =
      Tally.sumWhere (fun leg : Leg => decide ((tenantId, leg.key) = key) && keep leg) amount
        legs := by
  rw [groupDeltas, Tally.sumWhere_map]
  by_cases ofTenant : tenantId = key.1
  · have keyed : ∀ other : AccountKey,
        ((tenantId, other) : TenantAccountKey) = key ↔ other = key.2 := by
      intro other
      rw [Prod.ext_iff]
      simp [ofTenant]
    have deltaKeyed : ∀ other : AccountKey,
        (DeltaRow.mk tenantId (ofLex other).1 (ofLex other).2 (sideSum .debit other legs)
          (sideSum .credit other legs) (legCount other legs)).tenantKey = key ↔
            other = key.2 := keyed
    simp only [keyed, deltaKeyed, isColumn.grouped]
    by_cases present : key.2 ∈ (legs.map Leg.key).dedup
    · have nodup : ((legs.map Leg.key).dedup.map id).Nodup := by
        rw [List.map_id]
        exact List.nodup_dedup _
      exact Tally.sumWhere_key (fun other : AccountKey =>
        Tally.sumWhere (fun leg => decide (leg.key = other) && keep leg) amount legs)
        nodup present
    · have noLeg : ∀ leg ∈ legs, leg.key ≠ key.2 := by
        intro leg isLeg same
        rw [← same] at present
        exact present (List.mem_dedup.mpr (List.mem_map_of_mem isLeg))
      rw [Tally.sumWhere_eq_zero, Tally.sumWhere_eq_zero]
      · intro leg isLeg
        simp [noLeg leg isLeg]
      · intro other isThere
        refine decide_eq_false fun same => present ?_
        rwa [← same]
  · have different : ∀ k : AccountKey, ((tenantId, k) : TenantAccountKey) ≠ key :=
      fun k same => ofTenant (congrArg Prod.fst same)
    rw [Tally.sumWhere_eq_zero, Tally.sumWhere_eq_zero]
    · intro leg _
      simp [different leg.key]
    · intro k _
      exact decide_eq_false (different k)

/-- The chosen members' column under a key, summed over their deltas or over
their legs. -/
theorem IsColumn.sum_memberDelta (isColumn : IsColumn column keep amount)
    (members : List BatchMember) (chosen : Nat → Bool) (key : TenantAccountKey) :
    Tally.sumWhere (fun delta : DeltaRow => decide (delta.tenantKey = key)) column
        (((memberDelta members).filter fun row => chosen row.ord).map MemberDeltaRow.delta) =
      Tally.sumWhere (fun row : MemberLegRow =>
          chosen row.ord && (decide ((row.tenantId, row.leg.key) = key) && keep row.leg))
        (fun row => amount row.leg) (memberLeg members) := by
  rw [Tally.sumWhere_map, Tally.sumWhere_filter, memberDelta, memberLeg,
    Tally.sumWhere_flatMap, Tally.sumWhere_flatMap]
  congr 1
  refine List.map_congr_left fun m _ => ?_
  rw [Tally.sumWhere_map, Tally.sumWhere_map]
  cases isChosen : chosen m.1 with
  | false =>
      rw [Tally.sumWhere_eq_zero fun _ _ => by simp [isChosen],
        Tally.sumWhere_eq_zero fun _ _ => by simp [isChosen]]
  | true =>
      simp only [isChosen, Bool.true_and]
      have ofLegs := Tally.sumWhere_map
        (fun leg : Leg => decide ((m.2.command.tenantId, leg.key) = key) && keep leg) amount
        Prod.snd (Numbering.withOrdinality m.2.append.legs)
      rw [Numbering.map_snd_withOrdinality] at ofLegs
      exact (isColumn.sum_groupDeltas _ _ _).trans ofLegs

end Columns

section Legs

variable {env : Env} {snapshot : Book} {members : List BatchMember}
  {rows : List ProceedingRow}

/-- A member's leg has its delta. -/
theorem delta_of_memberLeg {ml : MemberLegRow} (isLeg : ml ∈ memberLeg members) :
    ∃ row ∈ memberDelta members, row.ord = ml.ord ∧
      row.delta.tenantKey = (ml.tenantId, ml.leg.key) := by
  obtain ⟨m, isMember, inLegs⟩ := List.mem_flatMap.mp isLeg
  obtain ⟨leg, isThere, rfl⟩ := List.mem_map.mp inLegs
  have inKeys : leg.2.key ∈ (m.2.append.legs.map Leg.key).dedup :=
    List.mem_dedup.mpr (List.mem_map_of_mem (Numbering.mem_of_mem_withOrdinality isThere))
  exact ⟨⟨m.1, _⟩, List.mem_flatMap.mpr ⟨m, isMember,
    List.mem_map_of_mem (List.mem_map_of_mem inKeys)⟩, rfl, rfl⟩

/-- The coalesced keys are those of the proceeding members' deltas. -/
theorem batchDelta_keys :
    (batchDelta members rows).map DeltaRow.tenantKey =
      ((((memberDelta members).filter fun row =>
        (proceedingAt rows row.ord).isSome).map MemberDeltaRow.delta).map
          DeltaRow.tenantKey).dedup := by
  simp only [batchDelta, List.map_map]
  exact List.map_id _

/-- A coalesced delta's columns, summed over the proceeding members' legs. -/
theorem batchDelta_columns {delta : DeltaRow} (isDelta : delta ∈ batchDelta members rows)
    {column : DeltaRow → Int} {keep : Leg → Bool} {amount : Leg → Int}
    (isColumn : IsColumn column keep amount)
    (summed : ∀ (key : TenantAccountKey) (deltas : List DeltaRow),
      column ⟨key.1, (ofLex key.2).1, (ofLex key.2).2,
          Tally.sumWhere (fun d => decide (d.tenantKey = key)) DeltaRow.input deltas,
          Tally.sumWhere (fun d => decide (d.tenantKey = key)) DeltaRow.output deltas,
          ((deltas.filter fun d => decide (d.tenantKey = key)).map DeltaRow.legs).sum⟩ =
        Tally.sumWhere (fun d => decide (d.tenantKey = key)) column deltas) :
    column delta = Tally.sumWhere (fun row : MemberLegRow =>
        (proceedingAt rows row.ord).isSome &&
          (decide ((row.tenantId, row.leg.key) = delta.tenantKey) && keep row.leg))
      (fun row => amount row.leg) (memberLeg members) := by
  obtain ⟨key, _, rfl⟩ := List.mem_map.mp isDelta
  rw [summed]
  exact isColumn.sum_memberDelta members (fun ord => (proceedingAt rows ord).isSome) key

theorem sum_legCounts (key : TenantAccountKey) (deltas : List DeltaRow) :
    (((deltas.filter fun d => decide (d.tenantKey = key)).map DeltaRow.legs).sum : Int) =
      Tally.sumWhere (fun d => decide (d.tenantKey = key)) (fun d => (d.legs : Int))
        deltas := by
  rw [Tally.sumWhere]
  induction deltas.filter fun d => decide (d.tenantKey = key) with
  | nil =>
      rfl
  | cons head tail inductionHypothesis =>
      simp [inductionHypothesis]

/-- What a statement's batch needs of its accounts. -/
def Known (snapshot : Book) (deltas : List DeltaRow) : Prop :=
  ∀ delta ∈ deltas, (snapshot.account? delta.tenantId delta.accountId delta.currency).isSome

/-- A proceeding member's leg finds the upsert of its counter. -/
theorem upsert_of_memberLeg (affinity : Nat) (known : Known snapshot (batchDelta members rows))
    {ml : MemberLegRow} (isLeg : ml ∈ memberLeg members)
    (proceeds : (proceedingAt rows ml.ord).isSome) :
    ∃ s, (striped snapshot affinity (batchDelta members rows)).find? (fun s =>
        decide (s.tenantId = ml.tenantId) && decide (s.accountId = ml.leg.accountId) &&
          decide (s.currency = ml.leg.currency)) = some s ∧
      s ∈ striped snapshot affinity (batchDelta members rows) ∧
      tenantKeyOf s.toStripeKey = (ml.tenantId, ml.leg.key) := by
  obtain ⟨row, isRow, sameOrd, sameKey⟩ := delta_of_memberLeg isLeg
  have inKeys : (ml.tenantId, ml.leg.key) ∈
      (batchDelta members rows).map DeltaRow.tenantKey := by
    rw [batchDelta_keys, List.mem_dedup, ← sameKey]
    refine List.mem_map_of_mem (List.mem_map_of_mem (List.mem_filter.mpr ⟨isRow, ?_⟩))
    rw [sameOrd]
    exact proceeds
  obtain ⟨delta, isDelta, isKey⟩ := List.mem_map.mp inKeys
  obtain ⟨stripe, picked, joined⟩ := stripe_of_known affinity (known delta isDelta)
  have upserted := mem_striped.mpr ⟨delta, isDelta, joined⟩
  have atKey := tenantKeyOf_stripeOf picked
  rw [isKey] at atKey
  simp only [tenantKeyOf, Leg.key, Prod.mk.injEq, EmbeddingLike.apply_eq_iff_eq] at atKey
  have someFound : ((striped snapshot affinity (batchDelta members rows)).find? fun s =>
      decide (s.tenantId = ml.tenantId) && decide (s.accountId = ml.leg.accountId) &&
        decide (s.currency = ml.leg.currency)).isSome := by
    rw [List.find?_isSome]
    exact ⟨_, upserted, by simp [atKey]⟩
  obtain ⟨s, found⟩ := Option.isSome_iff_exists.mp someFound
  have carried := List.find?_some found
  simp only [Bool.and_eq_true, decide_eq_true_eq] at carried
  refine ⟨s, found, List.mem_of_find?_eq_some found, ?_⟩
  simp only [tenantKeyOf, Leg.key, carried]

/-- The leg a proceeding member's leg becomes. -/
def legRowOf (ml : MemberLegRow) (p : ProceedingRow) : LegRow :=
  ⟨ml.tenantId, p.transactionId, ml.leg, 0, p.effectiveAt⟩

/-- Every proceeding member's leg, and nothing else, is in the statement. -/
theorem mem_proceedingLegs (affinity : Nat) (known : Known snapshot (batchDelta members rows))
    {n : NumberedRow} :
    n ∈ proceedingLegs members rows (striped snapshot affinity (batchDelta members rows)) ↔
      ∃ ml ∈ memberLeg members, ∃ p s, proceedingAt rows ml.ord = some p ∧
        stripeOf snapshot affinity (ml.tenantId, ml.leg.key) = some s ∧
        n = ⟨ml.ord, ml.legOrd, s, legRowOf ml p⟩ := by
  have joined : ∀ ml ∈ memberLeg members, ∀ p, proceedingAt rows ml.ord = some p →
      ∃ s, stripeOf snapshot affinity (ml.tenantId, ml.leg.key) = some s.toStripeKey ∧
        (striped snapshot affinity (batchDelta members rows)).find? (fun s =>
          decide (s.tenantId = ml.tenantId) && decide (s.accountId = ml.leg.accountId) &&
            decide (s.currency = ml.leg.currency)) = some s := by
    intro ml isLeg p isProceeding
    obtain ⟨s, found, isUpsert, atKey⟩ :=
      upsert_of_memberLeg affinity known isLeg (by rw [isProceeding]; rfl)
    have picked := stripeOf_of_mem_striped isUpsert
    rw [atKey] at picked
    exact ⟨s, picked, found⟩
  rw [proceedingLegs, List.mem_filterMap]
  refine exists_congr fun ml => and_congr_right fun isLeg => ?_
  cases isProceeding : proceedingAt rows ml.ord with
  | none =>
      simp
  | some p =>
      obtain ⟨s, picked, found⟩ := joined ml isLeg p isProceeding
      simp only [Option.bind_some, found, Option.map_some, Option.some.injEq]
      constructor
      · rintro rfl
        exact ⟨p, s.toStripeKey, rfl, picked, rfl⟩
      · rintro ⟨p', s', rfl, picked', rfl⟩
        rw [picked, Option.some.injEq] at picked'
        rw [← picked']
        rfl

/-- A sum over the statement's legs is one over the proceeding members'. -/
theorem sum_proceedingLegs (affinity : Nat) (known : Known snapshot (batchDelta members rows))
    (keep : LegRow → Bool) (amount : Leg → Int) :
    Tally.sumWhere (fun n : NumberedRow => keep n.row) (fun n => amount n.row.leg)
        (proceedingLegs members rows (striped snapshot affinity (batchDelta members rows))) =
      Tally.sumWhere (fun ml : MemberLegRow =>
          (proceedingAt rows ml.ord).any fun p => keep (legRowOf ml p))
        (fun ml => amount ml.leg) (memberLeg members) := by
  rw [proceedingLegs, Tally.sumWhere_filterMap]
  have joined : ∀ ml ∈ memberLeg members, ∀ p, proceedingAt rows ml.ord = some p →
      ∃ s, (striped snapshot affinity (batchDelta members rows)).find? (fun s =>
        decide (s.tenantId = ml.tenantId) && decide (s.accountId = ml.leg.accountId) &&
          decide (s.currency = ml.leg.currency)) = some s := by
    intro ml isLeg p isProceeding
    obtain ⟨s, found, _⟩ :=
      upsert_of_memberLeg affinity known isLeg (by rw [isProceeding]; rfl)
    exact ⟨s, found⟩
  refine Tally.sumWhere_congr (fun ml isLeg => ?_) fun ml isLeg isKept => ?_
  · cases isProceeding : proceedingAt rows ml.ord with
    | none =>
        rfl
    | some p =>
        obtain ⟨s, found⟩ := joined ml isLeg p isProceeding
        simp [found, legRowOf]
  · cases isProceeding : proceedingAt rows ml.ord with
    | none =>
        simp [isProceeding] at isKept
    | some p =>
        obtain ⟨s, found⟩ := joined ml isLeg p isProceeding
        simp [found]

/-- The numbered legs are the proceeding ones, sorted, beside their walk-back. -/
theorem numbered_eq (members : List BatchMember) (rows : List ProceedingRow)
    (upserts : List UpsertRow) :
    ∃ sorted : List NumberedRow,
      sorted.Perm (proceedingLegs members rows upserts) ∧
        numbered members rows upserts =
          (sorted.zip (Numbering.walkBack NumberedRow.stripeKey sorted)).map fun offset =>
            { offset.1.row with seqOffset := offset.2 } := by
  refine ⟨_, List.perm_insertionSort
    (fun left right : NumberedRow =>
      toLex (left.ord, left.legOrd) ≤ toLex (right.ord, right.legOrd)) _, ?_⟩
  rw [numbered, Numbering.windowOffsets_eq]

/-- A sum over the numbered legs that ignores their offsets. -/
theorem sum_numbered (affinity : Nat) (known : Known snapshot (batchDelta members rows))
    (keep : LegRow → Bool) (amount : Leg → Int)
    (ignores : ∀ (row : LegRow) (offset : Nat),
      keep { row with seqOffset := offset } = keep row) :
    Tally.sumWhere keep (fun row => amount row.leg)
        (numbered members rows (striped snapshot affinity (batchDelta members rows))) =
      Tally.sumWhere (fun ml : MemberLegRow =>
          (proceedingAt rows ml.ord).any fun p => keep (legRowOf ml p))
        (fun ml => amount ml.leg) (memberLeg members) := by
  obtain ⟨sorted, permutation, isNumbered⟩ := numbered_eq members rows
    (striped snapshot affinity (batchDelta members rows))
  rw [← sum_proceedingLegs affinity known keep amount, ← Tally.sumWhere_perm permutation,
    isNumbered, Tally.sumWhere_map]
  simp only [ignores]
  have ofSorted := Tally.sumWhere_map (fun n : NumberedRow => keep n.row)
    (fun n => amount n.row.leg) Prod.fst
    (sorted.zip (Numbering.walkBack NumberedRow.stripeKey sorted))
  rw [List.map_fst_zip (by simp)] at ofSorted
  exact ofSorted.symm

/-- Every numbered leg is a proceeding member's, at some offset. -/
theorem mem_numbered (affinity : Nat) (known : Known snapshot (batchDelta members rows))
    {row : LegRow} (isRow : row ∈ numbered members rows
      (striped snapshot affinity (batchDelta members rows))) :
    ∃ ml ∈ memberLeg members, ∃ p, proceedingAt rows ml.ord = some p ∧
      ∃ offset, row = { legRowOf ml p with seqOffset := offset } := by
  obtain ⟨sorted, permutation, isNumbered⟩ := numbered_eq members rows
    (striped snapshot affinity (batchDelta members rows))
  rw [isNumbered] at isRow
  obtain ⟨numberedRow, isThere, rfl⟩ := List.mem_map.mp isRow
  have inSorted := (List.of_mem_zip isThere).1
  obtain ⟨ml, isLeg, p, s, isProceeding, _, isN⟩ :=
    (mem_proceedingLegs affinity known).mp (permutation.mem_iff.mp inSorted)
  exact ⟨ml, isLeg, p, isProceeding, numberedRow.2, by rw [isN]⟩

/-- A proceeding member's leg is numbered. -/
theorem numbered_of_memberLeg (affinity : Nat)
    (known : Known snapshot (batchDelta members rows)) {ml : MemberLegRow}
    (isLeg : ml ∈ memberLeg members) {p : ProceedingRow}
    (isProceeding : proceedingAt rows ml.ord = some p) :
    ∃ offset, ({ legRowOf ml p with seqOffset := offset } : LegRow) ∈
      numbered members rows (striped snapshot affinity (batchDelta members rows)) := by
  obtain ⟨sorted, permutation, isNumbered⟩ := numbered_eq members rows
    (striped snapshot affinity (batchDelta members rows))
  obtain ⟨s, _, isUpsert, atKey⟩ :=
    upsert_of_memberLeg affinity known isLeg (by rw [isProceeding]; rfl)
  have picked := stripeOf_of_mem_striped isUpsert
  rw [atKey] at picked
  have inSorted := permutation.mem_iff.mpr ((mem_proceedingLegs affinity known).mpr
    ⟨ml, isLeg, p, _, isProceeding, picked, rfl⟩)
  have beside : (sorted.zip (Numbering.walkBack NumberedRow.stripeKey sorted)).map Prod.fst =
      sorted := List.map_fst_zip (by simp)
  rw [← beside] at inSorted
  obtain ⟨numberedRow, inZip, isFirst⟩ := List.mem_map.mp inSorted
  refine ⟨numberedRow.2, ?_⟩
  rw [isNumbered]
  exact List.mem_map.mpr ⟨numberedRow, inZip, by rw [isFirst]⟩

/-- The offsets count back per counter: a stripe is the counter's own. -/
theorem numbered_offsets (affinity : Nat)
    (known : Known snapshot (batchDelta members rows)) :
    (numbered members rows (striped snapshot affinity (batchDelta members rows))).map
        LegRow.seqOffset =
      Numbering.walkBack LegRow.counterKey
        (numbered members rows (striped snapshot affinity (batchDelta members rows))) := by
  obtain ⟨sorted, permutation, isNumbered⟩ := numbered_eq members rows
    (striped snapshot affinity (batchDelta members rows))
  have counterOfStripe : ∀ n ∈ sorted,
      stripeOf snapshot affinity n.row.counterKey = some n.stripeKey := by
    intro n inSorted
    obtain ⟨ml, _, p, s, _, picked, rfl⟩ :=
      (mem_proceedingLegs affinity known).mp (permutation.mem_iff.mp inSorted)
    exact picked
  have sameCounters : Numbering.walkBack NumberedRow.stripeKey sorted =
      Numbering.walkBack (fun n : NumberedRow => n.row.counterKey) sorted := by
    refine Numbering.walkBack_congr fun left isLeft right isRight => ?_
    have ofLeft := counterOfStripe left isLeft
    have ofRight := counterOfStripe right isRight
    constructor
    · intro same
      rw [← tenantKeyOf_stripeOf ofLeft, same, tenantKeyOf_stripeOf ofRight]
    · intro same
      rw [same, ofRight, Option.some.injEq] at ofLeft
      exact ofLeft.symm
  have ofZip := Numbering.walkBack_map (fun n : NumberedRow => n.row.counterKey) Prod.fst
    (sorted.zip (Numbering.walkBack NumberedRow.stripeKey sorted))
  rw [List.map_fst_zip (by simp)] at ofZip
  rw [isNumbered, List.map_map, Numbering.walkBack_map]
  exact (List.map_snd_zip (by simp)).trans (sameCounters.trans ofZip)

/-- The batch's deltas cohere with its legs once every account it moves is
known. -/
theorem batch_coheres (affinity : Nat) (known : Known snapshot (batchDelta members rows)) :
    Coheres snapshot true (batchDelta members rows)
      (numbered members rows (striped snapshot affinity (batchDelta members rows))) := by
  have side : ∀ delta ∈ batchDelta members rows, ∀ direction,
      sideOn direction delta.tenantKey
          (numbered members rows (striped snapshot affinity (batchDelta members rows))) =
        Tally.sumWhere (fun row : MemberLegRow =>
            (proceedingAt rows row.ord).isSome &&
              (decide ((row.tenantId, row.leg.key) = delta.tenantKey) &&
                decide (row.leg.direction = direction)))
          (fun row => row.leg.amountMinor) (memberLeg members) := by
    intro delta _ direction
    refine (sum_numbered affinity known (fun row =>
      decide (row.counterKey = delta.tenantKey) && decide (row.leg.direction = direction))
      Leg.amountMinor fun _ _ => rfl).trans ?_
    refine Tally.sumWhere_congr (fun row _ => ?_) fun _ _ _ => rfl
    cases proceedingAt rows row.ord <;> rfl
  exact
  { distinct := by
      rw [batchDelta_keys]
      exact List.nodup_dedup _
    known := known
    covered := fun row isRow => by
      obtain ⟨ml, isLeg, p, isProceeding, offset, rfl⟩ := mem_numbered affinity known isRow
      obtain ⟨memberRow, isMember, sameOrd, sameKey⟩ := delta_of_memberLeg isLeg
      rw [batchDelta_keys, List.mem_dedup]
      refine List.mem_map.mpr ⟨memberRow.delta, List.mem_map_of_mem
        (List.mem_filter.mpr ⟨isMember, ?_⟩), sameKey⟩
      rw [sameOrd, isProceeding]
      rfl
    counted := fun delta isDelta => by
      have columns := batchDelta_columns isDelta legsColumn sum_legCounts
      have counted : ((legsOn delta.tenantKey (numbered members rows
          (striped snapshot affinity (batchDelta members rows))) : Nat) : Int) =
          Tally.sumWhere (fun row => decide (row.counterKey = delta.tenantKey)) (fun _ => 1)
            (numbered members rows
              (striped snapshot affinity (batchDelta members rows))) := by
        simp [legsOn, Tally.sumWhere, List.countP_eq_length_filter]
      have summed := sum_numbered affinity known
        (fun row => decide (row.counterKey = delta.tenantKey)) (fun _ => 1) fun _ _ => rfl
      have same : (delta.legs : Int) = legsOn delta.tenantKey (numbered members rows
          (striped snapshot affinity (batchDelta members rows))) := by
        rw [columns, counted, summed]
        refine Tally.sumWhere_congr (fun row _ => ?_) fun _ _ _ => rfl
        cases proceedingAt rows row.ord with
        | none =>
            rfl
        | some p =>
            rw [Bool.and_true]
            rfl
      exact_mod_cast same
    debits := fun delta isDelta => by
      rw [if_pos rfl, side delta isDelta]
      exact batchDelta_columns isDelta inputColumn fun _ _ => rfl
    credits := fun delta isDelta => by
      rw [if_pos rfl, side delta isDelta]
      exact batchDelta_columns isDelta outputColumn fun _ _ => rfl
    offsets := numbered_offsets affinity known }

/-- The two sides of one transaction's legs, over the members that proceed. -/
theorem numbered_foots (affinity : Nat) (known : Known snapshot (batchDelta members rows))
    (foots : ∀ m ∈ members, Foots m.append.legs) (tenantId : String) (transactionId : Uuid)
    (currency : String) :
    legSideOf tenantId transactionId currency .debit
        (numbered members rows (striped snapshot affinity (batchDelta members rows))) =
      legSideOf tenantId transactionId currency .credit
        (numbered members rows (striped snapshot affinity (batchDelta members rows))) := by
  have side : ∀ direction, legSideOf tenantId transactionId currency direction
      (numbered members rows (striped snapshot affinity (batchDelta members rows))) =
        ((Numbering.withOrdinality members).map fun m =>
          if ((proceedingAt rows m.1).any fun p => decide (m.2.command.tenantId = tenantId) &&
              decide (p.transactionId = transactionId)) = true then
            currencySide direction currency m.2.append.legs
          else 0).sum := by
    intro direction
    rw [legSideOf, sum_numbered affinity known (fun row =>
        decide (row.tenantId = tenantId) && decide (row.transactionId = transactionId) &&
          decide (row.leg.currency = currency) && decide (row.leg.direction = direction))
        Leg.amountMinor fun _ _ => rfl, memberLeg, Tally.sumWhere_flatMap]
    congr 1
    refine List.map_congr_left fun m _ => ?_
    have ofLegs := Tally.sumWhere_map
      (fun leg : Leg => decide (leg.currency = currency) && decide (leg.direction = direction))
      Leg.amountMinor Prod.snd (Numbering.withOrdinality m.2.append.legs)
    rw [Numbering.map_snd_withOrdinality] at ofLegs
    rw [Tally.sumWhere_map]
    split
    · rename_i isOurs
      rw [currencySide, ofLegs]
      refine Tally.sumWhere_congr (fun leg _ => ?_) fun _ _ _ => rfl
      cases isProceeding : proceedingAt rows m.1 with
      | none =>
          simp [isProceeding] at isOurs
      | some p =>
          rw [isProceeding] at isOurs
          simp only [Option.any_some, Bool.and_eq_true, decide_eq_true_eq] at isOurs
          simp [legRowOf, isOurs.1, isOurs.2]
    · rename_i notOurs
      refine Tally.sumWhere_eq_zero fun leg _ => ?_
      cases isProceeding : proceedingAt rows m.1 with
      | none =>
          rfl
      | some p =>
          simp only [isProceeding, Option.any_some, Bool.not_eq_true] at notOurs
          change (decide (m.2.command.tenantId = tenantId) &&
            decide (p.transactionId = transactionId) && decide (leg.2.currency = currency) &&
              decide (leg.2.direction = direction)) = false
          rw [notOurs, Bool.false_and, Bool.false_and]
  rw [side, side]
  congr 1
  refine List.map_congr_left fun m isMember => ?_
  rw [foots m.2 (Numbering.mem_of_mem_withOrdinality isMember) currency]

end Legs

section Landing

variable {env : Env} {snapshot current : Book} {members : List BatchMember}

/-- Only plain posted commands get past the first check. -/
theorem unbatchable_of_carried (carried : refuseAMemberTheBatchCannotCarry members = .ok ()) :
    ∀ m ∈ members, unbatchable m.command = none := by
  intro m isMember
  unfold refuseAMemberTheBatchCannotCarry at carried
  split at carried
  · rename_i noneJudged
    rw [List.findSome?_eq_none_iff] at noneJudged
    obtain ⟨index, inBounds, rfl⟩ := List.getElem_of_mem isMember
    have judged := noneJudged (index, unbatchable members[index].command)
      (List.mem_mapIdx.mpr ⟨index, inBounds, rfl⟩)
    simpa using judged
  · cases carried

/-- What it takes for the batched call to answer outcomes. -/
theorem claimAndAppendBatch_answered {outcomes : List MemberOutcome} {writes : Writes}
    (answered : claimAndAppendBatch env snapshot current members = (.ok outcomes, writes)) :
    refuseAMemberTheBatchCannotCarry members = .ok () ∧
      violation env.tzKnown current (batchWrites env snapshot current members) = none ∧
      (batchRows env snapshot current members).mapM outcomeForMember = .ok outcomes ∧
      writes = batchWrites env snapshot current members := by
  unfold claimAndAppendBatch at answered
  cases carried : refuseAMemberTheBatchCannotCarry members with
  | error refusal =>
      simp [carried] at answered
  | ok =>
      cases ran : claimAndAppendBatchStatement env snapshot current members with
      | error error =>
          simp [carried, ran] at answered
      | ok rowsAndWrites =>
          obtain ⟨rows, written⟩ := rowsAndWrites
          simp only [carried, ran, Prod.mk.injEq] at answered
          unfold claimAndAppendBatchStatement at ran
          simp only [bind, Except.bind] at ran
          split at ran
          · cases ran
          · split at ran
            · cases ran
            · split at ran
              · cases ran
              · split at ran
                · cases ran
                · rename_i allowed
                  simp only [Except.ok.injEq, Prod.mk.injEq] at ran
                  obtain ⟨rfl, rfl⟩ := ran
                  exact ⟨rfl, allowed, answered.1, answered.2.symm⟩

/-- What the service hands the batch: planned members, plain and posted. -/
structure Batchable (m : BatchMember) : Prop where
  planned : planAppend m.command.postings m.command.status = .ok m.append
  noReversal : m.command.reversesId = none

theorem Batchable.legs_ne_nil {m : BatchMember} (batchable : Batchable m) :
    m.append.legs ≠ [] := by
  obtain ⟨legs, _⟩ := planAppend_ok batchable.planned
  rw [legs]
  cases postings : m.command.postings with
  | nil =>
      exact absurd postings (m.command.postingsNotEmpty batchable.noReversal)
  | cons posting rest =>
      simp [expandPostings]

/-- The member behind an ordinal. -/
theorem mem_member {m : MemberRow} (isThere : m ∈ member members) :
    ∃ batchMember, (m.ord, batchMember) ∈ Numbering.withOrdinality members ∧
      m = ⟨m.ord, batchMember.command.tenantId, batchMember.command.idempotencyKey,
        batchMember.hash, batchMember.payload,
        batchMember.command.effectiveAt.map OffsetDateTime.stored⟩ := by
  obtain ⟨⟨ord, batchMember⟩, isMember, rfl⟩ := List.mem_map.mp isThere
  exact ⟨batchMember, isMember, rfl⟩

/-- Every account a proceeding member moves is known. -/
theorem known_of_proceeding (env : Env)
    (onePerEvent : UniqueIndex.Holds TransactionRow.eventKey
      (batchTxn env (proceeding env snapshot current members))) :
    Known snapshot (batchDelta members (proceeding env snapshot current members)) := by
  intro delta isDelta
  have inKeys : delta.tenantKey ∈ (batchDelta members
      (proceeding env snapshot current members)).map DeltaRow.tenantKey :=
    List.mem_map_of_mem isDelta
  rw [batchDelta_keys, List.mem_dedup, List.mem_map] at inKeys
  obtain ⟨memberDeltaOf, isThere, sameKey⟩ := inKeys
  obtain ⟨row, isRow, rfl⟩ := List.mem_map.mp isThere
  obtain ⟨inMembers, proceeds⟩ := List.mem_filter.mp isRow
  obtain ⟨p, found⟩ := Option.isSome_iff_exists.mp proceeds
  obtain ⟨isProceeding, sameOrd⟩ := proceedingAt_eq_some_iff.mp found
  have gate := admissible_of_proceeding onePerEvent isProceeding
  rw [sameOrd, admissible, Bool.and_eq_true, List.all_eq_true] at gate
  have notMissing := gate.2 row (List.mem_filter.mpr ⟨inMembers, by simp⟩)
  simp only [DeltaRow.tenantKey, Prod.mk.injEq, EmbeddingLike.apply_eq_iff_eq] at sameKey
  simp only [accountMissing, sameKey, Bool.not_eq_eq_eq_not, Bool.not_true,
    Option.isNone_eq_false_iff] at notMissing
  exact notMissing

/-- A batch that met no constraint lands. -/
theorem batchWrites_lands (precedes : snapshot.Precedes current)
    (batchable : ∀ m ∈ members, Batchable m)
    (allowed : violation env.tzKnown current (batchWrites env snapshot current members) =
      none) :
    Lands current (batchWrites env snapshot current members) := by
  have admits := (violation_eq_none_iff ..).mp allowed
  have known := known_of_proceeding env admits.uqTxnOnePerEvent.1
  have coheres := batch_coheres env.stripeAffinity known
  have legs : ∀ m ∈ members, m.append.legs = expandPostings m.command.postings :=
    fun m isMember => (planAppend_ok (batchable m isMember).planned).1
  have txnOf : ∀ p ∈ proceeding env snapshot current members,
      (⟨p.tenantId, p.transactionId, p.eventId, "posting", .posted, p.effectiveAt, none, none,
        env.xid⟩ : TransactionRow) ∈
          (batchWrites env snapshot current members).transactions := fun p isThere =>
    List.mem_map_of_mem isThere
  have isOf : ∀ ml ∈ memberLeg members, ∀ p,
      proceedingAt (proceeding env snapshot current members) ml.ord = some p → ∀ offset,
        ({ legRowOf ml p with seqOffset := offset } : LegRow).IsOf env.xid true
          ⟨p.tenantId, p.transactionId, p.eventId, "posting", .posted, p.effectiveAt, none,
            none, env.xid⟩ := by
    intro ml isLeg p found offset
    obtain ⟨isProceeding, sameOrd⟩ := proceedingAt_eq_some_iff.mp found
    obtain ⟨m, isMember, _, _, rfl⟩ := mem_proceeding.mp isProceeding
    obtain ⟨batchMember, isBatch, isRow⟩ := mem_member isMember
    obtain ⟨other, isOther, inLegs⟩ := List.mem_flatMap.mp isLeg
    obtain ⟨leg, _, rfl⟩ := List.mem_map.mp inLegs
    obtain ⟨ord, otherMember⟩ := other
    have sameMember : otherMember = batchMember := by
      simp only at sameOrd
      rw [sameOrd] at isBatch
      exact Numbering.withOrdinality_inj isOther isBatch
    exact
    { tenant := by
        rw [isRow]
        simp only [legRowOf, sameMember]
      id := rfl
      effectiveAt := rfl
      xactId := rfl
      status := by simp }
  have entriesLand : LandsEntries current (batchWrites env snapshot current members) := by
    refine coheres.landsEntries precedes rfl rfl admits.pkTxn.1 (fun row isRow => ?_)
      (fun row isRow => ?_) (numbered_foots env.stripeAffinity known fun m isMember => ?_)
    · obtain ⟨ml, isLeg, p, found, offset, rfl⟩ := mem_numbered env.stripeAffinity known isRow
      exact ⟨_, txnOf p (proceedingAt_eq_some_iff.mp found).1, isOf ml isLeg p found offset⟩
    · obtain ⟨ml, isLeg, p, _, offset, rfl⟩ := mem_numbered env.stripeAffinity known isRow
      obtain ⟨m, isMember, inLegs⟩ := List.mem_flatMap.mp isLeg
      obtain ⟨leg, isThere, rfl⟩ := List.mem_map.mp inLegs
      have inPlan := Numbering.mem_of_mem_withOrdinality isThere
      rw [legs m.2 (Numbering.mem_of_mem_withOrdinality isMember)] at inPlan
      exact amountMinor_pos_of_mem_expandPostings inPlan
    · rw [legs m isMember]
      exact expandPostings_foots _
  have ofProceeding : ∀ transaction ∈ (batchWrites env snapshot current members).transactions,
      ∃ p ∈ proceeding env snapshot current members, transaction =
        ⟨p.tenantId, p.transactionId, p.eventId, "posting", .posted, p.effectiveAt, none, none,
          env.xid⟩ := by
    intro transaction isThere
    obtain ⟨p, isProceeding, rfl⟩ := List.mem_map.mp isThere
    exact ⟨p, isProceeding, rfl⟩
  exact
  { toLandsEntries := entriesLand
    admitted := ⟨env.tzKnown, admits⟩
    claims := claimed_admits
    nonEmpty := fun transaction isThere => by
      right
      obtain ⟨p, isProceeding, rfl⟩ := ofProceeding transaction isThere
      obtain ⟨m, isMember, _, _, isRow⟩ := mem_proceeding.mp isProceeding
      obtain ⟨batchMember, isBatch, _⟩ := mem_member isMember
      obtain ⟨leg, isLeg⟩ := List.exists_mem_of_ne_nil _
        (batchable _ (Numbering.mem_of_mem_withOrdinality isBatch)).legs_ne_nil
      rw [← Numbering.map_snd_withOrdinality batchMember.append.legs] at isLeg
      obtain ⟨numberedLeg, isThereLeg, rfl⟩ := List.mem_map.mp isLeg
      have isMemberLeg : (⟨m.ord, numberedLeg.1, batchMember.command.tenantId,
          numberedLeg.2⟩ : MemberLegRow) ∈ memberLeg members :=
        List.mem_flatMap.mpr ⟨_, isBatch, List.mem_map_of_mem isThereLeg⟩
      have found : proceedingAt (proceeding env snapshot current members) m.ord = some p :=
        proceedingAt_eq_some_iff.mpr ⟨isProceeding, by rw [isRow]⟩
      obtain ⟨offset, isNumbered⟩ :=
        numbered_of_memberLeg env.stripeAffinity known isMemberLeg found
      obtain ⟨e, isEntry, asRow⟩ :=
        Tally.exists_right_of_forall₂ (coheres.landed env current) isNumbered
      exact ⟨e, isEntry, asRow.belongsTo (isOf _ isMemberLeg p found offset)⟩
    supersedes := fun transaction isThere => by
      obtain ⟨p, _, rfl⟩ := ofProceeding transaction isThere
      exact ⟨fun _ resolves => absurd resolves (Option.some_ne_none _).symm,
        fun _ reverses => absurd reverses (Option.some_ne_none _).symm⟩
    notBoth := fun transaction isThere => by
      obtain ⟨row, _, rfl⟩ := List.mem_map.mp isThere
      exact Or.inl rfl
    checkpointed := fun _ member => by cases member
    balancesOnAccount := fun _ member => by cases member
    pendingPlain := fun transaction isThere pending => by
      obtain ⟨p, _, rfl⟩ := ofProceeding transaction isThere
      cases pending
    caused := fun transaction isThere => by
      obtain ⟨p, isProceeding, rfl⟩ := ofProceeding transaction isThere
      obtain ⟨m, _, event, found, rfl⟩ := mem_proceeding.mp isProceeding
      have isClaimed := List.mem_of_find?_eq_some found
      have carried := List.find?_some found
      simp only [Bool.and_eq_true, decide_eq_true_eq] at carried
      obtain ⟨_, _, _, _, rfl⟩ := claimed_spec.1 event isClaimed
      exact ⟨_, isClaimed, carried.1, rfl, rfl⟩
    closed := fun close member => by cases member
    named := fun transaction isThere isClose => by
      obtain ⟨p, _, rfl⟩ := ofProceeding transaction isThere
      simp at isClose
    ofPeriod := fun close member => by cases member
    apart := List.Pairwise.nil
    charted := fun account member => by cases member }

end Landing

end OpenLedger.Postgres
