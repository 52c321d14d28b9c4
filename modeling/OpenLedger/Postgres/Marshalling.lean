import OpenLedger.Numberings

/-!
# The batch as its arrays bind it

The batched statement takes its members as eleven parallel arrays.  A member is
known by its position in the claim arrays, which the statement numbers itself,
and every leg carries that number beside its own position.
-/

namespace OpenLedger.Postgres

/-- `$1` to `$5`: one entry of each array a member. -/
structure ClaimColumns where
  tenantIds : List String
  idempotencyKeys : List String
  hashes : List (List UInt8)
  payloads : List Json
  effectiveAt : List (Option OffsetDateTime)

def ClaimColumns.empty : ClaimColumns := ⟨[], [], [], [], []⟩

def ClaimColumns.push (columns : ClaimColumns) (m : BatchMember) : ClaimColumns where
  tenantIds := columns.tenantIds ++ [m.command.tenantId]
  idempotencyKeys := columns.idempotencyKeys ++ [m.command.idempotencyKey]
  hashes := columns.hashes ++ [m.hash]
  payloads := columns.payloads ++ [m.payload]
  effectiveAt := columns.effectiveAt ++ [m.command.effectiveAt]

def columnsForClaims (members : List BatchMember) : ClaimColumns :=
  members.foldl ClaimColumns.push .empty

/-- The word `ledger_direction` stores. -/
def directionAsStored : Direction → String
  | .debit => "debit"
  | .credit => "credit"

/-- `$6` to `$11`: one entry of each array a leg. -/
structure MemberLegColumns where
  memberOrdinals : List Nat
  legPositions : List Nat
  accountIds : List Uuid
  directions : List String
  amounts : List Int
  currencies : List String

def MemberLegColumns.empty : MemberLegColumns := ⟨[], [], [], [], [], []⟩

def MemberLegColumns.push (columns : MemberLegColumns) (memberOrdinal legPosition : Nat)
    (leg : Leg) : MemberLegColumns where
  memberOrdinals := columns.memberOrdinals ++ [memberOrdinal]
  legPositions := columns.legPositions ++ [legPosition]
  accountIds := columns.accountIds ++ [leg.accountId]
  directions := columns.directions ++ [directionAsStored leg.direction]
  amounts := columns.amounts ++ [leg.amountMinor]
  currencies := columns.currencies ++ [leg.currency]

/-- Both ordinals count from one. -/
def columnsForMemberLegs (members : List BatchMember) : MemberLegColumns :=
  (Numbering.withOrdinality members).foldl (fun columns m =>
    (Numbering.withOrdinality m.2.append.legs).foldl (fun columns leg =>
      columns.push m.1 leg.1 leg.2) columns) .empty

/-- A row `unnest` makes of the claim arrays at one position, with the ordinal
it counts there.  An array that is too short reads as null. -/
structure UnnestedClaim where
  ord : Nat
  tenantId : Option String
  idempotencyKey : Option String
  hash : Option (List UInt8)
  payload : Option Json
  effectiveAt : Option Timestamp

def unnestClaims (columns : ClaimColumns) : List UnnestedClaim :=
  let longest := max columns.tenantIds.length (max columns.idempotencyKeys.length
    (max columns.hashes.length (max columns.payloads.length columns.effectiveAt.length)))
  (List.range longest).map fun place =>
    ⟨place + 1, columns.tenantIds[place]?, columns.idempotencyKeys[place]?,
      columns.hashes[place]?, columns.payloads[place]?,
      columns.effectiveAt[place]?.join.map OffsetDateTime.stored⟩

/-- A row `unnest` makes of the leg arrays. -/
structure UnnestedLeg where
  ord : Option Nat
  legOrd : Option Nat
  accountId : Option Uuid
  direction : Option String
  amountMinor : Option Int
  currency : Option String

def unnestLegs (columns : MemberLegColumns) : List UnnestedLeg :=
  let longest := max columns.memberOrdinals.length (max columns.legPositions.length
    (max columns.accountIds.length (max columns.directions.length
      (max columns.amounts.length columns.currencies.length))))
  (List.range longest).map fun place =>
    ⟨columns.memberOrdinals[place]?, columns.legPositions[place]?, columns.accountIds[place]?,
      columns.directions[place]?, columns.amounts[place]?, columns.currencies[place]?⟩

/-- `member_leg`: a leg beside the tenant of the member it joins. -/
def joinedLegs (claims : ClaimColumns) (legs : MemberLegColumns) :
    List (UnnestedLeg × Option String) :=
  (unnestLegs legs).flatMap fun l =>
    ((unnestClaims claims).filter fun m => decide (l.ord = some m.ord)).map fun m =>
      (l, m.tenantId)

/-- A member as the statement reads it. -/
def MemberRow.unnested (m : MemberRow) : UnnestedClaim :=
  ⟨m.ord, some m.tenantId, some m.idempotencyKey, some m.hash, some m.payload, m.effectiveAt⟩

/-- A leg as the arrays carry it, under its two ordinals. -/
def boundLeg (ord legOrd : Nat) (leg : Leg) : UnnestedLeg :=
  ⟨some ord, some legOrd, some leg.accountId, some (directionAsStored leg.direction),
    some leg.amountMinor, some leg.currency⟩

def MemberLegRow.unnested (ml : MemberLegRow) : UnnestedLeg := boundLeg ml.ord ml.legOrd ml.leg

/-- The cast to `ledger_direction`. -/
def castDirection (text : String) : Option Direction :=
  if text = "debit" then some .debit
  else if text = "credit" then some .credit
  else none

@[simp]
theorem castDirection_directionAsStored (direction : Direction) :
    castDirection (directionAsStored direction) = some direction := by
  cases direction <;> decide

/-- The leg a row of the arrays stands for. -/
def UnnestedLeg.leg? (l : UnnestedLeg) : Option Leg :=
  l.accountId.bind fun accountId =>
    l.currency.bind fun currency =>
      (l.direction.bind castDirection).bind fun direction =>
        l.amountMinor.map fun amountMinor => ⟨accountId, currency, direction, amountMinor⟩

@[simp]
theorem leg?_boundLeg (ord legOrd : Nat) (leg : Leg) :
    (boundLeg ord legOrd leg).leg? = some leg := by
  simp [boundLeg, UnnestedLeg.leg?]

section Claims

variable (members : List BatchMember)

/-- Pushing the members one by one fills each array with its own field. -/
theorem columnsForClaims_eq :
    columnsForClaims members =
      ⟨members.map fun m => m.command.tenantId, members.map fun m => m.command.idempotencyKey,
        members.map BatchMember.hash, members.map BatchMember.payload,
        members.map fun m => m.command.effectiveAt⟩ := by
  have pushed : ∀ (rest : List BatchMember) (columns : ClaimColumns),
      rest.foldl ClaimColumns.push columns =
        ⟨columns.tenantIds ++ rest.map fun m => m.command.tenantId,
          columns.idempotencyKeys ++ rest.map fun m => m.command.idempotencyKey,
          columns.hashes ++ rest.map BatchMember.hash,
          columns.payloads ++ rest.map BatchMember.payload,
          columns.effectiveAt ++ rest.map fun m => m.command.effectiveAt⟩ := by
    intro rest
    induction rest with
    | nil =>
        intro columns
        simp
    | cons m rest inductionHypothesis =>
        intro columns
        rw [List.foldl_cons, inductionHypothesis]
        simp [ClaimColumns.push]
  rw [columnsForClaims, pushed]
  simp [ClaimColumns.empty]

/-- What the statement unnests are the members, in their order. -/
theorem unnestClaims_columnsForClaims :
    unnestClaims (columnsForClaims members) = (member members).map MemberRow.unnested := by
  rw [columnsForClaims_eq]
  apply List.ext_getElem
  · simp [unnestClaims, member, Numbering.withOrdinality]
  · intro place here _
    have inside : place < members.length := by
      simpa [unnestClaims] using here
    simp [unnestClaims, member, Numbering.withOrdinality, MemberRow.unnested, inside]

end Claims

section Legs

variable (members : List BatchMember)

/-- Pushing the legs member by member fills the arrays along the members' legs. -/
theorem columnsForMemberLegs_eq :
    columnsForMemberLegs members =
      ⟨(memberLeg members).map MemberLegRow.ord, (memberLeg members).map MemberLegRow.legOrd,
        (memberLeg members).map fun ml => ml.leg.accountId,
        (memberLeg members).map fun ml => directionAsStored ml.leg.direction,
        (memberLeg members).map fun ml => ml.leg.amountMinor,
        (memberLeg members).map fun ml => ml.leg.currency⟩ := by
  have pushed : ∀ (rest : List MemberLegRow) (columns : MemberLegColumns),
      rest.foldl (fun columns ml => columns.push ml.ord ml.legOrd ml.leg) columns =
        ⟨columns.memberOrdinals ++ rest.map MemberLegRow.ord,
          columns.legPositions ++ rest.map MemberLegRow.legOrd,
          columns.accountIds ++ rest.map fun ml => ml.leg.accountId,
          columns.directions ++ rest.map fun ml => directionAsStored ml.leg.direction,
          columns.amounts ++ rest.map fun ml => ml.leg.amountMinor,
          columns.currencies ++ rest.map fun ml => ml.leg.currency⟩ := by
    intro rest
    induction rest with
    | nil =>
        intro columns
        simp
    | cons ml rest inductionHypothesis =>
        intro columns
        rw [List.foldl_cons, inductionHypothesis]
        simp [MemberLegColumns.push]
  have flattened : columnsForMemberLegs members =
      (memberLeg members).foldl (fun columns ml => columns.push ml.ord ml.legOrd ml.leg)
        .empty := by
    rw [memberLeg, List.foldl_flatMap]
    simp only [List.foldl_map]
    rfl
  rw [flattened, pushed]
  simp [MemberLegColumns.empty]

theorem unnestLegs_columnsForMemberLegs :
    unnestLegs (columnsForMemberLegs members) = (memberLeg members).map MemberLegRow.unnested := by
  rw [columnsForMemberLegs_eq]
  apply List.ext_getElem
  · simp [unnestLegs]
  · intro place here _
    have inside : place < (memberLeg members).length := by
      simpa [unnestLegs] using here
    simp [unnestLegs, MemberLegRow.unnested, boundLeg, inside]

/-- The legs under one member's ordinal are that member's. -/
theorem filter_memberLeg {ord : Nat} {m : BatchMember}
    (isMember : (ord, m) ∈ Numbering.withOrdinality members) :
    ((memberLeg members).filter fun ml => decide (ml.ord = ord)) =
      (Numbering.withOrdinality m.append.legs).map fun leg =>
        ⟨ord, leg.1, m.command.tenantId, leg.2⟩ := by
  have perMember : ∀ other : Nat × BatchMember,
      (((Numbering.withOrdinality other.2.append.legs).map fun leg =>
        (⟨other.1, leg.1, other.2.command.tenantId, leg.2⟩ : MemberLegRow)).filter fun ml =>
          decide (ml.ord = ord)) =
        if other.1 = ord then
          (Numbering.withOrdinality other.2.append.legs).map fun leg =>
            ⟨other.1, leg.1, other.2.command.tenantId, leg.2⟩
        else [] := by
    intro other
    by_cases mine : other.1 = ord
    · simp [List.filter_map, Function.comp_def, mine]
    · simp [List.filter_map, Function.comp_def, mine]
  have chosen : ∀ others : List (Nat × BatchMember),
      (others.flatMap fun other =>
        if other.1 = ord then
          (Numbering.withOrdinality other.2.append.legs).map fun leg =>
            (⟨other.1, leg.1, other.2.command.tenantId, leg.2⟩ : MemberLegRow)
        else []) =
        (others.filter fun other => decide (other.1 = ord)).flatMap fun other =>
          (Numbering.withOrdinality other.2.append.legs).map fun leg =>
            ⟨other.1, leg.1, other.2.command.tenantId, leg.2⟩ := by
    intro others
    induction others with
    | nil =>
        rfl
    | cons other rest inductionHypothesis =>
        by_cases mine : other.1 = ord
        · simp [List.flatMap_cons, mine, inductionHypothesis]
        · simp [List.flatMap_cons, mine, inductionHypothesis]
  rw [memberLeg, List.filter_flatMap]
  simp only [perMember]
  rw [chosen, Numbering.filter_withOrdinality isMember, List.flatMap_singleton]

/-- Sorted by their positions, the rows under a member's ordinal are its legs. -/
theorem sorted_unnestLegs {ord : Nat} {m : BatchMember}
    (isMember : (ord, m) ∈ Numbering.withOrdinality members) :
    ((unnestLegs (columnsForMemberLegs members)).filter fun l =>
        decide (l.ord = some ord)).insertionSort
          (fun left right => left.legOrd.getD 0 ≤ right.legOrd.getD 0) =
      (Numbering.withOrdinality m.append.legs).map fun leg => boundLeg ord leg.1 leg.2 := by
  have mine : ((unnestLegs (columnsForMemberLegs members)).filter fun l =>
      decide (l.ord = some ord)) =
        (Numbering.withOrdinality m.append.legs).map fun leg => boundLeg ord leg.1 leg.2 := by
    have carried : ((fun l : UnnestedLeg => decide (l.ord = some ord)) ∘
        MemberLegRow.unnested) = fun ml => decide (ml.ord = ord) := by
      funext ml
      simp [MemberLegRow.unnested, boundLeg]
    rw [unnestLegs_columnsForMemberLegs, List.filter_map, carried,
      filter_memberLeg members isMember, List.map_map]
    rfl
  rw [mine]
  apply List.Pairwise.insertionSort_eq
  rw [List.pairwise_map]
  exact (Numbering.withOrdinality_increasing m.append.legs).imp fun below => below.le

/-- The join by ordinal puts every leg beside its own member's tenant. -/
theorem joinedLegs_columns :
    joinedLegs (columnsForClaims members) (columnsForMemberLegs members) =
      (memberLeg members).map fun ml => (ml.unnested, some ml.tenantId) := by
  rw [joinedLegs, unnestLegs_columnsForMemberLegs, unnestClaims_columnsForClaims,
    List.flatMap_map,
    List.map_eq_flatMap (f := fun ml : MemberLegRow => (ml.unnested, some ml.tenantId))]
  refine List.flatMap_congr fun ml isLeg => ?_
  obtain ⟨m, isMember, inLegs⟩ := List.mem_flatMap.mp isLeg
  obtain ⟨leg, _, rfl⟩ := List.mem_map.mp inLegs
  have found : (((member members).map MemberRow.unnested).filter fun c =>
      decide (some m.1 = some c.ord)) =
        [MemberRow.unnested ⟨m.1, m.2.command.tenantId, m.2.command.idempotencyKey, m.2.hash,
          m.2.payload, m.2.command.effectiveAt.map OffsetDateTime.stored⟩] := by
    have sameOrdinal : ∀ r ∈ Numbering.withOrdinality members,
        decide (some m.1 = some r.1) = decide (r.1 = m.1) := by
      intro r _
      rw [decide_eq_decide, Option.some.injEq]
      exact eq_comm
    rw [member, List.map_map, List.filter_map]
    simp only [Function.comp_def, MemberRow.unnested]
    rw [List.filter_congr sameOrdinal, Numbering.filter_withOrdinality isMember]
    rfl
  have joined := congrArg (List.map fun c : UnnestedClaim =>
    (boundLeg m.1 leg.1 leg.2, c.tenantId)) found
  exact joined

/-- Marshalling loses nothing: the arrays of each group are parallel, the legs
under the ordinal of a claim's position are that member's planned legs in
order, no two legs share their ordinals, every ordinal is a member's, and what
the statement unnests and joins are the members and legs it was given. -/
theorem marshalling_loses_nothing :
    let claims := columnsForClaims members
    let legs := columnsForMemberLegs members
    (claims.tenantIds.length = members.length ∧
        claims.idempotencyKeys.length = members.length ∧
        claims.hashes.length = members.length ∧
        claims.payloads.length = members.length ∧
        claims.effectiveAt.length = members.length) ∧
      (legs.legPositions.length = legs.memberOrdinals.length ∧
        legs.accountIds.length = legs.memberOrdinals.length ∧
        legs.directions.length = legs.memberOrdinals.length ∧
        legs.amounts.length = legs.memberOrdinals.length ∧
        legs.currencies.length = legs.memberOrdinals.length) ∧
      (∀ index m, members[index]? = some m →
        claims.tenantIds[index]? = some m.command.tenantId ∧
          claims.idempotencyKeys[index]? = some m.command.idempotencyKey ∧
          claims.hashes[index]? = some m.hash ∧
          claims.payloads[index]? = some m.payload ∧
          claims.effectiveAt[index]? = some m.command.effectiveAt ∧
          let mine := ((unnestLegs legs).filter fun l =>
            decide (l.ord = some (index + 1))).insertionSort
              fun left right => left.legOrd.getD 0 ≤ right.legOrd.getD 0
          mine.map UnnestedLeg.leg? = m.append.legs.map some ∧
            mine.map UnnestedLeg.legOrd =
              (List.range m.append.legs.length).map fun place => some (place + 1)) ∧
      ((unnestLegs legs).map fun l => (l.ord, l.legOrd)).Nodup ∧
      (∀ l ∈ unnestLegs legs, ∃ index m, members[index]? = some m ∧ l.ord = some (index + 1)) ∧
      unnestClaims claims = (member members).map MemberRow.unnested ∧
      joinedLegs claims legs =
        (memberLeg members).map fun ml => (ml.unnested, some ml.tenantId) := by
  refine ⟨?_, ?_, ?_, ?_, ?_, unnestClaims_columnsForClaims members,
    joinedLegs_columns members⟩
  · simp [columnsForClaims_eq]
  · simp [columnsForMemberLegs_eq]
  · intro index m here
    have isMember : (index + 1, m) ∈ Numbering.withOrdinality members :=
      Numbering.mem_withOrdinality_iff.mpr ⟨index, here, rfl⟩
    simp only [columnsForClaims_eq, List.getElem?_map, here, Option.map_some,
      sorted_unnestLegs members isMember, List.map_map, true_and]
    constructor
    · rw [← Numbering.map_snd_withOrdinality m.append.legs, List.map_map,
        Numbering.map_snd_withOrdinality]
      exact List.map_congr_left fun leg _ => leg?_boundLeg _ _ _
    · have positions := Numbering.map_fst_withOrdinality m.append.legs
      have asSome := congrArg (List.map some) positions
      rw [List.map_map, List.map_map] at asSome
      exact asSome
  · rw [unnestLegs_columnsForMemberLegs, List.map_map, List.Nodup, List.pairwise_map]
    refine (memberLeg_increasing members).imp fun below same => ?_
    simp only [Function.comp_apply, MemberLegRow.unnested, boundLeg, Prod.mk.injEq,
      Option.some.injEq] at same
    rw [same.1, same.2] at below
    exact lt_irrefl _ below
  · intro l isThere
    rw [unnestLegs_columnsForMemberLegs] at isThere
    obtain ⟨ml, isLeg, rfl⟩ := List.mem_map.mp isThere
    obtain ⟨m, isMember, inLegs⟩ := List.mem_flatMap.mp isLeg
    obtain ⟨leg, _, rfl⟩ := List.mem_map.mp inLegs
    obtain ⟨index, here, isOrd⟩ := Numbering.mem_withOrdinality_iff.mp isMember
    exact ⟨index, m.2, here, congrArg some isOrd⟩

end Legs

end OpenLedger.Postgres

namespace OpenLedger.Shop

/-- A member of one fee beside a member of two. -/
def twoMembers : List BatchMember :=
  let plan := fun postings : List Posting =>
    (planAppend postings .posted).toOption.getD ⟨[], [], .empty⟩
  [⟨command "first" 1000 .posted none 70, [1], .null, plan [fee 70]⟩,
    ⟨command "second" 2000 .posted none 30, [2], .null, plan [fee 30, fee 5]⟩]

theorem twoMembers_marshalled :
    (Postgres.columnsForMemberLegs twoMembers).memberOrdinals = [1, 1, 2, 2, 2, 2] ∧
      (Postgres.columnsForClaims twoMembers).hashes[1]? = some [2] :=
  ⟨by decide +kernel, ((Postgres.marshalling_loses_nothing twoMembers).2.2.1 1 _ rfl).2.2.1⟩

end OpenLedger.Shop
