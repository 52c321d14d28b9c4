import OpenLedger.Postgres.Landing
import OpenLedger.Service

/-!
# What the single call lands

The single call answers in one of five ways, and only one of them leaves
writes a service commits.  Under the condition the service checks before its
commit, those writes land.
-/

namespace OpenLedger.Postgres

section Answers

variable (env : Env) (snapshot current : Book) (command : PostTransaction)
  (hash : List UInt8) (payload : Json) (append : Append)

/-- The casts of the mirrored sums. -/
def mirrorCasts : List Int :=
  (mirrorDelta command (mirrorLeg snapshot command (supersedeTarget snapshot command))).flatMap
    fun d => [d.input, d.output]

/-- The append the single call answers when its gate admits the command. -/
def appendedAnswer : Appended :=
  ⟨env.eventId 0, env.transactionId 0,
    collectBalanceUpserts (appendRows env snapshot current command append)⟩

/-- The target columns of every answered row. -/
def targetRow : ClaimedRow :=
  let target := supersedeTarget snapshot command
  { eventId := env.eventId 0
    transactionId := none
    accountId := none
    currency := none
    lastSeq := none
    targetStatus := target.map SupersedeTarget.status
    targetKind := target.map SupersedeTarget.kind
    targetIsSuperseding := target.map SupersedeTarget.isSuperseding
    targetAlreadySuperseded := target.map SupersedeTarget.targetAlreadySuperseded }

theorem claimAndAppend_held
    (held : (current.holderOf command.tenantId command.idempotencyKey).isSome) :
    claimAndAppend env snapshot current command hash payload append = (.ok none, .none) := by
  simp [claimAndAppend, claimAndAppendStatement, held, claimedFromTheRows]

/-- Every row of the answer carries the same claim and the same target. -/
theorem appendRows_spec :
    appendRows env snapshot current command append ≠ [] ∧
      ∀ row ∈ appendRows env snapshot current command append,
        row.eventId = env.eventId 0 ∧
          row.transactionId = ((txn env snapshot command).head?).map TransactionRow.id ∧
          row.targetStatus = (targetRow env snapshot command).targetStatus ∧
          row.targetKind = (targetRow env snapshot command).targetKind ∧
          row.targetIsSuperseding = (targetRow env snapshot command).targetIsSuperseding ∧
          row.targetAlreadySuperseded =
            (targetRow env snapshot command).targetAlreadySuperseded := by
  unfold appendRows
  dsimp only
  split
  · exact ⟨by simp, fun row member => by
      rw [List.mem_singleton.mp member]
      exact ⟨rfl, rfl, rfl, rfl, rfl, rfl⟩⟩
  · rename_i notEmpty
    refine ⟨fun empty => notEmpty (List.map_eq_nil_iff.mp empty), fun row member => ?_⟩
    obtain ⟨delta, _, rfl⟩ := List.mem_map.mp member
    exact ⟨rfl, rfl, rfl, rfl, rfl, rfl⟩

theorem diagnose_congr {left right : ClaimedRow}
    (status : left.targetStatus = right.targetStatus)
    (kind : left.targetKind = right.targetKind)
    (superseding : left.targetIsSuperseding = right.targetIsSuperseding)
    (superseded : left.targetAlreadySuperseded = right.targetAlreadySuperseded) :
    diagnoseSupersedeRefusal command left = diagnoseSupersedeRefusal command right := by
  simp only [diagnoseSupersedeRefusal, status, kind, superseding, superseded]

theorem txn_head_id :
    ((txn env snapshot command).head?).map TransactionRow.id =
      if gateAdmits command (supersedeTarget snapshot command) = true then
        some (env.transactionId 0)
      else none := by
  unfold txn
  dsimp only
  split <;> rfl

/-- What the answered rows are read as: the append when the gate admits, and
otherwise the diagnosis of the target. -/
theorem claimedFromTheRows_appendRows :
    claimedFromTheRows command (appendRows env snapshot current command append) =
      if gateAdmits command (supersedeTarget snapshot command) = true then
        .ok (some (.appended (appendedAnswer env snapshot current command append)))
      else
        (diagnoseSupersedeRefusal command (targetRow env snapshot command)).map fun refusal =>
          some (.supersessionRefused refusal) := by
  obtain ⟨notEmpty, spec⟩ := appendRows_spec env snapshot current command append
  cases rows : appendRows env snapshot current command append with
  | nil =>
      exact absurd rows notEmpty
  | cons first rest =>
      obtain ⟨event, transaction, status, kind, superseding, superseded⟩ :=
        spec first (rows ▸ List.mem_cons_self)
      rw [txn_head_id] at transaction
      unfold claimedFromTheRows
      dsimp only
      by_cases admitted : gateAdmits command (supersedeTarget snapshot command) = true
      · rw [if_pos admitted] at transaction
        rw [if_pos admitted, transaction, event, ← rows]
        rfl
      · rw [if_neg admitted] at transaction
        rw [if_neg admitted, transaction,
          diagnose_congr command status kind superseding superseded]

/-- The single call on a free key whose mirrored sums are representable. -/
theorem claimAndAppend_free
    (free : current.holderOf command.tenantId command.idempotencyKey = none) :
    claimAndAppend env snapshot current command hash payload append =
      match ensureBigints (mirrorCasts snapshot command),
          violation env.tzKnown current
            (appendWrites env snapshot current command hash payload append) with
      | .error error, _ => (.error (.backend error), .none)
      | .ok (), some error =>
          match refusalFromSupersessionRace error with
          | some refused => (.ok (some refused), .none)
          | none => (.error (.backend error), .none)
      | .ok (), none =>
          (if gateAdmits command (supersedeTarget snapshot command) = true then
              .ok (some (.appended (appendedAnswer env snapshot current command append)))
            else
              (diagnoseSupersedeRefusal command (targetRow env snapshot command)).map
                fun refusal => some (.supersessionRefused refusal),
            appendWrites env snapshot current command hash payload append) := by
  have numeric : ∀ values error, ensureBigints values = .error error →
      refusalFromSupersessionRace error = none := by
    intro values error refused
    unfold ensureBigints at refused
    split at refused
    · cases refused
    · cases refused
      rfl
  unfold claimAndAppend claimAndAppendStatement mirrorCasts
  rw [free]
  cases casts : ensureBigints ((mirrorDelta command (mirrorLeg snapshot command
      (supersedeTarget snapshot command))).flatMap fun d => [d.input, d.output]) with
  | error error =>
      simp [bind, Except.bind, numeric _ error casts]
  | ok representable =>
      cases violated : violation env.tzKnown current
          (appendWrites env snapshot current command hash payload append) with
      | some error =>
          cases raced : refusalFromSupersessionRace error with
          | none =>
              simp [bind, Except.bind, violated, raced]
          | some refused =>
              simp [bind, Except.bind, violated, raced]
      | none =>
          simp [bind, Except.bind, violated, claimedFromTheRows_appendRows]

/-- What it takes for the single call to answer an append. -/
theorem claimAndAppend_appended {appended : Appended} {writes : Writes}
    (answered : claimAndAppend env snapshot current command hash payload append =
      (.ok (some (.appended appended)), writes)) :
    current.holderOf command.tenantId command.idempotencyKey = none ∧
      gateAdmits command (supersedeTarget snapshot command) = true ∧
      violation env.tzKnown current
        (appendWrites env snapshot current command hash payload append) = none ∧
      appended = appendedAnswer env snapshot current command append ∧
      writes = appendWrites env snapshot current command hash payload append := by
  cases held : current.holderOf command.tenantId command.idempotencyKey with
  | some event =>
      rw [claimAndAppend_held _ _ _ _ _ _ _ (by rw [held]; rfl)] at answered
      cases answered
  | none =>
      rw [claimAndAppend_free _ _ _ _ _ _ _ held] at answered
      cases casts : ensureBigints (mirrorCasts snapshot command) with
      | error error =>
          rw [casts] at answered
          cases answered
      | ok representable =>
          rw [casts] at answered
          cases violated : violation env.tzKnown current
              (appendWrites env snapshot current command hash payload append) with
          | some error =>
              rw [violated] at answered
              simp only at answered
              cases race : refusalFromSupersessionRace error with
              | none =>
                  rw [race] at answered
                  cases answered
              | some refused =>
                  rw [race] at answered
                  simp only [Prod.mk.injEq, Except.ok.injEq, Option.some.injEq] at answered
                  rw [answered.1] at race
                  unfold refusalFromSupersessionRace at race
                  split at race <;> cases race
          | none =>
              rw [violated] at answered
              simp only [Prod.mk.injEq] at answered
              split at answered
              · rename_i admitted
                simp only [Except.ok.injEq, Option.some.injEq, Claimed.appended.injEq] at answered
                exact ⟨rfl, admitted, rfl, answered.1.symm, answered.2.symm⟩
              · cases diagnosed : diagnoseSupersedeRefusal command
                    (targetRow env snapshot command) with
                | error failure =>
                    rw [diagnosed] at answered
                    cases answered.1
                | ok refusal =>
                    rw [diagnosed] at answered
                    cases answered.1

end Answers

section Legs

variable {env : Env} {snapshot current : Book} {command : PostTransaction} {append : Append}

/-- Every leg the statement lands, beside its offset: the planned ones and the
mirrored ones, of which one side is empty. -/
def legsToLand (snapshot : Book) (command : PostTransaction) (append : Append) :
    List (Leg × Nat) :=
  append.legs.zip append.seqOffsets ++
    mirrorLeg snapshot command (supersedeTarget snapshot command)

/-- A reversal's mirrored legs: its posted target's entries in the order of
their numbers, flipped and walked back. -/
theorem mirrorLeg_posted (target : Option SupersedeTarget) (snapshot : Book)
    {reversed : Uuid}
    (reverses : command.reversesId = some reversed)
    (isPosted : target.map SupersedeTarget.status = some .posted) :
    ∃ sorted : List EntryRow,
      sorted.Perm (entriesOf snapshot command.tenantId reversed) ∧
        mirrorLeg snapshot command target =
          (sorted.map mirrorOf).zip (Numbering.walkBack Leg.key (sorted.map mirrorOf)) := by
  refine ⟨(entriesOf snapshot command.tenantId reversed).insertionSort
      fun left right => left.accountSeq ≤ right.accountSeq,
    List.perm_insertionSort _ _, ?_⟩
  unfold mirrorLeg
  simp only [reverses, isPosted, if_true]
  rw [Numbering.windowOffsets_eq, Numbering.walkBack_map, List.zip_map_left]
  rfl

theorem mirrorLeg_of_no_reversal {target : Option SupersedeTarget}
    (noReversal : command.reversesId = none) :
    mirrorLeg snapshot command target = [] := by
  simp [mirrorLeg, noReversal]

theorem mirrorLeg_of_not_posted {target : Option SupersedeTarget}
    (notPosted : target.map SupersedeTarget.status ≠ some .posted) :
    mirrorLeg snapshot command target = [] := by
  unfold mirrorLeg
  split
  · rfl
  · rw [if_neg notPosted]

theorem appendedLegs_eq (env : Env) (append : Append)
    (admitted : gateAdmits command (supersedeTarget snapshot command) = true) :
    appendedLegs env snapshot command append =
      (legsToLand snapshot command append).map fun numbered =>
        ⟨command.tenantId, env.transactionId 0, numbered.1, numbered.2,
          effective env command (supersedeTarget snapshot command)⟩ := by
  simp [appendedLegs, txn, admitted, legsToLand]

/-- The legs of a posted target's mirror foot, because the target does. -/
theorem foots_mirrorOf (kept : Kept snapshot) {tenantId : String} {reversed : Uuid}
    {sorted : List EntryRow} (permutation : sorted.Perm (entriesOf snapshot tenantId reversed)) :
    Foots (sorted.map mirrorOf) := by
  intro currency
  have side : ∀ direction : Direction,
      currencySide direction.flip currency (sorted.map mirrorOf) =
        sideOf tenantId reversed currency direction snapshot.entries := by
    intro direction
    rw [currencySide, Tally.sumWhere_map, Tally.sumWhere_perm permutation, entriesOf,
      Tally.sumWhere_filter, sideOf]
    refine Tally.sumWhere_congr (fun entry _ => ?_) fun _ _ _ => rfl
    have flipped : (mirrorOf entry).direction = direction.flip ↔
        entry.direction = direction := by
      rw [show (mirrorOf entry).direction = entry.direction.flip from rfl,
        Direction.flip_eq_iff, Direction.flip_flip]
    have currencies : (mirrorOf entry).currency = entry.currency := rfl
    simp only [flipped, currencies, Bool.and_assoc]
  have debits := side .credit
  have credits := side .debit
  simp only [Direction.flip] at debits credits
  rw [debits, credits, kept.foots]

theorem legsToLand_of_no_reversal (noReversal : command.reversesId = none) :
    legsToLand snapshot command append = append.legs.zip append.seqOffsets := by
  rw [legsToLand, mirrorLeg_of_no_reversal noReversal, List.append_nil]

/-- A reversal carries no postings, so nothing of its own is planned. -/
theorem planned_of_reversal (planned : planAppend command.postings command.status = .ok append)
    (reversal : command.reversesId.isSome) :
    append.legs = [] ∧ append.deltas.entries = [] := by
  obtain ⟨legs, _, deltas, coalesced, isDeltas⟩ := planAppend_ok planned
  have none : append.legs = [] := by
    rw [legs, command.reversalBare reversal]
    rfl
  refine ⟨none, ?_⟩
  rw [isDeltas, OrdMap.entries_mapValues, List.map_eq_nil_iff, List.eq_nil_iff_forall_not_mem]
  rintro ⟨key, delta⟩ member
  have held := (OrdMap.get?_eq_some_iff deltas key delta).mpr member
  rw [coalesced key, none] at held
  simp [legCount] at held

theorem legsToLand_of_reversal
    (planned : planAppend command.postings command.status = .ok append)
    (reversal : command.reversesId.isSome) :
    legsToLand snapshot command append =
      mirrorLeg snapshot command (supersedeTarget snapshot command) := by
  rw [legsToLand, (planned_of_reversal planned reversal).1]
  rfl

/-- The legs a statement lands are walked back, foot and are positive. -/
theorem legsToLand_spec (kept : Kept snapshot)
    (planned : planAppend command.postings command.status = .ok append) :
    ((legsToLand snapshot command append).map Prod.snd =
        Numbering.walkBack Leg.key ((legsToLand snapshot command append).map Prod.fst)) ∧
      Foots ((legsToLand snapshot command append).map Prod.fst) ∧
      ∀ leg ∈ (legsToLand snapshot command append).map Prod.fst, 0 < leg.amountMinor := by
  have unzip : ∀ legs : List Leg,
      (legs.zip (Numbering.walkBack Leg.key legs)).map Prod.fst = legs ∧
        (legs.zip (Numbering.walkBack Leg.key legs)).map Prod.snd =
          Numbering.walkBack Leg.key legs := by
    intro legs
    exact ⟨List.map_fst_zip (by simp), List.map_snd_zip (by simp)⟩
  cases reverses : command.reversesId with
  | none =>
      obtain ⟨legs, offsets, _⟩ := planAppend_ok planned
      rw [legsToLand_of_no_reversal reverses, offsets, (unzip _).1, (unzip _).2, legs]
      exact ⟨rfl, expandPostings_foots _, fun leg => amountMinor_pos_of_mem_expandPostings⟩
  | some reversed =>
      rw [legsToLand_of_reversal planned (by rw [reverses]; rfl)]
      by_cases isPosted : (supersedeTarget snapshot command).map SupersedeTarget.status =
          some .posted
      · obtain ⟨sorted, permutation, mirrored⟩ :=
          mirrorLeg_posted _ snapshot reverses isPosted
        rw [mirrored, (unzip _).1, (unzip _).2]
        refine ⟨rfl, foots_mirrorOf kept permutation, fun leg member => ?_⟩
        obtain ⟨entry, isThere, rfl⟩ := List.mem_map.mp member
        exact kept.positive entry (List.mem_of_mem_filter (permutation.mem_iff.mp isThere))
      · rw [mirrorLeg_of_not_posted isPosted]
        exact ⟨rfl, fun _ => rfl, fun leg member => absurd member List.not_mem_nil⟩

theorem plannedDelta_of_reversal
    (planned : planAppend command.postings command.status = .ok append)
    (reversal : command.reversesId.isSome) : plannedDelta command append = [] := by
  rw [plannedDelta, (planned_of_reversal planned reversal).2, List.map_nil]

theorem delta_of_no_reversal (noReversal : command.reversesId = none) :
    delta snapshot command append = plannedDelta command append := by
  rw [delta, mirrorLeg_of_no_reversal noReversal]
  exact List.append_nil _

/-- The statement's deltas cohere with its legs once every delta's account is
known. -/
theorem append_coheres (env : Env)
    (planned : planAppend command.postings command.status = .ok append)
    (admitted : gateAdmits command (supersedeTarget snapshot command) = true)
    (kept : Kept snapshot)
    (known : ∀ d ∈ delta snapshot command append,
      (snapshot.account? d.tenantId d.accountId d.currency).isSome) :
    Coheres snapshot (decide (command.status = .posted)) (delta snapshot command append)
      (appendedLegs env snapshot command append) := by
  have rows := appendedLegs_eq env append admitted
  have legs : (appendedLegs env snapshot command append).map LegRow.leg =
      (legsToLand snapshot command append).map Prod.fst := by
    rw [rows, List.map_map]
    rfl
  have offsets : (appendedLegs env snapshot command append).map LegRow.seqOffset =
      Numbering.walkBack Leg.key
        ((appendedLegs env snapshot command append).map LegRow.leg) := by
    rw [legs, ← (legsToLand_spec kept planned).1, rows, List.map_map]
    rfl
  have ofTenant : ∀ row ∈ appendedLegs env snapshot command append,
      row.tenantId = command.tenantId := by
    intro row member
    rw [rows] at member
    obtain ⟨numbered, _, rfl⟩ := List.mem_map.mp member
    rfl
  cases reverses : command.reversesId with
  | none =>
      obtain ⟨_, walked, deltas, coalesced, isDeltas⟩ := planAppend_ok planned
      rw [delta_of_no_reversal reverses] at known ⊢
      have sameLegs : (appendedLegs env snapshot command append).map LegRow.leg =
          append.legs := by
        rw [legs, legsToLand_of_no_reversal reverses, List.map_fst_zip (by simp [walked])]
      have held : ∀ d ∈ plannedDelta command append, d.tenantId = command.tenantId ∧
          ∃ held, deltas.get? d.key = some held ∧
            d.input = (withholdIfPending command.status held).input ∧
            d.output = (withholdIfPending command.status held).output ∧
            d.legs = (withholdIfPending command.status held).legs := by
        intro d member
        rw [plannedDelta, isDeltas, OrdMap.entries_mapValues, List.map_map] at member
        obtain ⟨⟨key, held⟩, isThere, rfl⟩ := List.mem_map.mp member
        exact ⟨rfl, held, (OrdMap.get?_eq_some_iff deltas key held).mpr isThere, rfl, rfl, rfl⟩
      have columns : ∀ d ∈ plannedDelta command append,
          d.legs = legCount d.key append.legs ∧
            d.input = (if decide (command.status = .posted) = true then
              sideSum .debit d.key append.legs else 0) ∧
            d.output = (if decide (command.status = .posted) = true then
              sideSum .credit d.key append.legs else 0) := by
        intro d member
        obtain ⟨_, held, found, input, output, count⟩ := held d member
        rw [coalesced d.key] at found
        split at found
        · cases found
        · cases found
          rw [input, output, count]
          cases command.status <;> simp [withholdIfPending]
      have keys : (plannedDelta command append).map DeltaRow.key = append.deltas.keys := by
        rw [plannedDelta, List.map_map]
        rfl
      refine coheres_of_legs ofTenant (fun d member => (held d member).1)
        (by rw [keys]; exact append.deltas.keys_nodup) known (fun row member => ?_)
        (fun d member => by rw [sameLegs]; exact (columns d member).1)
        (fun d member => by rw [sameLegs]; exact (columns d member).2.1)
        (fun d member => by rw [sameLegs]; exact (columns d member).2.2) offsets
      have isLeg : row.leg ∈ append.legs := by
        rw [← sameLegs]
        exact List.mem_map_of_mem member
      have counted : legCount row.leg.key append.legs ≠ 0 := by
        rw [legCount, Ne, List.countP_eq_zero]
        intro none
        simpa using none row.leg isLeg
      have found := coalesced row.leg.key
      rw [if_neg counted] at found
      rw [keys, isDeltas]
      simp only [OrdMap.keys, OrdMap.entries_mapValues, List.map_map, List.mem_map]
      exact ⟨_, (OrdMap.get?_eq_some_iff deltas _ _).mp found, rfl⟩
  | some reversed =>
      have reversal : command.reversesId.isSome := by rw [reverses]; rfl
      have sameDeltas : delta snapshot command append = groupDeltas command.tenantId
          ((appendedLegs env snapshot command append).map LegRow.leg) := by
        rw [delta, plannedDelta_of_reversal planned reversal, legs,
          legsToLand_of_reversal planned reversal]
        rfl
      rw [command.reversalPosted reversal, sameDeltas]
      rw [sameDeltas] at known
      refine coheres_groupDeltas ofTenant (fun row member => ?_) offsets
      have inKeys : row.leg.key ∈ (groupDeltas command.tenantId
          ((appendedLegs env snapshot command append).map LegRow.leg)).map DeltaRow.key := by
        rw [groupDeltas_keys, List.mem_dedup]
        exact List.mem_map_of_mem (List.mem_map_of_mem member)
      obtain ⟨d, isDelta, same⟩ := List.mem_map.mp inKeys
      have knownDelta := known d isDelta
      obtain ⟨key, _, rfl⟩ := List.mem_map.mp isDelta
      simp only [DeltaRow.key, Leg.key, EmbeddingLike.apply_eq_iff_eq, Prod.mk.injEq] at same
      rw [← same.1, ← same.2]
      exact knownDelta

/-- The balance upserts the service reads: one a delta, in account order. -/
theorem mem_collectBalanceUpserts (env : Env) (current : Book) {d : DeltaRow}
    (member : d ∈ delta snapshot command append) :
    (⟨d.accountId, d.currency,
      (counterOf (balance current (striped snapshot env.stripeAffinity
        (delta snapshot command append))) d.tenantId d.accountId d.currency).map
          CounterRow.lastSeq⟩ : BalanceUpsert) ∈
      collectBalanceUpserts (appendRows env snapshot current command append) := by
  have inSorted := (List.mem_insertionSort (fun left right : DeltaRow =>
    toLex (left.accountId, left.currency) ≤ toLex (right.accountId, right.currency))).mpr
      member
  unfold collectBalanceUpserts appendRows
  dsimp only
  split
  · rename_i empty
    rw [empty] at inSorted
    cases inSorted
  · exact List.mem_filterMap.mpr ⟨_, List.mem_map_of_mem inSorted, rfl⟩

/-- What the service checks of an answer before it commits: a reversal's is
taken as it stands, and any other's must have a counter for every delta. -/
def Complete (command : PostTransaction) (upserts : List BalanceUpsert) : Prop :=
  command.reversesId.isSome ∨
    (upserts.find? fun upsert => upsert.lastSeq.isNone) = none

/-- Every account a committed append moves is known. -/
theorem known_of_complete (kept : Kept snapshot)
    (planned : planAppend command.postings command.status = .ok append)
    (complete : Complete command
      (collectBalanceUpserts (appendRows env snapshot current command append))) :
    ∀ d ∈ delta snapshot command append,
      (snapshot.account? d.tenantId d.accountId d.currency).isSome := by
  intro d member
  rcases complete with reversal | noneMissing
  · rw [delta, plannedDelta_of_reversal planned reversal, List.nil_append] at member
    obtain ⟨key, isKey, rfl⟩ := List.mem_map.mp member
    obtain ⟨leg, isLeg, rfl⟩ := List.mem_map.mp (List.mem_dedup.mp isKey)
    obtain ⟨reversed, reverses⟩ := Option.isSome_iff_exists.mp reversal
    by_cases isPosted : (supersedeTarget snapshot command).map SupersedeTarget.status =
        some .posted
    · obtain ⟨sorted, permutation, mirrored⟩ := mirrorLeg_posted _ snapshot reverses isPosted
      rw [mirrored, List.map_fst_zip (by simp)] at isLeg
      obtain ⟨entry, isEntry, rfl⟩ := List.mem_map.mp isLeg
      obtain ⟨isThere, ofTarget⟩ := List.mem_filter.mp (permutation.mem_iff.mp isEntry)
      simp only [Bool.and_eq_true, decide_eq_true_eq] at ofTarget
      have known := kept.onAccount entry isThere
      rw [ofTarget.1] at known
      exact known
    · rw [mirrorLeg_of_not_posted isPosted] at isLeg
      cases isLeg
  · have counted := List.find?_eq_none.mp noneMissing _
      (mem_collectBalanceUpserts env current member)
    refine known_of_counterOf current env.stripeAffinity (delta snapshot command append) ?_
    rw [Option.isSome_iff_ne_none]
    simpa using counted

end Legs

section Landing

variable {env : Env} {snapshot current : Book} {command : PostTransaction}
  {hash : List UInt8} {payload : Json} {append : Append}

/-- The transaction row of an admitted command. -/
def appendedTxn (env : Env) (snapshot : Book) (command : PostTransaction) : TransactionRow where
  tenantId := command.tenantId
  id := env.transactionId 0
  eventId := env.eventId 0
  kind := "posting"
  status := command.status
  effectiveAt := effective env command (supersedeTarget snapshot command)
  resolvesId := command.resolvesId
  reversesId := command.reversesId
  xactId := env.xid

theorem txn_of_admitted
    (admitted : gateAdmits command (supersedeTarget snapshot command) = true) :
    txn env snapshot command = [appendedTxn env snapshot command] := by
  simp [txn, admitted, appendedTxn]

/-- The row a superseding command names, as the statement reads it. -/
theorem supersedeTarget_spec {target : SupersedeTarget}
    (found : supersedeTarget snapshot command = some target) :
    ∃ id row, supersededId command = some id ∧
      snapshot.transaction? command.tenantId id = some row ∧
      target.effectiveAt = row.effectiveAt ∧ target.status = row.status ∧
      target.kind = row.kind ∧ target.isSuperseding = row.supersedes.isSome ∧
      target.targetAlreadySuperseded = snapshot.transactions.any fun rr =>
        decide (rr.tenantId = command.tenantId) && rr.names id := by
  obtain ⟨id, isId, mapped⟩ := Option.bind_eq_some_iff.mp found
  obtain ⟨row, isRow, rfl⟩ := Option.map_eq_some_iff.mp mapped
  have sameId : row.id = id := (Kept.mem_of_transaction? isRow).2.2
  refine ⟨id, row, isId, isRow, rfl, rfl, rfl, ?_, by rw [sameId]⟩
  simp [TransactionRow.supersedes, Option.isSome_or]

/-- What the gate lets a command supersede. -/
theorem gate_supersedes (precedes : snapshot.Precedes current)
    (admitted : gateAdmits command (supersedeTarget snapshot command) = true) :
    (appendedTxn env snapshot command).SupersedesIn current where
  resolves := fun id resolved => by
    have noReversal : command.reversesId = none := by
      by_contra given
      have none := command.reversalAlone (Option.isSome_iff_ne_none.mpr given)
      rw [appendedTxn] at resolved
      simp [none] at resolved
    have isResolution : command.resolvesId = some id := resolved
    cases found : supersedeTarget snapshot command with
    | none =>
        simp [gateAdmits, found, isResolution, noReversal] at admitted
    | some target =>
        obtain ⟨named, row, isNamed, isRow, _, status, _⟩ := supersedeTarget_spec found
        obtain rfl : id = named := by
          simpa [supersededId, isResolution] using isNamed
        have pending : target.status = .pending := by
          simp [gateAdmits, found, isResolution, noReversal] at admitted
          exact admitted.1
        exact ⟨row, precedes.transaction? isRow, status.symm.trans pending⟩
  reverses := fun id reversed => by
    have isReversal : command.reversesId = some id := reversed
    have noResolution := command.reversalAlone (by rw [isReversal]; rfl)
    cases found : supersedeTarget snapshot command with
    | none =>
        simp [gateAdmits, found, isReversal, noResolution] at admitted
    | some target =>
        obtain ⟨named, row, isNamed, isRow, _, _, kind, superseding, _⟩ :=
          supersedeTarget_spec found
        obtain rfl : id = named := by
          simpa [supersededId, isReversal, noResolution] using isNamed
        simp [gateAdmits, found, isReversal, noResolution] at admitted
        obtain ⟨⟨isPosting, plain⟩, _⟩ := admitted
        refine ⟨row, precedes.transaction? isRow, kind.symm.trans isPosting, ?_⟩
        rw [superseding] at plain
        simpa using plain

/-- An admitted command that lands no leg reverses a pending transaction. -/
theorem entryless_or_legs (kept : Kept snapshot) (precedes : snapshot.Precedes current)
    (planned : planAppend command.postings command.status = .ok append)
    (admitted : gateAdmits command (supersedeTarget snapshot command) = true) :
    (appendedTxn env snapshot command).Entryless current ∨
      appendedLegs env snapshot command append ≠ [] := by
  rw [appendedLegs_eq env append admitted]
  cases reverses : command.reversesId with
  | none =>
      obtain ⟨legs, offsets, _⟩ := planAppend_ok planned
      right
      rw [legsToLand_of_no_reversal reverses, offsets, legs]
      cases postings : command.postings with
      | nil =>
          exact absurd postings (command.postingsNotEmpty reverses)
      | cons posting rest =>
          simp [expandPostings, Numbering.walkBack]
  | some reversed =>
      have reversal : command.reversesId.isSome := by rw [reverses]; rfl
      have noResolution := command.reversalAlone reversal
      rw [legsToLand_of_reversal planned reversal]
      cases found : supersedeTarget snapshot command with
      | none =>
          simp [gateAdmits, found, noResolution, reverses] at admitted
      | some target =>
          obtain ⟨named, row, isNamed, isRow, _, status, kind, superseding, _⟩ :=
            supersedeTarget_spec found
          obtain rfl : reversed = named := by
            simpa [supersededId, reverses, noResolution] using isNamed
          simp [gateAdmits, found, noResolution, reverses] at admitted
          obtain ⟨⟨isPosting, plain⟩, _⟩ := admitted
          obtain ⟨isThere, ofTenant, isRowId⟩ := Kept.mem_of_transaction? isRow
          cases isPosted : row.status with
          | pending =>
              exact Or.inl (Or.inr ⟨reversed, row, reverses, precedes.transaction? isRow,
                isPosted⟩)
          | posted =>
              right
              obtain ⟨sorted, permutation, mirrored⟩ :=
                mirrorLeg_posted (some target) snapshot reverses
                  (by rw [Option.map_some, status, isPosted])
              rw [mirrored]
              have hasEntry : ∃ entry ∈ snapshot.entries, entry.BelongsTo row := by
                refine (kept.nonEmpty row isThere).resolve_left ?_
                rintro (isClose | ⟨id, _, reversesOther, _⟩)
                · rw [← kind, isPosting] at isClose
                  exact absurd isClose (by decide)
                · rw [superseding] at plain
                  simp [TransactionRow.supersedes, reversesOther] at plain
              obtain ⟨entry, isEntry, belongs⟩ := hasEntry
              have inSorted : entry ∈ sorted := by
                refine permutation.mem_iff.mpr (List.mem_filter.mpr ⟨isEntry, ?_⟩)
                simp [← belongs.tenant, ← belongs.id, ofTenant, isRowId]
              intro empty
              rw [List.map_eq_nil_iff, List.zip_eq_nil_iff] at empty
              have none : sorted = [] := by
                rcases empty with noLegs | noOffsets
                · exact List.map_eq_nil_iff.mp noLegs
                · have sizes := congrArg List.length noOffsets
                  simpa using sizes
              rw [none] at inSorted
              cases inSorted

/-- An admitted append whose accounts are known, and which met no constraint,
lands. -/
theorem appendWrites_lands (kept : Kept snapshot) (precedes : snapshot.Precedes current)
    (planned : planAppend command.postings command.status = .ok append)
    (free : current.holderOf command.tenantId command.idempotencyKey = none)
    (admitted : gateAdmits command (supersedeTarget snapshot command) = true)
    (known : ∀ d ∈ delta snapshot command append,
      (snapshot.account? d.tenantId d.accountId d.currency).isSome)
    (allowed : violation env.tzKnown current
      (appendWrites env snapshot current command hash payload append) = none) :
    Lands current (appendWrites env snapshot current command hash payload append) := by
  have admits := (violation_eq_none_iff ..).mp allowed
  have coheres := append_coheres env planned admitted kept known
  have transactions : (appendWrites env snapshot current command hash payload
      append).transactions = [appendedTxn env snapshot command] := txn_of_admitted admitted
  have rows := appendedLegs_eq env append admitted
  have rowOf : ∀ row ∈ appendedLegs env snapshot command append,
      row.tenantId = command.tenantId ∧ row.transactionId = env.transactionId 0 ∧
        row.effectiveAt = effective env command (supersedeTarget snapshot command) ∧
        row.leg ∈ (legsToLand snapshot command append).map Prod.fst := by
    intro row member
    rw [rows] at member
    obtain ⟨numbered, isThere, rfl⟩ := List.mem_map.mp member
    exact ⟨rfl, rfl, rfl, List.mem_map_of_mem isThere⟩
  obtain ⟨_, foots, positive⟩ := legsToLand_spec kept planned
  have legs : (appendedLegs env snapshot command append).map LegRow.leg =
      (legsToLand snapshot command append).map Prod.fst := by
    rw [rows, List.map_map]
    rfl
  have isOf : ∀ row ∈ appendedLegs env snapshot command append,
      row.IsOf env.xid (decide (command.status = .posted))
        (appendedTxn env snapshot command) := by
    intro row member
    obtain ⟨tenant, id, at_, _⟩ := rowOf row member
    exact
    { tenant := tenant.symm
      id := id.symm
      effectiveAt := at_.symm
      xactId := rfl
      status := by simp [appendedTxn] }
  have entriesLand : LandsEntries current
      (appendWrites env snapshot current command hash payload append) := by
    refine coheres.landsEntries precedes rfl rfl admits.pkTxn.1 (fun row member => ?_)
      (fun row member => positive row.leg (rowOf row member).2.2.2)
      (legSideOf_foots (fun row member => (rowOf row member).1)
        (fun row member => (rowOf row member).2.1) (by rw [legs]; exact foots))
    exact ⟨appendedTxn env snapshot command, by rw [transactions]; exact List.mem_singleton_self _,
      isOf row member⟩
  exact
  { toLandsEntries := entriesLand
    admitted := ⟨env.tzKnown, admits⟩
    claims := claims_of_free free
    nonEmpty := fun transaction member => by
      rw [transactions, List.mem_singleton] at member
      subst member
      refine (entryless_or_legs kept precedes planned admitted).imp id fun notEmpty => ?_
      obtain ⟨row, isLeg⟩ := List.exists_mem_of_ne_nil _ notEmpty
      obtain ⟨e, isEntry, asRow⟩ :=
        Tally.exists_right_of_forall₂ (coheres.landed env current) isLeg
      exact ⟨e, isEntry, asRow.belongsTo (isOf row isLeg)⟩
    supersedes := fun transaction member => by
      rw [transactions, List.mem_singleton] at member
      subst member
      exact gate_supersedes precedes admitted
    notBoth := fun transaction member => by
      rw [transactions, List.mem_singleton] at member
      subst member
      cases reverses : command.reversesId with
      | none =>
          exact Or.inr reverses
      | some reversed =>
          exact Or.inl (command.reversalAlone (by rw [reverses]; rfl))
    checkpointed := fun _ member => by cases member
    balancesOnAccount := fun _ member => by cases member
    pendingPlain := fun transaction member pending => by
      rw [transactions, List.mem_singleton] at member
      subst member
      refine ⟨rfl, ?_⟩
      have isPending : command.status = .pending := pending
      have noResolution : command.resolvesId = none := by
        by_contra given
        have posted := command.resolutionPosted (Option.isSome_iff_ne_none.mpr given)
        rw [isPending] at posted
        cases posted
      have noReversal : command.reversesId = none := by
        by_contra given
        have posted := command.reversalPosted (Option.isSome_iff_ne_none.mpr given)
        rw [isPending] at posted
        cases posted
      simp [TransactionRow.supersedes, appendedTxn, noResolution, noReversal]
    caused := fun transaction member => by
      rw [transactions, List.mem_singleton] at member
      subst member
      exact ⟨_, List.mem_singleton_self _, rfl, rfl, rfl⟩
    closed := fun close member => by cases member
    named := fun transaction member isClose => by
      rw [transactions, List.mem_singleton] at member
      subst member
      simp [appendedTxn] at isClose
    ofPeriod := fun close member => by cases member
    apart := List.Pairwise.nil
    charted := fun account member => by cases member }

end Landing

end OpenLedger.Postgres
