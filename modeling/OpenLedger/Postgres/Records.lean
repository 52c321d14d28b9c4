import OpenLedger.Postgres.Later

/-!
# What the statements record

A post's single call, and the batched one for each member it appends, write one
transaction row with the id they answer, and under it exactly the legs that were asked
for: the caller's own, or the mirror of a posted target's.
-/

namespace OpenLedger

open Postgres

/-- One counter numbers the entries on one account. -/
def OneCounter (entries : List EntryRow) : Prop :=
  ∀ left ∈ entries, ∀ right ∈ entries, left.accountId = right.accountId →
    left.currency = right.currency → left.stripe = right.stripe

/-- What a bracket wrote of one transaction: its row, and its entries' legs. -/
structure Writes.Records (writes : Writes) (row : TransactionRow) (legs : List Leg) : Prop where
  isThere : row ∈ writes.transactions
  legs : ((writes.entries.filter fun e => e.isOf row.tenantId row.id).map EntryRow.leg).Perm legs
  oneCounter : OneCounter (writes.entries.filter fun e => e.isOf row.tenantId row.id)

/-- What a book holds of one transaction. -/
structure Book.Records (book : Book) (row : TransactionRow) (legs : List Leg) : Prop where
  isThere : row ∈ book.transactions
  legs : ((entriesOf book row.tenantId row.id).map EntryRow.leg).Perm legs
  oneCounter : OneCounter (entriesOf book row.tenantId row.id)

/-- What a bracket recorded its book holds. -/
theorem Writes.Records.apply {book : Book} {writes : Writes} {row : TransactionRow}
    {legs : List Leg} (kept : Kept book) (lands : Lands book writes)
    (records : writes.Records row legs) : (book.apply writes).Records row legs := by
  have noneOld : book.entries.filter (fun e => e.isOf row.tenantId row.id) = [] := by
    rw [List.filter_eq_nil_iff]
    intro e member
    rw [kept.not_isOf (lands.unknown records.isThere) e member]
    exact Bool.false_ne_true
  have onlyNew : entriesOf (book.apply writes) row.tenantId row.id =
      writes.entries.filter fun e => e.isOf row.tenantId row.id := by
    change (book.apply writes).entries.filter (fun e => e.isOf row.tenantId row.id) = _
    rw [Book.entries_apply, List.filter_append, noneOld, List.nil_append]
  refine ⟨List.mem_append_right _ records.isThere, ?_, ?_⟩
  · rw [onlyNew]
    exact records.legs
  · rw [onlyNew]
    exact records.oneCounter

/-- What is recorded stays as it is. -/
theorem Book.Records.later {wrote : Writes → Prop} {book later : Book} {row : TransactionRow}
    {legs : List Leg} (records : book.Records row legs) (landed : Landed wrote book later) :
    later.Records row legs := by
  have same := entriesOf_landed landed records.isThere
  refine ⟨landed.precedes.transactions.subset records.isThere, ?_, ?_⟩
  · rw [same]
    exact records.legs
  · rw [same]
    exact records.oneCounter

/-- The entries a statement lands are numbered by one counter an account. -/
theorem oneCounter_of_landed {env : Env} {snapshot current : Book} {legs rows : List LegRow}
    {entries : List EntryRow}
    (landed : List.Forall₂ (LandedAs env snapshot current legs) rows entries)
    (tenantId : String) (id : Uuid) :
    OneCounter (entries.filter fun e => e.isOf tenantId id) := by
  intro left isLeft right isRight sameAccount sameCurrency
  obtain ⟨leftThere, ofLeft⟩ := List.mem_filter.mp isLeft
  obtain ⟨rightThere, ofRight⟩ := List.mem_filter.mp isRight
  obtain ⟨leftRow, _, leftLanded⟩ := Tally.exists_left_of_forall₂ landed leftThere
  obtain ⟨rightRow, _, rightLanded⟩ := Tally.exists_left_of_forall₂ landed rightThere
  have sameTenant : left.tenantId = right.tenantId :=
    (EntryRow.isOf_iff.mp ofLeft).1.trans (EntryRow.isOf_iff.mp ofRight).1.symm
  have sameKey : leftRow.counterKey = rightRow.counterKey := by
    rw [LegRow.counterKey, LegRow.counterKey, Leg.key, Leg.key, ← leftLanded.tenantId,
      ← rightLanded.tenantId, ← leftLanded.accountId, ← rightLanded.accountId,
      ← leftLanded.currency, ← rightLanded.currency, sameTenant, sameAccount, sameCurrency]
  have sameStripe := leftLanded.stripe.symm.trans (sameKey ▸ rightLanded.stripe)
  exact congrArg StripeKey.stripe (Option.some.inj sameStripe)

/-- The transaction row a post records under an event and an id. -/
def recordedRow (env : Env) (book : Book) (command : PostTransaction) (eventId id : Uuid) :
    TransactionRow where
  tenantId := command.tenantId
  id := id
  eventId := eventId
  kind := "posting"
  status := command.status
  effectiveAt := effective env command (supersedeTarget book command)
  resolvesId := command.resolvesId
  reversesId := command.reversesId
  xactId := env.xid

/-- The legs it records under it. -/
def recordedLegs (book : Book) (command : PostTransaction) : List Leg :=
  match command.reversesId with
  | none => expandPostings command.postings
  | some reversed =>
      if (supersedeTarget book command).map SupersedeTarget.status = some .posted then
        (entriesOf book command.tenantId reversed).map mirrorOf
      else []

section Appending

variable {env : Env} {book : Book} {command : PostTransaction} {hash : List UInt8}
  {payload : Json} {append : Append} {appended : Appended} {writes : Writes}

theorem legsToLand_perm
    (planned : planAppend command.postings command.status = .ok append) :
    ((legsToLand book command append).map Prod.fst).Perm (recordedLegs book command) := by
  cases reverses : command.reversesId with
  | none =>
      obtain ⟨legs, offsets, _⟩ := planAppend_ok planned
      rw [legsToLand_of_no_reversal reverses, recordedLegs, reverses, offsets,
        List.map_fst_zip (by simp), legs]
  | some reversed =>
      rw [legsToLand_of_reversal planned (by rw [reverses]; rfl), recordedLegs, reverses]
      dsimp only
      by_cases isPosted : (supersedeTarget book command).map SupersedeTarget.status =
          some .posted
      · obtain ⟨sorted, permutation, mirrored⟩ := mirrorLeg_posted _ book reverses isPosted
        rw [if_pos isPosted, mirrored, List.map_fst_zip (by simp)]
        exact permutation.map mirrorOf
      · rw [if_neg isPosted, mirrorLeg_of_not_posted isPosted]
        exact .nil

/-- The single call records the post it was asked for, and nothing else. -/
theorem claimAndAppend_records (kept : Kept book)
    (planned : planAppend command.postings command.status = .ok append)
    (answered : claimAndAppend env book book command hash payload append =
      (.ok (some (.appended appended)), writes))
    (known : ∀ d ∈ delta book command append,
      (book.account? d.tenantId d.accountId d.currency).isSome) :
    writes.transactions =
        [recordedRow env book command appended.eventId appended.transactionId] ∧
      writes.Records (recordedRow env book command appended.eventId appended.transactionId)
        (recordedLegs book command) := by
  obtain ⟨_, admitted, _, rfl, rfl⟩ := claimAndAppend_appended _ _ _ _ _ _ _ answered
  have isTxn : (appendWrites env book book command hash payload append).transactions =
      [appendedTxn env book command] := txn_of_admitted admitted
  have isRow : recordedRow env book command (appendedAnswer env book book command append).eventId
      (appendedAnswer env book book command append).transactionId = appendedTxn env book command :=
    rfl
  rw [isRow]
  have landed := (append_coheres env planned admitted kept known).landed env book
  refine ⟨isTxn, ?_, ?_, oneCounter_of_landed landed _ _⟩
  · rw [isTxn]
    exact List.mem_singleton_self _
  · have rows := appendedLegs_eq env append admitted
    have allOwn : (appendWrites env book book command hash payload append).entries.filter
        (fun e => e.isOf (appendedTxn env book command).tenantId (appendedTxn env book command).id) =
          (appendWrites env book book command hash payload append).entries := by
      refine List.filter_eq_self.mpr fun e member => ?_
      obtain ⟨leg, isLeg, asRow⟩ := Tally.exists_left_of_forall₂ landed member
      rw [rows] at isLeg
      obtain ⟨numbered, _, rfl⟩ := List.mem_map.mp isLeg
      exact EntryRow.isOf_iff.mpr ⟨asRow.tenantId, asRow.transactionId⟩
    have legs : (appendedLegs env book command append).map LegRow.leg =
        (legsToLand book command append).map Prod.fst := by
      rw [rows, List.map_map]
      rfl
    rw [allOwn]
    change ((entry env _ _).map EntryRow.leg).Perm _
    rw [legs_of_landed landed, legs]
    exact legsToLand_perm planned

end Appending

section Batching

variable {env : Env} {snapshot current : Book} {members : List BatchMember}

/-- The legs under one ordinal are its member's. -/
theorem count_memberLeg {ord : Nat} {m : BatchMember}
    (isMember : (ord, m) ∈ Numbering.withOrdinality members) (leg : Leg) :
    Tally.sumWhere (fun ml : MemberLegRow => decide (ml.ord = ord) && decide (ml.leg = leg))
        (fun _ => 1) (memberLeg members) =
      Tally.sumWhere (fun other => decide (other = leg)) (fun _ => 1) m.append.legs := by
  have each : ∀ x ∈ Numbering.withOrdinality members,
      Tally.sumWhere (fun ml : MemberLegRow => decide (ml.ord = ord) && decide (ml.leg = leg))
          (fun _ => 1) ((Numbering.withOrdinality x.2.append.legs).map fun l =>
            (⟨x.1, l.1, x.2.command.tenantId, l.2⟩ : MemberLegRow)) =
        if decide (x.1 = ord) = true then
          Tally.sumWhere (fun other => decide (other = leg)) (fun _ => 1) x.2.append.legs
        else 0 := by
    intro x _
    have ofLegs := Tally.sumWhere_map (fun other : Leg => decide (other = leg)) (fun _ => 1)
      Prod.snd (Numbering.withOrdinality x.2.append.legs)
    rw [Numbering.map_snd_withOrdinality] at ofLegs
    rw [Tally.sumWhere_map]
    by_cases here : x.1 = ord
    · rw [if_pos (decide_eq_true here), ofLegs]
      exact Tally.sumWhere_congr (fun _ _ => by rw [decide_eq_true here, Bool.true_and])
        fun _ _ _ => rfl
    · rw [if_neg (by simp [here])]
      exact Tally.sumWhere_eq_zero fun _ _ => by rw [decide_eq_false here, Bool.false_and]
  rw [memberLeg, Tally.sumWhere_flatMap, List.map_congr_left each,
    ← Tally.sumWhere_eq_sum_map (fun x : Nat × BatchMember => decide (x.1 = ord)), Tally.sumWhere,
    Numbering.filter_withOrdinality isMember]
  exact List.sum_singleton

/-- The member behind a proceeding row. -/
theorem member_of_proceeding {p : ProceedingRow}
    (isThere : p ∈ proceeding env snapshot current members) :
    ∃ m, (p.ord, m) ∈ Numbering.withOrdinality members ∧ p.tenantId = m.command.tenantId ∧
      p.transactionId = env.transactionId p.ord ∧
      p.effectiveAt = (m.command.effectiveAt.map OffsetDateTime.stored).getD 0 := by
  obtain ⟨row, isRow, event, _, rfl⟩ := mem_proceeding.mp isThere
  obtain ⟨m, isMember, isMemberRow⟩ := mem_member isRow
  refine ⟨m, isMember, ?_, rfl, ?_⟩
  · rw [isMemberRow]
  · rw [isMemberRow]

/-- Two proceeding rows of one transaction are one. -/
theorem proceeding_inj
    (pkTxn : UniqueIndex.Holds TransactionRow.primaryKey
      (batchTxn env (proceeding env snapshot current members)))
    {left right : ProceedingRow} (isLeft : left ∈ proceeding env snapshot current members)
    (isRight : right ∈ proceeding env snapshot current members)
    (tenant : left.tenantId = right.tenantId) (id : left.transactionId = right.transactionId) :
    left = right := by
  rw [UniqueIndex.Holds, batchTxn, List.filterMap_map] at pkTxn
  simp only [Function.comp_def, TransactionRow.primaryKey] at pkTxn
  rw [List.filterMap_eq_map'] at pkTxn
  exact List.inj_on_of_nodup_map pkTxn isLeft isRight (by rw [tenant, id])

/-- The numbered legs of a proceeding member are the ones it asked for. -/
theorem numbered_legs
    (pkTxn : UniqueIndex.Holds TransactionRow.primaryKey
      (batchTxn env (proceeding env snapshot current members)))
    (known : Known snapshot (batchDelta members (proceeding env snapshot current members)))
    {p : ProceedingRow} (isThere : p ∈ proceeding env snapshot current members)
    {m : BatchMember} (isMember : (p.ord, m) ∈ Numbering.withOrdinality members) :
    (((numbered members (proceeding env snapshot current members)
        (striped snapshot env.stripeAffinity
          (batchDelta members (proceeding env snapshot current members)))).filter fun row =>
        decide (row.tenantId = p.tenantId) &&
          decide (row.transactionId = p.transactionId)).map LegRow.leg).Perm m.append.legs := by
  refine Tally.perm_of_sumWhere fun leg => ?_
  rw [Tally.sumWhere_map, Tally.sumWhere_filter, ← count_memberLeg isMember leg]
  have counted := sum_numbered env.stripeAffinity known (fun row =>
    decide (row.tenantId = p.tenantId) && decide (row.transactionId = p.transactionId) &&
      decide (row.leg = leg)) (fun _ => 1) fun _ _ => rfl
  refine counted.trans (Tally.sumWhere_congr (fun ml isLeg => ?_) fun _ _ _ => rfl)
  obtain ⟨x, isX, inLegs⟩ := List.mem_flatMap.mp isLeg
  obtain ⟨l, _, rfl⟩ := List.mem_map.mp inLegs
  obtain ⟨ord, other⟩ := x
  obtain ⟨owner, isOwner, ownerTenant, _, _⟩ := member_of_proceeding isThere
  rw [Bool.eq_iff_iff]
  simp only [Bool.and_eq_true, decide_eq_true_eq]
  constructor
  · intro found
    obtain ⟨q, isQ, same⟩ := (Option.any_eq_true _ _).mp found
    simp only [legRowOf, Bool.and_eq_true] at same
    obtain ⟨inRows, sameOrd⟩ := proceedingAt_eq_some_iff.mp isQ
    obtain ⟨qOwner, isQOwner, qTenant, _, _⟩ := member_of_proceeding inRows
    rw [sameOrd] at isQOwner
    have sameMember := Numbering.withOrdinality_inj isX isQOwner
    have sameRow := proceeding_inj pkTxn inRows isThere
      (by rw [qTenant, ← sameMember]; exact of_decide_eq_true same.1.1)
      (of_decide_eq_true same.1.2)
    exact ⟨by rw [← sameRow, sameOrd], of_decide_eq_true same.2⟩
  · rintro ⟨sameOrd, sameLeg⟩
    have found := proceedingAt_eq_some_iff.mpr ⟨isThere, rfl⟩
    rw [← sameOrd] at found isOwner
    have sameMember := Numbering.withOrdinality_inj isX isOwner
    rw [found, Option.any_some]
    simp [legRowOf, ownerTenant, sameMember, sameLeg]

/-- The landed entries of one transaction are its legs. -/
theorem legs_filter_of_landed {legs rows : List LegRow} {entries : List EntryRow}
    (landed : List.Forall₂ (LandedAs env snapshot current legs) rows entries)
    (tenantId : String) (id : Uuid) :
    (entries.filter fun e => e.isOf tenantId id).map EntryRow.leg =
      (rows.filter fun row => decide (row.tenantId = tenantId) &&
        decide (row.transactionId = id)).map LegRow.leg := by
  induction landed with
  | nil =>
      rfl
  | @cons row entry rows entries asRow rest inductionHypothesis =>
      have isMine : entry.isOf tenantId id = (decide (row.tenantId = tenantId) &&
          decide (row.transactionId = id)) := by
        rw [EntryRow.isOf, asRow.tenantId, asRow.transactionId]
      have sameLeg := legs_of_landed (.cons asRow .nil)
      rw [List.filter_cons, List.filter_cons, isMine]
      split
      · rw [List.map_cons, List.map_cons, inductionHypothesis, (List.cons.inj sameLeg).1]
      · exact inductionHypothesis

/-- A batch dates what it appends. -/
theorem dated_of_answered {outcomes : List MemberOutcome} {writes : Writes}
    (answered : claimAndAppendBatch env snapshot current members = (.ok outcomes, writes))
    {m : MemberRow} (isMember : m ∈ member members)
    (admitted : admissible snapshot members m.ord = true) : m.effectiveAt.isSome = true := by
  unfold claimAndAppendBatch at answered
  split at answered
  · cases answered
  · cases ran : claimAndAppendBatchStatement env snapshot current members with
    | error error =>
        simp [ran] at answered
    | ok _ =>
        unfold claimAndAppendBatchStatement at ran
        simp only [bind, Except.bind] at ran
        split at ran
        · cases ran
        · split at ran
          · cases ran
          · rename_i noneUndated
            rw [List.any_eq_true] at noneUndated
            by_contra undated
            exact noneUndated ⟨m, isMember, by simpa [admitted] using undated⟩

/-- A batch carries plain postings only. -/
theorem plain_of_carried (carried : refuseAMemberTheBatchCannotCarry members = .ok ())
    {m : BatchMember} (isMember : m ∈ members) :
    m.command.resolvesId = none ∧ m.command.reversesId = none ∧ m.command.status = .posted := by
  have plain := unbatchable_of_carried carried m isMember
  unfold unbatchable at plain
  split at plain
  · cases plain
  · rename_i noResolution
    split at plain
    · cases plain
    · rename_i noReversal
      refine ⟨by simpa using noResolution, by simpa using noReversal, ?_⟩
      cases status : m.command.status with
      | pending =>
          rw [status] at plain
          cases plain
      | posted =>
          rfl

/-- The batched call records what its member was asked for. -/
theorem claimAndAppendBatch_records {outcomes : List MemberOutcome} {writes : Writes}
    (batchable : ∀ m ∈ members, Batchable m)
    (answered : claimAndAppendBatch env snapshot current members = (.ok outcomes, writes))
    {p : ProceedingRow} (isThere : p ∈ proceeding env snapshot current members)
    {m : BatchMember} (isMember : (p.ord, m) ∈ Numbering.withOrdinality members) (book : Book) :
    writes.Records (recordedRow env book m.command p.eventId p.transactionId)
      (recordedLegs book m.command) := by
  obtain ⟨carried, allowed, _, rfl⟩ := claimAndAppendBatch_answered answered
  have admits := (violation_eq_none_iff ..).mp allowed
  have known := known_of_proceeding env admits.uqTxnOnePerEvent.1
  have landed := (batch_coheres env.stripeAffinity known).landed env current
  have inMembers := Numbering.mem_of_mem_withOrdinality isMember
  obtain ⟨noResolution, noReversal, posted⟩ := plain_of_carried carried inMembers
  obtain ⟨owner, isOwner, tenant, isId, isDate⟩ := member_of_proceeding isThere
  obtain rfl := Numbering.withOrdinality_inj isOwner isMember
  have noTarget : supersedeTarget book owner.command = none := by
    rw [supersedeTarget, supersededId, noResolution, noReversal]
    rfl
  have dated : effective env owner.command (supersedeTarget book owner.command) =
      p.effectiveAt := by
    have inRows : (⟨p.ord, owner.command.tenantId, owner.command.idempotencyKey, owner.hash,
        owner.payload, owner.command.effectiveAt.map OffsetDateTime.stored⟩ : MemberRow) ∈
          member members := List.mem_map_of_mem isOwner
    have isDated := dated_of_answered answered inRows
      (admissible_of_proceeding admits.uqTxnOnePerEvent.1 isThere)
    obtain ⟨date, isSome⟩ := Option.isSome_iff_exists.mp isDated
    dsimp only at isSome
    rw [effective, noTarget, isDate, isSome]
    rfl
  have isTxn : recordedRow env book owner.command p.eventId p.transactionId ∈
      batchTxn env (proceeding env snapshot current members) := by
    refine List.mem_map.mpr ⟨p, isThere, ?_⟩
    rw [recordedRow, dated, noResolution, noReversal, posted, tenant]
  refine ⟨isTxn, ?_, oneCounter_of_landed landed _ _⟩
  have legs := numbered_legs admits.pkTxn.1 known isThere isMember
  rw [tenant] at legs
  change ((List.filter _ (entry env _ _)).map EntryRow.leg).Perm _
  rw [legs_filter_of_landed landed, recordedLegs, noReversal]
  rw [(planAppend_ok (batchable owner inMembers).planned).1] at legs
  exact legs

end Batching

end OpenLedger
