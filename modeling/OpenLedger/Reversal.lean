import OpenLedger.Bridge
import OpenLedger.Sequential

/-!
# Reversal

An accepted reversal appends the mirror of its target: the same legs, flipped,
on whatever stripes the reversing writer lands.  So the two cancel on every
account and in every window that has both, and the reversal of a pending
transaction only takes it off the bridge.
-/

namespace OpenLedger

open Postgres

/-- An accepted reversal: its target, its row and its entries, in the book it
was accepted over. -/
structure Reverses (book : Book) (env : Env) (command : PostTransaction) (id : Uuid)
    (target : TransactionRow) (writes : Writes) : Prop where
  lands : Lands book writes
  found : book.transaction? command.tenantId id = some target
  isPosting : target.kind = "posting"
  unsuperseded : ∀ x ∈ book.transactions, x.tenantId = command.tenantId → x.names id = false
  transactions : writes.transactions = [appendedTxn env book command]
  reversesId : (appendedTxn env book command).reversesId = some id
  dated : command.effectiveAt = none →
    (appendedTxn env book command).effectiveAt = target.effectiveAt
  entriesOf : ∀ e ∈ writes.entries, e.BelongsTo (appendedTxn env book command)
  posted : target.status = .posted →
    (writes.entries.map EntryRow.leg).Perm
      ((Postgres.entriesOf book command.tenantId id).map mirrorOf)
  pending : target.status = .pending → writes.entries = [] ∧ writes.upserts = []

section Accepted

variable {sha256 : List UInt8 → List UInt8} {env : Env} {book : Book}
  {command : PostTransaction}

/-- What the gate found of a reversal's target. -/
theorem target_of_gate {id : Uuid} (reverses : command.reversesId = some id)
    (admitted : gateAdmits command (supersedeTarget book command) = true) :
    ∃ target row, supersedeTarget book command = some target ∧
      book.transaction? command.tenantId id = some row ∧
      target.effectiveAt = row.effectiveAt ∧ target.status = row.status ∧
      row.kind = "posting" ∧
      ∀ x ∈ book.transactions, x.tenantId = command.tenantId → x.names id = false := by
  have noResolution := command.reversalAlone (by rw [reverses]; rfl)
  cases isTarget : supersedeTarget book command with
  | none =>
      simp [gateAdmits, isTarget, reverses, noResolution] at admitted
  | some target =>
      obtain ⟨named, row, isNamed, isRow, dated, status, kind, _, already⟩ :=
        supersedeTarget_spec isTarget
      obtain rfl : id = named := by
        simpa [supersededId, reverses, noResolution] using isNamed
      simp [gateAdmits, isTarget, reverses, noResolution] at admitted
      obtain ⟨⟨isPosting, _⟩, unsuperseded⟩ := admitted
      refine ⟨target, row, rfl, isRow, dated, status, kind.symm.trans isPosting,
        fun x member sameTenant => ?_⟩
      rw [already, List.any_eq_false] at unsuperseded
      simpa [sameTenant] using unsuperseded x member

/-- A freshly accepted reversal commits its target's mirror. -/
theorem reversal_accepted {id : Uuid} {answer : Posted} (kept : Kept book)
    (reverses : command.reversesId = some id)
    (accepted : ((Operation.post command).perform sha256 env book).1 = .posted (.ok answer))
    (fresh : answer.replayed = false) :
    answer.transactionId = some (env.transactionId 0) ∧ ∃ target writes,
      Reverses book env command id target writes ∧
        ((Operation.post command).perform sha256 env book).2 = book.apply writes := by
  cases isPlanned : planFor sha256 command with
  | error refusal =>
      rw [perform_post_unplanned env book isPlanned] at accepted
      cases accepted
  | ok planned =>
      obtain ⟨rfl, _, _, isAppend⟩ := planFor_ok isPlanned
      rw [perform_post env book isPlanned] at accepted ⊢
      obtain ⟨isAnswer, admitted, known, isWrites, lands⟩ :=
        postAlone_fresh env book kept isAppend (Outcome.posted.inj accepted) fresh
      obtain ⟨target, row, isTarget, found, dated, status, isPosting, unsuperseded⟩ :=
        target_of_gate reverses admitted
      have reversal : planned.command.reversesId.isSome := by
        rw [reverses]
        rfl
      have rows := appendedLegs_eq env planned.append admitted
      rw [legsToLand_of_reversal isAppend reversal, isTarget] at rows
      have coheres := append_coheres env isAppend admitted kept known
      have landed := coheres.landed env book
      refine ⟨by rw [isAnswer], row, _, ?_, congrArg book.apply isWrites⟩
      exact
      { lands
        found
        isPosting
        unsuperseded
        transactions := txn_of_admitted admitted
        reversesId := reverses
        dated := fun noDate => by
          simp [appendedTxn, effective, noDate, isTarget, dated]
        entriesOf := fun e member => by
          obtain ⟨leg, isLeg, asRow⟩ := Tally.exists_left_of_forall₂ landed member
          rw [rows] at isLeg
          obtain ⟨numbered, _, rfl⟩ := List.mem_map.mp isLeg
          exact ⟨asRow.tenantId.symm, asRow.transactionId.symm,
            asRow.effectiveAt.trans (by rw [appendedTxn, isTarget]), asRow.xactId⟩
        posted := fun isPosted => by
          obtain ⟨sorted, permutation, mirrored⟩ :=
            mirrorLeg_posted (some target) book reverses
              (by rw [Option.map_some, status, isPosted])
          have legs : (appendedLegs env book planned.command planned.append).map LegRow.leg =
              sorted.map mirrorOf := by
            rw [rows, mirrored, List.map_map]
            exact List.map_fst_zip (by simp)
          change ((entry env _ _).map EntryRow.leg).Perm _
          rw [legs_of_landed landed, legs]
          exact permutation.map mirrorOf
        pending := fun isPending => by
          have noMirror : mirrorLeg book planned.command (some target) = [] :=
            mirrorLeg_of_not_posted (by simp [status, isPending])
          have noDelta : delta book planned.command planned.append = [] := by
            rw [delta, plannedDelta_of_reversal isAppend reversal, isTarget, noMirror]
            rfl
          refine ⟨?_, ?_⟩
          · change entry env _ _ = []
            rw [rows, noMirror]
            rfl
          · change striped book env.stripeAffinity _ = []
            rw [noDelta]
            rfl }

end Accepted

section Cancelling

theorem signed_mirrorOf (e : EntryRow) : legSigned (mirrorOf e) = -e.signed := by
  cases direction : e.direction <;>
    simp [legSigned, mirrorOf, EntryRow.signed, direction, Direction.flip]

variable {env : Env} {book : Book} {command : PostTransaction} {id : Uuid}
  {target : TransactionRow} {writes : Writes}

namespace Reverses

variable (reverses : Reverses book env command id target writes)

include reverses

theorem target_mem : target ∈ book.transactions ∧ target.tenantId = command.tenantId ∧
    target.id = id :=
  Kept.mem_of_transaction? reverses.found

/-- The reversal's id was nobody's. -/
theorem unknown : book.transaction? command.tenantId (env.transactionId 0) = none := by
  have isNew : appendedTxn env book command ∈ writes.transactions := by
    rw [reverses.transactions]
    exact List.mem_singleton_self _
  exact reverses.lands.unknown isNew

theorem id_ne : env.transactionId 0 ≠ id := by
  intro same
  have unknown := reverses.unknown
  rw [same, reverses.found] at unknown
  cases unknown

theorem written_isOf {e : EntryRow} (member : e ∈ writes.entries) :
    e.isOf command.tenantId (env.transactionId 0) = true := by
  have belongs := reverses.entriesOf e member
  exact EntryRow.isOf_iff.mpr ⟨belongs.tenant.symm, belongs.id.symm⟩

/-- Afterwards the reversal's entries are the ones it wrote, and the target's
are what they were. -/
theorem entriesOf_after (kept : Kept book) :
    Postgres.entriesOf (book.apply writes) command.tenantId (env.transactionId 0) =
        writes.entries ∧
      Postgres.entriesOf (book.apply writes) command.tenantId id =
        Postgres.entriesOf book command.tenantId id := by
  have noneOld : book.entries.filter (fun e =>
      e.isOf command.tenantId (env.transactionId 0)) = [] := by
    rw [List.filter_eq_nil_iff]
    intro e member
    rw [kept.not_isOf reverses.unknown e member]
    exact Bool.false_ne_true
  have allNew : writes.entries.filter (fun e =>
      e.isOf command.tenantId (env.transactionId 0)) = writes.entries :=
    List.filter_eq_self.mpr fun e member => reverses.written_isOf member
  have noneNew : writes.entries.filter (fun e => e.isOf command.tenantId id) = [] := by
    rw [List.filter_eq_nil_iff]
    intro e member mine
    have ofReversal := EntryRow.isOf_iff.mp (reverses.written_isOf member)
    have ofTarget := EntryRow.isOf_iff.mp mine
    exact reverses.id_ne (ofReversal.2.symm.trans ofTarget.2)
  constructor
  · change (book.apply writes).entries.filter (fun e =>
      e.isOf command.tenantId (env.transactionId 0)) = _
    rw [Book.entries_apply, List.filter_append, noneOld, allNew, List.nil_append]
  · change (book.apply writes).entries.filter (fun e => e.isOf command.tenantId id) = _
    rw [Book.entries_apply, List.filter_append, noneNew, List.append_nil]
    rfl

/-- On any accounts, what the reversal moved is what its target did, back. -/
theorem net (kept : Kept book) (isPosted : target.status = .posted)
    (keep : Uuid → String → Bool) :
    Tally.sumWhere (fun e =>
        (e.isOf command.tenantId id || e.isOf command.tenantId (env.transactionId 0)) &&
          keep e.accountId e.currency) EntryRow.signed (book.apply writes).entries = 0 := by
  have ofTarget : Tally.sumWhere (fun e =>
      (e.isOf command.tenantId id || e.isOf command.tenantId (env.transactionId 0)) &&
        keep e.accountId e.currency) EntryRow.signed book.entries =
      Tally.sumWhere (fun e => keep e.accountId e.currency) EntryRow.signed
        (Postgres.entriesOf book command.tenantId id) := by
    rw [Postgres.entriesOf, Tally.sumWhere_filter]
    refine Tally.sumWhere_congr (fun e member => ?_) fun _ _ _ => rfl
    rw [kept.not_isOf reverses.unknown e member, Bool.or_false]
    rfl
  have ofReversal : Tally.sumWhere (fun e =>
      (e.isOf command.tenantId id || e.isOf command.tenantId (env.transactionId 0)) &&
        keep e.accountId e.currency) EntryRow.signed writes.entries =
      Tally.sumWhere (fun l : Leg => keep l.accountId l.currency) legSigned
        (writes.entries.map EntryRow.leg) := by
    rw [Tally.sumWhere_map]
    refine Tally.sumWhere_congr (fun e member => ?_) fun e _ _ => rfl
    rw [reverses.written_isOf member, Bool.or_true, Bool.true_and]
    rfl
  rw [Book.entries_apply, Tally.sumWhere_append, ofTarget, ofReversal,
    Tally.sumWhere_perm (reverses.posted isPosted), Tally.sumWhere_map]
  have mirrored : Tally.sumWhere (fun e : EntryRow =>
      keep (mirrorOf e).accountId (mirrorOf e).currency) (fun e => legSigned (mirrorOf e))
        (Postgres.entriesOf book command.tenantId id) =
      -Tally.sumWhere (fun e => keep e.accountId e.currency) EntryRow.signed
        (Postgres.entriesOf book command.tenantId id) := by
    rw [← Tally.sumWhere_neg]
    exact Tally.sumWhere_congr (fun _ _ => rfl) fun e _ _ => signed_mirrorOf e
  rw [mirrored, add_neg_cancel]

/-- The entries of the target and of the reversal are posted, on the target's
date when the reversal was given none, and below any cursor above both. -/
theorem of_either (kept : Kept book) (isPosted : target.status = .posted) {e : EntryRow}
    (member : e ∈ (book.apply writes).entries)
    (either : (e.isOf command.tenantId id ||
      e.isOf command.tenantId (env.transactionId 0)) = true) :
    e.tenantId = command.tenantId ∧ (book.apply writes).isPosted e = true ∧
      (command.effectiveAt = none → e.effectiveAt = target.effectiveAt) ∧
      (e.xactId = target.xactId ∨ e.xactId = env.xid) := by
  have keptAfter : Kept (book.apply writes) := kept.apply reverses.lands
  obtain ⟨x, isThere, belongs⟩ := keptAfter.belongs e member
  have found := keptAfter.transaction?_of_mem isThere
  obtain ⟨targetThere, targetTenant, targetId⟩ := reverses.target_mem
  have status : (book.apply writes).isPosted e = decide (x.status = .posted) := by
    rw [Book.isPosted, keptAfter.statusOf_of_belongs isThere belongs]
    simp
  rw [Bool.or_eq_true, EntryRow.isOf_iff, EntryRow.isOf_iff] at either
  rcases either with ⟨tenant, isTarget⟩ | ⟨tenant, isReversal⟩
  · have sameRow := (Book.Precedes.apply book writes).transaction? reverses.found
    rw [belongs.tenant, belongs.id, tenant, isTarget, sameRow, Option.some.injEq] at found
    subst found
    exact ⟨tenant, by rw [status, isPosted]; rfl, fun _ => belongs.effectiveAt,
      Or.inl belongs.xactId⟩
  · have isNew : appendedTxn env book command ∈ (book.apply writes).transactions := by
      rw [Book.transactions_apply, reverses.transactions]
      exact List.mem_append_right _ (List.mem_singleton_self _)
    have sameRow := keptAfter.transaction?_of_mem isNew
    rw [belongs.tenant, belongs.id, tenant, isReversal] at found
    rw [show (appendedTxn env book command).tenantId = command.tenantId from rfl,
      show (appendedTxn env book command).id = env.transactionId 0 from rfl, found,
      Option.some.injEq] at sameRow
    have posted : command.status = .posted := command.reversalPosted (by
      rw [show command.reversesId = some id from reverses.reversesId]
      rfl)
    rw [sameRow] at belongs status
    exact ⟨tenant, by rw [status]; simp [appendedTxn, posted],
      fun noDate => belongs.effectiveAt.trans (reverses.dated noDate), Or.inr belongs.xactId⟩

/-- In a window that has both, the target and the reversal cancel. -/
theorem cancels (kept : Kept book) (isPosted : target.status = .posted)
    (noDate : command.effectiveAt = none) {cursor : Xid} (targetSeen : target.xactId < cursor)
    (reversalSeen : env.xid < cursor) (key : String × Uuid × String)
    (window : Timestamp → Bool) :
    Tally.sumWhere (fun e =>
        (e.isOf command.tenantId id || e.isOf command.tenantId (env.transactionId 0)) &&
          (decide (e.accountKey = key) && ((book.apply writes).isPosted e &&
            window e.effectiveAt && decide (e.xactId < cursor)))) EntryRow.signed
        (book.apply writes).entries = 0 := by
  rw [← reverses.net kept isPosted fun accountId currency =>
    decide ((command.tenantId, accountId, currency) = key) && window target.effectiveAt]
  refine Tally.sumWhere_congr (fun e member => ?_) fun _ _ _ => rfl
  cases either : e.isOf command.tenantId id || e.isOf command.tenantId (env.transactionId 0) with
  | false =>
      rfl
  | true =>
      obtain ⟨tenant, posted, dated, writer⟩ := reverses.of_either kept isPosted member either
      have seen : e.xactId < cursor := by
        rcases writer with sameWriter | sameWriter
        · rw [sameWriter]
          exact targetSeen
        · rw [sameWriter]
          exact reversalSeen
      simp [EntryRow.accountKey, tenant, posted, dated noDate, seen]

/-- After the reversal an account's balance is what it was before its target,
moved by everything else recorded since. -/
theorem balance_restored (kept : Kept book) (isPosted : target.status = .posted)
    {earlier : Book} (keptEarlier : Kept earlier) (precedes : earlier.Precedes book)
    (before : earlier.transaction? command.tenantId id = none) (key : String × Uuid × String) :
    cachedBalance (book.apply writes) key = cachedBalance earlier key +
      Tally.sumWhere (fun e => (book.apply writes).isPosted e && decide (e.accountKey = key) &&
        !(e.isOf command.tenantId id || e.isOf command.tenantId (env.transactionId 0)))
        EntryRow.signed ((book.apply writes).entries.drop earlier.entries.length) := by
  have keptAfter : Kept (book.apply writes) := kept.apply reverses.lands
  have precedesAfter := precedes.trans (Book.Precedes.apply book writes)
  obtain ⟨since, isSince⟩ := precedesAfter.entries
  have notReversal : earlier.transaction? command.tenantId (env.transactionId 0) = none := by
    cases found : earlier.transaction? command.tenantId (env.transactionId 0) with
    | none =>
        rfl
    | some x =>
        have later := precedes.transaction? found
        rw [reverses.unknown] at later
        cases later
  have old : Tally.sumWhere (fun e =>
      (book.apply writes).isPosted e && decide (e.accountKey = key)) EntryRow.signed
        earlier.entries = cachedBalance earlier key := by
    rw [keptEarlier.cachedBalance_eq]
    refine Tally.sumWhere_congr (fun e member => ?_) fun _ _ _ => rfl
    rw [keptEarlier.isPosted_later precedesAfter member]
  have cancel : Tally.sumWhere (fun e =>
      (book.apply writes).isPosted e && decide (e.accountKey = key) &&
        (e.isOf command.tenantId id || e.isOf command.tenantId (env.transactionId 0)))
        EntryRow.signed since = 0 := by
    have noneOld : Tally.sumWhere (fun e =>
        (book.apply writes).isPosted e && decide (e.accountKey = key) &&
          (e.isOf command.tenantId id || e.isOf command.tenantId (env.transactionId 0)))
          EntryRow.signed earlier.entries = 0 := by
      refine Tally.sumWhere_eq_zero fun e member => ?_
      rw [keptEarlier.not_isOf before e member, keptEarlier.not_isOf notReversal e member,
        Bool.or_false, Bool.and_false]
    have all := reverses.net kept isPosted fun accountId currency =>
      decide ((command.tenantId, accountId, currency) = key)
    have whole : Tally.sumWhere (fun e =>
        (book.apply writes).isPosted e && decide (e.accountKey = key) &&
          (e.isOf command.tenantId id || e.isOf command.tenantId (env.transactionId 0)))
          EntryRow.signed (book.apply writes).entries = 0 := by
      rw [← all]
      refine Tally.sumWhere_congr (fun e member => ?_) fun _ _ _ => rfl
      cases either : e.isOf command.tenantId id ||
          e.isOf command.tenantId (env.transactionId 0) with
      | false =>
          rw [Bool.and_false, Bool.false_and]
      | true =>
          obtain ⟨tenant, posted, _⟩ := reverses.of_either kept isPosted member either
          simp [EntryRow.accountKey, tenant, posted]
    rw [← isSince, Tally.sumWhere_append, noneOld, zero_add] at whole
    exact whole
  have sinceIs : (book.apply writes).entries.drop earlier.entries.length = since := by
    rw [← isSince, List.drop_left]
  rw [keptAfter.cachedBalance_eq, sinceIs, ← isSince, Tally.sumWhere_append, old,
    Tally.sumWhere_split _ (fun e : EntryRow =>
      e.isOf command.tenantId id || e.isOf command.tenantId (env.transactionId 0)) _ since,
    cancel, zero_add]

/-- The reversal of a pending transaction takes its entries off the bridge, and
no other. -/
theorem isOutstanding_after (kept : Kept book) {e : EntryRow} (member : e ∈ book.entries) :
    isOutstanding (book.apply writes) e =
      (isOutstanding book e && !e.isOf command.tenantId id) := by
  have keptAfter : Kept (book.apply writes) := kept.apply reverses.lands
  obtain ⟨x, isThere, belongs⟩ := kept.belongs e member
  have later : x ∈ (book.apply writes).transactions := by
    rw [Book.transactions_apply]
    exact List.mem_append_left _ isThere
  have notResolves : (appendedTxn env book command).resolvesId = none :=
    command.reversalAlone (by
      rw [show command.reversesId = some id from reverses.reversesId]
      rfl)
  have named : (decide ((appendedTxn env book command).tenantId = x.tenantId) &&
      (appendedTxn env book command).names x.id) = e.isOf command.tenantId id := by
    rw [TransactionRow.names, notResolves, reverses.reversesId, EntryRow.isOf, ← belongs.tenant,
      ← belongs.id, show (appendedTxn env book command).tenantId = command.tenantId from rfl]
    simp [eq_comm]
  rw [keptAfter.isOutstanding_eq later belongs.tenant.symm belongs.id.symm,
    kept.isOutstanding_eq isThere belongs.tenant.symm belongs.id.symm,
    TransactionRow.isOutstanding, TransactionRow.isOutstanding, Book.transactions_apply,
    reverses.transactions, List.any_append, List.any_cons, List.any_nil, named, Bool.or_false,
    Bool.not_or, Bool.and_assoc]

/-- Until it was reversed, the pending target was on the bridge. -/
theorem isOutstanding_before (isPending : target.status = .pending) {e : EntryRow}
    (mine : e.isOf command.tenantId id = true) : isOutstanding book e = true := by
  obtain ⟨tenant, isTarget⟩ := EntryRow.isOf_iff.mp mine
  obtain ⟨_, sameTenant, sameId⟩ := reverses.target_mem
  refine isOutstanding_iff.mpr ⟨target, ?_, isPending, fun rr member ofTenant => ?_⟩
  · rw [tenant, isTarget]
    exact reverses.found
  · rw [sameId]
    exact reverses.unsuperseded rr member (ofTenant.trans sameTenant)

end Reverses

end Cancelling

namespace Shop

/-- A fee of 70, and another of 30 after it. -/
def twoFees : List (Operation × Env) := [
  (.post (command "first" 1000 .posted none 70), envOf 4),
  (.post (command "second" 2000 .posted none 30), envOf 5)]

/-- The shop's book before them and after. -/
def beforeFees : Book := performAll id opened (Book.empty chart)

def afterFees : Book := performAll id twoFees beforeFees

/-- The first fee is reversed. -/
def undoFirst : Outcome × Book :=
  (Operation.post (reversal "undo" (uuid 4100))).perform id (envOf 6) afterFees

end Shop

end OpenLedger
