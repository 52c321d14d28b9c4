import OpenLedger.Closing
import OpenLedger.DerivedKey
import OpenLedger.Submissions

/-!
# One submission answered

What each single operation does over a held key and over a free one.  A held key
answers what holds it; over a free key the operation is accepted afresh, or the
storage failed, or something in the book stands in its way.
-/

namespace OpenLedger

open Postgres

section Posts

variable {sha256 : List UInt8 → List UInt8} {env : Env} {book after : Book}
  {command : PostTransaction}

/-- A delta without a counter is one whose account is not there. -/
theorem unknown_of_uncounted (current : Book) (affinity : Nat) {deltas : List DeltaRow}
    {d : DeltaRow} (member : d ∈ deltas)
    (uncounted : counterOf (balance current (striped book affinity deltas)) d.tenantId
      d.accountId d.currency = none) :
    book.account? d.tenantId d.accountId d.currency = none := by
  cases found : book.account? d.tenantId d.accountId d.currency with
  | none =>
      rfl
  | some account =>
      obtain ⟨stripe, picked, joined⟩ := stripe_of_known affinity
        (Option.isSome_of_eq_some found)
      have upserted := mem_striped.mpr ⟨d, member, joined⟩
      have atKey := tenantKeyOf_stripeOf picked
      simp only [tenantKeyOf, DeltaRow.tenantKey, Prod.mk.injEq,
        EmbeddingLike.apply_eq_iff_eq] at atKey
      have missed := List.find?_eq_none.mp uncounted _ (List.mem_map_of_mem upserted)
      simp [atKey] at missed

/-- Every upsert the service reads is a delta beside its counter. -/
theorem delta_of_balanceUpsert {snapshot current : Book} {append : Append}
    {upsert : BalanceUpsert}
    (isUpsert : upsert ∈ collectBalanceUpserts (appendRows env snapshot current command append)) :
    ∃ d ∈ delta snapshot command append, upsert = ⟨d.accountId, d.currency,
      (counterOf (balance current (striped snapshot env.stripeAffinity
        (delta snapshot command append))) d.tenantId d.accountId d.currency).map
          CounterRow.lastSeq⟩ := by
  unfold collectBalanceUpserts appendRows at isUpsert
  dsimp only at isUpsert
  obtain ⟨row, isRow, isRead⟩ := List.mem_filterMap.mp isUpsert
  split at isRow
  · rw [List.mem_singleton.mp isRow] at isRead
    cases isRead
  · obtain ⟨d, inSorted, rfl⟩ := List.mem_map.mp isRow
    have member := (List.mem_insertionSort _).mp inSorted
    exact ⟨d, member, (Option.some.inj isRead).symm⟩

/-- A planned delta is of some leg's account. -/
theorem leg_of_plannedDelta {append : Append}
    (planned : planAppend command.postings command.status = .ok append) {d : DeltaRow}
    (member : d ∈ plannedDelta command append) :
    ∃ leg ∈ expandPostings command.postings, d.tenantId = command.tenantId ∧
      d.accountId = leg.accountId ∧ d.currency = leg.currency := by
  obtain ⟨legs, _, deltas, coalesced, isDeltas⟩ := planAppend_ok planned
  obtain ⟨entry, isEntry, rfl⟩ := List.mem_map.mp member
  rw [isDeltas, OrdMap.entries_mapValues] at isEntry
  obtain ⟨held, isHeld, rfl⟩ := List.mem_map.mp isEntry
  have found := (OrdMap.get?_eq_some_iff deltas held.1 held.2).mpr isHeld
  rw [coalesced held.1] at found
  split at found
  · cases found
  · rename_i counted
    rw [legCount, ← Ne, ← Nat.pos_iff_ne_zero, List.countP_pos_iff] at counted
    obtain ⟨leg, isLeg, sameKey⟩ := counted
    have key := of_decide_eq_true sameKey
    refine ⟨leg, legs ▸ isLeg, rfl, ?_, ?_⟩
    · rw [← key]
      rfl
    · rw [← key]
      rfl

/-- A plain append without a counter for each delta names an account nobody opened. -/
theorem obstructed_of_missing {append : Append}
    (planned : planAppend command.postings command.status = .ok append)
    (noReversal : command.reversesId = none) {missing : BalanceUpsert}
    (found : ((appendedAnswer env book book command append).balanceUpserts.find? fun upsert =>
      upsert.lastSeq.isNone) = some missing) :
    (KeyedCommand.post command).Obstructed env book := by
  have isNone := List.find?_some found
  obtain ⟨d, member, rfl⟩ := delta_of_balanceUpsert (List.mem_of_find?_eq_some found)
  have uncounted := Option.map_eq_none_iff.mp (Option.isNone_iff_eq_none.mp isNone)
  have unknown := unknown_of_uncounted book env.stripeAffinity member uncounted
  rw [delta_of_no_reversal noReversal] at member
  obtain ⟨leg, isLeg, tenant, account, currency⟩ := leg_of_plannedDelta planned member
  rw [tenant, account, currency] at unknown
  exact Or.inr (Or.inr ⟨leg, isLeg, unknown⟩)

/-- A supersession the index refuses already has its superseder. -/
theorem obstructed_of_race {hash : List UInt8} {payload : Json} {append : Append}
    (violated : violation env.tzKnown book
      (appendWrites env book book command hash payload append) =
        some (.constraint .uqTxnOneSupersession)) :
    (KeyedCommand.post command).Obstructed env book := by
  by_cases admitted : gateAdmits command (supersedeTarget book command) = true
  · have failed := failed_of_violation violated
    simp only [constraintChecks, List.mem_cons, Prod.mk.injEq, List.not_mem_nil, or_false,
      reduceCtorEq, DbError.constraint.injEq, and_false, and_true, false_or] at failed
    have notAdmits := of_decide_eq_false failed.symm
    have isTxn : (appendWrites env book book command hash payload append).transactions =
        [appendedTxn env book command] := txn_of_admitted admitted
    rw [isTxn] at notAdmits
    right
    left
    by_contra none
    apply notAdmits
    refine UniqueIndex.admits_singleton fun other isHeld key isNew heldKey => none ?_
    obtain ⟨id, named, isKey⟩ := Option.map_eq_some_iff.mp isNew
    refine ⟨id, other, named, isHeld, ?_⟩
    rw [heldKey, ← isKey]
    rfl
  · exact Or.inl (Bool.not_eq_true _ ▸ admitted)

theorem verdict_of_planFor {refusal : WriteError}
    (unplanned : planFor sha256 command = .error refusal) :
    refusal.verdict = .refused ∨ refusal.verdict = .failed := by
  unfold planFor at unplanned
  split at unplanned
  · cases unplanned
    exact Or.inr rfl
  · split at unplanned
    · cases unplanned
      exact Or.inr rfl
    · split at unplanned
      · cases unplanned
        exact Or.inl rfl
      · cases unplanned

theorem verdict_of_supersedeRefusal (command : PostTransaction) (refusal : SupersedeRefusal) :
    (supersedeRefusalNamed command refusal).verdict = .refused ∨
      (supersedeRefusalNamed command refusal).verdict = .failed := by
  unfold supersedeRefusalNamed
  cases refusal with
  | resolveTargetUnknown => cases command.resolvesId <;> simp [WriteError.verdict]
  | resolveTargetNotPending => cases command.resolvesId <;> simp [WriteError.verdict]
  | reverseTargetUnknown => cases command.reversesId <;> simp [WriteError.verdict]
  | reverseTargetNotReversible => cases command.reversesId <;> simp [WriteError.verdict]
  | targetAlreadySuperseded =>
      cases command.resolvesId.or command.reversesId <;> simp [WriteError.verdict]

/-- What a held key answers a post, as the verdict of its holder. -/
theorem verdict_replayed (kept : Kept book) {planned : Planned}
    (isPlanned : planFor sha256 command = .ok planned) {event : EventRow}
    (held : book.holderOf command.tenantId command.idempotencyKey = some event) :
    Verdict.ofPosted (replayed book command planned.hash) =
      (KeyedCommand.post command).heldVerdict sha256 book event := by
  obtain ⟨_, hashed, _⟩ := planFor_ok isPlanned
  unfold replayed storedResult
  rw [find?_holder kept held, heldVerdict_of_hash (.post command) hashed]
  by_cases same : event.idempotencyHash = planned.hash
  · rw [if_pos same, if_pos same]
    rfl
  · rw [if_neg same, if_neg same]
    rfl

theorem proceeds_of_planned {planned : Planned}
    (isPlanned : planFor sha256 command = .ok planned) :
    ¬ (KeyedCommand.post command).StopsBeforeClaim sha256 book := by
  rintro ⟨refusal, unplanned⟩
  rw [isPlanned] at unplanned
  cases unplanned

/-- Over a free key the single call never answers that the key is held, and refuses
a supersession only for its target. -/
theorem claimAndAppend_over_free {hash : List UInt8} {payload : Json} {append : Append}
    {claimed : Option Claimed} {writes : Writes}
    (free : book.holderOf command.tenantId command.idempotencyKey = none)
    (ran : claimAndAppend env book book command hash payload append = (.ok claimed, writes)) :
    claimed ≠ none ∧ ∀ refusal, claimed = some (.supersessionRefused refusal) →
      (KeyedCommand.post command).Obstructed env book := by
  rw [claimAndAppend_free _ _ _ _ _ _ _ free] at ran
  split at ran
  · cases ran
  · rename_i error _ violated
    split at ran
    · rename_i refused raced
      have isRace : error = .constraint .uqTxnOneSupersession := by
        unfold refusalFromSupersessionRace at raced
        split at raced
        · rfl
        · cases raced
      rw [isRace] at violated
      cases ran
      exact ⟨nofun, fun _ _ => obstructed_of_race violated⟩
    · cases ran
  · obtain ⟨answered, _⟩ := Prod.mk.inj ran
    split at answered
    · cases answered
      exact ⟨nofun, nofun⟩
    · rename_i notAdmitted
      cases diagnosed : diagnoseSupersedeRefusal command (targetRow env book command) with
      | error failure =>
          rw [diagnosed] at answered
          cases answered
      | ok refusal =>
          rw [diagnosed] at answered
          cases answered
          exact ⟨nofun, fun _ _ => Or.inl (Bool.not_eq_true _ ▸ notAdmitted)⟩

/-- A plain append that is not complete names an unknown account, or the service and
the statement disagree. -/
theorem verdict_of_incomplete {append : Append}
    (planned : planAppend command.postings command.status = .ok append) {appended : Appended}
    (isAnswer : appended = appendedAnswer env book book command append) {refusal : WriteError}
    (notComplete : (if command.reversesId.isSome = true then none
      else incomplete appended append.deltas) = some refusal) :
    refusal.verdict = .failed ∨
      refusal.verdict = .refused ∧ (KeyedCommand.post command).Obstructed env book := by
  split at notComplete
  · cases notComplete
  · rename_i plain
    have noReversal : command.reversesId = none := by
      simpa using plain
    unfold incomplete at notComplete
    split at notComplete
    · cases notComplete
      exact Or.inl rfl
    · obtain ⟨missing, found, rfl⟩ := Option.map_eq_some_iff.mp notComplete
      rw [isAnswer] at found
      exact Or.inr ⟨rfl, obstructed_of_missing planned noReversal found⟩

/-- A single post over a free key. -/
theorem answered_postAlone (kept : Kept book) {planned : Planned}
    (isPlanned : planFor sha256 command = .ok planned)
    (free : book.holderOf command.tenantId command.idempotencyKey = none) :
    Answered sha256 env book (book.apply (postAlone env book planned).2) (.post command)
        (.ofPosted (postAlone env book planned).1) ∧
      (postAlone env book planned).2.Claimed
        [(.post command, .ofPosted (postAlone env book planned).1)] := by
  have plan := planFor_ok isPlanned
  obtain ⟨rfl, hashed, _, isAppend⟩ := plan
  have proceeds : ¬ (KeyedCommand.post planned.command).StopsBeforeClaim sha256 book :=
    proceeds_of_planned isPlanned
  cases ran : claimAndAppend env book book planned.command planned.hash planned.payload
      planned.append with
  | mk answer writes =>
      cases answer with
      | error failure =>
          simp only [postAlone, ran]
          exact ⟨.failed free, Writes.claimed_none _⟩
      | ok claimed =>
          obtain ⟨notHeld, targeted⟩ := claimAndAppend_over_free free ran
          rcases claimed with - | (appended | refusal)
          · exact absurd rfl notHeld
          · cases complete : (if planned.command.reversesId.isSome = true then none
                else incomplete appended planned.append.deltas) with
            | some refusal =>
                simp only [postAlone, ran, complete]
                refine ⟨?_, Writes.claimed_none _⟩
                obtain ⟨_, _, _, isAnswer, _⟩ := claimAndAppend_appended _ _ _ _ _ _ _ ran
                rcases verdict_of_incomplete isAppend isAnswer complete with
                  failed | ⟨refused, obstructed⟩
                · rw [Verdict.ofPosted, failed]
                  exact .failed free
                · exact .refused free obstructed (Or.inl refused)
            | none =>
                have alone : postAlone env book planned =
                    (.ok ⟨appended.eventId, some appended.transactionId, false⟩, writes) := by
                  simp only [postAlone, ran, complete]
                obtain ⟨isAnswer, admitted, _, isWrites, lands⟩ :=
                  postAlone_fresh env book kept isAppend (by rw [alone]) rfl
                rw [isWrites, alone, isAnswer]
                refine ⟨?_, claimed_of_event rfl rfl rfl (events_of_lands lands) lands.belongs⟩
                have isTxn : appendedTxn env book planned.command ∈
                    (book.apply (appendWrites env book book planned.command planned.hash
                      planned.payload planned.append)).transactions := by
                  have isNew : (appendWrites env book book planned.command planned.hash
                      planned.payload planned.append).transactions =
                        [appendedTxn env book planned.command] := txn_of_admitted admitted
                  rw [Book.transactions_apply, isNew]
                  exact List.mem_append_right _ (List.mem_singleton_self _)
                have found := causedBy_of_mem (kept.apply lands) isTxn
                exact @answered_fresh sha256 env book (.post planned.command)
                  (appendWrites env book book planned.command planned.hash planned.payload
                    planned.append) _ _ rfl proceeds free rfl rfl hashed ⟨_, found, rfl⟩
          · simp only [postAlone, ran]
            refine ⟨?_, Writes.claimed_none _⟩
            rcases verdict_of_supersedeRefusal planned.command refusal with refused | failed
            · exact .refused free (targeted refusal rfl) (Or.inl refused)
            · rw [Verdict.ofPosted, failed]
              exact .failed free

theorem performed_post (kept : Kept book) (command : PostTransaction) :
    Performed sha256 env book ((Operation.post command).perform sha256 env book).2
      [.post command] ((Operation.post command).perform sha256 env book).1.verdicts := by
  cases isPlanned : planFor sha256 command with
  | error refusal =>
      rw [perform_post_unplanned env book isPlanned]
      exact performed_unwritten <|
        .stopped ⟨refusal, isPlanned⟩ (verdict_of_planFor isPlanned)
  | ok planned =>
      rw [perform_post env book isPlanned]
      cases held : book.holderOf command.tenantId command.idempotencyKey with
      | none =>
          obtain ⟨answered, claimed⟩ := @answered_postAlone sha256 env book command kept planned
            isPlanned held
          exact performed_single answered claimed
      | some event =>
          obtain ⟨rfl, _⟩ := planFor_ok isPlanned
          have alone : postAlone env book planned =
              (replayed book planned.command planned.hash, .none) := by
            unfold postAlone
            rw [claimAndAppend_held _ _ _ _ _ _ _ (by rw [held]; rfl)]
          rw [alone, Book.apply_none]
          refine performed_unwritten ?_
          rw [verdict_replayed kept isPlanned held]
          exact .held (proceeds_of_planned isPlanned) held

end Posts

section Openings

variable {sha256 : List UInt8 → List UInt8} {env : Env} {book : Book} {command : OpenAccount}

theorem verdict_of_ownerDisagreement {triple : ChartTriple} {refusal : OpenAccountError}
    (disagrees : theOwnerTheTypeAndTheSchemaDisagreeAbout command triple = some refusal) :
    refusal.verdict = .refused := by
  unfold theOwnerTheTypeAndTheSchemaDisagreeAbout at disagrees
  dsimp only at disagrees
  split at disagrees
  · cases disagrees
    rfl
  · split at disagrees
    · cases disagrees
      rfl
    · cases disagrees

/-- Only another account of the same natural key meets one of the two indexes. -/
theorem obstructed_of_accountRace {hash : List UInt8} {payload : Json} {triple : ChartTriple}
    {error : DbError}
    (violated : violation env.tzKnown book (openWrites env command hash payload triple) =
      some error) {refused : OpenedAccount}
    (raced : refusalFromTheAccountRace error = some refused) :
    refused = .alreadyExists ∧ (KeyedCommand.openAccount command).Obstructed env book := by
  have failed := failed_of_violation violated
  have isExists : refused = .alreadyExists := by
    unfold refusalFromTheAccountRace at raced
    split at raced <;> cases raced <;> rfl
  refine ⟨isExists, ?_⟩
  by_contra none
  unfold refusalFromTheAccountRace at raced
  split at raced
  · simp only [constraintChecks, List.mem_cons, Prod.mk.injEq, List.not_mem_nil, or_false,
      reduceCtorEq, DbError.constraint.injEq, and_false, and_true, false_or] at failed
    refine of_decide_eq_false failed.symm (UniqueIndex.admits_singleton ?_)
    intro other isThere key isNew isHeld
    simp only [AccountRow.ownedKey] at isNew isHeld
    split at isNew
    · cases isNew
    · split at isHeld
      · cases isHeld
      · have same := (Option.some.inj isHeld).trans (Option.some.inj isNew).symm
        simp only [openedRow, Prod.mk.injEq] at same
        exact none ⟨other, isThere, same.1, same.2.1, same.2.2.2.1, same.2.2.2.2,
          Or.inr same.2.2.1⟩
  · simp only [constraintChecks, List.mem_cons, Prod.mk.injEq, List.not_mem_nil, or_false,
      reduceCtorEq, DbError.constraint.injEq, and_false, and_true, false_or] at failed
    refine of_decide_eq_false failed.symm (UniqueIndex.admits_singleton ?_)
    intro other isThere key isNew isHeld
    simp only [AccountRow.houseKey] at isNew isHeld
    split at isNew
    · rename_i house
      split at isHeld
      · rename_i otherHouse
        have same := (Option.some.inj isHeld).trans (Option.some.inj isNew).symm
        simp only [openedRow, Prod.mk.injEq] at same
        exact none ⟨other, isThere, same.1, otherHouse.trans house.symm, same.2.1, same.2.2,
          Or.inl house⟩
      · cases isHeld
    · cases isNew
  · cases raced

/-- What a held key answers an opening, as the verdict of its holder. -/
theorem verdict_replayedAccount (kept : Kept book) {event : EventRow}
    (held : book.holderOf command.tenantId command.idempotencyKey = some event) :
    Verdict.ofOpened (replayedAccount book command (command.idempotencyHash sha256)) =
      (KeyedCommand.openAccount command).heldVerdict sha256 book event := by
  unfold replayedAccount storedAccount
  rw [find?_holder kept held, heldVerdict_of_hash (.openAccount command) rfl]
  by_cases same : event.idempotencyHash = command.idempotencyHash sha256
  · rw [if_pos same, if_pos same, KeyedCommand.repeated, Option.map_some]
    cases accountUnder book command event.tenantId <;> rfl
  · rw [if_neg same, if_neg same]
    rfl

/-- Outside the house an owner is given, and is never blank, so its key tells it. -/
theorem ownerId_of_key {triple : ChartTriple}
    (agrees : theOwnerTheTypeAndTheSchemaDisagreeAbout command triple = none)
    (notHouse : command.ownerType ≠ .house) {other : AccountRow}
    (sameKey : other.ownerIdKey = command.ownerId.getD "") :
    other.ownerId = command.ownerId := by
  cases given : command.ownerId with
  | none =>
      simp [theOwnerTheTypeAndTheSchemaDisagreeAbout, given, AccountOwnerType.isTheHouse,
        notHouse] at agrees
  | some owner =>
      rw [given, AccountRow.ownerIdKey, Option.getD_some] at sameKey
      cases held : other.ownerId with
      | none =>
          have notBlank := command.ownerNotBlank owner given
          rw [held, Option.getD_none] at sameKey
          rw [← sameKey] at notBlank
          cases notBlank
      | some holder =>
          rw [held, Option.getD_some] at sameKey
          rw [sameKey]

/-- The account an opening wrote is the one its natural key finds. -/
theorem accountUnder_opened {hash : List UInt8} {payload : Json} {triple : ChartTriple}
    (agrees : theOwnerTheTypeAndTheSchemaDisagreeAbout command triple = none)
    (allowed : violation env.tzKnown book (openWrites env command hash payload triple) = none) :
    accountUnder (book.apply (openWrites env command hash payload triple)) command
      command.tenantId = some (openedRow env command triple) := by
  have admits := (violation_eq_none_iff ..).mp allowed
  have unheld : accountUnder book command command.tenantId = none := by
    rw [accountUnder, List.find?_eq_none]
    intro other isThere matches_
    simp only [Bool.and_eq_true, decide_eq_true_eq] at matches_
    obtain ⟨⟨⟨⟨tenant, kind⟩, owner⟩, purpose⟩, currency⟩ := matches_
    by_cases house : command.ownerType = .house
    · have isNew : some (command.tenantId, command.purpose, command.currency) =
          AccountRow.houseKey (openedRow env command triple) := (if_pos house).symm
      refine admits.uqAccountsHouse.2 (command.tenantId, command.purpose, command.currency)
        (List.mem_filterMap.mpr ⟨_, List.mem_singleton_self _, isNew.symm⟩)
        (List.mem_filterMap.mpr ⟨other, isThere, ?_⟩)
      rw [AccountRow.houseKey, if_pos (kind.trans house), tenant, purpose, currency]
    · have ownerGiven := ownerId_of_key agrees house owner
      have isNew : some (command.tenantId, command.ownerType, command.ownerId, command.purpose,
          command.currency) = AccountRow.ownedKey (openedRow env command triple) :=
        (if_neg house).symm
      refine admits.uqAccountsOwned.2 (command.tenantId, command.ownerType, command.ownerId,
          command.purpose, command.currency)
        (List.mem_filterMap.mpr ⟨_, List.mem_singleton_self _, isNew.symm⟩)
        (List.mem_filterMap.mpr ⟨other, isThere, ?_⟩)
      rw [AccountRow.ownedKey, if_neg (fun isHouse => house (kind.symm.trans isHouse)), tenant,
        kind, ownerGiven, purpose, currency]
  rw [accountUnder] at unheld ⊢
  rw [Book.accounts_apply, List.find?_append, unheld, Option.none_or]
  exact List.find?_cons_of_pos (by simp [openedRow, AccountRow.ownerIdKey])

theorem performed_openAccount (kept : Kept book) :
    Performed sha256 env book ((Operation.openAccount command).perform sha256 env book).2
      [.openAccount command]
      ((Operation.openAccount command).perform sha256 env book).1.verdicts := by
  rw [perform_openAccount env book command]
  cases charted : chartTripleForPurpose book command.purpose with
  | none =>
      have stops : (KeyedCommand.openAccount command).StopsBeforeClaim sha256 book := by
        intro triple isTriple
        rw [charted] at isTriple
        cases isTriple
      simp only [openAlone, charted, Book.apply_none]
      exact performed_unwritten (.stopped stops (Or.inl rfl))
  | some triple =>
      cases disagrees : theOwnerTheTypeAndTheSchemaDisagreeAbout command triple with
      | some refusal =>
          have stops : (KeyedCommand.openAccount command).StopsBeforeClaim sha256 book := by
            intro other isTriple
            rw [charted, Option.some.injEq] at isTriple
            rw [← isTriple, disagrees]
            rfl
          simp only [openAlone, charted, disagrees, Book.apply_none]
          exact performed_unwritten <|
            .stopped stops (Or.inl (verdict_of_ownerDisagreement disagrees))
      | none =>
          have proceeds : ¬ (KeyedCommand.openAccount command).StopsBeforeClaim sha256 book := by
            intro stops
            have disagreed := stops triple charted
            rw [disagrees] at disagreed
            cases disagreed
          cases held : book.holderOf command.tenantId command.idempotencyKey with
          | some event =>
              have claim : claimAndOpenAccount env book command
                  (command.idempotencyHash sha256) command.payload triple = (.ok none, .none) :=
                if_pos (by rw [held]; rfl)
              simp only [openAlone, charted, disagrees, claim, Book.apply_none]
              refine performed_unwritten ?_
              rw [verdict_replayedAccount kept held]
              exact .held proceeds held
          | none =>
              have claim : claimAndOpenAccount env book command
                  (command.idempotencyHash sha256) command.payload triple = _ :=
                if_neg (by rw [held]; exact Bool.false_ne_true)
              cases violated : violation env.tzKnown book (openWrites env command
                  (command.idempotencyHash sha256) command.payload triple) with
              | some error =>
                  cases raced : refusalFromTheAccountRace error with
                  | none =>
                      simp only [openAlone, charted, disagrees, claim, violated, raced,
                        Book.apply_none]
                      exact performed_unwritten (.failed held)
                  | some refused =>
                      obtain ⟨rfl, obstructed⟩ := obstructed_of_accountRace violated raced
                      simp only [openAlone, charted, disagrees, claim, violated, raced,
                        Book.apply_none]
                      exact performed_unwritten (.refused held obstructed (Or.inl rfl))
              | none =>
                  simp only [openAlone, charted, disagrees, claim, violated]
                  have found := @accountUnder_opened env book command
                    (command.idempotencyHash sha256) command.payload triple disagrees violated
                  have lands := openWrites_lands charted held violated
                  refine performed_single ?_
                    (claimed_of_event rfl rfl rfl (events_of_lands lands) lands.belongs)
                  exact @answered_fresh sha256 env book (.openAccount command)
                    (openWrites env command (command.idempotencyHash sha256) command.payload
                      triple) _ _ rfl proceeds held rfl rfl rfl ⟨_, found, rfl⟩

end Openings

section Definitions

variable {sha256 : List UInt8 → List UInt8} {env : Env} {book : Book} {command : DefinePeriod}

/-- What the database refuses of a definition is in the book or in its zone. -/
theorem obstructed_of_periodRace {hash : List UInt8} {payload : Json} {error : DbError}
    (violated : violation env.tzKnown book (defineWrites env command hash payload) =
      some error) {refused : DefinedPeriod}
    (raced : refusalFromThePeriodConstraints error = some refused) :
    (KeyedCommand.definePeriod command).Obstructed env book ∧
      (refused = .exists ∨ refused = .overlaps ∨ refused = .zoneUnknown) := by
  have failed := failed_of_violation violated
  unfold refusalFromThePeriodConstraints at raced
  split at raced
  · cases raced
    refine ⟨?_, Or.inl rfl⟩
    by_contra none
    simp only [constraintChecks, List.mem_cons, Prod.mk.injEq, List.not_mem_nil, or_false,
      reduceCtorEq, DbError.constraint.injEq, and_false, and_true, false_or] at failed
    refine of_decide_eq_false failed.symm (UniqueIndex.admits_singleton ?_)
    intro other isThere key isNew isHeld
    have same := (Option.some.inj isHeld).trans (Option.some.inj isNew).symm
    simp only [definedRow, Prod.mk.injEq] at same
    exact none (Or.inl ⟨other, isThere, same.1, Or.inl same.2⟩)
  · cases raced
    refine ⟨?_, Or.inr (Or.inl rfl)⟩
    by_contra none
    simp only [constraintChecks, List.mem_cons, Prod.mk.injEq, List.not_mem_nil, or_false,
      reduceCtorEq, DbError.constraint.injEq, and_false, and_true, false_or] at failed
    apply of_decide_eq_false failed.symm
    intro row isRow held isThere overlaps
    rw [List.mem_singleton.mp isRow] at overlaps
    exact none (Or.inl ⟨held, isThere, overlaps.1.symm, Or.inr overlaps⟩)
  · cases raced
    refine ⟨?_, Or.inr (Or.inr rfl)⟩
    by_contra none
    simp only [constraintChecks, List.mem_cons, Prod.mk.injEq, List.not_mem_nil, or_false,
      reduceCtorEq, and_false, and_true, false_or] at failed
    apply of_decide_eq_false failed.symm
    intro row isRow
    rw [List.mem_singleton.mp isRow]
    by_contra unknown
    exact none (Or.inr (Bool.not_eq_true _ ▸ unknown))
  · cases raced

/-- What a held key answers a definition, as the verdict of its holder. -/
theorem verdict_replayedPeriod (kept : Kept book) {hash : List UInt8}
    (hashed : command.idempotencyHash sha256 = .ok hash) {event : EventRow}
    (held : book.holderOf command.tenantId command.idempotencyKey = some event) :
    Verdict.ofDefined (replayedPeriod book command hash) =
      (KeyedCommand.definePeriod command).heldVerdict sha256 book event := by
  unfold replayedPeriod storedPeriod
  rw [find?_holder kept held, heldVerdict_of_hash (.definePeriod command) hashed]
  by_cases same : event.idempotencyHash = hash
  · rw [if_pos same, if_pos same, KeyedCommand.repeated, Option.map_some]
    cases book.period? event.tenantId command.code <;> rfl
  · rw [if_neg same, if_neg same]
    rfl

/-- The period a definition wrote is the one its code finds. -/
theorem period?_defined {hash : List UInt8} {payload : Json}
    (allowed : violation env.tzKnown book (defineWrites env command hash payload) = none) :
    (book.apply (defineWrites env command hash payload)).period? command.tenantId
      command.code = some (definedRow command) := by
  have admits := (violation_eq_none_iff ..).mp allowed
  have unheld : book.period? command.tenantId command.code = none := by
    rw [Book.period?, List.find?_eq_none]
    intro other isThere matches_
    simp only [Bool.and_eq_true, decide_eq_true_eq] at matches_
    refine admits.pkPeriods.2 (command.tenantId, command.code)
      (List.mem_filterMap.mpr ⟨_, List.mem_singleton_self _, rfl⟩)
      (List.mem_filterMap.mpr ⟨other, isThere, ?_⟩)
    rw [PeriodRow.primaryKey, matches_.1, matches_.2]
  rw [Book.period?] at unheld ⊢
  rw [Book.periods_apply, List.find?_append, unheld, Option.none_or]
  exact List.find?_cons_of_pos (by simp [definedRow])

theorem perform_definePeriod_unrendered
    (unrendered : (KeyedCommand.definePeriod command).StopsBeforeClaim sha256 book) :
    ∃ detail, (Operation.definePeriod command).perform sha256 env book =
      (.defined (.error (.internal detail)), book) := by
  have isProgram : ∃ detail, (Operation.definePeriod command).program sha256 =
      .done (.defined (.error (.internal detail))) := by
    unfold Operation.program definePeriod
    dsimp only
    cases hashed : command.idempotencyHash sha256 with
    | error invalid =>
        exact ⟨invalid.detail, rfl⟩
    | ok hash =>
        cases isPayload : command.payload with
        | error invalid =>
            exact ⟨invalid.detail, rfl⟩
        | ok payload =>
            exact absurd isPayload (unrendered hash payload hashed)
  obtain ⟨detail, isProgram⟩ := isProgram
  refine ⟨detail, ?_⟩
  rw [Operation.perform, isProgram]
  rfl

theorem performed_definePeriod (kept : Kept book) :
    Performed sha256 env book ((Operation.definePeriod command).perform sha256 env book).2
      [.definePeriod command]
      ((Operation.definePeriod command).perform sha256 env book).1.verdicts := by
  by_cases stops : (KeyedCommand.definePeriod command).StopsBeforeClaim sha256 book
  · obtain ⟨detail, performed⟩ := @perform_definePeriod_unrendered sha256 env book command stops
    rw [performed]
    exact performed_unwritten (.stopped stops (Or.inr rfl))
  · have rendered := stops
    simp only [KeyedCommand.StopsBeforeClaim, not_forall, not_not] at rendered
    obtain ⟨hash, payload, hashed, isPayload⟩ := rendered
    rw [perform_definePeriod env book hashed isPayload]
    cases held : book.holderOf command.tenantId command.idempotencyKey with
    | some event =>
        have claim : claimAndDefinePeriod env book command hash payload = (.ok none, .none) :=
          if_pos (by rw [held]; rfl)
        simp only [defineAlone, claim, Book.apply_none]
        refine performed_unwritten ?_
        rw [verdict_replayedPeriod kept hashed held]
        exact .held stops held
    | none =>
        have claim : claimAndDefinePeriod env book command hash payload = _ :=
          if_neg (by rw [held]; exact Bool.false_ne_true)
        cases violated : violation env.tzKnown book (defineWrites env command hash payload) with
        | some error =>
            cases raced : refusalFromThePeriodConstraints error with
            | none =>
                simp only [defineAlone, claim, violated, raced, Book.apply_none]
                exact performed_unwritten (.failed held)
            | some refused =>
                obtain ⟨obstructed, named⟩ := obstructed_of_periodRace violated raced
                rcases named with rfl | rfl | rfl
                all_goals
                  simp only [defineAlone, claim, violated, raced, Book.apply_none]
                  exact performed_unwritten (.refused held obstructed (Or.inl rfl))
        | none =>
            simp only [defineAlone, claim, violated]
            have found := @period?_defined env book command hash payload violated
            have lands := defineWrites_lands held violated
            refine performed_single ?_
              (claimed_of_event rfl rfl rfl (events_of_lands lands) lands.belongs)
            exact @answered_fresh sha256 env book (.definePeriod command)
              (defineWrites env command hash payload) _ _ rfl stops held rfl rfl hashed
              ⟨_, found, rfl⟩

end Definitions

section Closes

variable {sha256 : List UInt8 → List UInt8} {env : Env} {book : Book} {command : ClosePeriod}

theorem verdict_of_closePlan {refusal : ClosePeriodError}
    (unplanned : closePlan book command = .error refusal) :
    refusal.verdict = .refused ∨ refusal.verdict = .failed := by
  unfold closePlan at unplanned
  split at unplanned
  · cases unplanned
    exact Or.inl rfl
  · split at unplanned
    · cases unplanned
      exact Or.inl rfl
    · split at unplanned
      · cases unplanned
        exact Or.inr rfl
      · cases unplanned

/-- What a held key answers a close, as the verdict of its holder. -/
theorem verdict_repeatedClose (kept : Kept book) {event : EventRow}
    (held : book.holderOf command.tenantId command.idempotencyKey = some event) :
    (repeatedClose sha256 book command).verdict =
      (KeyedCommand.closePeriod command).heldVerdict sha256 book event := by
  unfold repeatedClose storedClose
  rw [find?_holder kept held, heldVerdict_of_hash (.closePeriod command) rfl]
  by_cases same : event.idempotencyHash = command.idempotencyHash sha256
  · rw [if_pos same, if_pos same]
    rfl
  · rw [if_neg same, if_neg same]
    rfl

/-- A close met a close of the same period and currency. -/
theorem obstructed_of_closeRace {hash : List UInt8} {payload : Json} {plan : ClosePlan}
    {error : DbError}
    (violated : violation env.tzKnown book (closeWrites env book book command hash payload plan) =
      some error) {refused : ClosedPeriod} (raced : refusalFromTheCloseRace error = some refused) :
    refused = .alreadyClosed ∧ (KeyedCommand.closePeriod command).Obstructed env book := by
  unfold refusalFromTheCloseRace at raced
  split at raced
  · cases raced
    refine ⟨rfl, ?_⟩
    by_contra none
    have unclosed : ∀ close ∈ book.closes, ¬ close.IsOf command :=
      fun close isThere isOf => none ⟨close, isThere, isOf⟩
    have failed := failed_of_violation violated
    simp only [constraintChecks, List.mem_cons, Prod.mk.injEq, List.not_mem_nil, or_false,
      reduceCtorEq, DbError.constraint.injEq, and_false, and_true, false_or] at failed
    exact of_decide_eq_false failed.symm
      (closeWrites_unclosed env hash payload plan unclosed)
  · cases raced

/-- A planned close over a free key: the storage fails, its period is closed, or it
closes with its checkpoint. -/
theorem closeAlone_over_free {plan : ClosePlan}
    (free : book.holderOf command.tenantId command.idempotencyKey = none) :
    (∃ failure, closeAlone sha256 env book command plan =
        (.error (.storage failure), .none)) ∨
      (closeAlone sha256 env book command plan =
          (.error (.periodAlreadyClosed command.periodCode command.currency), .none) ∧
        (KeyedCommand.closePeriod command).Obstructed env book) ∨
      ∃ answer rows,
        violation env.tzKnown book (closeWrites env book book command
          (command.idempotencyHash sha256) command.payload plan) = none ∧
        answer.eventId = env.eventId 0 ∧ answer.transactionId = env.transactionId 0 ∧
        closeAlone sha256 env book command plan = (.ok answer,
          (closeWrites env book book command (command.idempotencyHash sha256) command.payload
            plan).append { periodBalances := rows }) := by
  have claim : claimAndClosePeriod env book book command (command.idempotencyHash sha256)
      command.payload plan = _ := if_neg (by rw [free]; exact Bool.false_ne_true)
  cases casts : (ensureBigints (closeCasts env book command plan)).toOption with
  | none =>
      simp only [casts] at claim
      exact Or.inl ⟨.backend .numericValueOutOfRange, by simp only [closeAlone, claim]⟩
  | some fits =>
      cases violated : violation env.tzKnown book (closeWrites env book book command
          (command.idempotencyHash sha256) command.payload plan) with
      | some error =>
          cases raced : refusalFromTheCloseRace error with
          | none =>
              simp only [casts, violated, raced] at claim
              exact Or.inl ⟨.backend error, by simp only [closeAlone, claim]⟩
          | some refused =>
              obtain ⟨rfl, obstructed⟩ := obstructed_of_closeRace violated raced
              simp only [casts, violated, raced] at claim
              exact Or.inr (Or.inl ⟨by simp only [closeAlone, claim], obstructed⟩)
      | none =>
          simp only [casts, violated, closedFromTheRows_closeRows] at claim
          cases checked : checkpointTheClose env (book.apply (closeWrites env book book command
              (command.idempotencyHash sha256) command.payload plan))
              (book.apply (closeWrites env book book command (command.idempotencyHash sha256)
                command.payload plan)) command plan (env.transactionId 0) env.xid with
          | mk reply checkpoint =>
              cases reply with
              | error failure =>
                  exact Or.inl ⟨failure, by simp only [closeAlone, claim, checked]⟩
              | ok rows =>
                  obtain ⟨_, _, isCheckpoint⟩ := checkpointTheClose_answered
                    (congrArg Prod.fst checked)
                  rw [checked] at isCheckpoint
                  have alone : closeAlone sha256 env book command plan =
                      (.ok ⟨env.eventId 0, env.transactionId 0, command.periodCode,
                        command.currency, plan.closesAt, env.xid, sweptBy env book command plan,
                        rows⟩, (closeWrites env book book command
                          (command.idempotencyHash sha256) command.payload plan).append
                            checkpoint) := by
                    simp only [closeAlone, claim, checked]
                  rw [show checkpoint = _ from isCheckpoint] at alone
                  exact Or.inr (Or.inr ⟨_, _, rfl, rfl, rfl, alone⟩)

theorem performed_closePeriod (kept : Kept book) :
    Performed sha256 env book ((Operation.closePeriod command).perform sha256 env book).2
      [.closePeriod command]
      ((Operation.closePeriod command).perform sha256 env book).1.verdicts := by
  cases planned : closePlan book command with
  | error refusal =>
      rw [perform_closePeriod_unplanned env book planned]
      exact performed_unwritten <|
        .stopped ⟨refusal, planned⟩ (verdict_of_closePlan planned)
  | ok plan =>
      rw [perform_closePeriod env book planned]
      have proceeds : ¬ (KeyedCommand.closePeriod command).StopsBeforeClaim sha256 book := by
        rintro ⟨refusal, unplanned⟩
        rw [planned] at unplanned
        cases unplanned
      cases held : book.holderOf command.tenantId command.idempotencyKey with
      | some event =>
          have alone : closeAlone sha256 env book command plan =
              (.error (repeatedClose sha256 book command), .none) := by
            have claim : claimAndClosePeriod env book book command
                (command.idempotencyHash sha256) command.payload plan = (.ok none, .none) :=
              if_pos (by rw [held]; rfl)
            simp only [closeAlone, claim]
          rw [alone, Book.apply_none]
          refine performed_unwritten ?_
          rw [show Verdict.ofClosed (.error (repeatedClose sha256 book command)) =
            (repeatedClose sha256 book command).verdict from rfl, verdict_repeatedClose kept held]
          exact .held proceeds held
      | none =>
          rcases @closeAlone_over_free sha256 env book command plan held with
            ⟨failure, failed⟩ | ⟨refused, obstructed⟩ | ⟨answer, rows, allowed, isEvent, isTxn, closed⟩
          · rw [failed, Book.apply_none]
            exact performed_unwritten (.failed held)
          · rw [refused, Book.apply_none]
            exact performed_unwritten (.refused held obstructed (Or.inr rfl))
          · have lands := closeWrites_lands (command.idempotencyHash sha256) command.payload
              (Book.Precedes.refl book) (planFits_of_closePlan planned) held allowed
            have found := causedBy_of_mem (kept.apply lands)
              (List.mem_append_right book.transactions
                (List.mem_singleton_self (closingTxn env command plan)))
            have foundLater := Book.Precedes.find?_of_prefix
              (Book.Precedes.apply _ { periodBalances := rows }).transactions found
            rw [← Book.apply_append] at foundLater
            have told : Verdict.ofClosed (.ok answer) = .accepted (env.eventId 0)
                (.transaction (some (env.transactionId 0))) false := by
              rw [Verdict.ofClosed, isEvent, isTxn]
            rw [closed]
            refine performed_single ?_ ?_
            · rw [told]
              exact @answered_fresh sha256 env book (.closePeriod command)
                ((closeWrites env book book command (command.idempotencyHash sha256)
                  command.payload plan).append { periodBalances := rows }) _ _ rfl proceeds held
                rfl rfl rfl ⟨_, foundLater, rfl⟩
            · rw [told]
              exact Writes.Claimed.checkpointed rows (claimed_of_event rfl rfl rfl
                (events_of_lands lands) lands.belongs) (List.cons_ne_nil _ _)

end Closes

end OpenLedger
