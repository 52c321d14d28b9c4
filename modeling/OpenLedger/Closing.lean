import OpenLedger.Sequential
import OpenLedger.Sweep

/-!
# An uncontended close

What an accepted close does when nobody writes beside it: it moves every temporary
account's position before the period's end into retained earnings, pair by pair, and
stores the sums of every account behind that sweep.
-/

namespace OpenLedger

open Postgres

/-- A checkpoint changes nothing but its own table. -/
theorem Book.apply_periodBalances (book : Book) (rows : List PeriodBalanceRow) :
    book.apply { periodBalances := rows } =
      { book with periodBalances := book.periodBalances ++ rows } := by
  simp [apply]

/-- The rows a close stores behind what it wrote. -/
def storedBehind (env : Env) (book : Book) (command : ClosePeriod) (plan : ClosePlan)
    (writes : Writes) : List PeriodBalanceRow :=
  checkpointRows (book.apply writes) command plan (env.transactionId 0) env.xid

/-- An accepted close alone: its plan, its sweep and its checkpoint, over the book it
was accepted over. -/
structure Closes (sha256 : List UInt8 → List UInt8) (env : Env) (book : Book)
    (command : ClosePeriod) (plan : ClosePlan) (answer : PeriodClosed) (writes : Writes)
    (after : Book) : Prop where
  fits : PlanFits book command plan
  isWrites : writes =
    closeWrites env book book command (command.idempotencyHash sha256) command.payload plan
  lands : Lands book writes
  swept : answer.swept = sweptBy env book command plan
  transactionId : answer.transactionId = env.transactionId 0
  computedAtXid : answer.computedAtXid = env.xid
  effectiveAt : answer.effectiveAt = plan.closesAt
  counted : answer.checkpointRows = (storedBehind env book command plan writes).length
  isAfter : after =
    (book.apply writes).apply { periodBalances := storedBehind env book command plan writes }

/-- What an accepted close answered. -/
def Outcome.closed? : Outcome → Option PeriodClosed
  | .closed (.ok answer) => some answer
  | _ => none

theorem Outcome.eq_of_closed? {outcome : Outcome} {answer : PeriodClosed}
    (accepted : outcome.closed? = some answer) : outcome = .closed (.ok answer) := by
  cases outcome with
  | closed reply =>
      cases reply with
      | ok found =>
          rw [Option.some.inj accepted]
      | error refusal =>
          cases accepted
  | _ =>
      cases accepted

section Accepted

variable {sha256 : List UInt8 → List UInt8} {env : Env} {book : Book} {command : ClosePeriod}

theorem planFits_of_closePlan {plan : ClosePlan} (planned : closePlan book command = .ok plan) :
    PlanFits book command plan := by
  unfold closePlan at planned
  cases isContext : periodCloseContext book command with
  | none =>
      rw [isContext] at planned
      cases planned
  | some context =>
      rw [isContext] at planned
      dsimp only at planned
      cases destination : context.retainedEarnings with
      | none =>
          rw [destination] at planned
          cases planned
      | some retainedEarnings =>
          rw [destination] at planned
          dsimp only at planned
          cases instant : theLastInstantInside context.endsAt with
          | none =>
              rw [instant] at planned
              cases planned
          | some closesAt =>
              rw [instant] at planned
              obtain rfl := Except.ok.inj planned
              exact planFits_of_context isContext destination instant

/-- A refused close leaves the book as it was. -/
theorem perform_close_cases (sha256 : List UInt8 → List UInt8) (env : Env) (book : Book)
    (command : ClosePeriod) :
    ((Operation.closePeriod command).perform sha256 env book).2 = book ∨
      ∃ answer, ((Operation.closePeriod command).perform sha256 env book).1 =
        .closed (.ok answer) := by
  cases planned : closePlan book command with
  | error refusal =>
      rw [perform_closePeriod_unplanned env book planned]
      exact Or.inl rfl
  | ok plan =>
      rw [perform_closePeriod env book planned]
      unfold closeAlone
      split
      · exact Or.inl (Book.apply_none book)
      · exact Or.inl (Book.apply_none book)
      · exact Or.inl (Book.apply_none book)
      · split
        · exact Or.inl (Book.apply_none book)
        · exact Or.inr ⟨_, rfl⟩

/-- What a close over a free key answers once its statement met no constraint and its
checkpoint none either. -/
def closedAnswer (env : Env) (book : Book) (command : ClosePeriod) (plan : ClosePlan)
    (writes : Writes) : PeriodClosed where
  eventId := env.eventId 0
  transactionId := env.transactionId 0
  periodCode := command.periodCode
  currency := command.currency
  effectiveAt := plan.closesAt
  computedAtXid := env.xid
  swept := sweptBy env book command plan
  checkpointRows := (storedBehind env book command plan writes).length

theorem closes_of_allowed {plan : ClosePlan} {writes : Writes}
    (planned : closePlan book command = .ok plan)
    (free : book.holderOf command.tenantId command.idempotencyKey = none)
    (isWrites : writes =
      closeWrites env book book command (command.idempotencyHash sha256) command.payload plan)
    (allowed : violation env.tzKnown book writes = none) :
    Closes sha256 env book command plan (closedAnswer env book command plan writes) writes
      ((book.apply writes).apply
        { periodBalances := storedBehind env book command plan writes }) := by
  have fits := planFits_of_closePlan planned
  refine ⟨fits, isWrites, ?_, rfl, rfl, rfl, rfl, rfl, rfl⟩
  rw [isWrites] at allowed ⊢
  exact closeWrites_lands _ _ (Book.Precedes.refl book) fits free allowed

/-- An accepted close swept and stored. -/
theorem closes_of_accepted {answer : PeriodClosed}
    (accepted : ((Operation.closePeriod command).perform sha256 env book).1 =
      .closed (.ok answer)) :
    ∃ plan writes, Closes sha256 env book command plan answer writes
      ((Operation.closePeriod command).perform sha256 env book).2 := by
  cases planned : closePlan book command with
  | error refusal =>
      rw [perform_closePeriod_unplanned env book planned] at accepted
      cases accepted
  | ok plan =>
      rw [perform_closePeriod env book planned] at accepted ⊢
      have answered := Outcome.closed.inj accepted
      unfold closeAlone at answered ⊢
      cases claimed : claimAndClosePeriod env book book command
          (command.idempotencyHash sha256) command.payload plan with
      | mk reply writes =>
          rw [claimed] at answered
          rcases reply with failure | (- | (⟨eventId, transactionId, computedAtXid, swept⟩ | -))
          · cases answered
          · cases answered
          · obtain ⟨free, allowed, rfl, rfl, rfl, rfl, isWrites⟩ :=
              claimAndClosePeriod_closed claimed
            rw [← isWrites] at allowed
            dsimp only at answered ⊢
            cases stored : checkpointTheClose env (book.apply writes) (book.apply writes)
                command plan (env.transactionId 0) env.xid with
            | mk rows checkpoint =>
                rw [stored] at answered
                cases rows with
                | error failure =>
                    cases answered
                | ok rows =>
                    obtain ⟨_, rfl, isCheckpoint⟩ :=
                      checkpointTheClose_answered (congrArg Prod.fst stored)
                    rw [stored] at isCheckpoint
                    have isRows : checkpoint = _ := isCheckpoint
                    obtain rfl := Except.ok.inj answered
                    refine ⟨plan, writes, ?_⟩
                    dsimp only
                    rw [Book.apply_append, isRows]
                    exact closes_of_allowed planned free isWrites allowed
          · cases answered

end Accepted

/-! ## The closing transaction -/

namespace Closes

variable {sha256 : List UInt8 → List UInt8} {env : Env} {book : Book} {command : ClosePeriod}
  {plan : ClosePlan} {answer : PeriodClosed} {writes : Writes} {after : Book}
  (closes : Closes sha256 env book command plan answer writes after)

include closes

theorem wrote : SweepWrites sha256 env book book command plan writes :=
  ⟨closes.fits, closes.isWrites, closes.lands⟩

/-- Its legs: one out of each swept account, and one into retained earnings. -/
theorem legs_perm : (writes.entries.map EntryRow.leg).Perm
    (answer.swept.map (legOut command.currency) ++
      answer.swept.map (legIn command.currency plan.retainedEarnings)) := by
  rw [closes.swept]
  exact closes.wrote.legs_perm

theorem entries_after : after.entries = book.entries ++ writes.entries := by
  rw [closes.isAfter, Book.apply_periodBalances]
  rfl

theorem precedes_after : book.Precedes after := by
  rw [closes.isAfter]
  exact (Book.Precedes.apply book writes).trans (Book.Precedes.apply _ _)

theorem closes_after : after.closes = book.closes ++ [closeRowOf env command plan] := by
  rw [closes.isAfter, Book.apply_periodBalances, closes.isWrites]
  rfl

theorem accounts_after : after.accounts = book.accounts := by
  rw [closes.isAfter, Book.apply_periodBalances, closes.isWrites]
  exact List.append_nil _

theorem isPosted_after (e : EntryRow) :
    after.isPosted e = (book.apply writes).isPosted e := by
  rw [closes.isAfter, Book.apply_periodBalances]
  rfl

theorem lastSeqOn_after (key : StripeKey) :
    after.lastSeqOn key = (book.apply writes).lastSeqOn key := by
  rw [closes.isAfter, Book.apply_periodBalances]
  rfl

/-- Afterwards they are all of them. -/
theorem entriesOf_after (kept : Kept book) :
    entriesOf after command.tenantId (env.transactionId 0) = writes.entries := by
  have noneOld : book.entries.filter
      (fun e => e.isOf command.tenantId (env.transactionId 0)) = [] := by
    rw [List.filter_eq_nil_iff]
    intro e member
    rw [kept.not_isOf closes.wrote.unknown e member]
    exact Bool.false_ne_true
  have allNew : writes.entries.filter
      (fun e => e.isOf command.tenantId (env.transactionId 0)) = writes.entries :=
    List.filter_eq_self.mpr fun e member =>
      EntryRow.isOf_iff.mpr ⟨(closes.wrote.belongs member).tenant.symm, (closes.wrote.belongs member).id.symm⟩
  change after.entries.filter (fun e => e.isOf command.tenantId (env.transactionId 0)) = _
  rw [closes.entries_after, List.filter_append, noneOld, allNew, List.nil_append]

/-- The closing transaction is posted, and the earlier ones are as they were. -/
theorem posted_new (kept : Kept book) {e : EntryRow} (member : e ∈ writes.entries) :
    after.isPosted e = true := by
  have isMine := closes.wrote.belongs member
  have found := (closes.lands.transaction?_apply kept closes.wrote.closing_mem).1
  rw [isMine.tenant, isMine.id] at found
  rw [closes.isPosted_after, Book.isPosted, Book.statusOf, found]
  rfl

theorem posted_old (kept : Kept book) {e : EntryRow} (member : e ∈ book.entries) :
    after.isPosted e = book.isPosted e := by
  rw [closes.isPosted_after]
  exact kept.isPosted_later (Book.Precedes.apply book writes) member

/-- Retained earnings' legs are numbered on from its counter, one a swept account. -/
theorem counter : ∃ stripe, stripeOf book env.stripeAffinity
      (command.tenantId, toLex (plan.retainedEarnings, command.currency)) = some stripe ∧
    (∀ e ∈ writes.entries, e.stripeKey = stripe ↔ e.accountId = plan.retainedEarnings) ∧
    (writes.entries.filter fun e => decide (e.accountId = plan.retainedEarnings)).map
        EntryRow.accountSeq =
      Numbering.countingFrom (book.lastSeqOn stripe) answer.swept.length ∧
    ∀ key : StripeKey, key.accountId = plan.retainedEarnings →
      after.lastSeqOn key =
        book.lastSeqOn key + if key = stripe then (answer.swept.length : Int) else 0 := by
  obtain ⟨account, isThere, ofTenant, isDestination, _, _, held⟩ := closes.fits.destination
  have known : (book.account? command.tenantId plan.retainedEarnings command.currency).isSome := by
    rw [Book.account?, List.find?_isSome]
    exact ⟨account, isThere, by simp [ofTenant, isDestination, held]⟩
  obtain ⟨found, isFound⟩ := Option.isSome_iff_exists.mp known
  have picked : stripeOf book env.stripeAffinity
      (command.tenantId, toLex (plan.retainedEarnings, command.currency)) =
        some ⟨found.tenantId, found.id, found.currency,
          env.stripeAffinity % found.stripeCount⟩ := by
    rw [stripeOf, ofLex_toLex, isFound]
    rfl
  generalize (⟨found.tenantId, found.id, found.currency,
    env.stripeAffinity % found.stripeCount⟩ : StripeKey) = stripe at picked
  have onStripe : ∀ e ∈ writes.entries,
      e.stripeKey = stripe ↔ e.accountId = plan.retainedEarnings := by
    intro e member
    obtain ⟨row, isRow, asRow⟩ := Tally.exists_left_of_forall₂ closes.wrote.landed member
    obtain ⟨tenant, _, _, isLeg⟩ := mem_closeLegRows isRow
    rw [asRow.stripeKey_eq_iff picked, asRow.accountId, LegRow.counterKey, Leg.key, tenant,
      (leg_account isLeg).1]
    simp
  have counted : (writes.entries.filter fun e =>
      decide (e.accountId = plan.retainedEarnings)).length = answer.swept.length := by
    have byLeg : (writes.entries.filter fun e =>
        decide (e.accountId = plan.retainedEarnings)).length =
          ((writes.entries.map EntryRow.leg).filter fun l : Leg =>
            decide (l.accountId = plan.retainedEarnings)).length := by
      rw [List.filter_map, List.length_map]
      rfl
    have noOut : (answer.swept.map (legOut command.currency)).filter
        (fun l : Leg => decide (l.accountId = plan.retainedEarnings)) = [] := by
      rw [List.filter_eq_nil_iff]
      intro l isOut
      obtain ⟨p, isSwept, rfl⟩ := List.mem_map.mp isOut
      rw [closes.swept] at isSwept
      exact fun same => sweptBy_apart isSwept (of_decide_eq_true same)
    have allIn : (answer.swept.map (legIn command.currency plan.retainedEarnings)).filter
        (fun l : Leg => decide (l.accountId = plan.retainedEarnings)) =
          answer.swept.map (legIn command.currency plan.retainedEarnings) :=
      List.filter_eq_self.mpr fun l isIn => by
        obtain ⟨p, _, rfl⟩ := List.mem_map.mp isIn
        exact decide_eq_true rfl
    rw [byLeg, (closes.legs_perm.filter _).length_eq, List.filter_append, noOut, allIn,
      List.nil_append, List.length_map]
  have sameEntries : writes.entriesOn stripe =
      writes.entries.filter fun e => decide (e.accountId = plan.retainedEarnings) :=
    List.filter_congr fun e member => by rw [decide_eq_decide]; exact onStripe e member
  refine ⟨stripe, picked, onStripe, ?_, fun key onAccount => ?_⟩
  · have numbers := closes.lands.numbers stripe
    rw [sameEntries, counted] at numbers
    exact numbers
  · rw [closes.lastSeqOn_after, Book.lastSeqOn_apply, closes.lands.counts]
    congr 1
    by_cases same : key = stripe
    · rw [if_pos same, same, sameEntries, counted]
    · have noEntry : writes.entriesOn key = [] := by
        refine List.filter_eq_nil_iff.mpr fun e member onKey => same ?_
        have isKey := of_decide_eq_true onKey
        have mine : e.accountId = plan.retainedEarnings := by
          rw [← onAccount, ← isKey]
          rfl
        exact isKey.symm.trans ((onStripe e member).mpr mine)
      rw [if_neg same, noEntry]
      rfl

/-! The checkpoint. -/

theorem periodBalances_after : after.periodBalances =
    book.periodBalances ++ storedBehind env book command plan writes := by
  rw [closes.isAfter, Book.apply_periodBalances, closes.isWrites]
  exact congrArg (· ++ _) (List.append_nil _)

/-- The rows stored under the close are the ones it stored. -/
theorem stored_iff (kept : Kept book) {row : PeriodBalanceRow} (ofClose :
    row.OfClose (closeRowOf env command plan)) :
    row ∈ after.periodBalances ↔ row ∈ storedBehind env book command plan writes := by
  rw [closes.periodBalances_after, List.mem_append]
  refine or_iff_right fun isOld => ?_
  obtain ⟨earlier, isThere, ofEarlier⟩ := kept.checkpointed row isOld
  exact closes.wrote.unclosed isThere ⟨ofEarlier.tenant.symm.trans ofClose.tenant,
    ofEarlier.code.symm.trans ofClose.code, ofEarlier.currency.symm.trans ofClose.currency⟩

/-- What the checkpoint summed is what the close claims. -/
theorem storedBehind_eq : storedBehind env book command plan writes =
    (closeRowOf env command plan).rowsIn after := by
  rw [storedBehind, checkpointRows_eq, closes.isAfter, Book.apply_periodBalances]
  rfl

/-- The stored checkpoint holds exactly what it claims. -/
theorem exact_after (kept : Kept book) : (closeRowOf env command plan).Exact after where
  sums := by
    intro row member ofClose
    rw [closes.stored_iff kept ofClose, closes.storedBehind_eq] at member
    exact (CloseRow.mem_rowsIn.mp member).2.2
  complete := by
    intro e member claimed
    refine ⟨⟨command.tenantId, command.periodCode, command.currency, e.accountId,
      claimedSide after (closeRowOf env command plan) .debit e.accountId,
      claimedSide after (closeRowOf env command plan) .credit e.accountId⟩, ?_,
      ⟨rfl, rfl, rfl⟩, rfl⟩
    refine (closes.stored_iff kept ⟨rfl, rfl, rfl⟩).mpr ?_
    rw [closes.storedBehind_eq]
    exact CloseRow.mem_rowsIn.mpr ⟨⟨rfl, rfl, rfl⟩, ⟨e, member, claimed, rfl⟩, rfl, rfl⟩

/-- With every earlier entry below its cursor, a close claims every posted entry
before its end. -/
theorem claims_eq (below : ∀ e ∈ book.entries, e.xactId < env.xid) (accountId : Uuid)
    {e : EntryRow} (member : e ∈ after.entries) :
    ((closeRowOf env command plan).claims after e && decide (e.accountId = accountId)) =
      after.postedBefore command.tenantId command.currency plan.endsAt accountId e := by
  have counted : e.xactId < env.xid ∨ e.transactionId = env.transactionId 0 := by
    rw [closes.entries_after] at member
    rcases List.mem_append.mp member with isOld | isNew
    · exact Or.inl (below e isOld)
    · exact Or.inr (closes.wrote.belongs isNew).id.symm
  rw [Bool.eq_iff_iff, Book.postedBefore_iff, Bool.and_eq_true, CloseRow.claims_iff,
    decide_eq_true_eq]
  constructor
  · rintro ⟨⟨ofTenant, ofCurrency, posted, before, _⟩, onAccount⟩
    exact ⟨ofTenant, ofCurrency, posted, before, onAccount⟩
  · rintro ⟨ofTenant, ofCurrency, posted, before, onAccount⟩
    exact ⟨⟨ofTenant, ofCurrency, posted, before, counted⟩, onAccount⟩

theorem claimedSide_eq (below : ∀ e ∈ book.entries, e.xactId < env.xid) (direction : Direction)
    (accountId : Uuid) :
    claimedSide after (closeRowOf env command plan) direction accountId =
      after.grossBefore command.tenantId command.currency plan.endsAt direction accountId :=
  Tally.sumWhere_congr (fun _ member => closes.claims_eq below accountId member)
    fun _ _ _ => rfl

/-- Behind the close a sum over an account before the end is what it was and what the
close added. -/
theorem sum_after (kept : Kept book) (amount : EntryRow → Int) (accountId : Uuid) :
    Tally.sumWhere (after.postedBefore command.tenantId command.currency plan.endsAt accountId)
        amount after.entries =
      Tally.sumWhere (book.postedBefore command.tenantId command.currency plan.endsAt accountId)
          amount book.entries +
        Tally.sumWhere (fun e : EntryRow => decide (e.accountId = accountId)) amount
          writes.entries := by
  rw [closes.entries_after, Tally.sumWhere_append]
  congr 1
  · refine Tally.sumWhere_congr (fun e member => ?_) fun _ _ _ => rfl
    rw [Book.postedBefore, Book.postedBefore, closes.posted_old kept member]
  · refine Tally.sumWhere_congr (fun e member => ?_) fun _ _ _ => rfl
    obtain ⟨ofTenant, ofCurrency⟩ := closes.wrote.ofCurrency member
    rw [Book.postedBefore, closes.posted_new kept member, decide_eq_true ofTenant,
      decide_eq_true ofCurrency, decide_eq_true (closes.wrote.dated member).2.2]
    rfl

/-- Behind the close an account's position before the end is what it was and what the
close moved. -/
theorem position_after (kept : Kept book) (accountId : Uuid) :
    after.positionBefore command.tenantId command.currency plan.endsAt accountId =
      book.positionBefore command.tenantId command.currency plan.endsAt accountId +
        Tally.sumWhere (fun e : EntryRow => decide (e.accountId = accountId)) EntryRow.signed
          writes.entries :=
  closes.sum_after kept EntryRow.signed accountId

/-- A swept account is at zero before the period's end. -/
theorem swept_to_zero (kept : Kept book) (below : ∀ e ∈ book.entries, e.xactId < env.xid)
    (permanent : book.isTemporaryAccount command.tenantId command.currency
      plan.retainedEarnings = false) {accountId : Uuid}
    (temporary : book.isTemporaryAccount command.tenantId command.currency accountId = true) :
    after.positionBefore command.tenantId command.currency plan.endsAt accountId = 0 := by
  have apart : accountId ≠ plan.retainedEarnings := by
    rintro rfl
    rw [permanent] at temporary
    cases temporary
  rw [closes.position_after kept, closes.wrote.moved apart, netOf_eq below,
    Book.sweeps_of_permanent permanent, if_pos temporary, add_neg_cancel]

end Closes

/-- The chart says retained earnings is equity. -/
def Chart.KeepsEarnings (chart : Chart) : Prop :=
  ∀ type, chart.type? "retained_earnings" = some type → type.category = .equity

theorem keepsEarnings_of_type {chart : Chart} {type : AccountType}
    (isRow : chart.type? "retained_earnings" = some type) (isEquity : type.category = .equity) :
    chart.KeepsEarnings := by
  intro other isType
  rw [isRow] at isType
  obtain rfl := Option.some.inj isType
  exact isEquity

/-- Under such a chart a close's destination is never swept. -/
theorem permanent_of_fits {book : Book} {command : ClosePeriod} {plan : ClosePlan}
    (fits : PlanFits book command plan) (kept : Kept book)
    (keepsEarnings : book.chart.KeepsEarnings) :
    book.isTemporaryAccount command.tenantId command.currency plan.retainedEarnings = false := by
  obtain ⟨account, isThere, ofTenant, isDestination, purpose, _, _⟩ := fits.destination
  rw [Book.isTemporaryAccount]
  cases isFound : book.account? command.tenantId plan.retainedEarnings command.currency with
  | none =>
      rfl
  | some found =>
      obtain ⟨isMember, tenant, id, _⟩ := account?_spec isFound
      have same : found = account := by
        refine UniqueIndex.holds_eq kept.pkAccounts isMember isThere rfl ?_
        rw [AccountRow.primaryKey, tenant, id, ofTenant.symm, isDestination.symm]
      obtain ⟨type, isType, category, _, _⟩ := (kept.charted account isThere).typed
      rw [purpose] at isType
      rw [same, Option.any_some, category, keepsEarnings type isType]
      rfl

/-- What an accepted close did with nobody beside it: the positions it swept, the
closing transaction, retained earnings' counter, and the checkpoint. -/
structure ClosedExactly (before after : Book) (command : ClosePeriod) (answer : PeriodClosed)
    (period : PeriodRow) (retainedEarnings : Uuid) : Prop where
  isPeriod : period ∈ before.periods ∧ period.tenantId = command.tenantId ∧
    period.code = command.periodCode
  destination : ∃ account ∈ before.accounts, account.tenantId = command.tenantId ∧
    account.id = retainedEarnings ∧ account.purpose = "retained_earnings" ∧
    account.ownerType = .house ∧ account.currency = command.currency
  swept : ∀ p, p ∈ answer.swept ↔
    before.isTemporaryAccount command.tenantId command.currency p.accountId = true ∧
      p.positionMinor = before.positionBefore command.tenantId command.currency period.endsAt
        p.accountId ∧ p.positionMinor ≠ 0
  inOrder : (answer.swept.map SweptPosition.accountId).Pairwise (· < ·)
  legs : ((entriesOf after command.tenantId answer.transactionId).map EntryRow.leg).Perm
    (answer.swept.map (legOut command.currency) ++
      answer.swept.map (legIn command.currency retainedEarnings))
  dated : ∀ e ∈ entriesOf after command.tenantId answer.transactionId,
    period.startsAt ≤ e.effectiveAt ∧ e.effectiveAt < period.endsAt
  counter : ∃ stripe : StripeKey,
    (∀ e ∈ entriesOf after command.tenantId answer.transactionId,
      e.stripeKey = stripe ↔ e.accountId = retainedEarnings) ∧
    ((entriesOf after command.tenantId answer.transactionId).filter fun e =>
        decide (e.accountId = retainedEarnings)).map EntryRow.accountSeq =
      Numbering.countingFrom (before.lastSeqOn stripe) answer.swept.length ∧
    ∀ key : StripeKey, key.accountId = retainedEarnings → after.lastSeqOn key =
      before.lastSeqOn key + if key = stripe then (answer.swept.length : Int) else 0
  stored : ∀ row ∈ after.periodBalances, row.tenantId = command.tenantId →
    row.periodCode = command.periodCode → row.currency = command.currency →
      row.input = after.grossBefore command.tenantId command.currency period.endsAt .debit
        row.accountId ∧
      row.output = after.grossBefore command.tenantId command.currency period.endsAt .credit
        row.accountId
  complete : ∀ accountId, ∀ e ∈ after.entries,
    after.postedBefore command.tenantId command.currency period.endsAt accountId e = true →
      ∃ row ∈ after.periodBalances, row.tenantId = command.tenantId ∧
        row.periodCode = command.periodCode ∧ row.currency = command.currency ∧
        row.accountId = accountId
  zeroed : ∀ row ∈ after.periodBalances, row.tenantId = command.tenantId →
    row.periodCode = command.periodCode → row.currency = command.currency →
      before.isTemporaryAccount command.tenantId command.currency row.accountId = true →
        row.input = row.output

/-- A close alone, over entries of earlier writers only. -/
theorem Closes.exactly {sha256 : List UInt8 → List UInt8} {env : Env} {book after : Book}
    {command : ClosePeriod} {plan : ClosePlan} {answer : PeriodClosed} {writes : Writes}
    (closes : Closes sha256 env book command plan answer writes after) (kept : Kept book)
    (below : ∀ e ∈ book.entries, e.xactId < env.xid)
    (keepsEarnings : book.chart.KeepsEarnings) :
    ∃ period, ClosedExactly book after command answer period plan.retainedEarnings := by
  have permanent := permanent_of_fits closes.fits kept keepsEarnings
  obtain ⟨period, isPeriod, ofTenant, ofCode, starts, ends⟩ := closes.fits.period
  have entries : entriesOf after command.tenantId answer.transactionId = writes.entries := by
    rw [closes.transactionId]
    exact closes.entriesOf_after kept
  have stored : ∀ row ∈ after.periodBalances, row.tenantId = command.tenantId →
      row.periodCode = command.periodCode → row.currency = command.currency →
        row.input = after.grossBefore command.tenantId command.currency period.endsAt .debit
          row.accountId ∧
        row.output = after.grossBefore command.tenantId command.currency period.endsAt .credit
          row.accountId := by
    intro row member tenant code currency
    obtain ⟨input, output⟩ := (closes.exact_after kept).sums row member ⟨tenant, code, currency⟩
    rw [input, output, closes.claimedSide_eq below, closes.claimedSide_eq below, ends]
    exact ⟨rfl, rfl⟩
  refine ⟨period, ?_⟩
  exact
  { isPeriod := ⟨isPeriod, ofTenant, ofCode⟩
    destination := closes.fits.destination
    swept := fun p => by
      rw [closes.swept, sweptBy, mem_position, netOf_eq below,
        Book.sweeps_of_permanent permanent, ends]
      by_cases temporary : book.isTemporaryAccount command.tenantId command.currency
          p.accountId = true
      · rw [if_pos temporary]
        exact ⟨fun both => ⟨temporary, both⟩, fun all => all.2⟩
      · rw [if_neg temporary]
        exact ⟨fun both => absurd both.1 both.2, fun all => absurd all.1 temporary⟩
    inOrder := by
      rw [closes.swept]
      exact position_ascends
    legs := by
      rw [entries]
      exact closes.legs_perm
    dated := fun e member => by
      rw [entries] at member
      rw [starts, ends]
      exact (closes.wrote.dated member).2
    counter := by
      rw [entries]
      obtain ⟨stripe, _, onStripe, numbered, advanced⟩ := closes.counter
      exact ⟨stripe, onStripe, numbered, advanced⟩
    stored := stored
    complete := fun accountId e member before => by
      rw [ends, ← closes.claims_eq below accountId member, Bool.and_eq_true,
        decide_eq_true_eq] at before
      obtain ⟨row, isRow, ofClose, onAccount⟩ :=
        (closes.exact_after kept).complete e member before.1
      exact ⟨row, isRow, ofClose.tenant, ofClose.code, ofClose.currency,
        onAccount.trans before.2⟩
    zeroed := fun row member tenant code currency temporary => by
      obtain ⟨input, output⟩ := stored row member tenant code currency
      have zero := closes.swept_to_zero kept below permanent temporary
      rw [Book.positionBefore_eq, ← ends] at zero
      rw [input, output]
      exact Int.eq_of_sub_eq_zero zero }

/-- In every book a run reaches, under a chart that keeps retained earnings in equity,
an accepted close with nobody beside it did exactly what it claims. -/
theorem uncontended_close_is_exact {sha256 : List UInt8 → List UInt8} {chart : Chart}
    (keepsEarnings : chart.KeepsEarnings) {book : Book} {next : Xid}
    (reachable : Reachable sha256 chart book next) (env : Env) (assigned : next ≤ env.xid)
    (command : ClosePeriod) (answer : PeriodClosed)
    (accepted : ((Operation.closePeriod command).perform sha256 env book).1 =
      .closed (.ok answer)) :
    ∃ period retainedEarnings, ClosedExactly book
      ((Operation.closePeriod command).perform sha256 env book).2 command answer period
      retainedEarnings := by
  have kept := kept_of_reachable reachable
  obtain ⟨plan, writes, closes⟩ := closes_of_accepted accepted
  have below : ∀ e ∈ book.entries, e.xactId < env.xid := fun e member =>
    (entries_below reachable e member).trans_le assigned
  have isChart : book.chart.KeepsEarnings := by
    rw [chart_of_reachable reachable]
    exact keepsEarnings
  obtain ⟨period, exactly_⟩ := closes.exactly kept below isChart
  exact ⟨period, plan.retainedEarnings, exactly_⟩

namespace Shop

theorem chart_keepsEarnings : chart.KeepsEarnings := by
  have isRow : chart.type? "retained_earnings" =
      some ⟨"retained_earnings", .equity, .credit, .none⟩ := by decide
  exact keepsEarnings_of_type isRow rfl

/-- A fee inside the period, and its close. -/
def feeInPeriod : List (Operation × Env) := opened ++ [
  (period "first" 0 1000000, envOf 4),
  (.post (command "fee" 1000 .posted none 70), envOf 5)]

def feeClosed : PeriodClosed :=
  ⟨uuid 6000, uuid 6100, "first", "USD", 999, 6, [⟨fees, -70⟩], 3⟩

/-- The shop's chart with an expense beside the fees. -/
def wideChart : Chart where
  types := chart.types ++ [⟨"charges", .expense, .debit, .none⟩]
  codesNodup := by decide

theorem wideChart_keepsEarnings : wideChart.KeepsEarnings := by
  have isRow : wideChart.type? "retained_earnings" =
      some ⟨"retained_earnings", .equity, .credit, .none⟩ := by decide
  exact keepsEarnings_of_type isRow rfl

def charges : Uuid := uuid 4

/-- A charge paid from the till. -/
def chargeOf (amount : Int64) : PostTransaction :=
  (PostTransaction.new "shop" "charge" (some ⟨2000, 0⟩) .posted none none
    [(Posting.new till charges amount "USD").toOption.getD oneCent]).toOption.getD firstFee

/-- A fee and a charge inside the period. -/
def chargeInPeriod : List (Operation × Env) := opened ++ [
  (opening "charges" "charges", envOf 4),
  (period "first" 0 1000000, envOf 5),
  (.post (command "fee" 1000 .posted none 70), envOf 6),
  (.post (chargeOf 20), envOf 7)]

def chargeBook : Book := performAll id chargeInPeriod (Book.empty wideChart)

/-- The book after the period's close. -/
def chargeClosed : Book :=
  ((Operation.closePeriod firstClose).perform id (envOf 8) chargeBook).2

def bothSwept : PeriodClosed :=
  ⟨uuid 8000, uuid 8100, "first", "USD", 999, 8, [⟨fees, -70⟩, ⟨charges, 20⟩], 4⟩

/-- The close sweeps the fees and the charges, and retained earnings takes a leg for
each. -/
theorem chargeClosed_is_exact :
    ((chargeClosed.entries.filter fun e => decide (e.xactId = 8)).map fun e =>
        (e.accountId, e.direction, e.amountMinor, e.accountSeq)) =
      [(fees, .debit, 70, 2), (charges, .credit, 20, 2), (retainedEarnings, .credit, 70, 1),
        (retainedEarnings, .debit, 20, 2)] ∧
      ∃ period retainedEarnings,
        ClosedExactly chargeBook chargeClosed firstClose bothSwept period retainedEarnings := by
  have answered : ((Operation.closePeriod firstClose).perform id (envOf 8)
      chargeBook).1.closed? = some bothSwept := by
    decide +kernel
  have reachable : Reachable id wideChart chargeBook (nextAfter chargeInPeriod 0) :=
    Reachable.empty.performAll (by decide)
  exact ⟨by decide +kernel, uncontended_close_is_exact wideChart_keepsEarnings reachable (envOf 8)
    (by decide) firstClose bothSwept (Outcome.eq_of_closed? answered)⟩

end Shop

end OpenLedger
