import OpenLedger.Reports.Articulation
import OpenLedger.Reports.Disclosures

/-!
# No movement is swept twice

A sweep has no lower bound of its own: it moves whatever earlier closes left before
its period's end.  While the closes of a tenant and currency come in the order of
their ends, each leaves every temporary account at zero, and together they move what
they read into retained earnings once.  A close that comes behind a later period's
sweeps again what that one had swept.
-/

namespace OpenLedger

open Postgres

namespace Book

/-- Whether an account keeps the earnings of its currency. -/
def isEarningsAccount (book : Book) (tenantId currency : String) (accountId : Uuid) : Bool :=
  (book.account? tenantId accountId currency).any fun account =>
    decide (account.purpose = "retained_earnings")

/-- The legs of a tenant's closes in a currency. -/
def isSweepLeg (book : Book) (tenantId currency : String) (e : EntryRow) : Bool :=
  decide (e.tenantId = tenantId) && decide (e.currency = currency) && isClosingLeg book e

end Book

/-- What an account is left at before a close's end, of the entries the close read and
of the legs of every close. -/
def positionLeft (book : Book) (c : CloseRow) (accountId : Uuid) : Int :=
  Tally.sumWhere (fun e => (c.reads book e ||
      book.isSweepLeg c.tenantId c.currency e && decide (e.effectiveAt < c.endsAt)) &&
    decide (e.accountId = accountId)) EntryRow.signed book.entries

/-- Whether some close of a tenant and currency read an entry no close wrote. -/
def Book.isSwept (book : Book) (tenantId currency : String) (e : EntryRow) : Bool :=
  (book.closes.any fun c => decide (c.tenantId = tenantId) && decide (c.currency = currency) &&
    c.reads book e) && !isClosingLeg book e

/-- What the closes of a tenant and currency did together: each left the temporary
accounts at zero, an account's movement left it once, all of them arrived in retained
earnings once, and no view of the closes objects. -/
structure SweptOnce (book : Book) : Prop where
  zeroed : ∀ c ∈ book.closes, ∀ accountId,
    book.isTemporaryAccount c.tenantId c.currency accountId = true →
      positionLeft book c accountId = 0
  once : ∀ tenantId currency accountId,
    book.isTemporaryAccount tenantId currency accountId = true →
      Tally.sumWhere (fun e => book.isSweepLeg tenantId currency e &&
          decide (e.accountId = accountId)) EntryRow.signed book.entries =
        -Tally.sumWhere (fun e => book.isSwept tenantId currency e &&
          decide (e.accountId = accountId)) EntryRow.signed book.entries
  earned : ∀ tenantId currency,
    Tally.sumWhere (fun e => book.isSweepLeg tenantId currency e &&
        book.isEarningsAccount tenantId currency e.accountId) EntryRow.signed book.entries =
      Tally.sumWhere (fun e => book.isSwept tenantId currency e &&
        book.isTemporaryAccount tenantId currency e.accountId) EntryRow.signed book.entries
  unbroken : ∀ xmax, (∀ x ∈ book.transactions, x.xactId < xmax) → reconCloseBreaks book xmax = []

/-- Whether a close comes behind the tenant's others in its currency: its period is
closed already, or ends after every period that is. -/
def ClosePeriod.EndsLast (book : Book) (command : ClosePeriod) : Prop :=
  (∃ c ∈ book.closes, c.IsOf command) ∨
    ∀ period ∈ book.periods, period.tenantId = command.tenantId →
      period.code = command.periodCode → ∀ c ∈ book.closes, c.tenantId = command.tenantId →
        c.currency = command.currency → c.endsAt < period.endsAt

instance (book : Book) (command : ClosePeriod) : Decidable (command.EndsLast book) :=
  inferInstanceAs (Decidable (_ ∨ _))

/-- Whether an operation closes nothing, or closes behind the tenant's other closes. -/
def Operation.EndsLast (book : Book) : Operation → Prop
  | .closePeriod command => command.EndsLast book
  | _ => True

instance (book : Book) : (operation : Operation) → Decidable (operation.EndsLast book)
  | .closePeriod command => inferInstanceAs (Decidable (command.EndsLast book))
  | .post _ | .postBatch _ | .openAccount _ | .definePeriod _ => .isTrue trivial

/-- The books of the runs whose every close comes behind the ones before it. -/
inductive ReachableInOrder (sha256 : List UInt8 → List UInt8) (chart : Chart) :
    Book → Xid → Prop where
  | empty : ReachableInOrder sha256 chart (Book.empty chart) 0
  | perform {book : Book} {next : Xid} (reachable : ReachableInOrder sha256 chart book next)
      (operation : Operation) (env : Env) (assigned : next ≤ env.xid)
      (inOrder : operation.EndsLast book) :
      ReachableInOrder sha256 chart (operation.perform sha256 env book).2 (env.xid + 1)

/-- What a run without rivals keeps of its sweeps: a close's claims leave every temporary
account at zero, and its legs are on temporary accounts and on retained earnings. -/
structure Book.SweptAlone (book : Book) : Prop where
  zeroed : ∀ k ∈ book.closes, ∀ accountId,
    book.isTemporaryAccount k.tenantId k.currency accountId = true →
      Tally.sumWhere (fun e => k.claims book e && decide (e.accountId = accountId))
        EntryRow.signed book.entries = 0
  placed : ∀ e ∈ book.entries, isClosingLeg book e = true →
    book.isTemporaryAccount e.tenantId e.currency e.accountId = true ∨
      book.isEarningsAccount e.tenantId e.currency e.accountId = true

/-! ## What a run keeps -/

section Runs

variable {sha256 : List UInt8 → List UInt8} {chart : Chart} {book later : Book} {k : CloseRow}

/-- The account of an entry is the one it was. -/
theorem Kept.account?_entry (kept : Kept book) (precedes : book.Precedes later) {e : EntryRow}
    (member : e ∈ book.entries) : later.account? e.tenantId e.accountId e.currency =
      book.account? e.tenantId e.accountId e.currency := by
  obtain ⟨account, found⟩ := Option.isSome_iff_exists.mp (kept.onAccount e member)
  rw [found]
  exact precedes.account? found

/-- A closing leg names its close. -/
theorem isClosingLeg_iff_close {e : EntryRow} :
    isClosingLeg book e = true ↔
      ∃ c ∈ book.closes, c.tenantId = e.tenantId ∧ c.transactionId = e.transactionId := by
  simp only [isClosingLeg, List.any_eq_true, Bool.and_eq_true, decide_eq_true_eq]

/-- What lands later is no leg of a close that was there. -/
theorem Lands.not_leg {writes : Writes} (kept : Kept book) (lands : Lands book writes)
    (member : k ∈ book.closes) {e : EntryRow} (isNew : e ∈ writes.entries)
    (ofTenant : k.tenantId = e.tenantId) : k.transactionId ≠ e.transactionId := by
  obtain ⟨x, isThere, closedBy⟩ := kept.closed k member
  have apart := lands.entry_apart isNew isThere (ofTenant.symm.trans closedBy.tenant.symm)
  rw [closedBy.id] at apart
  exact apart.symm

/-- What is added, and not claimed, leaves a close's accounts where they were. -/
theorem zeroed_later (kept : Kept book) (precedes : book.Precedes later)
    {entries : List EntryRow} (isEntries : later.entries = book.entries ++ entries)
    (unclaimed : ∀ e ∈ entries, k.claims later e = false)
    (was : ∀ accountId, book.isTemporaryAccount k.tenantId k.currency accountId = true →
      Tally.sumWhere (fun e => k.claims book e && decide (e.accountId = accountId))
        EntryRow.signed book.entries = 0) {accountId : Uuid}
    (temporary : later.isTemporaryAccount k.tenantId k.currency accountId = true) :
    Tally.sumWhere (fun e => k.claims later e && decide (e.accountId = accountId))
      EntryRow.signed later.entries = 0 := by
  have noNew : Tally.sumWhere (fun e => k.claims later e && decide (e.accountId = accountId))
      EntryRow.signed entries = 0 :=
    Tally.sumWhere_eq_zero fun e member => by rw [unclaimed e member, Bool.false_and]
  have sameOld : Tally.sumWhere (fun e => k.claims later e && decide (e.accountId = accountId))
      EntryRow.signed book.entries =
        Tally.sumWhere (fun e => k.claims book e && decide (e.accountId = accountId))
          EntryRow.signed book.entries := by
    refine Tally.sumWhere_congr (fun e member => ?_) fun _ _ _ => rfl
    have sameClaims : k.claims later e = k.claims book e := by
      rw [Bool.eq_iff_iff, CloseRow.claims_iff, CloseRow.claims_iff,
        kept.isPosted_later precedes member]
    rw [sameClaims]
  rw [isEntries, Tally.sumWhere_append, noNew, add_zero, sameOld]
  by_cases entered : ∃ e ∈ book.entries, k.claims book e = true ∧ e.accountId = accountId
  · obtain ⟨e, member, claimed, rfl⟩ := entered
    obtain ⟨ofTenant, ofCurrency, _⟩ := CloseRow.claims_iff.mp claimed
    refine was e.accountId ?_
    rw [← ofTenant, ← ofCurrency, Book.isTemporaryAccount] at temporary ⊢
    rw [kept.account?_entry precedes member] at temporary
    exact temporary
  · refine Tally.sumWhere_eq_zero fun e member => ?_
    rw [Bool.eq_false_iff]
    intro both
    rw [Bool.and_eq_true, decide_eq_true_eq] at both
    exact entered ⟨e, member, both⟩

namespace Book.SweptAlone

variable (was : book.SweptAlone)

include was

/-- The legs that were there are where they were. -/
theorem placed_later (kept : Kept book) (precedes : book.Precedes later) {e : EntryRow}
    (member : e ∈ book.entries) (isLeg : isClosingLeg book e = true) :
    later.isTemporaryAccount e.tenantId e.currency e.accountId = true ∨
      later.isEarningsAccount e.tenantId e.currency e.accountId = true := by
  rw [Book.isTemporaryAccount, Book.isEarningsAccount, kept.account?_entry precedes member]
  exact was.placed e member isLeg

/-- A bracket that closes nothing keeps every sweep as it was. -/
theorem bracket {writes : Writes} {xid : Xid} (kept : Kept book) (lands : Lands book writes)
    (isOpen : writes.Open xid) (below : ∀ k ∈ book.closes, k.computedAtXid < xid) :
    (book.apply writes).SweptAlone := by
  have precedes := Book.Precedes.apply book writes
  have sameCloses : (book.apply writes).closes = book.closes := by
    rw [Book.closes_apply, isOpen.closes, List.append_nil]
  constructor
  · intro k member accountId temporary
    rw [sameCloses] at member
    exact zeroed_later kept precedes rfl
      (unclaimed_of_lands kept lands isOpen.own member (below k member)) (was.zeroed k member)
      temporary
  · intro e isEntry isLeg
    obtain ⟨c, isClose, ofTenant, isMine⟩ := isClosingLeg_iff_close.mp isLeg
    rw [sameCloses] at isClose
    rcases List.mem_append.mp isEntry with isOld | isNew
    · exact was.placed_later kept precedes isOld
        (isClosingLeg_iff_close.mpr ⟨c, isClose, ofTenant, isMine⟩)
    · exact absurd isMine (lands.not_leg kept isClose isNew ofTenant)

/-- An accepted close leaves every temporary account at zero before its end. -/
theorem closed {env : Env} {command : ClosePeriod} {plan : ClosePlan} {answer : PeriodClosed}
    {writes : Writes} (closes : Closes sha256 env book command plan answer writes later)
    (kept : Kept book) (entriesBelow : ∀ e ∈ book.entries, e.xactId < env.xid)
    (below : ∀ k ∈ book.closes, k.computedAtXid < env.xid)
    (permanent : book.isTemporaryAccount command.tenantId command.currency
      plan.retainedEarnings = false) : later.SweptAlone := by
  have own := closes.wrote.own
  have sameAccounts : ∀ accountId, later.account? command.tenantId accountId command.currency =
      book.account? command.tenantId accountId command.currency := by
    intro accountId
    rw [Book.account?, Book.account?, closes.accounts_after]
  constructor
  · intro k member accountId temporary
    rw [closes.closes_after] at member
    rcases List.mem_append.mp member with isOld | isNew
    · exact zeroed_later kept closes.precedes_after closes.entries_after
        (unclaimed_of_lands kept closes.lands own isOld (below k isOld)) (was.zeroed k isOld)
        temporary
    · obtain rfl := List.mem_singleton.mp isNew
      rw [Book.isTemporaryAccount] at temporary
      change (later.account? command.tenantId accountId command.currency).any _ = true at temporary
      rw [sameAccounts] at temporary
      rw [← closes.swept_to_zero kept entriesBelow permanent temporary, Book.positionBefore]
      exact Tally.sumWhere_congr
        (fun e isEntry => closes.claims_eq entriesBelow accountId isEntry) fun _ _ _ => rfl
  · intro e isEntry isLeg
    rw [closes.entries_after] at isEntry
    rcases List.mem_append.mp isEntry with isOld | isNew
    · obtain ⟨c, isClose, ofTenant, isMine⟩ := isClosingLeg_iff_close.mp isLeg
      rw [closes.closes_after] at isClose
      rcases List.mem_append.mp isClose with wasClosed | isNew
      · exact was.placed_later kept closes.precedes_after isOld
          (isClosingLeg_iff_close.mpr ⟨c, wasClosed, ofTenant, isMine⟩)
      · obtain rfl := List.mem_singleton.mp isNew
        have isOne : e.isOf command.tenantId (env.transactionId 0) = true :=
          EntryRow.isOf_iff.mpr ⟨ofTenant.symm, isMine.symm⟩
        rw [kept.not_isOf closes.wrote.unknown e isOld] at isOne
        cases isOne
    · obtain ⟨ofTenant, ofCurrency⟩ := closes.wrote.ofCurrency isNew
      rw [Book.isTemporaryAccount, Book.isEarningsAccount, ofTenant, ofCurrency, sameAccounts]
      have isLanded := closes.legs_perm.mem_iff.mp (List.mem_map_of_mem (f := EntryRow.leg) isNew)
      rcases List.mem_append.mp isLanded with isOut | isIn
      · -- out of an account the close swept
        obtain ⟨p, isSwept, isP⟩ := List.mem_map.mp isOut
        have onAccount : p.accountId = e.accountId := congrArg Leg.accountId isP
        rw [closes.swept, sweptBy, mem_position, netOf_eq entriesBelow,
          Book.sweeps_of_permanent permanent, onAccount] at isSwept
        refine Or.inl ?_
        by_contra permanent
        rw [Book.isTemporaryAccount, if_neg permanent] at isSwept
        exact isSwept.2 isSwept.1
      · -- into the destination
        obtain ⟨p, _, isP⟩ := List.mem_map.mp isIn
        have onAccount : plan.retainedEarnings = e.accountId := congrArg Leg.accountId isP
        obtain ⟨account, isThere, isTenant, isDestination, purpose, _, inCurrency⟩ :=
          closes.fits.destination
        have found := account?_of_mem kept isThere
        rw [isTenant, isDestination, inCurrency, onAccount] at found
        rw [found]
        exact Or.inr (decide_eq_true purpose)

end Book.SweptAlone

/-- Every book a run reaches was swept alone, under a chart that keeps retained earnings in
equity. -/
theorem sweptAlone_of_reachable (keepsEarnings : chart.KeepsEarnings) {next : Xid}
    (reachable : Reachable sha256 chart book next) : book.SweptAlone := by
  induction reachable with
  | empty =>
      exact ⟨fun _ member => absurd member List.not_mem_nil,
        fun _ member => absurd member List.not_mem_nil⟩
  | @perform book next reachable operation env assigned was =>
      have kept := kept_of_reachable reachable
      have below : ∀ k ∈ book.closes, k.computedAtXid < env.xid := fun k member =>
        (computedAtXid_below kept (transactions_below reachable) member).trans_le assigned
      cases isClose : operation.isClose with
      | false =>
          have landed := landed_open sha256 isClose env kept
          exact (landed.invariant (fun held => held.bracket) below was).1
      | true =>
          cases operation with
          | closePeriod command =>
              rcases perform_close_cases sha256 env book command with same | ⟨answer, accepted⟩
              · rw [same]
                exact was
              · obtain ⟨plan, writes, closes⟩ := closes_of_accepted accepted
                have isChart : book.chart.KeepsEarnings := by
                  rw [chart_of_reachable reachable]
                  exact keepsEarnings
                exact was.closed closes kept
                  (fun e member => (entries_below reachable e member).trans_le assigned) below
                  (permanent_of_fits closes.fits kept isChart)
          | _ =>
              cases isClose

/-- Whether every close of a run comes behind the ones before it. -/
def EachEndsLast (sha256 : List UInt8 → List UInt8) : List (Operation × Env) → Book → Prop
  | [], _ => True
  | operation :: operations, book =>
      operation.1.EndsLast book ∧
        EachEndsLast sha256 operations (operation.1.perform sha256 operation.2 book).2

instance EachEndsLast.decidable (sha256 : List UInt8 → List UInt8)
    (operations : List (Operation × Env)) (book : Book) :
    Decidable (EachEndsLast sha256 operations book) :=
  match operations with
  | [] => .isTrue trivial
  | operation :: operations =>
      haveI := EachEndsLast.decidable sha256 operations
        (operation.1.perform sha256 operation.2 book).2
      inferInstanceAs (Decidable (_ ∧ _))

theorem ReachableInOrder.performAll {next : Xid}
    (reachable : ReachableInOrder sha256 chart book next) {operations : List (Operation × Env)}
    (ascending : Ascending operations next) (inOrder : EachEndsLast sha256 operations book) :
    ReachableInOrder sha256 chart (performAll sha256 operations book)
      (nextAfter operations next) := by
  induction operations generalizing book next with
  | nil =>
      exact reachable
  | cons operation operations inductionHypothesis =>
      exact inductionHypothesis
        (reachable.perform operation.1 operation.2 ascending.1 inOrder.1) ascending.2 inOrder.2

/-- A run in order is a run. -/
theorem ReachableInOrder.reachable {next : Xid}
    (inOrder : ReachableInOrder sha256 chart book next) : Reachable sha256 chart book next := by
  induction inOrder with
  | empty =>
      exact .empty
  | perform _ operation env assigned _ was =>
      exact was.perform operation env assigned

/-- Its closes stand in the order of their ends. -/
theorem ReachableInOrder.closedInOrder {next : Xid}
    (inOrder : ReachableInOrder sha256 chart book next) : book.ClosedInOrder := by
  induction inOrder with
  | empty =>
      exact List.Pairwise.nil
  | @perform book next before operation env assigned last was =>
      have kept := kept_of_reachable before.reachable
      cases isClose : operation.isClose with
      | false =>
          have landed := landed_open sha256 isClose env kept
          have below : ∀ k ∈ book.closes, k.computedAtXid < env.xid := fun k member =>
            (computedAtXid_below kept (transactions_below before.reachable) member).trans_le
              assigned
          have same := (@Landed.invariant book (fun _ => True) _ _ (fun _ _ _ _ _ => trivial)
            below trivial landed).2
          rw [Book.ClosedInOrder, same]
          exact was
      | true =>
          cases operation with
          | closePeriod command =>
              rcases perform_close_cases sha256 env book command with same | ⟨answer, accepted⟩
              · rw [same]
                exact was
              · obtain ⟨plan, writes, closes⟩ := closes_of_accepted accepted
                have behind : ∀ c ∈ book.closes, c.tenantId = command.tenantId →
                    c.currency = command.currency → c.endsAt < plan.endsAt := by
                  obtain ⟨period, isPeriod, ofTenant, ofCode, _, ends⟩ := closes.fits.period
                  rw [← ends]
                  rcases last with ⟨c, isClosed, isOf⟩ | behind
                  · exact absurd isOf (closes.wrote.unclosed isClosed)
                  · exact behind period isPeriod ofTenant ofCode
                rw [Book.ClosedInOrder, closes.closes_after, List.pairwise_append]
                refine ⟨was, List.pairwise_singleton _ _, fun c isOld new isNew => ?_⟩
                rw [List.mem_singleton.mp isNew]
                exact behind c isOld
          | _ =>
              cases isClose

end Runs

/-! ## The closes of one currency -/

section Together

variable {book : Book} {c : CloseRow} {tenantId currency : String}

theorem Book.isSweepLeg_iff {e : EntryRow} : book.isSweepLeg tenantId currency e = true ↔
    e.tenantId = tenantId ∧ e.currency = currency ∧ isClosingLeg book e = true := by
  simp only [Book.isSweepLeg, Bool.and_eq_true, decide_eq_true_eq, and_assoc]

theorem Book.isSwept_iff {e : EntryRow} : book.isSwept tenantId currency e = true ↔
    (∃ c ∈ book.closes, c.tenantId = tenantId ∧ c.currency = currency ∧
      c.reads book e = true) ∧ isClosingLeg book e = false := by
  simp only [Book.isSwept, Bool.and_eq_true, Bool.not_eq_true', List.any_eq_true,
    decide_eq_true_eq, and_assoc]

/-- A leg of a close carries its writer and its date, and is posted. -/
theorem Book.ClosedAlone.leg (alone : book.ClosedAlone) (kept : Kept book)
    (member : c ∈ book.closes) {e : EntryRow} (isEntry : e ∈ book.entries)
    (ofTenant : e.tenantId = c.tenantId) (isMine : e.transactionId = c.transactionId) :
    e.xactId = c.computedAtXid ∧ e.effectiveAt < c.endsAt ∧ e.currency = c.currency ∧
      book.isPosted e = true := by
  obtain ⟨isWriter, isDate⟩ := kept.leg_of_close member isEntry ofTenant isMine
  have inCurrency := alone.ofCurrency c member e isEntry ofTenant isMine
  obtain ⟨x, isThere, belongs⟩ := kept.belongs e isEntry
  have isLeg : isClosingLeg book e = true :=
    isClosingLeg_iff_close.mpr ⟨c, member, ofTenant.symm, isMine.symm⟩
  have posted := isPosted_of_closing kept isThere belongs
    ((isClosingLeg_iff kept isThere belongs).mp isLeg)
  have before : e.effectiveAt < c.endsAt := by
    rw [isDate, alone.dated c member]
    exact Int.sub_lt_self _ Int.one_pos
  exact ⟨isWriter, before, inCurrency, posted⟩

variable (kept : Kept book) (alone : book.ClosedAlone) (inOrder : book.ClosedInOrder)

include kept alone inOrder

/-- What a close claims is what it read and every close's legs before its end. -/
theorem claims_eq_left (member : c ∈ book.closes) {e : EntryRow} (isEntry : e ∈ book.entries) :
    (c.reads book e || book.isSweepLeg c.tenantId c.currency e && decide (e.effectiveAt < c.endsAt)) =
      c.claims book e := by
  rw [Bool.eq_iff_iff, Bool.or_eq_true, Bool.and_eq_true, decide_eq_true_eq, CloseRow.reads_iff,
    Book.isSweepLeg_iff, CloseRow.claims_iff]
  constructor
  · rintro (⟨ofTenant, ofCurrency, posted, before, below⟩ | ⟨⟨ofTenant, ofCurrency, isLeg⟩, before⟩)
    · exact ⟨ofTenant, ofCurrency, posted, before, Or.inl below⟩
    · obtain ⟨k, isClose, sameTenant, sameId⟩ := isClosingLeg_iff_close.mp isLeg
      have posted := (alone.leg kept isClose isEntry sameTenant.symm sameId.symm).2.2.2
      refine ⟨ofTenant, ofCurrency, posted, before, ?_⟩
      by_contra apart
      push Not at apart
      have noLeg := no_leg_between kept alone inOrder member isEntry ofTenant ofCurrency before
        apart.1 apart.2
      rw [isLeg] at noLeg
      cases noLeg
  · rintro ⟨ofTenant, ofCurrency, posted, before, below | isMine⟩
    · exact Or.inl ⟨ofTenant, ofCurrency, posted, before, below⟩
    · refine Or.inr ⟨⟨ofTenant, ofCurrency, ?_⟩, before⟩
      exact isClosingLeg_iff_close.mpr ⟨c, member, ofTenant.symm, isMine.symm⟩

omit kept in
/-- Either nothing of a tenant and currency is closed, or one of its closes comes behind
all others. -/
theorem last_close (tenantId currency : String) :
    (∀ c ∈ book.closes, c.tenantId = tenantId → c.currency ≠ currency) ∨
      ∃ last ∈ book.closes, last.tenantId = tenantId ∧ last.currency = currency ∧
        ∀ c ∈ book.closes, c.tenantId = tenantId → c.currency = currency →
          c = last ∨ c.endsAt < last.endsAt ∧ c.computedAtXid < last.computedAtXid := by
  let mine := book.closes.filter fun c =>
    decide (c.tenantId = tenantId) && decide (c.currency = currency)
  have isMine : ∀ c, c ∈ mine ↔
      c ∈ book.closes ∧ c.tenantId = tenantId ∧ c.currency = currency := by
    intro c
    simp only [mine, List.mem_filter, Bool.and_eq_true, decide_eq_true_eq]
  rcases List.eq_nil_or_concat mine with isNil | ⟨earlier, last, isLast⟩
  · refine Or.inl fun c member ofTenant ofCurrency => ?_
    have inside := (isMine c).mpr ⟨member, ofTenant, ofCurrency⟩
    rw [isNil] at inside
    cases inside
  · rw [List.concat_eq_append] at isLast
    have inside : last ∈ mine := by
      rw [isLast]
      exact List.mem_append_right _ (List.mem_singleton_self _)
    obtain ⟨member, ofTenant, ofCurrency⟩ := (isMine last).mp inside
    have ordered := ((alone.ascending.and inOrder).filter fun c =>
      decide (c.tenantId = tenantId) && decide (c.currency = currency))
    change mine.Pairwise _ at ordered
    rw [isLast, List.pairwise_append] at ordered
    refine Or.inr ⟨last, member, ofTenant, ofCurrency, fun c isClose sameTenant sameCurrency => ?_⟩
    have isOne := (isMine c).mpr ⟨isClose, sameTenant, sameCurrency⟩
    rw [isLast, List.mem_append, List.mem_singleton] at isOne
    rcases isOne with isEarlier | rfl
    · obtain ⟨below, before⟩ := ordered.2.2 c isEarlier last (List.mem_singleton_self _)
      exact Or.inr ⟨before (sameTenant.trans ofTenant.symm)
        (sameCurrency.trans ofCurrency.symm), below⟩
    · exact Or.inl rfl

omit inOrder in
/-- The last close claims every leg and everything some close read, and nothing else. -/
theorem claims_of_last {last : CloseRow} (member : last ∈ book.closes)
    (behind : ∀ c ∈ book.closes, c.tenantId = last.tenantId → c.currency = last.currency →
      c = last ∨ c.endsAt < last.endsAt ∧ c.computedAtXid < last.computedAtXid)
    {e : EntryRow} (isEntry : e ∈ book.entries) : last.claims book e =
      (book.isSweepLeg last.tenantId last.currency e ||
        book.isSwept last.tenantId last.currency e) := by
  rw [Bool.eq_iff_iff, Bool.or_eq_true, Book.isSweepLeg_iff, Book.isSwept_iff, CloseRow.claims_iff]
  constructor
  · rintro ⟨ofTenant, ofCurrency, posted, before, counted⟩
    cases isLeg : isClosingLeg book e with
    | true =>
        exact Or.inl ⟨ofTenant, ofCurrency, rfl⟩
    | false =>
        rcases counted with below | isMine
        · refine Or.inr ⟨⟨last, member, rfl, rfl, ?_⟩, rfl⟩
          exact CloseRow.reads_iff.mpr ⟨ofTenant, ofCurrency, posted, before, below⟩
        · rw [isClosingLeg_iff_close.mpr ⟨last, member, ofTenant.symm, isMine.symm⟩] at isLeg
          cases isLeg
  · rintro (⟨ofTenant, ofCurrency, isLeg⟩ | ⟨⟨c, isClose, sameTenant, sameCurrency, isRead⟩, _⟩)
    · obtain ⟨c, isClose, sameTenant, sameId⟩ := isClosingLeg_iff_close.mp isLeg
      obtain ⟨isWriter, before, inCurrency, posted⟩ :=
        alone.leg kept isClose isEntry sameTenant.symm sameId.symm
      rcases behind c isClose (sameTenant.trans ofTenant) (inCurrency.symm.trans ofCurrency) with
        rfl | ⟨ends, below⟩
      · exact ⟨ofTenant, ofCurrency, posted, before, Or.inr sameId.symm⟩
      · refine ⟨ofTenant, ofCurrency, posted, before.trans ends, Or.inl ?_⟩
        rw [isWriter]
        exact below
    · obtain ⟨ofTenant, ofCurrency, posted, before, below⟩ := CloseRow.reads_iff.mp isRead
      have isOf := (⟨ofTenant.trans sameTenant, ofCurrency.trans sameCurrency⟩ :
        e.tenantId = last.tenantId ∧ e.currency = last.currency)
      rcases behind c isClose sameTenant sameCurrency with rfl | ⟨ends, cursor⟩
      · exact ⟨isOf.1, isOf.2, posted, before, Or.inl below⟩
      · exact ⟨isOf.1, isOf.2, posted, before.trans ends, Or.inl (below.trans cursor)⟩

/-- Over accounts where every close's claims cancel, the legs move what the closes read,
the other way. -/
theorem legs_eq_neg_swept (on : Uuid → Bool)
    (zero : ∀ c ∈ book.closes, c.tenantId = tenantId → c.currency = currency →
      Tally.sumWhere (fun e => c.claims book e && on e.accountId) EntryRow.signed
        book.entries = 0) :
    Tally.sumWhere (fun e => book.isSweepLeg tenantId currency e && on e.accountId)
        EntryRow.signed book.entries =
      -Tally.sumWhere (fun e => book.isSwept tenantId currency e && on e.accountId)
        EntryRow.signed book.entries := by
  rcases last_close alone inOrder tenantId currency with
    noClose | ⟨last, member, rfl, rfl, behind⟩
  · have noLeg : Tally.sumWhere (fun e => book.isSweepLeg tenantId currency e && on e.accountId)
        EntryRow.signed book.entries = 0 := by
      refine Tally.sumWhere_eq_zero fun e isEntry => ?_
      rw [Bool.eq_false_iff]
      intro both
      rw [Bool.and_eq_true, Book.isSweepLeg_iff] at both
      obtain ⟨⟨ofTenant, ofCurrency, isLeg⟩, _⟩ := both
      obtain ⟨c, isClose, sameTenant, sameId⟩ := isClosingLeg_iff_close.mp isLeg
      have inCurrency := alone.ofCurrency c isClose e isEntry sameTenant.symm sameId.symm
      exact noClose c isClose (sameTenant.trans ofTenant) (inCurrency.symm.trans ofCurrency)
    have noneRead : Tally.sumWhere (fun e => book.isSwept tenantId currency e && on e.accountId)
        EntryRow.signed book.entries = 0 := by
      refine Tally.sumWhere_eq_zero fun e _ => ?_
      rw [Bool.eq_false_iff]
      intro both
      rw [Bool.and_eq_true, Book.isSwept_iff] at both
      obtain ⟨⟨⟨c, isClose, ofTenant, ofCurrency, _⟩, _⟩, _⟩ := both
      exact noClose c isClose ofTenant ofCurrency
    rw [noLeg, noneRead, neg_zero]
  · have split := zero last member rfl rfl
    rw [Tally.sumWhere_split _ (isClosingLeg book)] at split
    have legs : Tally.sumWhere (fun e => last.claims book e && on e.accountId &&
        isClosingLeg book e) EntryRow.signed book.entries =
          Tally.sumWhere (fun e => book.isSweepLeg last.tenantId last.currency e &&
            on e.accountId) EntryRow.signed book.entries := by
      refine Tally.sumWhere_congr (fun e isEntry => ?_) fun _ _ _ => rfl
      rw [claims_of_last kept alone member behind isEntry, Book.isSweepLeg, Book.isSwept]
      cases isClosingLeg book e <;> simp
    have movements : Tally.sumWhere (fun e => last.claims book e && on e.accountId &&
        !isClosingLeg book e) EntryRow.signed book.entries =
          Tally.sumWhere (fun e => book.isSwept last.tenantId last.currency e &&
            on e.accountId) EntryRow.signed book.entries := by
      refine Tally.sumWhere_congr (fun e isEntry => ?_) fun _ _ _ => rfl
      rw [claims_of_last kept alone member behind isEntry, Book.isSweepLeg, Book.isSwept]
      cases isClosingLeg book e <;> simp
    rw [legs, movements] at split
    omega

omit alone inOrder in
/-- The legs of the closes cancel: what leaves the temporary accounts arrives in retained
earnings. -/
theorem legs_balance (swept : book.SweptAlone) (keepsEarnings : book.chart.KeepsEarnings) :
    Tally.sumWhere (fun e => book.isSweepLeg tenantId currency e &&
        book.isEarningsAccount tenantId currency e.accountId) EntryRow.signed book.entries =
      -Tally.sumWhere (fun e => book.isSweepLeg tenantId currency e &&
        book.isTemporaryAccount tenantId currency e.accountId) EntryRow.signed book.entries := by
  have all := kept.signed_of_uncut (book.isSweepLeg tenantId currency) (by
    intro e _ other _ sameTenant sameId sameCurrency
    rw [Book.isSweepLeg, Book.isSweepLeg, isClosingLeg, isClosingLeg, sameTenant, sameId,
      sameCurrency])
  rw [Tally.sumWhere_split _ fun e => book.isTemporaryAccount tenantId currency e.accountId] at all
  have others : Tally.sumWhere (fun e => book.isSweepLeg tenantId currency e &&
      !book.isTemporaryAccount tenantId currency e.accountId) EntryRow.signed book.entries =
        Tally.sumWhere (fun e => book.isSweepLeg tenantId currency e &&
          book.isEarningsAccount tenantId currency e.accountId) EntryRow.signed book.entries := by
    refine Tally.sumWhere_congr (fun e isEntry => ?_) fun _ _ _ => rfl
    cases isLeg : book.isSweepLeg tenantId currency e with
    | false =>
        rfl
    | true =>
        obtain ⟨rfl, rfl, isClosing⟩ := Book.isSweepLeg_iff.mp isLeg
        have placed := swept.placed e isEntry isClosing
        obtain ⟨account, found⟩ := Option.isSome_iff_exists.mp (kept.onAccount e isEntry)
        rw [Book.isTemporaryAccount, Book.isEarningsAccount, found, Option.any_some,
          Option.any_some, decide_eq_true_eq] at placed
        rw [Book.isTemporaryAccount, Book.isEarningsAccount, found, Option.any_some,
          Option.any_some, Bool.true_and, Bool.true_and]
        by_cases purpose : account.purpose = "retained_earnings"
        · -- the chart says such an account is no temporary one
          obtain ⟨type, isType, category, _, _⟩ :=
            (kept.charted account (account?_spec found).1).typed
          rw [purpose] at isType
          rw [category, keepsEarnings type isType, decide_eq_true purpose]
          rfl
        · rw [decide_eq_false purpose, placed.resolve_right purpose]
          rfl
  rw [others] at all
  omega

end Together

/-! ## The view of the closes -/

/-- A row beside the one before it stands behind it. -/
theorem before_of_lagged {Row : Type} {before : Row → Row → Prop} {rows : List Row}
    (pairwise : rows.Pairwise before) {pair : Row × Option Row} (member : pair ∈ lagged rows) :
    pair.1 ∈ rows ∧ ∀ previous, pair.2 = some previous →
      previous ∈ rows ∧ before previous pair.1 := by
  obtain ⟨place, inside, rfl⟩ := List.mem_iff_getElem.mp member
  have isShort : place < rows.length := by
    rw [lagged, List.length_zip] at inside
    omega
  have isLonger : place < (none :: rows.map some).length := by
    rw [List.length_cons, List.length_map]
    omega
  have isPair : (lagged rows)[place] = (rows[place], (none :: rows.map some)[place]) :=
    List.getElem_zip
  rw [isPair]
  refine ⟨List.getElem_mem isShort, fun previous isPrevious => ?_⟩
  cases place with
  | zero =>
      cases isPrevious
  | succ place =>
      rw [List.getElem_cons_succ, List.getElem_map] at isPrevious
      rw [← Option.some.inj isPrevious]
      exact ⟨List.getElem_mem _,
        List.pairwise_iff_getElem.mp pairwise _ _ _ isShort (Nat.lt_succ_self place)⟩

section View

variable {book : Book}

/-- A posted close has its period's record. -/
theorem closeOrphans_eq_nil (kept : Kept book) : closeOrphans book = [] := by
  rw [closeOrphans, List.map_eq_nil_iff, List.filter_eq_nil_iff]
  intro x member isOrphan
  simp only [Bool.and_eq_true, decide_eq_true_eq, Bool.not_eq_true', List.any_eq_false] at isOrphan
  obtain ⟨⟨isClose, _⟩, unnamed⟩ := isOrphan
  obtain ⟨c, isRecord, closedBy⟩ := kept.named x member isClose
  exact unnamed c isRecord ⟨closedBy.tenant.symm, closedBy.id.symm⟩

/-- A stored checkpoint of an exact close whose claims cancel on every temporary account
leaves none of them unswept. -/
theorem sweeps_of_exact {c : CloseRow} (exact_ : c.Exact book)
    (zeroed : ∀ accountId, book.isTemporaryAccount c.tenantId c.currency accountId = true →
      Tally.sumWhere (fun e => c.claims book e && decide (e.accountId = accountId))
        EntryRow.signed book.entries = 0) : doesNotSweep book c = false := by
  rw [Bool.eq_false_iff]
  intro unswept
  obtain ⟨row, member, isUnswept⟩ := List.any_eq_true.mp unswept
  simp only [Bool.and_eq_true, decide_eq_true_eq, Option.any_map] at isUnswept
  obtain ⟨⟨⟨⟨ofTenant, ofCode⟩, ofCurrency⟩, temporary⟩, differs⟩ := isUnswept
  obtain ⟨input, output⟩ := exact_.sums row member ⟨ofTenant, ofCode, ofCurrency⟩
  rw [ofTenant, ofCurrency] at temporary
  have zero := zeroed row.accountId temporary
  rw [sumWhere_signed] at zero
  rw [input, output] at differs
  exact differs (Int.eq_of_sub_eq_zero zero)

variable (kept : Kept book) (alone : book.ClosedAlone) (inOrder : book.ClosedInOrder)

include kept alone inOrder

omit kept in
/-- The closes of a partition stand in the view as they were made. -/
theorem closesInOrder_ascend (tenantId currency : String) :
    (closesInOrder book tenantId currency).Pairwise (fun left right =>
        left.1.computedAtXid < right.1.computedAtXid) ∧
      ∀ pair ∈ closesInOrder book tenantId currency, pair.1 ∈ book.closes ∧
        book.transaction? pair.1.tenantId pair.1.transactionId = some pair.2 := by
  have unsorted : ((book.closes.filter fun c =>
      decide (c.tenantId = tenantId) && decide (c.currency = currency)).filterMap fun c =>
        (book.transaction? c.tenantId c.transactionId).map fun x => (c, x)).Pairwise
          fun left right => left.1.endsAt ≤ right.1.endsAt ∧
            left.1.computedAtXid < right.1.computedAtXid := by
    refine List.pairwise_filterMap.mpr (((alone.ascending.and inOrder).filter _).imp_of_mem ?_)
    intro earlier later isEarlier isLater both left isLeft right isRight
    obtain ⟨x, _, rfl⟩ := Option.map_eq_some_iff.mp isLeft
    obtain ⟨y, _, rfl⟩ := Option.map_eq_some_iff.mp isRight
    have ofEarlier := (List.mem_filter.mp isEarlier).2
    have ofLater := (List.mem_filter.mp isLater).2
    simp only [Bool.and_eq_true, decide_eq_true_eq] at ofEarlier ofLater
    have ends := both.2 (ofEarlier.1.trans ofLater.1.symm) (ofEarlier.2.trans ofLater.2.symm)
    exact ⟨ends.le, both.1⟩
  have sorted := List.Pairwise.insertionSort_eq (unsorted.imp And.left)
  rw [closesInOrder, sorted]
  refine ⟨unsorted.imp And.right, fun pair member => ?_⟩
  obtain ⟨c, isClose, isPair⟩ := List.mem_filterMap.mp member
  obtain ⟨x, found, rfl⟩ := Option.map_eq_some_iff.mp isPair
  exact ⟨(List.mem_filter.mp isClose).1, found⟩

/-- A view of closes made in order, each of which swept, is empty. -/
theorem reconCloseBreaks_eq_nil (swept : book.SweptAlone) {xmax : Xid}
    (below : ∀ x ∈ book.transactions, x.xactId < xmax) : reconCloseBreaks book xmax = [] := by
  rw [reconCloseBreaks, closeOrphans_eq_nil kept, List.append_nil]
  refine List.flatMap_eq_nil_iff.mpr fun paired isPaired => ?_
  rw [List.map_eq_nil_iff]
  obtain ⟨partition, _, inPartition⟩ := List.mem_flatMap.mp isPaired
  obtain ⟨pair, inLag, rfl⟩ := List.mem_map.mp inPartition
  obtain ⟨ascend, areCloses⟩ :=
    closesInOrder_ascend alone inOrder partition.1 partition.2
  obtain ⟨isRow, behind⟩ := before_of_lagged ascend inLag
  obtain ⟨isClose, found⟩ := areCloses pair.1 isRow
  have writer : ∀ close x, close ∈ book.closes →
      book.transaction? close.tenantId close.transactionId = some x →
        x ∈ book.transactions ∧ x.xactId = close.computedAtXid := by
    intro close x member isFound
    obtain ⟨y, isThere, closedBy⟩ := kept.closed close member
    have same := kept.transaction?_of_mem isThere
    rw [closedBy.tenant, closedBy.id, isFound] at same
    rw [Option.some.inj same]
    exact ⟨isThere, closedBy.xactId⟩
  obtain ⟨isThere, isWriter⟩ := writer pair.1.1 pair.1.2 isClose found
  have precedes : ¬ pair.1.1.computedAtXid < pair.1.2.xactId := by
    rw [isWriter]
    exact lt_irrefl _
  have assigned : ¬ xmax ≤ pair.1.1.computedAtXid := by
    rw [← isWriter, not_le]
    exact below pair.1.2 isThere
  have unordered : ¬ ((pair.2.map fun previous => previous.1.computedAtXid).any
        (fun cursor => decide (pair.1.1.computedAtXid < cursor)) = true ∨
      ((pair.2.bind fun previous => previousTransaction book previous.1).map
        TransactionRow.xactId).any (fun xid => decide (pair.1.1.computedAtXid ≤ xid)) = true) := by
    cases isPrevious : pair.2 with
    | none =>
        simp
    | some previous =>
        obtain ⟨wasRow, earlier⟩ := behind previous isPrevious
        obtain ⟨wasClose, wasFound⟩ := areCloses previous wasRow
        have again : previousTransaction book previous.1 = some previous.2 := by
          have isHere : book.closes.find? (fun p =>
              decide (p.tenantId = previous.1.tenantId) &&
                decide (p.currency = previous.1.currency) &&
                decide (p.periodCode = previous.1.periodCode)) = some previous.1 :=
            UniqueIndex.find?_of_mem kept.pkCloses wasClose rfl fun p => by
              simp [CloseRow.primaryKey]
              tauto
          rw [previousTransaction, isHere, Option.bind_some, wasFound]
        have wasWriter := (writer previous.1 previous.2 wasClose wasFound).2
        simp only [Option.map_some, Option.any_some, Option.bind_some, again, decide_eq_true_eq,
          wasWriter]
        rintro (isBelow | isBelow)
        · exact absurd isBelow (not_lt.mpr earlier.le)
        · exact absurd isBelow (not_le.mpr earlier)
  have sweeps := sweeps_of_exact (alone.exact_ pair.1.1 isClose) (swept.zeroed pair.1.1 isClose)
  rw [PairedClose.reasons, if_neg precedes, if_neg assigned, if_neg unordered, sweeps]
  rfl

end View

/-- In every run whose closes come in the order of their ends, under a chart that keeps
retained earnings in equity, nothing is swept twice: in every book it reaches each close
leaves the temporary accounts at zero, what the closes moved into retained earnings is what
they read, once, and the view of the closes is empty. -/
theorem closes_in_order_sweep_once {sha256 : List UInt8 → List UInt8} {chart : Chart}
    (keepsEarnings : chart.KeepsEarnings) {book : Book} {next : Xid}
    (reachable : ReachableInOrder sha256 chart book next) : SweptOnce book := by
  have kept := kept_of_reachable reachable.reachable
  have alone := closedAlone_of_reachable reachable.reachable
  have inOrder := reachable.closedInOrder
  have swept := sweptAlone_of_reachable keepsEarnings reachable.reachable
  have isChart : book.chart.KeepsEarnings := by
    rw [chart_of_reachable reachable.reachable]
    exact keepsEarnings
  constructor
  · intro c member accountId temporary
    rw [positionLeft, ← swept.zeroed c member accountId temporary]
    refine Tally.sumWhere_congr (fun e isEntry => ?_) fun _ _ _ => rfl
    rw [claims_eq_left kept alone inOrder member isEntry]
  · intro tenantId currency accountId temporary
    refine legs_eq_neg_swept kept alone inOrder (fun other => decide (other = accountId))
      fun c member ofTenant ofCurrency => swept.zeroed c member accountId ?_
    rw [ofTenant, ofCurrency]
    exact temporary
  · intro tenantId currency
    rw [legs_balance kept swept isChart, legs_eq_neg_swept kept alone inOrder
      (book.isTemporaryAccount tenantId currency), neg_neg]
    intro c member ofTenant ofCurrency
    refine Tally.sumWhere_eq_zero_of_groups EntryRow.accountId fun accountId => ?_
    by_cases temporary : book.isTemporaryAccount c.tenantId c.currency accountId = true
    · rw [← swept.zeroed c member accountId temporary]
      refine Tally.sumWhere_congr (fun e _ => ?_) fun _ _ _ => rfl
      by_cases onAccount : e.accountId = accountId
      · rw [onAccount, ← ofTenant, ← ofCurrency, temporary, Bool.and_true]
      · rw [decide_eq_false onAccount, Bool.and_false, Bool.and_false]
    · refine Tally.sumWhere_eq_zero fun e _ => ?_
      by_cases onAccount : e.accountId = accountId
      · rw [onAccount, ← ofTenant, ← ofCurrency, Bool.eq_false_iff.mpr temporary, Bool.and_false,
          Bool.false_and]
      · rw [decide_eq_false onAccount, Bool.and_false]
  · exact fun xmax below => reconCloseBreaks_eq_nil kept alone inOrder swept below

namespace Shop

/-- The same periods, the later one closed first. -/
def closedBackward : List (Operation × Env) :=
  feesInPeriods ++ [(closing "second", envOf 8), (closing "first", envOf 9)]

theorem closedForward_sweeps_once :
    (performAll id closedForward (Book.empty chart)).closes.length = 2 ∧
      SweptOnce (performAll id closedForward (Book.empty chart)) :=
  ⟨by decide +kernel, closes_in_order_sweep_once chart_keepsEarnings
    (ReachableInOrder.empty.performAll (by decide) (by decide +kernel) :
      ReachableInOrder id chart (performAll id closedForward (Book.empty chart))
        (nextAfter closedForward 0))⟩

/-- The first fee is swept twice: the earlier period's close takes it from behind the later
one's, whose fee account it leaves at 70, and 170 arrive in retained earnings of the 100
that were earned. -/
theorem closedBackward_sweeps_twice :
    (chart.KeepsEarnings ∧ Reachable id chart (performAll id closedBackward (Book.empty chart))
        (nextAfter closedBackward 0)) ∧
      (performAll id closedBackward (Book.empty chart)).closes.map (fun c =>
        positionLeft (performAll id closedBackward (Book.empty chart)) c fees) = [70, 0] ∧
      (reconCloseBreaks (performAll id closedBackward (Book.empty chart)) 10).map
        CloseBreak.reason = ["recon_close_order"] ∧
      ¬ SweptOnce (performAll id closedBackward (Book.empty chart)) := by
  refine ⟨⟨chart_keepsEarnings, Reachable.empty.performAll (by decide)⟩, by decide +kernel,
    by decide +kernel, fun once => ?_⟩
  have earned := once.earned "shop" "USD"
  have differs : ¬ Tally.sumWhere (fun e =>
      (performAll id closedBackward (Book.empty chart)).isSweepLeg "shop" "USD" e &&
        (performAll id closedBackward (Book.empty chart)).isEarningsAccount "shop" "USD"
          e.accountId) EntryRow.signed
        (performAll id closedBackward (Book.empty chart)).entries =
      Tally.sumWhere (fun e =>
        (performAll id closedBackward (Book.empty chart)).isSwept "shop" "USD" e &&
          (performAll id closedBackward (Book.empty chart)).isTemporaryAccount "shop" "USD"
            e.accountId) EntryRow.signed
        (performAll id closedBackward (Book.empty chart)).entries := by
    decide +kernel
  exact differs earned

end Shop

end OpenLedger
