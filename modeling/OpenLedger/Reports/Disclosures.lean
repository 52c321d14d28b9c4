import OpenLedger.Closing
import OpenLedger.Reports.Statements

/-!
# What a checkpoint leaves to disclose

A posted entry before a closed period's end that arrived behind the close is a row of
`close_disclosures`.  Checkpoint and disclosures are two predicates written apart; on
a book whose closes were made in the order of their ends they split the entries
between them.
-/

namespace OpenLedger

open Postgres

/-- One row of `close_disclosures`, without the time it was recorded. -/
structure CloseDisclosure where
  tenantId : String
  periodCode : String
  currency : String
  computedAtXid : Xid
  entryId : Uuid
  transactionId : Uuid
  accountId : Uuid
  direction : Direction
  amountMinor : Int
  effectiveAt : Timestamp
  xactId : Xid
deriving DecidableEq, Repr

/-- The row an entry is disclosed as, under a close. -/
def CloseRow.disclosure (c : CloseRow) (e : EntryRow) : CloseDisclosure where
  tenantId := c.tenantId
  periodCode := c.periodCode
  currency := c.currency
  computedAtXid := c.computedAtXid
  entryId := e.id
  transactionId := e.transactionId
  accountId := e.accountId
  direction := e.direction
  amountMinor := e.amountMinor
  effectiveAt := e.effectiveAt
  xactId := e.xactId

/-- The joins and the `WHERE` of `close_disclosures`. -/
def CloseRow.discloses (book : Book) (c : CloseRow) (e : EntryRow) : Bool :=
  decide (e.tenantId = c.tenantId) && decide (e.currency = c.currency) &&
    decide (e.effectiveAt < c.endsAt) && decide (c.computedAtXid ≤ e.xactId) &&
    decide (e.transactionId ≠ c.transactionId) && book.isPosted e && !isClosingLeg book e

/-- `close_disclosures`. -/
def closeDisclosures (book : Book) : List CloseDisclosure :=
  book.closes.flatMap fun c => (book.entries.filter (c.discloses book)).map c.disclosure

/-- Whether a disclosure is one of a close's. -/
def CloseDisclosure.isOf (c : CloseRow) (d : CloseDisclosure) : Bool :=
  decide (d.tenantId = c.tenantId) && decide (d.periodCode = c.periodCode) &&
    decide (d.currency = c.currency)

/-- One side of a disclosure. -/
def CloseDisclosure.on (d : CloseDisclosure) (direction : Direction) : Int :=
  if d.direction = direction then d.amountMinor else 0

/-- The closes of each tenant and currency were made in the order of their ends. -/
def Book.ClosedInOrder (book : Book) : Prop :=
  book.closes.Pairwise fun earlier later =>
    earlier.tenantId = later.tenantId → earlier.currency = later.currency →
      earlier.endsAt < later.endsAt

/-- What a run without rivals keeps of its closes: each checkpoint holds what it
claims, the closes stand in the order of their writers, their legs are dated at the
last instant inside, and a closing transaction is in its close's currency. -/
structure Book.ClosedAlone (book : Book) : Prop where
  exact_ : ∀ k ∈ book.closes, k.Exact book
  ascending : book.closes.Pairwise fun earlier later =>
    earlier.computedAtXid < later.computedAtXid
  dated : ∀ k ∈ book.closes, k.txnEffectiveAt = k.endsAt - 1
  ofCurrency : ∀ k ∈ book.closes, ∀ e ∈ book.entries, e.tenantId = k.tenantId →
    e.transactionId = k.transactionId → e.currency = k.currency

/-! ## What a run keeps -/

section Runs

variable {sha256 : List UInt8 → List UInt8} {chart : Chart} {book later : Book} {k : CloseRow}

/-- A close's own transaction, below the ids given since. -/
theorem computedAtXid_below {next : Xid} (kept : Kept book)
    (below : ∀ x ∈ book.transactions, x.xactId < next) (member : k ∈ book.closes) :
    k.computedAtXid < next := by
  obtain ⟨x, isThere, closedBy⟩ := kept.closed k member
  rw [← closedBy.xactId]
  exact below x isThere

/-- A leg of a close carries the close's writer and its date. -/
theorem Kept.leg_of_close (kept : Kept book) (member : k ∈ book.closes) {e : EntryRow}
    (isEntry : e ∈ book.entries) (ofTenant : e.tenantId = k.tenantId)
    (isLeg : e.transactionId = k.transactionId) :
    e.xactId = k.computedAtXid ∧ e.effectiveAt = k.txnEffectiveAt := by
  obtain ⟨x, isThere, closedBy⟩ := kept.closed k member
  obtain ⟨y, isOwn, belongs⟩ := kept.belongs e isEntry
  have same : y = x := by
    refine UniqueIndex.holds_eq kept.pkTxn isOwn isThere rfl ?_
    rw [TransactionRow.primaryKey, closedBy.tenant, closedBy.id, ← ofTenant, ← isLeg,
      ← belongs.tenant, ← belongs.id]
  rw [belongs.xactId, belongs.effectiveAt, same]
  exact ⟨closedBy.xactId, closedBy.effectiveAt⟩

/-- What is added above a close, and apart from its transaction, it does not claim. -/
theorem exact_later (exact_ : k.Exact book) (kept : Kept book)
    (precedes : book.Precedes later) {entries : List EntryRow} {rows : List PeriodBalanceRow}
    (isEntries : later.entries = book.entries ++ entries)
    (isRows : later.periodBalances = book.periodBalances ++ rows)
    (unclaimed : ∀ e ∈ entries, k.claims later e = false)
    (ofOthers : ∀ row ∈ rows, ¬ row.OfClose k) : k.Exact later := by
  have sameClaims : ∀ e ∈ book.entries, k.claims later e = k.claims book e := by
    intro e member
    rw [Bool.eq_iff_iff, CloseRow.claims_iff, CloseRow.claims_iff,
      kept.isPosted_later precedes member]
  have sameSides : ∀ direction accountId,
      claimedSide later k direction accountId = claimedSide book k direction accountId := by
    intro direction accountId
    have noNew : Tally.sumWhere (fun e => k.claims later e && decide (e.accountId = accountId))
        (fun e => e.on direction) entries = 0 :=
      Tally.sumWhere_eq_zero fun e member => by rw [unclaimed e member, Bool.false_and]
    rw [claimedSide, isEntries, Tally.sumWhere_append, noNew, add_zero, claimedSide]
    exact Tally.sumWhere_congr (fun e member => by rw [sameClaims e member]) fun _ _ _ => rfl
  constructor
  · intro row member ofClose
    rw [isRows] at member
    rcases List.mem_append.mp member with isOld | isNew
    · rw [sameSides, sameSides]
      exact exact_.sums row isOld ofClose
    · exact absurd ofClose (ofOthers row isNew)
  · intro e member claimed
    rw [isEntries] at member
    rcases List.mem_append.mp member with isOld | isNew
    · rw [sameClaims e isOld] at claimed
      obtain ⟨row, isRow, ofClose, onAccount⟩ := exact_.complete e isOld claimed
      refine ⟨row, ?_, ofClose, onAccount⟩
      rw [isRows]
      exact List.mem_append_left _ isRow
    · rw [unclaimed e isNew] at claimed
      cases claimed

/-- No close that was there claims what a later writer lands. -/
theorem unclaimed_of_lands {writes : Writes} {xid : Xid} (kept : Kept book)
    (lands : Lands book writes) (own : writes.Own xid) (member : k ∈ book.closes)
    (below : k.computedAtXid < xid) : ∀ e ∈ writes.entries, k.claims later e = false := by
  intro e isNew
  rw [Bool.eq_false_iff]
  intro claimed
  obtain ⟨ofTenant, _, _, _, counted⟩ := CloseRow.claims_iff.mp claimed
  obtain ⟨x, isThere, closedBy⟩ := kept.closed k member
  obtain ⟨y, isOwn, belongs⟩ := lands.belongs e isNew
  rcases counted with isBelow | isMine
  · rw [belongs.xactId, own y isOwn] at isBelow
    exact absurd isBelow (not_lt.mpr below.le)
  · exact lands.entry_apart isNew isThere (ofTenant.trans closedBy.tenant.symm)
      (isMine.trans closedBy.id.symm)

namespace Book.ClosedAlone

variable (was : book.ClosedAlone)

include was

/-- A bracket that closes nothing keeps every close as it was. -/
theorem bracket {writes : Writes} {xid : Xid} (kept : Kept book) (lands : Lands book writes)
    (isOpen : writes.Open xid) (below : ∀ k ∈ book.closes, k.computedAtXid < xid) :
    (book.apply writes).ClosedAlone := by
  have sameCloses : (book.apply writes).closes = book.closes := by
    rw [Book.closes_apply, isOpen.closes, List.append_nil]
  constructor
  · intro k member
    rw [sameCloses] at member
    refine exact_later (was.exact_ k member) kept (Book.Precedes.apply book writes) rfl rfl
      (unclaimed_of_lands kept lands isOpen.own member (below k member)) ?_
    rw [isOpen.periodBalances]
    exact fun row isNew => absurd isNew List.not_mem_nil
  · rw [sameCloses]
    exact was.ascending
  · rw [sameCloses]
    exact was.dated
  · intro k member e isEntry ofTenant isMine
    rw [sameCloses] at member
    rcases List.mem_append.mp isEntry with isOld | isNew
    · exact was.ofCurrency k member e isOld ofTenant isMine
    · obtain ⟨x, isThere, closedBy⟩ := kept.closed k member
      exact absurd (isMine.trans closedBy.id.symm) (lands.entry_apart isNew isThere
        (ofTenant.trans closedBy.tenant.symm))

/-- An accepted close joins the ones that were there, above them. -/
theorem closed {env : Env} {command : ClosePeriod} {plan : ClosePlan} {answer : PeriodClosed}
    {writes : Writes} (closes : Closes sha256 env book command plan answer writes later)
    (kept : Kept book) (below : ∀ k ∈ book.closes, k.computedAtXid < env.xid) :
    later.ClosedAlone := by
  have own := closes.wrote.own
  constructor
  · intro k member
    rw [closes.closes_after] at member
    rcases List.mem_append.mp member with isOld | isNew
    · refine exact_later (was.exact_ k isOld) kept closes.precedes_after closes.entries_after
        closes.periodBalances_after
        (unclaimed_of_lands kept closes.lands own isOld (below k isOld)) ?_
      intro row isRow ofClose
      rw [closes.storedBehind_eq] at isRow
      have isOwn := (CloseRow.mem_rowsIn.mp isRow).1
      exact closes.wrote.unclosed isOld ⟨ofClose.tenant.symm.trans isOwn.tenant,
        ofClose.code.symm.trans isOwn.code, ofClose.currency.symm.trans isOwn.currency⟩
    · rw [List.mem_singleton.mp isNew]
      exact closes.exact_after kept
  · rw [closes.closes_after, List.pairwise_append]
    refine ⟨was.ascending, List.pairwise_singleton _ _, fun k isOld new isNew => ?_⟩
    rw [List.mem_singleton.mp isNew]
    exact below k isOld
  · intro k member
    rw [closes.closes_after] at member
    rcases List.mem_append.mp member with isOld | isNew
    · exact was.dated k isOld
    · rw [List.mem_singleton.mp isNew]
      exact eq_of_theLastInstantInside closes.fits.instant
  · intro k member e isEntry ofTenant isMine
    rw [closes.closes_after] at member
    rw [closes.entries_after] at isEntry
    rcases List.mem_append.mp member with isOld | isNew
    · rcases List.mem_append.mp isEntry with wasThere | isLeg
      · exact was.ofCurrency k isOld e wasThere ofTenant isMine
      · obtain ⟨x, isThere, closedBy⟩ := kept.closed k isOld
        exact absurd (isMine.trans closedBy.id.symm) (closes.lands.entry_apart isLeg isThere
          (ofTenant.trans closedBy.tenant.symm))
    · obtain rfl := List.mem_singleton.mp isNew
      rcases List.mem_append.mp isEntry with wasThere | isLeg
      · have isOne : e.isOf command.tenantId (env.transactionId 0) = true :=
          EntryRow.isOf_iff.mpr ⟨ofTenant, isMine⟩
        rw [kept.not_isOf closes.wrote.unknown e wasThere] at isOne
        cases isOne
      · exact (closes.wrote.ofCurrency isLeg).2

end Book.ClosedAlone

/-- Every book a run reaches was closed alone. -/
theorem closedAlone_of_reachable {next : Xid} (reachable : Reachable sha256 chart book next) :
    book.ClosedAlone := by
  induction reachable with
  | empty =>
      exact ⟨fun _ member => absurd member List.not_mem_nil, List.Pairwise.nil,
        fun _ member => absurd member List.not_mem_nil,
        fun _ member => absurd member List.not_mem_nil⟩
  | @perform book next reachable operation env assigned was =>
      have kept := kept_of_reachable reachable
      have below : ∀ k ∈ book.closes, k.computedAtXid < env.xid := fun k member =>
        (computedAtXid_below kept (transactions_below reachable) member).trans_le assigned
      cases isClose : operation.isClose with
      | false =>
          have landed := landed_open sha256 isClose env kept
          exact (landed.invariant (fun held => held.bracket) below was).1
      | true =>
          cases operation with
          | closePeriod command =>
              rcases perform_close_cases sha256 env book command with same | ⟨answer, accepted⟩
              · rw [same]
                exact was
              · obtain ⟨plan, writes, closes⟩ := closes_of_accepted accepted
                exact was.closed closes kept below
          | _ =>
              cases isClose

end Runs

/-! ## The complement -/

section Complement

variable {book : Book} {c : CloseRow}

theorem CloseRow.discloses_iff {e : EntryRow} :
    c.discloses book e = true ↔ e.tenantId = c.tenantId ∧ e.currency = c.currency ∧
      e.effectiveAt < c.endsAt ∧ c.computedAtXid ≤ e.xactId ∧
        e.transactionId ≠ c.transactionId ∧ book.isPosted e = true ∧
          isClosingLeg book e = false := by
  simp only [discloses, Bool.and_eq_true, Bool.not_eq_true', decide_eq_true_eq, and_assoc]

theorem CloseDisclosure.isOf_iff {d : CloseDisclosure} :
    d.isOf c = true ↔ d.tenantId = c.tenantId ∧ d.periodCode = c.periodCode ∧
      d.currency = c.currency := by
  simp only [isOf, Bool.and_eq_true, decide_eq_true_eq, and_assoc]

theorem either_of_pairwise {Row : Type} {before : Row → Row → Prop} {rows : List Row}
    (pairwise : rows.Pairwise before) {left right : Row} (isLeft : left ∈ rows)
    (isRight : right ∈ rows) (apart : left ≠ right) : before left right ∨ before right left := by
  have : Std.Symm fun one other : Row => before one other ∨ before other one :=
    ⟨fun _ _ => Or.symm⟩
  exact (pairwise.imp (S := fun one other => before one other ∨ before other one)
    Or.inl).forall isLeft isRight apart

/-- An entry that arrived behind a close and before its end is no other close's leg:
the order of ends dates a later one's behind, and an earlier one's was there. -/
theorem no_leg_between (kept : Kept book) (alone : book.ClosedAlone) (inOrder : book.ClosedInOrder)
    (member : c ∈ book.closes) {e : EntryRow} (isEntry : e ∈ book.entries)
    (ofTenant : e.tenantId = c.tenantId) (ofCurrency : e.currency = c.currency)
    (before : e.effectiveAt < c.endsAt) (arrived : c.computedAtXid ≤ e.xactId)
    (other : e.transactionId ≠ c.transactionId) : isClosingLeg book e = false := by
  rw [Bool.eq_false_iff]
  intro isLeg
  obtain ⟨k, isClose, names⟩ := List.any_eq_true.mp isLeg
  simp only [Bool.and_eq_true, decide_eq_true_eq] at names
  obtain ⟨sameTenant, sameId⟩ := names
  have sameCurrency := alone.ofCurrency k isClose e isEntry sameTenant.symm sameId.symm
  obtain ⟨isWriter, isDate⟩ := kept.leg_of_close isClose isEntry sameTenant.symm sameId.symm
  rw [alone.dated k isClose] at isDate
  have apart : c ≠ k := by
    rintro rfl
    exact other sameId.symm
  rcases either_of_pairwise (alone.ascending.and inOrder) member isClose apart with later | earlier
  · have isLater := later.2 (ofTenant.symm.trans sameTenant.symm)
      (ofCurrency.symm.trans sameCurrency)
    rw [isDate] at before
    exact absurd before (not_lt.mpr (Int.le_sub_one_of_lt isLater))
  · rw [isWriter] at arrived
    exact absurd earlier.1 (not_lt.mpr arrived)

variable (kept : Kept book) (alone : book.ClosedAlone) (inOrder : book.ClosedInOrder)
  (member : c ∈ book.closes)

include kept alone inOrder member

/-- An entry before a close's end is claimed by its checkpoint or disclosed, and never
both. -/
theorem discloses_eq {e : EntryRow} (isEntry : e ∈ book.entries) (ofTenant : e.tenantId = c.tenantId)
    (ofCurrency : e.currency = c.currency) (posted : book.isPosted e = true)
    (before : e.effectiveAt < c.endsAt) : c.discloses book e = !c.claims book e := by
  cases claimed : c.claims book e with
  | true =>
      obtain ⟨_, _, _, _, counted⟩ := CloseRow.claims_iff.mp claimed
      rw [Bool.not_true, Bool.eq_false_iff]
      intro disclosed
      obtain ⟨_, _, _, arrived, other, _, _⟩ := CloseRow.discloses_iff.mp disclosed
      rcases counted with isBelow | isMine
      · exact absurd isBelow (not_lt.mpr arrived)
      · exact other isMine
  | false =>
      rw [Bool.eq_false_iff, ne_eq, CloseRow.claims_iff] at claimed
      have arrived : c.computedAtXid ≤ e.xactId := by
        by_contra isBelow
        exact claimed ⟨ofTenant, ofCurrency, posted, before, Or.inl (not_le.mp isBelow)⟩
      have other : e.transactionId ≠ c.transactionId := fun isMine =>
        claimed ⟨ofTenant, ofCurrency, posted, before, Or.inr isMine⟩
      rw [Bool.not_false, CloseRow.discloses_iff]
      exact ⟨ofTenant, ofCurrency, before, arrived, other, posted,
        no_leg_between kept alone inOrder member isEntry ofTenant ofCurrency before arrived other⟩

omit alone inOrder in
/-- A close's disclosures are the entries it discloses. -/
theorem disclosures_of_close : (closeDisclosures book).filter (CloseDisclosure.isOf c) =
    (book.entries.filter (c.discloses book)).map c.disclosure := by
  have onlyOwn : ∀ closes : List CloseRow,
      (closes.flatMap fun k => (book.entries.filter (k.discloses book)).map k.disclosure).filter
          (CloseDisclosure.isOf c) =
        (closes.filter fun k => decide (k.primaryKey = c.primaryKey)).flatMap fun k =>
          (book.entries.filter (k.discloses book)).map k.disclosure := by
    intro closes
    induction closes with
    | nil =>
        rfl
    | cons k rest inductionHypothesis =>
        rw [List.flatMap_cons, List.filter_append, inductionHypothesis]
        have sameKey : ∀ e : EntryRow, (k.disclosure e).isOf c =
            decide (k.primaryKey = c.primaryKey) := by
          intro e
          rw [Bool.eq_iff_iff, CloseDisclosure.isOf_iff]
          simp [CloseRow.disclosure, CloseRow.primaryKey]
        by_cases isOwn : k.primaryKey = c.primaryKey
        · rw [List.filter_cons_of_pos (by simpa using isOwn), List.flatMap_cons]
          congr 1
          refine List.filter_eq_self.mpr fun d isRow => ?_
          obtain ⟨e, _, rfl⟩ := List.mem_map.mp isRow
          rw [sameKey e, decide_eq_true isOwn]
        · rw [List.filter_cons_of_neg (by simpa using isOwn)]
          have none : ((book.entries.filter (k.discloses book)).map k.disclosure).filter
              (CloseDisclosure.isOf c) = [] := by
            refine List.filter_eq_nil_iff.mpr fun d isRow => ?_
            obtain ⟨e, _, rfl⟩ := List.mem_map.mp isRow
            rw [sameKey e, decide_eq_false isOwn]
            exact Bool.false_ne_true
          rw [none, List.nil_append]
  have alone : book.closes.filter (fun k => decide (k.primaryKey = c.primaryKey)) = [c] :=
    UniqueIndex.filter_of_mem kept.pkCloses member rfl fun k => decide_eq_true_iff
  rw [closeDisclosures, onlyOwn, alone, List.flatMap_cons, List.flatMap_nil, List.append_nil]

omit alone inOrder in
/-- An entry of the close's tenant is one of its disclosures, or none. -/
theorem disclosures_of_entry {e : EntryRow} (isEntry : e ∈ book.entries)
    (ofTenant : e.tenantId = c.tenantId) :
    (closeDisclosures book).filter (fun d => d.isOf c && decide (d.entryId = e.id)) =
      if c.discloses book e then [c.disclosure e] else [] := by
  have onlyOwn : book.entries.filter
      (fun o => decide (o.tenantId = e.tenantId) && decide (o.id = e.id)) = [e] :=
    UniqueIndex.filter_of_mem kept.pkEntries isEntry rfl fun o => by
      simp [EntryRow.primaryKey]
  have sameRows : book.entries.filter (fun o => decide (o.id = e.id) && c.discloses book o) =
      (book.entries.filter (fun o =>
        decide (o.tenantId = e.tenantId) && decide (o.id = e.id))).filter (c.discloses book) := by
    rw [List.filter_filter]
    refine List.filter_congr fun o _ => ?_
    rw [Bool.eq_iff_iff]
    simp only [Bool.and_eq_true, decide_eq_true_eq]
    constructor
    · rintro ⟨sameId, disclosed⟩
      exact ⟨disclosed, (CloseRow.discloses_iff.mp disclosed).1.trans ofTenant.symm, sameId⟩
    · rintro ⟨disclosed, _, sameId⟩
      exact ⟨sameId, disclosed⟩
  have split : (closeDisclosures book).filter (fun d => d.isOf c && decide (d.entryId = e.id)) =
      ((closeDisclosures book).filter (CloseDisclosure.isOf c)).filter
        (fun d => decide (d.entryId = e.id)) := by
    rw [List.filter_filter]
    exact List.filter_congr fun d _ => Bool.and_comm _ _
  have byEntry : ((fun d : CloseDisclosure => decide (d.entryId = e.id)) ∘ c.disclosure) =
      fun o : EntryRow => decide (o.id = e.id) := rfl
  rw [split, disclosures_of_close kept member, List.filter_map, byEntry, List.filter_filter,
    sameRows, onlyOwn]
  cases disclosed : c.discloses book e with
  | true =>
      rw [List.filter_cons_of_pos disclosed]
      rfl
  | false =>
      rw [List.filter_cons_of_neg (by rw [disclosed]; exact Bool.false_ne_true)]
      rfl

/-- What the from-inception sum of an account is, at a cursor above the close: the
claimed entries and the disclosed ones below the cursor. -/
theorem inceptionSide_eq {cursor : Xid} (above : c.computedAtXid < cursor)
    (direction : Direction) (accountId : Uuid) :
    inceptionSide book c.tenantId (.at c.endsAt) cursor direction c.currency accountId =
      claimedSide book c direction accountId +
        Tally.sumWhere (fun d : CloseDisclosure => d.isOf c && decide (d.accountId = accountId) &&
          decide (d.xactId < cursor)) (fun d => d.on direction) (closeDisclosures book) := by
  have disclosed : Tally.sumWhere (fun d : CloseDisclosure =>
      d.isOf c && decide (d.accountId = accountId) && decide (d.xactId < cursor))
        (fun d => d.on direction) (closeDisclosures book) =
      Tally.sumWhere (fun e => c.discloses book e && (decide (e.accountId = accountId) &&
        decide (e.xactId < cursor))) (fun e => e.on direction) book.entries := by
    have filtered := Tally.sumWhere_filter (fun d : CloseDisclosure =>
      decide (d.accountId = accountId) && decide (d.xactId < cursor)) (CloseDisclosure.isOf c)
      (fun d => d.on direction) (closeDisclosures book)
    rw [disclosures_of_close kept member, Tally.sumWhere_map, Tally.sumWhere_filter] at filtered
    simp only [Bool.and_assoc]
    exact filtered.symm
  rw [disclosed, inceptionSide, Tally.sumWhere_split _ (c.claims book), claimedSide]
  congr 1
  · refine Tally.sumWhere_congr (fun e isEntry => ?_) fun _ _ _ => rfl
    rw [Bool.eq_iff_iff]
    simp only [inceptionAdmits, ReportInstant.isAfter_at, Bool.and_eq_true, decide_eq_true_eq,
      CloseRow.claims_iff]
    constructor
    · rintro ⟨⟨_, onAccount⟩, claimed⟩
      exact ⟨claimed, onAccount⟩
    · rintro ⟨⟨ofTenant, ofCurrency, posted, before, counted⟩, onAccount⟩
      have isBelow : e.xactId < cursor := by
        rcases counted with isBelow | isMine
        · exact isBelow.trans above
        · rw [(kept.leg_of_close member isEntry ofTenant isMine).1]
          exact above
      exact ⟨⟨⟨⟨⟨⟨ofTenant, posted⟩, before⟩, isBelow⟩, ofCurrency⟩, onAccount⟩,
        ofTenant, ofCurrency, posted, before, counted⟩
  · refine Tally.sumWhere_congr (fun e isEntry => ?_) fun _ _ _ => rfl
    rw [Bool.eq_iff_iff]
    simp only [inceptionAdmits, ReportInstant.isAfter_at, Bool.and_eq_true, decide_eq_true_eq]
    constructor
    · rintro ⟨⟨⟨⟨⟨⟨ofTenant, posted⟩, before⟩, isBelow⟩, ofCurrency⟩, onAccount⟩, unclaimed⟩
      rw [discloses_eq kept alone inOrder member isEntry ofTenant ofCurrency posted before]
      exact ⟨unclaimed, onAccount, isBelow⟩
    · rintro ⟨isDisclosed, onAccount, isBelow⟩
      obtain ⟨ofTenant, ofCurrency, before, _, _, posted, _⟩ :=
        CloseRow.discloses_iff.mp isDisclosed
      rw [discloses_eq kept alone inOrder member isEntry ofTenant ofCurrency posted before]
        at isDisclosed
      exact ⟨⟨⟨⟨⟨⟨ofTenant, posted⟩, before⟩, isBelow⟩, ofCurrency⟩, onAccount⟩, isDisclosed⟩

end Complement

/-- In every book a run reaches whose closes were made in the order of their ends: an
entry before a close's end is in its checkpoint or is one row of its disclosures, and
at every cursor above the close the two add up to the sums since inception. -/
theorem disclosures_complement_the_checkpoint {sha256 : List UInt8 → List UInt8} {chart : Chart}
    {book : Book} {next : Xid} (reachable : Reachable sha256 chart book next)
    (inOrder : book.ClosedInOrder) (c : CloseRow) (member : c ∈ book.closes) :
    (∀ e ∈ book.entries, e.tenantId = c.tenantId → e.currency = c.currency →
      book.isPosted e = true → e.effectiveAt < c.endsAt →
        (closeDisclosures book).filter (fun d => d.isOf c && decide (d.entryId = e.id)) =
          if c.claims book e then [] else [c.disclosure e]) ∧
    (∀ direction accountId, storedSide book c direction accountId =
      Tally.sumWhere (fun e => c.claims book e && decide (e.accountId = accountId))
        (fun e => e.on direction) book.entries) ∧
    (∃ x, book.transaction? c.tenantId c.transactionId = some x ∧ x.xactId = c.computedAtXid) ∧
    ∀ direction accountId cursor, c.computedAtXid < cursor →
      inceptionSide book c.tenantId (.at c.endsAt) cursor direction c.currency accountId =
        storedSide book c direction accountId +
          Tally.sumWhere (fun d : CloseDisclosure => d.isOf c &&
            decide (d.accountId = accountId) && decide (d.xactId < cursor))
            (fun d => d.on direction) (closeDisclosures book) := by
  have kept := kept_of_reachable reachable
  have alone := closedAlone_of_reachable reachable
  have stored := fun direction accountId =>
    storedSide_of_exact kept.pkPeriodBalances (alone.exact_ c member) direction accountId
  refine ⟨fun e isEntry ofTenant ofCurrency posted before => ?_, stored, ?_,
    fun direction accountId cursor above => ?_⟩
  · rw [disclosures_of_entry kept member isEntry ofTenant,
      discloses_eq kept alone inOrder member isEntry ofTenant ofCurrency posted before]
    cases c.claims book e <;> rfl
  · obtain ⟨x, isThere, closedBy⟩ := kept.closed c member
    have found := kept.transaction?_of_mem isThere
    rw [closedBy.tenant, closedBy.id] at found
    exact ⟨x, found, closedBy.xactId⟩
  · rw [stored, inceptionSide_eq kept alone inOrder member above]

namespace Shop

/-- The year's two closes. -/
def firstClosed : CloseRow := ⟨"shop", "first", "USD", 0, 1000, uuid 8100, 999, 8⟩

def secondClosed : CloseRow := ⟨"shop", "second", "USD", 1000, 2000, uuid 9100, 1999, 9⟩

/-- The fee that came late for the first period is disclosed beside both closes, and
completes both checkpoints. -/
theorem lateFee_is_disclosed :
    yearBook.closes = [firstClosed, secondClosed] ∧
      ((closeDisclosures yearBook).map fun d => (d.periodCode, d.accountId)) =
        [("first", fees), ("first", till), ("second", fees), ("second", till)] ∧
      (storedSide yearBook firstClosed .debit till = 70 ∧
        inceptionSide yearBook "shop" (.at 1000) 12 .debit "USD" till =
          storedSide yearBook firstClosed .debit till +
            Tally.sumWhere (fun d : CloseDisclosure => d.isOf firstClosed &&
              decide (d.accountId = till) && decide (d.xactId < 12))
              (fun d => d.on .debit) (closeDisclosures yearBook)) ∧
      storedSide yearBook secondClosed .debit till = 100 ∧
        inceptionSide yearBook "shop" (.at 2000) 12 .debit "USD" till =
          storedSide yearBook secondClosed .debit till +
            Tally.sumWhere (fun d : CloseDisclosure => d.isOf secondClosed &&
              decide (d.accountId = till) && decide (d.xactId < 12))
              (fun d => d.on .debit) (closeDisclosures yearBook) := by
  have areClosed : yearBook.closes = [firstClosed, secondClosed] := by decide +kernel
  have isFirst : firstClosed ∈ yearBook.closes := by
    rw [areClosed]
    exact List.mem_cons_self
  have isSecond : secondClosed ∈ yearBook.closes := by
    rw [areClosed]
    exact List.mem_cons_of_mem _ (List.mem_singleton_self _)
  have inOrder : yearBook.ClosedInOrder := by
    rw [Book.ClosedInOrder, areClosed]
    refine List.Pairwise.cons ?_ (List.pairwise_singleton _ _)
    intro later isLater _ _
    rw [List.mem_singleton.mp isLater]
    decide
  have first := disclosures_complement_the_checkpoint yearBook_reachable inOrder
    firstClosed isFirst
  have second := disclosures_complement_the_checkpoint yearBook_reachable inOrder
    secondClosed isSecond
  exact ⟨areClosed, by decide +kernel,
    ⟨by decide +kernel, first.2.2.2 .debit till 12 (by decide)⟩, by decide +kernel,
    second.2.2.2 .debit till 12 (by decide)⟩

end Shop

end OpenLedger
