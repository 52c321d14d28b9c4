import OpenLedger.Footing
import OpenLedger.Runs

/-!
# Reading the checkpoint

The position as at an instant is read from one close's checkpoint and two tails.
What is read differs from the sum since inception by exactly what the checkpoint
holds beyond the entries it claims; when it holds those, there is no difference.
-/

namespace OpenLedger

open Postgres

/-- One side of a stored row. -/
def PeriodBalanceRow.side (direction : Direction) (row : PeriodBalanceRow) : Int :=
  match direction with
  | .debit => row.input
  | .credit => row.output

/-- The entries a close's checkpoint claims. -/
def CloseRow.claims (book : Book) (k : CloseRow) (e : EntryRow) : Bool :=
  checkpointAdmits book k.tenantId k.currency k.endsAt k.computedAtXid k.transactionId e

/-- One side of what a checkpoint claims of an account. -/
def claimedSide (book : Book) (k : CloseRow) (direction : Direction) (accountId : Uuid) : Int :=
  Tally.sumWhere (fun e => k.claims book e && decide (e.accountId = accountId))
    (fun e => e.on direction) book.entries

/-- One side of what it holds. -/
def storedSide (book : Book) (k : CloseRow) (direction : Direction) (accountId : Uuid) : Int :=
  Tally.sumWhere (fun b => decide (b.tenantId = k.tenantId) && decide (b.currency = k.currency) &&
    decide (b.periodCode = k.periodCode) && decide (b.accountId = accountId))
    (PeriodBalanceRow.side direction) book.periodBalances

/-- What the schema promises of the rows the reader joins: every entry is on an
account of its tenant and currency, and a close has one checkpoint row an
account. -/
structure Book.Joined (book : Book) : Prop where
  onAccount : ∀ e ∈ book.entries, (book.account? e.tenantId e.accountId e.currency).isSome
  pkPeriodBalances : UniqueIndex.Holds PeriodBalanceRow.primaryKey book.periodBalances

/-- No entry of a closing transaction carries a writer above the transaction's
own. -/
def Book.ClosesOwn (book : Book) : Prop :=
  ∀ k ∈ book.closes, ∀ kx, book.transaction? k.tenantId k.transactionId = some kx →
    ∀ e ∈ book.entries, e.tenantId = k.tenantId → e.transactionId = k.transactionId →
      e.xactId ≤ kx.xactId

/-- A checkpoint holds exactly what it claims: every row its account's sums, and
a row wherever there is an entry. -/
structure CloseRow.Exact (book : Book) (k : CloseRow) : Prop where
  sums : ∀ row ∈ book.periodBalances, row.OfClose k →
    row.input = claimedSide book k .debit row.accountId ∧
      row.output = claimedSide book k .credit row.accountId
  complete : ∀ e ∈ book.entries, k.claims book e = true →
    ∃ row ∈ book.periodBalances, row.OfClose k ∧ row.accountId = e.accountId

instance (row : PeriodBalanceRow) (close : CloseRow) : Decidable (row.OfClose close) :=
  decidable_of_iff (row.tenantId = close.tenantId ∧ row.periodCode = close.periodCode ∧
      row.currency = close.currency)
    ⟨fun ⟨tenant, code, currency⟩ => ⟨tenant, code, currency⟩,
      fun ofClose => ⟨ofClose.tenant, ofClose.code, ofClose.currency⟩⟩

instance (book : Book) (k : CloseRow) : Decidable (k.Exact book) :=
  decidable_of_iff ((∀ row ∈ book.periodBalances, row.OfClose k →
      row.input = claimedSide book k .debit row.accountId ∧
        row.output = claimedSide book k .credit row.accountId) ∧
      ∀ e ∈ book.entries, k.claims book e = true →
        ∃ row ∈ book.periodBalances, row.OfClose k ∧ row.accountId = e.accountId)
    ⟨fun ⟨sums, complete⟩ => ⟨sums, complete⟩, fun exact_ => ⟨exact_.sums, exact_.complete⟩⟩

/-- The schema joins a kept book's rows. -/
theorem Kept.joined {book : Book} (kept : Kept book) : book.Joined where
  onAccount := kept.onAccount
  pkPeriodBalances := kept.pkPeriodBalances

/-- The entries of a closing transaction carry its own id. -/
theorem Kept.closesOwn {book : Book} (kept : Kept book) : book.ClosesOwn := by
  intro k _ kx found e member sameTenant sameTxn
  obtain ⟨x, isThere, belongs⟩ := kept.belongs e member
  have isX := kept.transaction?_of_mem isThere
  rw [belongs.tenant, belongs.id, sameTenant, sameTxn, found] at isX
  rw [belongs.xactId, Option.some.inj isX]

section Terms

variable {book : Book} {tenantId : String} {asOf : ReportInstant} {cursor : Xid}
  {currency : String}

/-- A side of the position is the sum of its terms. -/
theorem sideAt_eq (direction : Direction) (accountId : Uuid) :
    sideAt (checkpointPosition book tenantId asOf cursor) direction currency accountId =
      Tally.sumWhere (fun t : PositionRow =>
        decide ((t.currency, t.accountId) = (currency, accountId)))
        (PositionRow.side direction) (positionTerms book tenantId asOf cursor) := by
  have sameKey : (fun row : PositionRow =>
      decide (row.currency = currency) && decide (row.accountId = accountId)) =
        fun row => decide ((row.currency, row.accountId) = (currency, accountId)) := by
    funext row
    simp
  unfold sideAt checkpointPosition
  dsimp only
  rw [sameKey, Tally.find?_map_grouped (fun row : PositionRow => (row.currency, row.accountId)) _
    fun _ => rfl]
  by_cases listed : (currency, accountId) ∈ ((positionTerms book tenantId asOf cursor).map
      fun t => (t.currency, t.accountId)).dedup
  · rw [if_pos listed]
    cases direction <;> rfl
  · rw [if_neg listed]
    refine (Tally.sumWhere_eq_zero fun t member => ?_).symm
    rw [decide_eq_false_iff_not]
    intro same
    exact listed (List.mem_dedup.mpr (List.mem_map.mpr ⟨t, member, same⟩))

/-- One side of an account's terms. -/
def termSide (direction : Direction) (accountId : Uuid) (terms : List PositionRow) : Int :=
  Tally.sumWhere (fun t => decide (t.accountId = accountId)) (PositionRow.side direction) terms

/-- Terms read anchor by anchor: those of a currency are its own anchor's. -/
theorem sum_over_anchors {terms : Anchor → List PositionRow}
    (ofAnchor : ∀ a, ∀ t ∈ terms a, t.currency = a.currency)
    (held : ∃ l ∈ book.accounts, l.tenantId = tenantId ∧ l.currency = currency)
    (direction : Direction) (accountId : Uuid) :
    Tally.sumWhere (fun t : PositionRow =>
        decide ((t.currency, t.accountId) = (currency, accountId)))
        (PositionRow.side direction)
        ((checkpointAnchor book tenantId asOf cursor).flatMap terms) =
      termSide direction accountId
        (terms (Anchor.of currency (anchorOf book tenantId currency asOf cursor))) := by
  have listed : currency ∈ ((book.accounts.filter fun l =>
      decide (l.tenantId = tenantId)).map AccountRow.currency).dedup := by
    obtain ⟨l, member, ofTenant, isCurrency⟩ := held
    rw [List.mem_dedup, ← isCurrency]
    exact List.mem_map_of_mem (List.mem_filter.mpr ⟨member, decide_eq_true ofTenant⟩)
  rw [Tally.sumWhere_flatMap, checkpointAnchor, List.map_map]
  rw [← Tally.sum_map_single (List.nodup_dedup _) (termSide _ _ _) listed]
  refine congrArg List.sum (List.map_congr_left fun other _ => ?_)
  by_cases same : currency = other
  · subst same
    rw [if_pos rfl]
    refine Tally.sumWhere_congr (fun t member => ?_) fun _ _ _ => rfl
    have isCurrency := ofAnchor _ t member
    simp only [Prod.mk.injEq, isCurrency, Anchor.of, true_and]
  · rw [if_neg same]
    refine Tally.sumWhere_eq_zero fun t member => ?_
    have isOther := ofAnchor _ t member
    rw [decide_eq_false_iff_not, Prod.mk.injEq, isOther]
    exact fun both => same both.1.symm

end Terms

section Partition

variable {book : Book} {tenantId : String} {asOf : ReportInstant} {cursor : Xid}
  {currency : String}

/-- What may anchor a report. -/
theorem anchorOf_spec {k : CloseRow}
    (anchored : anchorOf book tenantId currency asOf cursor = some k) :
    k ∈ book.closes ∧ k.tenantId = tenantId ∧ k.currency = currency ∧
      asOf.covers k.endsAt = true ∧ k.computedAtXid ≤ cursor ∧
      ∃ kx, book.transaction? k.tenantId k.transactionId = some kx ∧ kx.xactId < cursor := by
  have listed := List.mem_of_mem_head? anchored
  rw [List.mem_insertionSort, List.mem_filter] at listed
  obtain ⟨member, may⟩ := listed
  simp only [mayAnchor, Bool.and_eq_true, decide_eq_true_eq, Option.any_eq_true] at may
  obtain ⟨⟨⟨⟨ofTenant, isCurrency⟩, covers⟩, below⟩, kx, found, seen⟩ := may
  exact ⟨member, ofTenant, isCurrency, covers, below, kx, found, seen⟩

/-- An entry's terms are its two sides. -/
theorem sum_of_terms (keep : EntryRow → Bool) (direction : Direction) (accountId : Uuid)
    (entries : List EntryRow) :
    termSide direction accountId ((entries.filter keep).map EntryRow.term) =
      Tally.sumWhere (fun e => keep e && decide (e.accountId = accountId))
        (fun e => e.on direction) entries := by
  rw [termSide, Tally.sumWhere_map, Tally.sumWhere_filter]
  refine Tally.sumWhere_congr (fun _ _ => rfl) fun e _ _ => ?_
  cases direction <;> rfl

/-- The three terms of an anchor. -/
def anchoredSide (book : Book) (tenantId : String) (asOf : ReportInstant) (cursor : Xid)
    (a : Anchor) (direction : Direction) (accountId : Uuid) : Int :=
  termSide direction accountId (checkpointTerms book tenantId a) +
    termSide direction accountId (tailA book tenantId asOf cursor a) +
    termSide direction accountId (tailB book tenantId cursor a)

theorem currency_of_checkpointTerms (a : Anchor) :
    ∀ t ∈ checkpointTerms book tenantId a, t.currency = a.currency := by
  intro t member
  obtain ⟨b, isRow, rfl⟩ := List.mem_map.mp member
  have keeps := (List.mem_filter.mp isRow).2
  simp only [Bool.and_eq_true, decide_eq_true_eq] at keeps
  exact keeps.1.2

theorem currency_of_tailA (a : Anchor) :
    ∀ t ∈ tailA book tenantId asOf cursor a, t.currency = a.currency := by
  intro t member
  obtain ⟨e, isTail, rfl⟩ := List.mem_map.mp member
  have keeps := (List.mem_filter.mp isTail).2
  simp only [Bool.and_eq_true, decide_eq_true_eq] at keeps
  exact keeps.1.1.1.1.2

theorem currency_of_tailB (a : Anchor) :
    ∀ t ∈ tailB book tenantId cursor a, t.currency = a.currency := by
  intro t member
  obtain ⟨e, isTail, rfl⟩ := List.mem_map.mp member
  have keeps := (List.mem_filter.mp isTail).2
  simp only [Bool.and_eq_true, decide_eq_true_eq] at keeps
  exact keeps.1.1.1.1.1.2

/-- A tenant's position in a currency it holds is its anchor's three terms. -/
theorem sideAt_of_held
    (held : ∃ l ∈ book.accounts, l.tenantId = tenantId ∧ l.currency = currency)
    (direction : Direction) (accountId : Uuid) :
    sideAt (checkpointPosition book tenantId asOf cursor) direction currency accountId =
      anchoredSide book tenantId asOf cursor
        (Anchor.of currency (anchorOf book tenantId currency asOf cursor)) direction
        accountId := by
  rw [sideAt_eq, positionTerms, Tally.sumWhere_append, Tally.sumWhere_append,
    sum_over_anchors currency_of_checkpointTerms held,
    sum_over_anchors currency_of_tailA held, sum_over_anchors currency_of_tailB held]
  rfl

/-- Without a close, everything is in tail A. -/
theorem anchoredSide_none (direction : Direction) (accountId : Uuid) :
    anchoredSide book tenantId asOf cursor (Anchor.of currency none) direction accountId =
      inceptionSide book tenantId asOf cursor direction currency accountId := by
  have noCheckpoint : checkpointTerms book tenantId (Anchor.of currency none) = [] := by
    rw [checkpointTerms, List.map_eq_nil_iff, List.filter_eq_nil_iff]
    intro b _
    simp [Anchor.of]
  have noTailB : tailB book tenantId cursor (Anchor.of currency none) = [] := by
    rw [tailB, List.map_eq_nil_iff, List.filter_eq_nil_iff]
    intro e _
    simp [Anchor.of, ReportInstant.isAfter]
  rw [anchoredSide, noCheckpoint, noTailB, termSide, Tally.sumWhere_nil, zero_add, add_zero,
    tailA, sum_of_terms, inceptionSide]
  refine Tally.sumWhere_congr (fun e _ => ?_) fun _ _ _ => rfl
  rw [Bool.eq_iff_iff]
  simp only [inceptionAdmits, Bool.and_eq_true, decide_eq_true_eq]
  simp only [Anchor.of, Option.map_none, Option.getD_none, ReportInstant.isReachedBy, and_true]
  tauto

/-- Stored rows are read as what their close stores. -/
theorem sum_of_checkpointTerms {k : CloseRow} (ofTenant : k.tenantId = tenantId)
    (isCurrency : k.currency = currency) (direction : Direction) (accountId : Uuid) :
    termSide direction accountId
        (checkpointTerms book tenantId (Anchor.of currency (some k))) =
      storedSide book k direction accountId := by
  rw [termSide, checkpointTerms, Tally.sumWhere_map, Tally.sumWhere_filter, storedSide]
  refine Tally.sumWhere_congr (fun b _ => ?_) fun b _ _ => ?_
  · rw [Bool.eq_iff_iff]
    simp only [Bool.and_eq_true, decide_eq_true_eq, ofTenant, isCurrency]
    simp only [Anchor.of, Option.map_some, Option.some.injEq]
  · cases direction <;> rfl

/-- What a close's checkpoint claims and the two tails, together, are what is
summed from inception. -/
theorem claims_and_tails {k : CloseRow} (closesOwn : book.ClosesOwn)
    (anchored : anchorOf book tenantId currency asOf cursor = some k)
    (direction : Direction) (accountId : Uuid) :
    inceptionSide book tenantId asOf cursor direction currency accountId =
      claimedSide book k direction accountId +
        (termSide direction accountId
            (tailA book tenantId asOf cursor (Anchor.of currency (some k))) +
          termSide direction accountId
            (tailB book tenantId cursor (Anchor.of currency (some k)))) := by
  obtain ⟨member, ofTenant, isCurrency, covers, below, kx, found, seen⟩ := anchorOf_spec anchored
  have early : ∀ e : EntryRow, e.effectiveAt < k.endsAt → asOf.isAfter e.effectiveAt = true :=
    fun e before => ReportInstant.isAfter_of_covers covers before
  have own : ∀ e ∈ book.entries, e.tenantId = tenantId → e.transactionId = k.transactionId →
      e.xactId < cursor := fun e isThere sameTenant sameTxn =>
    lt_of_le_of_lt (closesOwn k member kx found e isThere (sameTenant.trans ofTenant.symm) sameTxn)
      seen
  rw [tailA, tailB, sum_of_terms, sum_of_terms, inceptionSide,
    Tally.sumWhere_split _ (fun e => k.claims book e),
    Tally.sumWhere_split (fun e => _ && !k.claims book e) (fun e => decide (k.endsAt ≤ e.effectiveAt)),
    claimedSide]
  congr 1
  · refine Tally.sumWhere_congr (fun e isThere => ?_) fun _ _ _ => rfl
    rw [Bool.eq_iff_iff]
    simp only [inceptionAdmits, CloseRow.claims, checkpointAdmits, Bool.and_eq_true,
      Bool.or_eq_true, decide_eq_true_eq, ofTenant, isCurrency]
    constructor
    · rintro ⟨⟨⟨_, _⟩, isAccount⟩, claims⟩
      exact ⟨claims, isAccount⟩
    · rintro ⟨⟨⟨⟨⟨sameTenant, sameCurrency⟩, posted⟩, before⟩, counted⟩, isAccount⟩
      have isBelow : e.xactId < cursor := by
        rcases counted with isBefore | isOwn
        · exact isBefore.trans_le below
        · exact own e isThere sameTenant isOwn
      exact ⟨⟨⟨⟨⟨⟨sameTenant, posted⟩, early e before⟩, isBelow⟩, sameCurrency⟩, isAccount⟩,
        ⟨⟨⟨sameTenant, sameCurrency⟩, posted⟩, before⟩, counted⟩
  · congr 1
    · refine Tally.sumWhere_congr (fun e isThere => ?_) fun _ _ _ => rfl
      rw [Bool.eq_iff_iff]
      simp only [inceptionAdmits, CloseRow.claims, checkpointAdmits, Bool.and_eq_true,
        Bool.not_eq_true', Bool.and_eq_false_iff, decide_eq_true_eq, decide_eq_false_iff_not,
        not_lt]
      simp only [Anchor.of, Option.map_some, Option.getD_some, ReportInstant.isReachedBy_at,
        decide_eq_true_eq]
      tauto
    · refine Tally.sumWhere_congr (fun e isThere => ?_) fun _ _ _ => rfl
      rw [Bool.eq_iff_iff]
      simp only [inceptionAdmits, CloseRow.claims, checkpointAdmits, Bool.and_eq_true,
        Bool.or_eq_true, Bool.not_eq_true', Bool.and_eq_false_iff, Bool.or_eq_false_iff,
        decide_eq_true_eq, decide_eq_false_iff_not, not_lt, not_le, ofTenant, isCurrency]
      simp only [Anchor.of, Option.map_some, Option.getD_some, ReportInstant.isAfter_at,
        decide_eq_true_eq, Option.isNone_some, Bool.false_eq_true, false_or, ne_eq,
        Option.some.injEq]
      have isEarly := early e
      constructor
      · rintro ⟨⟨⟨⟨⟨⟨⟨ofT, posted⟩, _⟩, isBelow⟩, inC⟩, isAccount⟩, unclaimed⟩, before⟩
        have isTail : k.computedAtXid ≤ e.xactId ∧ ¬ e.transactionId = k.transactionId := by
          rcases unclaimed with (((notT | notC) | notPosted) | late) | isTail
          · exact absurd ofT notT
          · exact absurd inC notC
          · rw [posted] at notPosted
            cases notPosted
          · exact absurd before (not_lt.mpr late)
          · exact isTail
        exact ⟨⟨⟨⟨⟨⟨⟨ofT, inC⟩, before⟩, isTail.1⟩, isBelow⟩, isTail.2⟩, posted⟩, isAccount⟩
      · rintro ⟨⟨⟨⟨⟨⟨⟨ofT, inC⟩, before⟩, arrived⟩, isBelow⟩, notOwn⟩, posted⟩, isAccount⟩
        exact ⟨⟨⟨⟨⟨⟨⟨ofT, posted⟩, isEarly before⟩, isBelow⟩, inC⟩, isAccount⟩,
          Or.inr ⟨arrived, notOwn⟩⟩, before⟩

end Partition

section Exactness

variable {book : Book} {tenantId : String} {asOf : ReportInstant} {cursor : Xid}
  {currency : String}

/-- An exact checkpoint holds what it claims, account by account. -/
theorem storedSide_of_exact
    (pkPeriodBalances : UniqueIndex.Holds PeriodBalanceRow.primaryKey book.periodBalances)
    {k : CloseRow} (exact_ : k.Exact book) (direction : Direction) (accountId : Uuid) :
    storedSide book k direction accountId = claimedSide book k direction accountId := by
  unfold storedSide
  by_cases stored : ∃ row ∈ book.periodBalances, row.OfClose k ∧ row.accountId = accountId
  · obtain ⟨row, member, ofClose, rfl⟩ := stored
    have alone : (book.periodBalances.filter fun b =>
        decide (b.tenantId = k.tenantId) && decide (b.currency = k.currency) &&
          decide (b.periodCode = k.periodCode) && decide (b.accountId = row.accountId)) =
        [row] := by
      refine UniqueIndex.filter_of_mem pkPeriodBalances member rfl fun other => ?_
      simp only [PeriodBalanceRow.primaryKey, Bool.and_eq_true, decide_eq_true_eq,
        Option.some.injEq, Prod.mk.injEq, ofClose.tenant, ofClose.code, ofClose.currency]
      tauto
    rw [Tally.sumWhere, alone, List.map_singleton, List.sum_singleton]
    obtain ⟨input, output⟩ := exact_.sums row member ofClose
    cases direction with
    | debit =>
        exact input
    | credit =>
        exact output
  · have noRow : ∀ b ∈ book.periodBalances, (decide (b.tenantId = k.tenantId) &&
        decide (b.currency = k.currency) && decide (b.periodCode = k.periodCode) &&
          decide (b.accountId = accountId)) = false := by
      intro b member
      rw [Bool.eq_false_iff]
      intro keeps
      simp only [Bool.and_eq_true, decide_eq_true_eq] at keeps
      obtain ⟨⟨⟨ofTenant, ofCurrency⟩, ofCode⟩, isAccount⟩ := keeps
      exact stored ⟨b, member, ⟨ofTenant, ofCode, ofCurrency⟩, isAccount⟩
    have noClaim : ∀ e ∈ book.entries,
        (k.claims book e && decide (e.accountId = accountId)) = false := by
      intro e member
      rw [Bool.eq_false_iff]
      intro keeps
      simp only [Bool.and_eq_true, decide_eq_true_eq] at keeps
      obtain ⟨row, isRow, ofClose, sameAccount⟩ := exact_.complete e member keeps.1
      exact stored ⟨row, isRow, ofClose, sameAccount.trans keeps.2⟩
    rw [Tally.sumWhere_eq_zero noRow, claimedSide, Tally.sumWhere_eq_zero noClaim]

/-- In a currency no account of the tenant holds there is nothing to read. -/
theorem sideAt_of_not_held
    (held : ¬ ∃ l ∈ book.accounts, l.tenantId = tenantId ∧ l.currency = currency)
    (direction : Direction) (accountId : Uuid) :
    sideAt (checkpointPosition book tenantId asOf cursor) direction currency accountId = 0 := by
  have noAnchor : ∀ {terms : Anchor → List PositionRow},
      (∀ a, ∀ t ∈ terms a, t.currency = a.currency) →
      ∀ t ∈ (checkpointAnchor book tenantId asOf cursor).flatMap terms, t.currency ≠ currency := by
    intro terms ofAnchor t member same
    obtain ⟨a, isAnchor, inTerms⟩ := List.mem_flatMap.mp member
    obtain ⟨other, isHeld, rfl⟩ := List.mem_map.mp isAnchor
    obtain ⟨l, isAccount, rfl⟩ := List.mem_map.mp (List.mem_dedup.mp isHeld)
    obtain ⟨isThere, ofTenant⟩ := List.mem_filter.mp isAccount
    have isCurrency : l.currency = currency := (ofAnchor _ t inTerms).symm.trans same
    exact held ⟨l, isThere, of_decide_eq_true ofTenant, isCurrency⟩
  rw [sideAt_eq, positionTerms]
  refine Tally.sumWhere_eq_zero fun t member => ?_
  rw [decide_eq_false_iff_not, Prod.mk.injEq]
  rintro ⟨same, _⟩
  rcases List.mem_append.mp member with inHead | inTailB
  · rcases List.mem_append.mp inHead with inCheckpoint | inTailA
    · exact noAnchor currency_of_checkpointTerms t inCheckpoint same
    · exact noAnchor currency_of_tailA t inTailA same
  · exact noAnchor currency_of_tailB t inTailB same

/-- Nothing of the tenant is in a currency none of its accounts hold. -/
theorem inceptionSide_of_not_held (joined : book.Joined)
    (held : ¬ ∃ l ∈ book.accounts, l.tenantId = tenantId ∧ l.currency = currency)
    (direction : Direction) (accountId : Uuid) :
    inceptionSide book tenantId asOf cursor direction currency accountId = 0 := by
  refine Tally.sumWhere_eq_zero fun e member => ?_
  rw [Bool.eq_false_iff]
  intro keeps
  simp only [inceptionAdmits, Bool.and_eq_true, decide_eq_true_eq] at keeps
  obtain ⟨⟨⟨⟨⟨ofTenant, _⟩, _⟩, _⟩, inCurrency⟩, _⟩ := keeps
  obtain ⟨l, found⟩ := Option.isSome_iff_exists.mp (joined.onAccount e member)
  have isAccount := List.find?_some found
  simp only [Bool.and_eq_true, decide_eq_true_eq] at isAccount
  exact held ⟨l, List.mem_of_find?_eq_some found, isAccount.1.1.trans ofTenant,
    isAccount.2.trans inCurrency⟩

/-- What is read is what is summed from inception, whichever close anchors it. -/
theorem sideAt_eq_inceptionSide (joined : book.Joined) (closesOwn : book.ClosesOwn)
    (exact_ : ∀ k ∈ book.closes, k.Exact book) (direction : Direction) (accountId : Uuid) :
    sideAt (checkpointPosition book tenantId asOf cursor) direction currency accountId =
      inceptionSide book tenantId asOf cursor direction currency accountId := by
  by_cases held : ∃ l ∈ book.accounts, l.tenantId = tenantId ∧ l.currency = currency
  · rw [sideAt_of_held held]
    cases anchored : anchorOf book tenantId currency asOf cursor with
    | none =>
        exact anchoredSide_none direction accountId
    | some k =>
        obtain ⟨member, ofTenant, isCurrency, _⟩ := anchorOf_spec anchored
        have holds := storedSide_of_exact joined.pkPeriodBalances (exact_ k member) direction
          accountId
        rw [claims_and_tails closesOwn anchored, ← holds, anchoredSide,
          sum_of_checkpointTerms ofTenant isCurrency, add_assoc]
  · rw [sideAt_of_not_held held, inceptionSide_of_not_held joined held]

end Exactness

/-- A position has one row an account and currency. -/
theorem keys_of_position (book : Book) (tenantId : String) (asOf : ReportInstant)
    (cursor : Xid) :
    ((checkpointPosition book tenantId asOf cursor).map fun row =>
      (row.currency, row.accountId)).Nodup := by
  rw [checkpointPosition, List.map_map]
  have isKey : ((fun row : PositionRow => (row.currency, row.accountId)) ∘
      fun key : String × Uuid => (⟨key.1, key.2,
        Tally.sumWhere (fun t => decide ((t.currency, t.accountId) = key)) PositionRow.debits
          (positionTerms book tenantId asOf cursor),
        Tally.sumWhere (fun t => decide ((t.currency, t.accountId) = key)) PositionRow.credits
          (positionTerms book tenantId asOf cursor)⟩ : PositionRow)) = id := rfl
  refine (congrArg List.Nodup (congrFun (congrArg List.map isKey) _)).mpr ?_
  rw [List.map_id]
  exact List.nodup_dedup _

/-- Where every checkpoint holds exactly what it claims, the position read from
one of them and two tails is the sum since inception, for every instant and
cursor, provided no entry of a closing transaction was written after it. -/
theorem checkpointed_position_is_from_inception (book : Book) (joined : book.Joined)
    (closesOwn : book.ClosesOwn) (exact_ : ∀ k ∈ book.closes, k.Exact book)
    (tenantId : String) (asOf : ReportInstant) (cursor : Xid) :
    ((checkpointPosition book tenantId asOf cursor).map fun row =>
      (row.currency, row.accountId)).Nodup ∧
    ∀ direction currency accountId,
      sideAt (checkpointPosition book tenantId asOf cursor) direction currency accountId =
        inceptionSide book tenantId asOf cursor direction currency accountId :=
  ⟨keys_of_position book tenantId asOf cursor, fun direction _ accountId =>
    sideAt_eq_inceptionSide joined closesOwn exact_ direction accountId⟩

namespace Shop

/-- A closed period whose two closing legs were written by 9, after the close's own
transaction 5. -/
def closedBook : Book :=
  { Book.empty chart with
    transactions := [⟨"shop", uuid 5100, uuid 5000, "period_close", .posted, 999, none, none, 5⟩]
    accounts := [
      ⟨"shop", fees, .house, none, "fees", .revenue, .credit, .none, "USD", 1, .object [], 0⟩,
      ⟨"shop", retainedEarnings, .house, none, "retained_earnings", .equity, .credit, .none,
        "USD", 1, .object [], 0⟩]
    entries := [
      ⟨"shop", uuid 5200, uuid 5100, fees, .debit, 100, "USD", 0, 1, 999, 9⟩,
      ⟨"shop", uuid 5201, uuid 5100, retainedEarnings, .credit, 100, "USD", 0, 1, 999, 9⟩]
    periods := [⟨"shop", "first", 0, 1000, "UTC"⟩]
    closes := [⟨"shop", "first", "USD", 0, 1000, uuid 5100, 999, 5⟩]
    periodBalances := [
      ⟨"shop", "first", "USD", fees, 100, 0⟩,
      ⟨"shop", "first", "USD", retainedEarnings, 0, 100⟩] }

theorem closedBook_joined : closedBook.Joined where
  onAccount := by
    intro e member
    simp only [closedBook, List.mem_cons, List.not_mem_nil, or_false] at member
    rcases member with rfl | rfl <;> rfl
  pkPeriodBalances := by
    unfold UniqueIndex.Holds
    decide

/-- Two legs written by 9 into a close of 5: a report at 7 reads them in the
checkpoint, and they are not there yet. -/
theorem leg_written_later_is_read_early :
    ¬ ∀ book : Book, book.Joined → (∀ k ∈ book.closes, k.Exact book) →
      ∀ tenantId asOf cursor direction currency accountId,
        sideAt (checkpointPosition book tenantId asOf cursor) direction currency accountId =
          inceptionSide book tenantId asOf cursor direction currency accountId := by
  intro holds
  have exact_ : ∀ k ∈ closedBook.closes, k.Exact closedBook := by decide
  have wrong := holds closedBook closedBook_joined exact_ "shop" (.at 2000) 7 .debit "USD" fees
  revert wrong
  decide

/-- The newer of the year's two closes. -/
def secondAnchor : Anchor := ⟨"USD", some "second", .at 2000, 9, some (uuid 9100)⟩

/-- The year read from its second close, a fee that came late and one that came after. -/
theorem yearBook_position :
    (checkpointAnchor yearBook "shop" (.at 3000) 12 = [secondAnchor] ∧
      tailA yearBook "shop" (.at 3000) 12 secondAnchor =
        [⟨"USD", fees, 0, 9⟩, ⟨"USD", till, 9, 0⟩] ∧
      tailB yearBook "shop" 12 secondAnchor =
        [⟨"USD", fees, 0, 5⟩, ⟨"USD", till, 5, 0⟩] ∧
      checkpointPosition yearBook "shop" (.at 3000) 12 =
        [⟨"USD", retainedEarnings, 0, 100⟩, ⟨"USD", fees, 100, 114⟩, ⟨"USD", till, 114, 0⟩]) ∧
    ((checkpointPosition yearBook "shop" (.at 3000) 12).map fun row =>
      (row.currency, row.accountId)).Nodup ∧
    ∀ direction currency accountId,
      sideAt (checkpointPosition yearBook "shop" (.at 3000) 12) direction currency accountId =
        inceptionSide yearBook "shop" (.at 3000) 12 direction currency accountId := by
  have kept := kept_of_reachable yearBook_reachable
  have exact_ : ∀ k ∈ yearBook.closes, k.Exact yearBook := by decide +kernel
  have read : checkpointAnchor yearBook "shop" (.at 3000) 12 = [secondAnchor] ∧
      tailA yearBook "shop" (.at 3000) 12 secondAnchor =
        [⟨"USD", fees, 0, 9⟩, ⟨"USD", till, 9, 0⟩] ∧
      tailB yearBook "shop" 12 secondAnchor =
        [⟨"USD", fees, 0, 5⟩, ⟨"USD", till, 5, 0⟩] ∧
      checkpointPosition yearBook "shop" (.at 3000) 12 =
        [⟨"USD", retainedEarnings, 0, 100⟩, ⟨"USD", fees, 100, 114⟩,
          ⟨"USD", till, 114, 0⟩] := by
    decide +kernel
  exact ⟨read, checkpointed_position_is_from_inception yearBook kept.joined kept.closesOwn exact_
    "shop" (.at 3000) 12⟩

end Shop

end OpenLedger
