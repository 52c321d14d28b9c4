import OpenLedger.Reports.CheckpointBreaks

/-!
# Differences against levels

A checkpoint is cumulative, so while the closes nest the rows of an account
differ from one close to the next by what arrived in between.  The bounded check
compares those differences, the level form compares the rows themselves, and
the two lists are empty together.
-/

namespace OpenLedger

open Join

/-- What the schema promises of the closes and their stored rows: the keys, and
periods that do not overlap. -/
structure Book.ClosesKeyed (book : Book) : Prop where
  pkCloses : UniqueIndex.Holds CloseRow.primaryKey book.closes
  uqClosesTxn : UniqueIndex.Holds CloseRow.transactionKey book.closes
  pkPeriodBalances : UniqueIndex.Holds PeriodBalanceRow.primaryKey book.periodBalances
  endsApart : ∀ left ∈ book.closes, ∀ right ∈ book.closes, left.partition = right.partition →
    left.endsAt = right.endsAt → left = right

section Numbering

variable {book : Book} {partition : Partition}

theorem mem_closesByEnd {c : CloseRow} :
    c ∈ closesByEnd book partition ↔ c ∈ book.closes ∧ c.partition = partition := by
  rw [closesByEnd, List.mem_insertionSort, List.mem_filter, decide_eq_true_eq]

/-- The periods of a partition's closes end one after another. -/
theorem closesByEnd_ascend (keyed : book.ClosesKeyed) :
    (closesByEnd book partition).Pairwise fun left right => left.endsAt < right.endsAt := by
  have sorted : (closesByEnd book partition).Pairwise fun left right =>
      left.endsAt ≤ right.endsAt := by
    let ascends := fun left right : CloseRow => left.endsAt ≤ right.endsAt
    have total : Std.Total ascends := ⟨fun left right => le_total left.endsAt right.endsAt⟩
    have transitive : IsTrans CloseRow ascends := ⟨fun _ _ _ => le_trans⟩
    exact List.pairwise_insertionSort ascends _
  have distinct : (closesByEnd book partition).Nodup := by
    refine (List.perm_insertionSort _ _).nodup_iff.mpr (List.Nodup.filter _ ?_)
    have keys := keyed.pkCloses
    unfold UniqueIndex.Holds CloseRow.primaryKey at keys
    rw [List.filterMap_eq_map'] at keys
    exact List.Nodup.of_map _ keys
  refine (List.pairwise_and_iff.mpr ⟨sorted, distinct⟩).imp_of_mem ?_
  rintro left right leftMember rightMember ⟨inOrder, different⟩
  obtain ⟨leftClose, leftOf⟩ := mem_closesByEnd.mp leftMember
  obtain ⟨rightClose, rightOf⟩ := mem_closesByEnd.mp rightMember
  refine lt_of_le_of_ne inOrder fun same => different ?_
  exact keyed.endsApart left leftClose right rightClose (leftOf.trans rightOf.symm) same

theorem mem_numberedCloses {n : NumberedClose} :
    n ∈ numberedCloses book partition ↔
      1 ≤ n.k ∧ (closesByEnd book partition)[n.k - 1]? = some n.close := by
  rw [numberedCloses, List.mem_map, ← List.mk_mem_zipIdx_iff_le_and_getElem?_sub]
  constructor
  · rintro ⟨pair, member, rfl⟩
    exact member
  · intro member
    exact ⟨_, member, rfl⟩

theorem partition_of_numbered {n : NumberedClose} (member : n ∈ numberedCloses book partition) :
    n.close.partition = partition :=
  (mem_closesByEnd.mp (List.mem_of_getElem? (mem_numberedCloses.mp member).2)).2

/-- A numbered close stands at its number. -/
theorem mem_cl {n : NumberedClose} :
    n ∈ cl book ↔ 1 ≤ n.k ∧ (closesByEnd book n.close.partition)[n.k - 1]? = some n.close := by
  rw [cl, List.mem_flatMap]
  constructor
  · rintro ⟨other, -, member⟩
    obtain rfl := partition_of_numbered member
    exact mem_numberedCloses.mp member
  · intro stands
    refine ⟨_, ?_, mem_numberedCloses.mpr stands⟩
    have isClose := (mem_closesByEnd.mp (List.mem_of_getElem? stands.2)).1
    exact List.mem_dedup.mpr (List.mem_map_of_mem isClose)

theorem close_of_cl {n : NumberedClose} (member : n ∈ cl book) : n.close ∈ book.closes :=
  (mem_closesByEnd.mp (List.mem_of_getElem? (mem_cl.mp member).2)).1

theorem k_bounds {n : NumberedClose} (member : n ∈ cl book) :
    1 ≤ n.k ∧ n.k ≤ (closesByEnd book n.close.partition).length := by
  obtain ⟨positive, stands⟩ := mem_cl.mp member
  have inside := (List.getElem?_eq_some_iff.mp stands).1
  omega

theorem exists_numbered {c : CloseRow} (isClose : c ∈ book.closes) :
    ∃ n ∈ cl book, n.close = c := by
  obtain ⟨place, inside, stands⟩ := List.mem_iff_getElem.mp
    (mem_closesByEnd.mpr ⟨isClose, rfl⟩ : c ∈ closesByEnd book c.partition)
  refine ⟨⟨c, place + 1⟩, mem_cl.mpr ⟨Nat.le_add_left 1 place, ?_⟩, rfl⟩
  rw [Nat.add_sub_cancel, List.getElem?_eq_getElem inside, stands]

theorem exists_at {k : Nat} (positive : 1 ≤ k) (upTo : k ≤ (closesByEnd book partition).length) :
    ∃ n ∈ cl book, n.close.partition = partition ∧ n.k = k := by
  have inside : k - 1 < (closesByEnd book partition).length := by omega
  have isOf := (mem_closesByEnd.mp (List.getElem_mem inside)).2
  refine ⟨⟨(closesByEnd book partition)[k - 1], k⟩, mem_cl.mpr ⟨positive, ?_⟩, isOf, rfl⟩
  dsimp only
  rw [isOf, List.getElem?_eq_getElem inside]

/-- The numbers go up with the ends. -/
theorem k_lt_iff (keyed : book.ClosesKeyed) {left right : NumberedClose}
    (leftMember : left ∈ cl book) (rightMember : right ∈ cl book)
    (same : left.close.partition = right.close.partition) :
    left.k < right.k ↔ left.close.endsAt < right.close.endsAt := by
  obtain ⟨leftPositive, leftStands⟩ := mem_cl.mp leftMember
  obtain ⟨rightPositive, rightStands⟩ := mem_cl.mp rightMember
  rw [same] at leftStands
  obtain ⟨leftInside, leftAt⟩ := List.getElem?_eq_some_iff.mp leftStands
  obtain ⟨rightInside, rightAt⟩ := List.getElem?_eq_some_iff.mp rightStands
  have ascend := List.pairwise_iff_getElem.mp
    (@closesByEnd_ascend book right.close.partition keyed)
  constructor
  · intro before
    have ends := ascend _ _ leftInside rightInside (by omega)
    rwa [leftAt, rightAt] at ends
  · intro ends
    by_contra notBefore
    rcases Nat.eq_or_lt_of_le (not_lt.mp notBefore) with equal | after
    · simp only [← equal] at leftAt
      rw [← leftAt, rightAt] at ends
      exact lt_irrefl _ ends
    · have reversed := ascend _ _ rightInside leftInside (by omega)
      rw [leftAt, rightAt] at reversed
      exact lt_asymm ends reversed

theorem numbered_eq_of_close (keyed : book.ClosesKeyed) {left right : NumberedClose}
    (leftMember : left ∈ cl book) (rightMember : right ∈ cl book)
    (same : left.close = right.close) : left = right := by
  have forward := k_lt_iff keyed leftMember rightMember (congrArg _ same)
  have backward := k_lt_iff keyed rightMember leftMember (congrArg _ same.symm)
  rw [same] at forward backward
  have equal : left.k = right.k := by
    have notLess := mt forward.mp (lt_irrefl _)
    have notMore := mt backward.mp (lt_irrefl _)
    omega
  cases left
  cases right
  simp_all

theorem numbered_eq_of_k {left right : NumberedClose}
    (leftMember : left ∈ cl book) (rightMember : right ∈ cl book)
    (same : left.close.partition = right.close.partition) (equal : left.k = right.k) :
    left = right := by
  have leftStands := (mem_cl.mp leftMember).2
  have rightStands := (mem_cl.mp rightMember).2
  rw [same, equal, rightStands, Option.some.injEq] at leftStands
  cases left
  cases right
  simp_all

theorem nodup_cl (keyed : book.ClosesKeyed) : (cl book).Nodup := by
  rw [cl, List.nodup_flatMap]
  constructor
  · intro other _
    have ends := @closesByEnd_ascend book other keyed
    rw [numberedCloses]
    refine List.Nodup.map ?_ ?_
    · rintro ⟨_, _⟩ ⟨_, _⟩ same
      simpa using same
    · refine List.Nodup.of_map Prod.fst ?_
      rw [List.zipIdx_map_fst]
      refine ends.imp ?_
      intro left right before same
      rw [same] at before
      exact lt_irrefl _ before
  · refine (List.nodup_dedup _).imp ?_
    intro left right different n inLeft inRight
    exact different ((partition_of_numbered inLeft).symm.trans (partition_of_numbered inRight))

end Numbering

/-- A leg of the transaction that made the close. -/
def CloseRow.HasLeg (k : CloseRow) (e : EntryRow) : Prop :=
  e.partition = k.partition ∧ e.transactionId = k.transactionId

/-- The checkpoints of a partition nest: the cursors follow the ends, a close's
legs are of its own period or an earlier one, and a later cursor is above
them. -/
structure Book.ClosesNest (book : Book) : Prop extends book.ClosesKeyed where
  cursors : ∀ earlier ∈ book.closes, ∀ later ∈ book.closes,
    earlier.partition = later.partition → earlier.endsAt < later.endsAt →
      earlier.computedAtXid ≤ later.computedAtXid
  legsInTime : ∀ k ∈ book.closes, ∀ e ∈ book.entries, k.HasLeg e → e.effectiveAt < k.endsAt
  legsBelow : ∀ earlier ∈ book.closes, ∀ later ∈ book.closes,
    earlier.partition = later.partition → earlier.endsAt < later.endsAt →
      ∀ e ∈ book.entries, earlier.HasLeg e → e.xactId < later.computedAtXid

instance (k : CloseRow) (e : EntryRow) : Decidable (k.HasLeg e) :=
  inferInstanceAs (Decidable (_ ∧ _))

/-- The order the sweep of the closes asks for: the cursors follow the ends, each
is above the previous close's transaction and stands at its own, and a close's
legs are dated after the period before it and inside its own. -/
structure Book.ClosesOrdered (book : Book) : Prop where
  cursors : ∀ earlier ∈ book.closes, ∀ later ∈ book.closes,
    earlier.partition = later.partition → earlier.endsAt < later.endsAt →
      earlier.computedAtXid ≤ later.computedAtXid
  clears : ∀ earlier ∈ book.closes, ∀ later ∈ book.closes,
    earlier.partition = later.partition → earlier.endsAt < later.endsAt →
      ∀ kx ∈ book.transaction? earlier.tenantId earlier.transactionId,
        kx.xactId < later.computedAtXid
  atOwn : ∀ k ∈ book.closes, ∀ kx ∈ book.transaction? k.tenantId k.transactionId,
    k.computedAtXid = kx.xactId
  legsInTime : ∀ k ∈ book.closes, ∀ e ∈ book.entries, k.HasLeg e → e.effectiveAt < k.endsAt
  legsAfter : ∀ earlier ∈ book.closes, ∀ later ∈ book.closes,
    earlier.partition = later.partition → earlier.endsAt < later.endsAt →
      ∀ e ∈ book.entries, later.HasLeg e → earlier.endsAt ≤ e.effectiveAt

/-- Ordered closes nest when their legs carry their transaction's own id. -/
theorem Book.ClosesOrdered.nest {book : Book} (ordered : book.ClosesOrdered)
    (keyed : book.ClosesKeyed) (closesOwn : book.ClosesOwn)
    (named : ∀ k ∈ book.closes, (book.transaction? k.tenantId k.transactionId).isSome) :
    book.ClosesNest where
  toClosesKeyed := keyed
  cursors := ordered.cursors
  legsInTime := ordered.legsInTime
  legsBelow := by
    intro earlier isEarlier later isLater same before e isEntry hasLeg
    obtain ⟨kx, found⟩ := Option.isSome_iff_exists.mp (named earlier isEarlier)
    have own := closesOwn earlier isEarlier kx found e isEntry (congrArg Prod.fst hasLeg.1)
      hasLeg.2
    exact lt_of_le_of_lt own (ordered.clears earlier isEarlier later isLater same before kx found)

/-- A book the writer keeps is keyed. -/
theorem Kept.closesKeyed {book : Book} (kept : Kept book) : book.ClosesKeyed where
  pkCloses := kept.pkCloses
  uqClosesTxn := kept.uqClosesTxn
  pkPeriodBalances := kept.pkPeriodBalances
  endsApart := by
    intro left isLeft right isRight same ends
    obtain ⟨period, isPeriod, closes⟩ := kept.ofPeriod left isLeft
    obtain ⟨other, isOther, alsoCloses⟩ := kept.ofPeriod right isRight
    have tenant : left.tenantId = right.tenantId := congrArg Prod.fst same
    have overlap : period.Overlaps other := by
      have nonEmpty := kept.periodsNonEmpty period isPeriod
      have alsoNonEmpty := kept.periodsNonEmpty other isOther
      have endTogether : period.endsAt = other.endsAt :=
        closes.endsAt.trans (ends.trans alsoCloses.endsAt.symm)
      exact ⟨closes.tenant.trans (tenant.trans alsoCloses.tenant.symm), endTogether ▸ nonEmpty,
        endTogether ▸ alsoNonEmpty⟩
    have isSame : period = other := by
      by_contra different
      have symmetric : Std.Symm fun left right : PeriodRow => ¬ left.Overlaps right :=
        ⟨fun _ _ apart both => apart both.symm⟩
      exact kept.periodsApart.forall isPeriod isOther different overlap
    refine UniqueIndex.holds_eq kept.pkCloses isLeft isRight
      (k := (right.tenantId, right.periodCode, right.currency)) ?_ rfl
    rw [CloseRow.primaryKey, tenant, ← closes.code, isSame, alsoCloses.code]
    exact congrArg (fun c => some (right.tenantId, right.periodCode, c)) (congrArg Prod.snd same)

/-- A closing leg is its close's transaction's. -/
theorem legOf {book : Book} (kept : Kept book) {k : CloseRow} (isClose : k ∈ book.closes)
    {e : EntryRow} (isEntry : e ∈ book.entries) (hasLeg : k.HasLeg e) :
    ∃ kx, k.ClosedBy kx ∧ e.BelongsTo kx := by
  obtain ⟨kx, isThere, closedBy⟩ := kept.closed k isClose
  obtain ⟨x, alsoThere, belongs⟩ := kept.belongs e isEntry
  have same : x = kx := by
    refine UniqueIndex.holds_eq kept.pkTxn alsoThere isThere
      (k := (kx.tenantId, kx.id)) ?_ rfl
    rw [TransactionRow.primaryKey, belongs.tenant, belongs.id, closedBy.tenant, closedBy.id,
      hasLeg.2]
    exact congrArg (fun t => some (t, k.transactionId)) (congrArg Prod.fst hasLeg.1)
  exact ⟨kx, closedBy, same ▸ belongs⟩

/-- In a book the writer keeps the closes nest as soon as their cursors follow
their ends. -/
theorem Kept.closesNest {book : Book} (kept : Kept book)
    (cursors : ∀ earlier ∈ book.closes, ∀ later ∈ book.closes,
      earlier.partition = later.partition → earlier.endsAt < later.endsAt →
        earlier.computedAtXid < later.computedAtXid) :
    book.ClosesNest where
  toClosesKeyed := kept.closesKeyed
  cursors := fun earlier isEarlier later isLater same before =>
    (cursors earlier isEarlier later isLater same before).le
  legsInTime := by
    intro k isClose e isEntry hasLeg
    obtain ⟨kx, closedBy, belongs⟩ := legOf kept isClose isEntry hasLeg
    rw [belongs.effectiveAt, closedBy.effectiveAt]
    exact (kept.closesInPeriod k isClose).2
  legsBelow := by
    intro earlier isEarlier later isLater same before e isEntry hasLeg
    obtain ⟨kx, closedBy, belongs⟩ := legOf kept isEarlier isEntry hasLeg
    rw [belongs.xactId, closedBy.xactId]
    exact cursors earlier isEarlier later isLater same before

/-- The close an entry is put at. -/
def enters (book : Book) (e : EntryRow) : Option Nat :=
  firstClose e (closeArrays book e.partition) ((cl book).find? (isLegOf e))

/-- Whether an entry is in by the close numbered `k`. -/
def entersBy (book : Book) (k : Nat) (e : EntryRow) : Bool :=
  (enters book e).any fun j => decide (j ≤ k)

section Entering

variable {book : Book}

theorem isLegOf_iff {e : EntryRow} {n : NumberedClose} :
    isLegOf e n = true ↔ n.close.HasLeg e := by
  simp only [isLegOf, Bool.and_eq_true, decide_eq_true_eq, CloseRow.HasLeg, CloseRow.partition,
    EntryRow.partition, Prod.mk.injEq]
  constructor
  · rintro ⟨⟨tenant, currency⟩, id⟩
    exact ⟨⟨tenant.symm, currency.symm⟩, id.symm⟩
  · rintro ⟨⟨tenant, currency⟩, id⟩
    exact ⟨⟨tenant.symm, currency.symm⟩, id.symm⟩

/-- An entry is a leg of at most one close. -/
theorem leg_unique (keyed : book.ClosesKeyed) {e : EntryRow} {left right : NumberedClose}
    (leftMember : left ∈ cl book) (rightMember : right ∈ cl book)
    (leftLeg : isLegOf e left = true) (rightLeg : isLegOf e right = true) : left = right := by
  obtain ⟨leftOf, leftId⟩ := isLegOf_iff.mp leftLeg
  obtain ⟨rightOf, rightId⟩ := isLegOf_iff.mp rightLeg
  refine numbered_eq_of_close keyed leftMember rightMember ?_
  have tenant := congrArg Prod.fst (leftOf.symm.trans rightOf)
  refine UniqueIndex.holds_eq keyed.uqClosesTxn (close_of_cl leftMember)
    (close_of_cl rightMember) (k := (right.close.tenantId, right.close.transactionId)) ?_ rfl
  rw [CloseRow.transactionKey, ← leftId, rightId]
  exact congrArg (fun t => some (t, right.close.transactionId)) tenant

theorem find?_leg (keyed : book.ClosesKeyed) {e : EntryRow} {n : NumberedClose}
    (member : n ∈ cl book) (isLeg : isLegOf e n = true) :
    (cl book).find? (isLegOf e) = some n := by
  cases found : (cl book).find? (isLegOf e) with
  | none =>
      exact absurd isLeg (List.find?_eq_none.mp found n member)
  | some other =>
      rw [leg_unique keyed (List.mem_of_find?_eq_some found) member (List.find?_some found) isLeg]

/-- The later of two bands, or the close the entry is a leg of. -/
theorem firstClose_le_iff {e : EntryRow} {a : CloseArrays} {ci : Option NumberedClose} {k : Nat}
    (upTo : k ≤ a.n) :
    ((firstClose e a ci).any fun j => decide (j ≤ k)) = true ↔
      (Bucket.widthBucket e.effectiveAt a.ends + 1 ≤ k ∧
        Bucket.widthBucket e.xactId a.curs + 1 ≤ k) ∨
      (ci.any fun n => decide (n.k ≤ k)) = true := by
  unfold firstClose nullIf
  generalize Bucket.widthBucket e.effectiveAt a.ends + 1 = byEnd
  generalize Bucket.widthBucket e.xactId a.curs + 1 = byCursor
  by_cases beyond : max byEnd byCursor = a.n + 1
  · rw [if_pos beyond]
    cases ci with
    | none =>
        simp
        omega
    | some n =>
        simp
        omega
  · rw [if_neg beyond]
    cases ci with
    | none =>
        simp
    | some n =>
        simp

theorem getElem?_ends {n : NumberedClose} (member : n ∈ cl book) :
    (closeArrays book n.close.partition).ends[n.k - 1]? = some n.close.endsAt ∧
      (closeArrays book n.close.partition).curs[n.k - 1]? = some n.close.computedAtXid := by
  have stands := (mem_cl.mp member).2
  simp only [closeArrays, List.getElem?_map, stands, Option.map_some, and_self]

/-- A band up to a close's number is below what stands at it. -/
theorem band_le_iff {Value : Type} [LinearOrder Value] {operand threshold : Value}
    {thresholds : List Value} (ascending : thresholds.Pairwise (· ≤ ·)) {k : Nat}
    (positive : 1 ≤ k) (stands : thresholds[k - 1]? = some threshold) :
    Bucket.widthBucket operand thresholds + 1 ≤ k ↔ operand < threshold := by
  obtain ⟨inside, rfl⟩ := List.getElem?_eq_some_iff.mp stands
  rw [← Bucket.widthBucket_le_iff ascending inside]
  omega

theorem ends_ascend (nest : book.ClosesNest) (partition : Partition) :
    (closeArrays book partition).ends.Pairwise (· ≤ ·) ∧
      (closeArrays book partition).curs.Pairwise (· ≤ ·) := by
  have ascend := @closesByEnd_ascend book partition nest.toClosesKeyed
  refine ⟨List.pairwise_map.mpr (ascend.imp le_of_lt), List.pairwise_map.mpr ?_⟩
  refine ascend.imp_of_mem fun {left right} leftMember rightMember before => ?_
  obtain ⟨leftClose, leftOf⟩ := mem_closesByEnd.mp leftMember
  obtain ⟨rightClose, rightOf⟩ := mem_closesByEnd.mp rightMember
  exact nest.cursors left leftClose right rightClose (leftOf.trans rightOf.symm) before

/-- An entry is in by a close exactly when the close's checkpoint contains it. -/
theorem entersBy_iff (nest : book.ClosesNest) {e : EntryRow} (isEntry : e ∈ book.entries)
    {n : NumberedClose} (member : n ∈ cl book) (isOf : n.close.partition = e.partition) :
    entersBy book n.k e = true ↔
      e.effectiveAt < n.close.endsAt ∧
        (e.xactId < n.close.computedAtXid ∨ e.transactionId = n.close.transactionId) := by
  have bounds := k_bounds member
  obtain ⟨endStands, cursorStands⟩ := getElem?_ends member
  obtain ⟨endsAscend, cursorsAscend⟩ := ends_ascend nest n.close.partition
  rw [entersBy, enters, ← isOf, firstClose_le_iff bounds.2,
    band_le_iff endsAscend bounds.1 endStands, band_le_iff cursorsAscend bounds.1 cursorStands]
  constructor
  · rintro (⟨inTime, below⟩ | byLeg)
    · exact ⟨inTime, Or.inl below⟩
    · obtain ⟨leg, found, inOrder⟩ := (Option.any_eq_true _ _).mp byLeg
      rw [decide_eq_true_eq] at inOrder
      have legMember := List.mem_of_find?_eq_some found
      have hasLeg := isLegOf_iff.mp (List.find?_some found)
      have legClose := close_of_cl legMember
      have inTime := nest.legsInTime leg.close legClose e isEntry hasLeg
      have same : leg.close.partition = n.close.partition := hasLeg.1.symm.trans isOf.symm
      rcases Nat.eq_or_lt_of_le inOrder with equal | before
      · obtain rfl := numbered_eq_of_k legMember member same equal
        exact ⟨inTime, Or.inr hasLeg.2⟩
      · have ends := (k_lt_iff nest.toClosesKeyed legMember member same).mp before
        have below := nest.legsBelow leg.close legClose n.close (close_of_cl member) same ends e
          isEntry hasLeg
        exact ⟨inTime.trans ends, Or.inl below⟩
  · rintro ⟨inTime, below | isOwn⟩
    · exact Or.inl ⟨inTime, below⟩
    · right
      rw [find?_leg nest.toClosesKeyed member (isLegOf_iff.mpr ⟨isOf.symm, isOwn⟩)]
      simp

/-- No entry is put before the first close. -/
theorem enters_pos {e : EntryRow} {j : Nat} (at_ : enters book e = some j) : 1 ≤ j := by
  have first : entersBy book 0 e = false := by
    rw [← Bool.not_eq_true, entersBy, enters, firstClose_le_iff (Nat.zero_le _)]
    rintro (bands | byLeg)
    · omega
    · obtain ⟨leg, found, none⟩ := (Option.any_eq_true _ _).mp byLeg
      have positive := (k_bounds (List.mem_of_find?_eq_some found)).1
      rw [decide_eq_true_eq] at none
      omega
  rw [entersBy, at_, Option.any_some, decide_eq_false_iff_not] at first
  omega

/-- No entry is put after the last close. -/
theorem enters_le (nest : book.ClosesNest) {e : EntryRow} {j : Nat}
    (at_ : enters book e = some j) : j ≤ (closesByEnd book e.partition).length := by
  have isIn : ((enters book e).any fun other =>
      decide (other ≤ (closesByEnd book e.partition).length)) = true := by
    have upTo : (closesByEnd book e.partition).length ≤ (closeArrays book e.partition).n := le_rfl
    rw [enters, firstClose_le_iff upTo]
    cases found : (cl book).find? (isLegOf e) with
    | some leg =>
        have isOf := (isLegOf_iff.mp (List.find?_some found)).1
        have bounds := k_bounds (List.mem_of_find?_eq_some found)
        rw [← isOf] at bounds
        exact Or.inr (by simpa using bounds.2)
    | none =>
        obtain ⟨endsAscend, cursorsAscend⟩ := ends_ascend nest e.partition
        have byEnd := @Bucket.widthBucket_le_length _ _ _ e.effectiveAt endsAscend
        have byCursor := @Bucket.widthBucket_le_length _ _ _ e.xactId cursorsAscend
        simp only [closeArrays, List.length_map] at byEnd byCursor
        rw [enters, found, firstClose, nullIf] at at_
        split at at_
        · cases at_
        · rename_i notBeyond
          simp only [closeArrays] at notBeyond ⊢
          exact Or.inl (by omega)
  rw [at_, Option.any_some, decide_eq_true_eq] at isIn
  exact isIn

end Entering

/-- One side of what arrives of an account at the close numbered `j`. -/
def arrivedSide (book : Book) (direction : Direction) (account : LevelKey) (j : Nat) : Int :=
  Tally.sumWhere (fun e => book.isPosted e && decide (e.accountKey = account) &&
    decide (enters book e = some j)) (fun e => e.on direction) book.entries

/-- One side of what is in of an account by the close numbered `k`. -/
def levelSide (book : Book) (direction : Direction) (account : LevelKey) (k : Nat) : Int :=
  Tally.sumWhere (fun e => book.isPosted e && decide (e.accountKey = account) &&
    entersBy book k e) (fun e => e.on direction) book.entries

section Sides

variable {book : Book} {direction : Direction} {account : LevelKey}

@[simp]
theorem levelSide_zero : levelSide book direction account 0 = 0 := by
  refine Tally.sumWhere_eq_zero fun e _ => ?_
  have notIn : entersBy book 0 e = false := by
    rw [← Bool.not_eq_true, entersBy]
    intro isIn
    obtain ⟨j, at_, none⟩ := (Option.any_eq_true _ _).mp isIn
    have positive := enters_pos at_
    rw [decide_eq_true_eq] at none
    omega
  rw [notIn, Bool.and_false]

/-- A level is the level before it and what arrived. -/
theorem levelSide_succ (k : Nat) :
    levelSide book direction account (k + 1) =
      levelSide book direction account k + arrivedSide book direction account (k + 1) := by
  rw [levelSide, Tally.sumWhere_split _ (entersBy book k)]
  have earlier : Tally.sumWhere (fun e => (book.isPosted e && decide (e.accountKey = account) &&
        entersBy book (k + 1) e) && entersBy book k e) (fun e => e.on direction) book.entries =
      levelSide book direction account k := by
    refine Tally.sumWhere_congr (fun e _ => ?_) fun _ _ _ => rfl
    cases at_ : enters book e with
    | none =>
        simp [entersBy, at_]
    | some j =>
        by_cases isIn : j ≤ k
        · have stillIn : j ≤ k + 1 := by omega
          simp [entersBy, at_, isIn, stillIn]
        · simp [entersBy, at_, isIn]
  have arrived : Tally.sumWhere (fun e => (book.isPosted e && decide (e.accountKey = account) &&
        entersBy book (k + 1) e) && !entersBy book k e) (fun e => e.on direction) book.entries =
      arrivedSide book direction account (k + 1) := by
    refine Tally.sumWhere_congr (fun e _ => ?_) fun _ _ _ => rfl
    cases at_ : enters book e with
    | none =>
        simp [entersBy, at_]
    | some j =>
        rw [Bool.eq_iff_iff]
        simp only [entersBy, at_, Option.any_some, Bool.and_eq_true, decide_eq_true_eq,
          Bool.not_eq_true', decide_eq_false_iff_not, Option.some.injEq]
        constructor
        · rintro ⟨⟨mine, isIn⟩, notBefore⟩
          exact ⟨mine, by omega⟩
        · rintro ⟨mine, rfl⟩
          exact ⟨⟨mine, le_rfl⟩, by omega⟩
  rw [earlier, arrived]

/-- Nothing arrives before the first close or after the last. -/
theorem arrivedSide_outside (nest : book.ClosesNest) {j : Nat}
    (outside : j = 0 ∨ (closesByEnd book account.partition).length < j) :
    arrivedSide book direction account j = 0 := by
  refine Tally.sumWhere_eq_zero fun e _ => ?_
  rw [← Bool.not_eq_true]
  simp only [Bool.and_eq_true, decide_eq_true_eq]
  rintro ⟨⟨-, rfl⟩, at_⟩
  have first := enters_pos at_
  have last : j ≤ (closesByEnd book (LevelKey.partition e.accountKey)).length :=
    enters_le nest at_
  omega

theorem arrivedSide_eq {k : Nat} (positive : 1 ≤ k) :
    arrivedSide book direction account k =
      levelSide book direction account k - levelSide book direction account (k - 1) := by
  obtain ⟨before, rfl⟩ := Nat.exists_eq_add_of_le' positive
  rw [levelSide_succ, Nat.add_sub_cancel]
  ring

/-- While the closes nest, what is in by a close is what its checkpoint claims. -/
theorem levelSide_eq_claimedSide (nest : book.ClosesNest) {n : NumberedClose}
    (member : n ∈ cl book) (isOf : n.close.partition = account.partition) :
    levelSide book direction account n.k = claimedSide book n.close direction account.2.1 := by
  refine Tally.sumWhere_congr (fun e isEntry => ?_) fun _ _ _ => rfl
  rw [Bool.eq_iff_iff]
  have tenant : n.close.tenantId = account.1 := congrArg Prod.fst isOf
  have currency : n.close.currency = account.2.2 := congrArg Prod.snd isOf
  obtain ⟨accountTenant, accountId, accountCurrency⟩ := account
  simp only [CloseRow.claims, Postgres.checkpointAdmits, Bool.and_eq_true, Bool.or_eq_true,
    decide_eq_true_eq, EntryRow.accountKey, Prod.mk.injEq, tenant, currency]
  constructor
  · rintro ⟨⟨posted, ofTenant, isAccount, isCurrency⟩, isIn⟩
    have same : n.close.partition = e.partition := by
      simp only [CloseRow.partition, EntryRow.partition, tenant, currency, ofTenant, isCurrency]
    obtain ⟨inTime, admitted⟩ := (entersBy_iff nest isEntry member same).mp isIn
    exact ⟨⟨⟨⟨⟨ofTenant, isCurrency⟩, posted⟩, inTime⟩, admitted⟩, isAccount⟩
  · rintro ⟨⟨⟨⟨⟨ofTenant, isCurrency⟩, posted⟩, inTime⟩, admitted⟩, isAccount⟩
    have same : n.close.partition = e.partition := by
      simp only [CloseRow.partition, EntryRow.partition, tenant, currency, ofTenant, isCurrency]
    exact ⟨⟨posted, ofTenant, isAccount, isCurrency⟩,
      (entersBy_iff nest isEntry member same).mpr ⟨inTime, admitted⟩⟩

/-- A banded row's side. -/
def Banded.side (direction : Direction) (row : Banded) : Int :=
  match direction with
  | .debit => row.dr
  | .credit => row.cr

def Arrival.side (direction : Direction) (row : Arrival) : Int :=
  match direction with
  | .debit => row.dr
  | .credit => row.cr

/-- An entry of a partition with a close is banded once. -/
theorem banded_eq (keyed : book.ClosesKeyed) :
    banded book = ((book.entries.filter book.isPosted).filter fun e =>
        decide (e.partition ∈ closedPartitions book)).map fun e =>
      { account := e.accountKey, dr := e.on .debit, cr := e.on .credit, j := enters book e } := by
  rw [← flatMap_singletons, banded]
  refine List.flatMap_congr fun e _ => ?_
  have grouped : (closedPartitions book).Nodup := List.nodup_dedup _
  rw [arr, filter_groups grouped (closeArrays book) CloseArrays.partition fun _ => rfl]
  by_cases closed : e.partition ∈ closedPartitions book
  · have once := length_filter_le_one (nodup_cl keyed) fun left leftMember right rightMember =>
      leg_unique (e := e) keyed leftMember rightMember
    rw [if_pos closed, if_pos (decide_eq_true closed), List.flatMap_singleton,
      leftJoin_eq_find? once]
    rfl
  · rw [if_neg closed, if_neg (by simpa using closed), List.flatMap_nil]

/-- An entry is only put at a close of its own partition. -/
theorem closed_of_enters {e : EntryRow} {j : Nat} (at_ : enters book e = some j) :
    e.partition ∈ closedPartitions book := by
  by_contra notClosed
  have noClose : closesByEnd book e.partition = [] := by
    refine List.eq_nil_iff_forall_not_mem.mpr fun c member => notClosed ?_
    obtain ⟨isClose, isOf⟩ := mem_closesByEnd.mp member
    rw [← isOf]
    exact List.mem_dedup.mpr (List.mem_map_of_mem isClose)
  have noLeg : (cl book).find? (isLegOf e) = none := by
    refine List.find?_eq_none.mpr fun n member isLeg => notClosed ?_
    rw [(isLegOf_iff.mp isLeg).1]
    exact List.mem_dedup.mpr (List.mem_map_of_mem (close_of_cl member))
  rw [enters, noLeg] at at_
  simp [firstClose, closeArrays, noClose, Bucket.widthBucket, Bucket.bisect, nullIf] at at_

theorem sum_banded (keyed : book.ClosesKeyed) (j : Nat) :
    Tally.sumWhere (fun row => decide (row.key = some (account, j))) (Banded.side direction)
        (banded book) =
      arrivedSide book direction account j := by
  rw [banded_eq keyed, Tally.sumWhere_map, Tally.sumWhere_filter, Tally.sumWhere_filter]
  refine Tally.sumWhere_congr (fun e _ => ?_) fun e _ _ => ?_
  · rw [Bool.eq_iff_iff]
    simp only [Banded.key, Bool.and_eq_true, decide_eq_true_eq, Option.map_eq_some_iff,
      Prod.mk.injEq]
    constructor
    · rintro ⟨posted, -, at_, isAt, isAccount, rfl⟩
      exact ⟨⟨posted, isAccount⟩, isAt⟩
    · rintro ⟨⟨posted, isAccount⟩, isAt⟩
      exact ⟨posted, closed_of_enters isAt, j, isAt, isAccount, rfl⟩
  · cases direction <;> rfl

theorem side_of_arrival (keyed : book.ClosesKeyed) {r : Arrival} (isArrival : r ∈ arrivals book) :
    r.side direction = arrivedSide book direction r.account r.j := by
  obtain ⟨key, -, rfl⟩ := List.mem_map.mp isArrival
  rw [← sum_banded keyed]
  cases direction <;> rfl

/-- What the view finds to have arrived, zero where it finds nothing. -/
theorem arrival_found (keyed : book.ClosesKeyed) (j : Nat) :
    (((arrivals book).find? fun r =>
        decide (r.account = account) && decide (r.j = j)).map (Arrival.side direction)).getD 0 =
      arrivedSide book direction account j := by
  have sameKey : (fun r : Arrival => decide (r.account = account) && decide (r.j = j)) =
      fun r => decide ((r.account, r.j) = (account, j)) := by
    funext r
    simp
  rw [sameKey, arrivals, Tally.find?_map_grouped (fun r : Arrival => (r.account, r.j)) _
    fun _ => rfl]
  by_cases listed : (account, j) ∈ ((banded book).filterMap Banded.key).dedup
  · rw [if_pos listed, ← sum_banded keyed]
    cases direction <;> rfl
  · rw [if_neg listed, ← sum_banded keyed]
    refine (Tally.sumWhere_eq_zero fun row member => ?_).symm
    rw [decide_eq_false_iff_not]
    intro isKey
    exact listed (List.mem_dedup.mpr (List.mem_filterMap.mpr ⟨row, member, isKey⟩))

end Sides

end OpenLedger
