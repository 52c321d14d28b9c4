import OpenLedger.Reports.Nesting

/-!
# The bounded check agrees with the level form

The stored rows of an account, in the order of their closes, are compared with
the levels the journal gives.  `recon_checkpoint_breaks` is empty exactly when
every row is its level, where a row that is not there counts as zero, and no
account loses its row at a later close.
-/

namespace OpenLedger

open Join

def StoredLevel.side (direction : Direction) (row : StoredLevel) : Int :=
  match direction with
  | .debit => row.input
  | .credit => row.output

def StoredRow.difference (direction : Direction) (row : StoredRow) : Int :=
  match direction with
  | .debit => row.dIn
  | .credit => row.dOut

section Stored

variable {book : Book} {account : LevelKey}

theorem isRowOf_iff {b : PeriodBalanceRow} {n : NumberedClose} :
    isRowOf b n = true ↔ b.OfClose n.close := by
  simp only [isRowOf, Bool.and_eq_true, decide_eq_true_eq]
  constructor
  · rintro ⟨⟨tenant, currency⟩, code⟩
    exact ⟨tenant.symm, code.symm, currency.symm⟩
  · intro ofClose
    exact ⟨⟨ofClose.tenant.symm, ofClose.currency.symm⟩, ofClose.code.symm⟩

/-- A stored row is joined to one close. -/
theorem close_unique (keyed : book.ClosesKeyed) {b : PeriodBalanceRow}
    {left right : NumberedClose} (leftMember : left ∈ cl book) (rightMember : right ∈ cl book)
    (ofLeft : b.OfClose left.close) (ofRight : b.OfClose right.close) : left = right := by
  refine numbered_eq_of_close keyed leftMember rightMember ?_
  refine UniqueIndex.holds_eq keyed.pkCloses (close_of_cl leftMember) (close_of_cl rightMember)
    (k := (b.tenantId, b.periodCode, b.currency)) ?_ ?_
  · rw [CloseRow.primaryKey, ofLeft.tenant, ofLeft.code, ofLeft.currency]
  · rw [CloseRow.primaryKey, ofRight.tenant, ofRight.code, ofRight.currency]

/-- The level a stored row is at its close. -/
def levelAt (b : PeriodBalanceRow) (n : NumberedClose) : StoredLevel where
  account := (b.tenantId, b.accountId, b.currency)
  periodCode := b.periodCode
  k := n.k
  input := b.input
  output := b.output

theorem mem_storedLevels {row : StoredLevel} :
    row ∈ storedLevels book ↔
      ∃ b ∈ book.periodBalances, ∃ n ∈ cl book, b.OfClose n.close ∧ row = levelAt b n := by
  simp only [storedLevels, List.mem_flatMap, List.mem_map, List.mem_filter, isRowOf_iff]
  constructor
  · rintro ⟨b, isRow, n, ⟨member, ofClose⟩, rfl⟩
    exact ⟨b, isRow, n, member, ofClose, rfl⟩
  · rintro ⟨b, isRow, n, member, ofClose, rfl⟩
    exact ⟨b, isRow, n, ⟨member, ofClose⟩, rfl⟩

theorem mem_levelsOf {row : StoredLevel} :
    row ∈ levelsOf book account ↔ row ∈ storedLevels book ∧ row.account = account := by
  rw [levelsOf, List.mem_insertionSort, List.mem_filter, decide_eq_true_eq]

/-- The row an account has at a close, and the number it is stored under. -/
theorem mem_levelsOf_iff {row : StoredLevel} :
    row ∈ levelsOf book account ↔
      ∃ b ∈ book.periodBalances, ∃ n ∈ cl book, b.OfClose n.close ∧
        n.close.partition = account.partition ∧ b.accountId = account.2.1 ∧
          row = levelAt b n := by
  rw [mem_levelsOf, mem_storedLevels]
  constructor
  · rintro ⟨⟨b, isRow, n, member, ofClose, rfl⟩, rfl⟩
    refine ⟨b, isRow, n, member, ofClose, ?_, rfl, rfl⟩
    exact Prod.ext ofClose.tenant.symm ofClose.currency.symm
  · rintro ⟨b, isRow, n, member, ofClose, isOf, isAccount, rfl⟩
    refine ⟨⟨b, isRow, n, member, ofClose, rfl⟩, ?_⟩
    have tenant : b.tenantId = account.1 := ofClose.tenant.trans (congrArg Prod.fst isOf)
    have currency : b.currency = account.2.2 := ofClose.currency.trans (congrArg Prod.snd isOf)
    obtain ⟨accountTenant, accountId, accountCurrency⟩ := account
    simp only [levelAt, tenant, isAccount, currency]

/-- An account's rows are at different closes. -/
theorem storedLevels_apart (keyed : book.ClosesKeyed) :
    (storedLevels book).Pairwise fun left right =>
      left.account = right.account → left.k ≠ right.k := by
  rw [storedLevels, List.pairwise_flatMap]
  constructor
  · intro b _
    rw [List.pairwise_map]
    refine ((nodup_cl keyed).filter _).imp_of_mem ?_
    intro left right leftMember rightMember different
    obtain ⟨leftNumbered, ofLeft⟩ := List.mem_filter.mp leftMember
    obtain ⟨rightNumbered, ofRight⟩ := List.mem_filter.mp rightMember
    exact absurd (close_unique keyed leftNumbered rightNumbered (isRowOf_iff.mp ofLeft)
      (isRowOf_iff.mp ofRight)) different
  · have keys := keyed.pkPeriodBalances
    unfold UniqueIndex.Holds PeriodBalanceRow.primaryKey at keys
    rw [List.filterMap_eq_map', List.Nodup, List.pairwise_map] at keys
    refine keys.imp ?_
    intro left right different row inLeft other inRight sameAccount sameK
    obtain ⟨n, isLeft, rfl⟩ := List.mem_map.mp inLeft
    obtain ⟨m, isRight, rfl⟩ := List.mem_map.mp inRight
    obtain ⟨leftNumbered, ofLeft⟩ := List.mem_filter.mp isLeft
    obtain ⟨rightNumbered, ofRight⟩ := List.mem_filter.mp isRight
    have leftOf := isRowOf_iff.mp ofLeft
    have rightOf := isRowOf_iff.mp ofRight
    simp only [Prod.mk.injEq] at sameAccount
    obtain ⟨tenant, isAccount, currency⟩ := sameAccount
    have samePartition : n.close.partition = m.close.partition :=
      Prod.ext (leftOf.tenant.symm.trans (tenant.trans rightOf.tenant))
        (leftOf.currency.symm.trans (currency.trans rightOf.currency))
    obtain rfl := numbered_eq_of_k leftNumbered rightNumbered samePartition sameK
    refine different ?_
    rw [tenant, currency, isAccount, leftOf.code, rightOf.code]

theorem levelsOf_ascend (keyed : book.ClosesKeyed) (account : LevelKey) :
    (levelsOf book account).Pairwise fun left right => left.k < right.k := by
  let ascends := fun left right : StoredLevel => left.k ≤ right.k
  have sorted : (levelsOf book account).Pairwise ascends := by
    have total : Std.Total ascends := ⟨fun left right => le_total left.k right.k⟩
    have transitive : IsTrans StoredLevel ascends := ⟨fun _ _ _ => le_trans⟩
    exact List.pairwise_insertionSort ascends _
  have apart : (levelsOf book account).Pairwise fun left right =>
      left.account = right.account → left.k ≠ right.k := by
    refine (List.perm_insertionSort _ _).symm.pairwise ((storedLevels_apart keyed).filter _) ?_
    intro left right different same
    exact (different same.symm).symm
  refine (List.pairwise_and_iff.mpr ⟨sorted, apart⟩).imp_of_mem ?_
  rintro left right leftMember rightMember ⟨inOrder, different⟩
  have same := (mem_levelsOf.mp leftMember).2.trans (mem_levelsOf.mp rightMember).2.symm
  exact lt_of_le_of_ne inOrder (different same)

theorem levelsOf_bounds {row : StoredLevel} (member : row ∈ levelsOf book account) :
    1 ≤ row.k ∧ row.k ≤ (closesByEnd book account.partition).length := by
  obtain ⟨b, -, n, numbered, -, isOf, -, rfl⟩ := mem_levelsOf_iff.mp member
  rw [← isOf]
  exact k_bounds numbered

/-- What a close holds of an account is the account's row there. -/
theorem storedSide_of_row (keyed : book.ClosesKeyed) {row : StoredLevel}
    (member : row ∈ levelsOf book account) {n : NumberedClose} (numbered : n ∈ cl book)
    (isOf : n.close.partition = account.partition) (at_ : row.k = n.k) (direction : Direction) :
    storedSide book n.close direction account.2.1 = row.side direction := by
  obtain ⟨b, isRow, m, alsoNumbered, ofClose, alsoOf, isAccount, rfl⟩ := mem_levelsOf_iff.mp member
  obtain rfl := numbered_eq_of_k alsoNumbered numbered (alsoOf.trans isOf.symm) at_
  have alone : book.periodBalances.filter (fun other =>
      decide (other.tenantId = m.close.tenantId) && decide (other.currency = m.close.currency) &&
        decide (other.periodCode = m.close.periodCode) &&
          decide (other.accountId = account.2.1)) = [b] := by
    refine UniqueIndex.filter_of_mem keyed.pkPeriodBalances isRow rfl fun other => ?_
    simp only [PeriodBalanceRow.primaryKey, Bool.and_eq_true, decide_eq_true_eq,
      Option.some.injEq, Prod.mk.injEq, ofClose.tenant, ofClose.code, ofClose.currency, isAccount]
    tauto
  rw [storedSide, Tally.sumWhere, alone]
  cases direction
  · simp [StoredLevel.side, PeriodBalanceRow.side, levelAt]
  · simp [StoredLevel.side, PeriodBalanceRow.side, levelAt]

theorem storedSide_of_none {n : NumberedClose} (numbered : n ∈ cl book)
    (isOf : n.close.partition = account.partition)
    (none : ∀ row ∈ levelsOf book account, row.k ≠ n.k) (direction : Direction) :
    storedSide book n.close direction account.2.1 = 0 := by
  refine Tally.sumWhere_eq_zero fun b isRow => ?_
  rw [← Bool.not_eq_true]
  simp only [Bool.and_eq_true, decide_eq_true_eq]
  rintro ⟨⟨⟨tenant, currency⟩, code⟩, isAccount⟩
  have member := mem_levelsOf_iff.mpr
    ⟨b, isRow, n, numbered, ⟨tenant, code, currency⟩, isOf, isAccount, rfl⟩
  exact none _ member rfl

end Stored

section View

variable {book : Book}

theorem leftJoin_ne_nil {Left Right : Type} (on : Left → Right → Bool) (rows : List Right)
    (row : Left) : leftJoin on rows row ≠ [] := by
  rw [leftJoin]
  split
  · exact List.cons_ne_nil _ _
  · rename_i matched notNone
    intro none
    exact notNone (List.map_eq_nil_iff.mp none)

theorem mem_stored {s : StoredRow} :
    s ∈ stored book ↔ ∃ account, ∃ pair ∈ lagged (levelsOf book account), s = storedRow pair := by
  rw [stored, List.mem_flatMap]
  constructor
  · rintro ⟨account, -, member⟩
    obtain ⟨pair, inLag, rfl⟩ := List.mem_map.mp member
    exact ⟨account, pair, inLag, rfl⟩
  · rintro ⟨account, pair, inLag, rfl⟩
    refine ⟨account, ?_, List.mem_map_of_mem inLag⟩
    have inLevels := mem_levelsOf.mp (List.of_mem_zip inLag).1
    rw [← inLevels.2]
    exact List.mem_dedup.mpr (List.mem_map_of_mem inLevels.1)

/-- The rows of the window, their lags left out. -/
theorem map_lagged {Row : Type} (rows : List Row) : (lagged rows).map Prod.fst = rows := by
  rw [lagged, List.map_fst_zip]
  simp

theorem arrival_once {s : StoredRow} :
    ((arrivals book).filter fun r => decide (r.account = s.account) && decide (r.j = s.k)).length
      ≤ 1 := by
  have nodup : (((banded book).filterMap Banded.key).dedup).Nodup := List.nodup_dedup _
  have once := filter_groups nodup (fun key : LevelKey × Nat =>
    ({ account := key.1
       j := key.2
       dr := Tally.sumWhere (fun row => decide (row.key = some key)) Banded.dr (banded book)
       cr := Tally.sumWhere (fun row => decide (row.key = some key)) Banded.cr (banded book) } :
        Arrival)) (fun r => (r.account, r.j)) (fun _ => rfl) (s.account, s.k)
  have sameKey : (fun r : Arrival => decide (r.account = s.account) && decide (r.j = s.k)) =
      fun r => decide ((r.account, r.j) = (s.account, s.k)) := by
    funext r
    simp
  rw [sameKey, arrivals, once]
  split
  · exact le_rfl
  · exact Nat.zero_le 1

theorem differs_eq_false {s : Option StoredRow} {r : Option Arrival} :
    differs s r = false ↔ ∀ direction,
      (s.map (StoredRow.difference direction)).getD 0 =
        (r.map (Arrival.side direction)).getD 0 := by
  rw [differs, Bool.or_eq_false_iff, decide_eq_false_iff_not, decide_eq_false_iff_not,
    not_not, not_not]
  constructor
  · rintro ⟨debits, credits⟩ direction
    cases direction
    · exact debits
    · exact credits
  · intro both
    exact ⟨both .debit, both .credit⟩

/-- The value half is empty when no joined pair differs. -/
theorem valueBreaks_eq_nil :
    valueBreaks book = [] ↔
      (∀ s ∈ stored book, differs (some s) ((arrivals book).find? fun r =>
        decide (r.account = s.account) && decide (r.j = s.k)) = false) ∧
      ∀ r ∈ arrivals book, (∀ s ∈ stored book,
        (decide (r.account = s.account) && decide (r.j = s.k)) = false) →
          differs none (some r) = false := by
  have matched : ∀ s ∈ stored book, ((arrivals book).filter fun r =>
      decide (r.account = s.account) && decide (r.j = s.k)).length ≤ 1 :=
    fun s _ => arrival_once
  rw [← forall_fullJoin_iff matched fun pair => differs pair.1 pair.2 = false]
  rw [valueBreaks, List.flatMap_eq_nil_iff]
  constructor
  · intro none pair member
    by_contra isDifferent
    have nothing := none pair (List.mem_filter.mpr ⟨member, by simpa using isDifferent⟩)
    obtain ⟨rk, joined⟩ := List.exists_mem_of_ne_nil _ (leftJoin_ne_nil _ (cl book) pair.2)
    have noAccount := List.filterMap_eq_nil_iff.mp nothing rk joined
    rw [Option.map_eq_none_iff, Option.or_eq_none_iff, Option.map_eq_none_iff,
      Option.map_eq_none_iff] at noAccount
    rw [noAccount.1, noAccount.2] at isDifferent
    exact isDifferent rfl
  · intro same pair member
    obtain ⟨inJoin, isDifferent⟩ := List.mem_filter.mp member
    rw [same pair inJoin] at isDifferent
    exact absurd isDifferent Bool.false_ne_true

/-- The value half, account by account: every row differs from the one before it
by what arrived at its close, and nothing arrived where there is no row. -/
theorem valueBreaks_eq_nil_iff (keyed : book.ClosesKeyed) :
    valueBreaks book = [] ↔ ∀ account direction,
      (∀ pair ∈ lagged (levelsOf book account),
        pair.1.side direction - (pair.2.map (StoredLevel.side direction)).getD 0 =
          arrivedSide book direction account pair.1.k) ∧
      ∀ j, (∀ row ∈ levelsOf book account, row.k ≠ j) →
        arrivedSide book direction account j = 0 := by
  rw [valueBreaks_eq_nil]
  constructor
  · rintro ⟨ofRows, ofArrivals⟩ account direction
    constructor
    · intro pair inLag
      have same := differs_eq_false.mp (ofRows (storedRow pair) (mem_stored.mpr
        ⟨account, pair, inLag, rfl⟩)) direction
      have isAccount := (mem_levelsOf.mp (List.of_mem_zip inLag).1).2
      rw [show (storedRow pair).account = account from isAccount, arrival_found keyed] at same
      cases direction
      · exact same
      · exact same
    · intro j noRow
      rw [← arrival_found keyed]
      cases found : (arrivals book).find? fun r =>
          decide (r.account = account) && decide (r.j = j) with
      | none =>
          rfl
      | some r =>
          have isKey := List.find?_some found
          simp only [Bool.and_eq_true, decide_eq_true_eq] at isKey
          obtain ⟨rfl, rfl⟩ := isKey
          refine (differs_eq_false.mp (ofArrivals r (List.mem_of_find?_eq_some found) ?_)
            direction).symm
          intro s isStored
          obtain ⟨other, pair, inLag, rfl⟩ := mem_stored.mp isStored
          have inLevels := (List.of_mem_zip inLag).1
          rw [← Bool.not_eq_true, Bool.and_eq_true, decide_eq_true_eq, decide_eq_true_eq]
          rintro ⟨sameAccount, sameK⟩
          have isOther : pair.1.account = other := (mem_levelsOf.mp inLevels).2
          have isMine : other = r.account := isOther.symm.trans sameAccount.symm
          exact noRow pair.1 (isMine ▸ inLevels) sameK.symm
  · intro each
    constructor
    · intro s isStored
      obtain ⟨account, pair, inLag, rfl⟩ := mem_stored.mp isStored
      have isAccount := (mem_levelsOf.mp (List.of_mem_zip inLag).1).2
      refine differs_eq_false.mpr fun direction => ?_
      rw [show (storedRow pair).account = account from isAccount, arrival_found keyed]
      have same := (each account direction).1 pair inLag
      cases direction
      · exact same
      · exact same
    · intro r isArrival noRow
      refine differs_eq_false.mpr fun direction => ?_
      have isFree : ∀ row ∈ levelsOf book r.account, row.k ≠ r.j := by
        intro row member sameK
        have inWindow := member
        rw [← map_lagged (levelsOf book r.account)] at inWindow
        obtain ⟨pair, inLag, rfl⟩ := List.mem_map.mp inWindow
        have unmatched := noRow (storedRow pair) (mem_stored.mpr ⟨_, pair, inLag, rfl⟩)
        have isAccount : (storedRow pair).account = r.account := (mem_levelsOf.mp member).2
        have isK : (storedRow pair).k = r.j := sameK
        rw [isAccount, isK] at unmatched
        simp at unmatched
      have nothing := (each r.account direction).2 r.j isFree
      rw [← side_of_arrival keyed isArrival] at nothing
      exact nothing.symm

/-- The number a partition's last close has. -/
theorem lastK_of_closed {partition : Partition} (closed : partition ∈ closedPartitions book) :
    ((lastK book).filter fun lk => decide (lk.1 = partition)) =
      [(partition, (closesByEnd book partition).length)] := by
  have nodup : (closedPartitions book).Nodup := List.nodup_dedup _
  rw [lastK, filter_groups nodup (fun partition =>
    (partition, (((numberedCloses book partition).map NumberedClose.k).max?).getD 0)) Prod.fst
    (fun _ => rfl), if_pos closed]
  have notEmpty : 1 ≤ (closesByEnd book partition).length := by
    obtain ⟨c, isClose, isOf⟩ := List.mem_map.mp (List.mem_dedup.mp closed)
    exact List.length_pos_of_mem (mem_closesByEnd.mpr ⟨isClose, isOf⟩)
  have isMax : ((numberedCloses book partition).map NumberedClose.k).max? =
      some (closesByEnd book partition).length := by
    refine List.max?_eq_some_iff.mpr ⟨?_, ?_⟩
    · obtain ⟨n, member, isOf, isLast⟩ := exists_at notEmpty le_rfl
      refine List.mem_map.mpr ⟨n, mem_numberedCloses.mpr ?_, isLast⟩
      rw [← isOf]
      exact mem_cl.mp member
    · intro k member
      obtain ⟨n, isNumbered, rfl⟩ := List.mem_map.mp member
      have stands := mem_numberedCloses.mp isNumbered
      have inside := (List.getElem?_eq_some_iff.mp stands.2).1
      have positive := stands.1
      omega
  rw [isMax, Option.getD_some]

theorem stored_of_account (account : LevelKey) :
    ((stored book).filter fun s => decide (s.account = account)).map (fun s => s.k) =
      (levelsOf book account).map StoredLevel.k := by
  have nodup : (((storedLevels book).map StoredLevel.account).dedup).Nodup := List.nodup_dedup _
  rw [stored, filter_expanded nodup (fun account => (lagged (levelsOf book account)).map storedRow)
    (fun s => s.account)]
  · split
    · rw [List.map_map]
      conv_rhs => rw [← map_lagged (levelsOf book account), List.map_map]
      rfl
    · rename_i notListed
      have none : levelsOf book account = [] := by
        refine List.eq_nil_iff_forall_not_mem.mpr fun row member => notListed ?_
        obtain ⟨isLevel, isAccount⟩ := mem_levelsOf.mp member
        rw [← isAccount]
        exact List.mem_dedup.mpr (List.mem_map_of_mem isLevel)
      rw [none]
      rfl
  · intro other s member
    obtain ⟨pair, inLag, rfl⟩ := List.mem_map.mp member
    exact (mem_levelsOf.mp (List.of_mem_zip inLag).1).2

/-- The places an account has a row at. -/
def placesOf (book : Book) (account : LevelKey) : List Nat :=
  (levelsOf book account).map StoredLevel.k

/-- The one span of an account that has a row. -/
theorem mem_spans {sp : Span} :
    sp ∈ spans book ↔ levelsOf book sp.account ≠ [] ∧
      sp.firstK = ((placesOf book sp.account).min?).getD 0 ∧
      sp.rowsPresent = (placesOf book sp.account).length ∧
      sp.lastK = (closesByEnd book sp.account.partition).length := by
  have places : ∀ account, ((stored book).filter fun s => decide (s.account = account)).length =
      (placesOf book account).length := by
    intro account
    rw [placesOf, ← stored_of_account, List.length_map]
  have lasts : ∀ account, levelsOf book account ≠ [] →
      ((lastK book).filter fun lk => decide (lk.1 = LevelKey.partition account)) =
        [(account.partition, (closesByEnd book account.partition).length)] := by
    intro account notEmpty
    obtain ⟨row, member⟩ := List.exists_mem_of_ne_nil _ notEmpty
    obtain ⟨b, -, n, numbered, -, isOf, -, -⟩ := mem_levelsOf_iff.mp member
    refine lastK_of_closed (List.mem_dedup.mpr (List.mem_map.mpr ⟨n.close, ?_, isOf⟩))
    exact close_of_cl numbered
  rw [spans, List.mem_flatMap]
  constructor
  · rintro ⟨account, isListed, member⟩
    obtain ⟨s, isStored, isAccount⟩ := List.mem_map.mp (List.mem_dedup.mp isListed)
    obtain ⟨other, pair, inLag, rfl⟩ := mem_stored.mp isStored
    have inLevels := (List.of_mem_zip inLag).1
    have same : other = account := (mem_levelsOf.mp inLevels).2.symm.trans isAccount
    have notEmpty : levelsOf book account ≠ [] := List.ne_nil_of_mem (same ▸ inLevels)
    rw [lasts account notEmpty, List.map_singleton, List.mem_singleton] at member
    rw [member]
    refine ⟨notEmpty, ?_, places account, rfl⟩
    dsimp only
    rw [stored_of_account, placesOf]
  · rintro ⟨notEmpty, isFirst, isPresent, isLast⟩
    obtain ⟨row, member⟩ := List.exists_mem_of_ne_nil _ notEmpty
    have inWindow := member
    rw [← map_lagged (levelsOf book sp.account)] at inWindow
    obtain ⟨pair, inLag, rfl⟩ := List.mem_map.mp inWindow
    refine ⟨sp.account, List.mem_dedup.mpr (List.mem_map.mpr ⟨storedRow pair,
      mem_stored.mpr ⟨_, pair, inLag, rfl⟩, (mem_levelsOf.mp member).2⟩), ?_⟩
    rw [lasts sp.account notEmpty, List.map_singleton, List.mem_singleton, stored_of_account,
      places sp.account]
    cases sp
    simp_all [placesOf]

/-- The presence half, account by account: a row at one close is a row at every
later one. -/
theorem spanBreaks_eq_nil_iff (keyed : book.ClosesKeyed) :
    spanBreaks book = [] ↔ ∀ account, ∀ row ∈ levelsOf book account, ∀ k, row.k ≤ k →
      k ≤ (closesByEnd book account.partition).length →
        ∃ other ∈ levelsOf book account, other.k = k := by
  have spanned : ∀ account, levelsOf book account ≠ [] → ∃ first,
      (placesOf book account).min? = some first ∧
      (((placesOf book account).length : Int) =
          (closesByEnd book account.partition).length - first + 1 ↔
        ∀ place, first ≤ place → place ≤ (closesByEnd book account.partition).length →
          place ∈ placesOf book account) := by
    intro account notEmpty
    cases isMin : (placesOf book account).min? with
    | none =>
        rw [List.min?_eq_none_iff, placesOf, List.map_eq_nil_iff] at isMin
        exact absurd isMin notEmpty
    | some first =>
        obtain ⟨present, least⟩ := List.min?_eq_some_iff.mp isMin
        obtain ⟨firstRow, isFirst, atFirst⟩ := List.mem_map.mp present
        have bounds := levelsOf_bounds isFirst
        rw [atFirst] at bounds
        have nodup : (placesOf book account).Nodup := by
          rw [placesOf, List.Nodup, List.pairwise_map]
          exact (levelsOf_ascend keyed account).imp fun before => before.ne
        have within : ∀ place ∈ placesOf book account,
            first ≤ place ∧ place ≤ (closesByEnd book account.partition).length := by
          intro place member
          obtain ⟨row, isRow, rfl⟩ := List.mem_map.mp member
          exact ⟨least _ member, (levelsOf_bounds isRow).2⟩
        have spans := Bucket.length_eq_span_iff nodup within bounds.2
        refine ⟨first, rfl, Iff.trans ?_ spans⟩
        omega
  rw [spanBreaks, List.flatMap_eq_nil_iff]
  constructor
  · intro none account row member k from_ upTo
    obtain ⟨first, isMin, full⟩ := spanned account (List.ne_nil_of_mem member)
    have notBroken : ((placesOf book account).length : Int) =
        (closesByEnd book account.partition).length - first + 1 := by
      by_contra broken
      have nothing := none ⟨account, first, (placesOf book account).length,
        (closesByEnd book account.partition).length⟩ (List.mem_filter.mpr
          ⟨mem_spans.mpr ⟨List.ne_nil_of_mem member, by rw [isMin]; rfl, rfl, rfl⟩,
            decide_eq_true broken⟩)
      exact leftJoin_ne_nil _ _ _ (List.map_eq_nil_iff.mp nothing)
    have least := (List.min?_eq_some_iff.mp isMin).2 row.k (List.mem_map_of_mem member)
    obtain ⟨other, isOther, isK⟩ := List.mem_map.mp
      (full.mp notBroken k (least.trans from_) upTo)
    exact ⟨other, isOther, isK⟩
  · intro persists sp member
    obtain ⟨isSpan, broken⟩ := List.mem_filter.mp member
    obtain ⟨notEmpty, isFirst, isPresent, isLast⟩ := mem_spans.mp isSpan
    obtain ⟨first, isMin, full⟩ := spanned sp.account notEmpty
    refine absurd (full.mpr fun place from_ upTo => ?_) ?_
    · obtain ⟨row, isRow, rfl⟩ := List.mem_map.mp (List.min?_eq_some_iff.mp isMin).1
      obtain ⟨other, isOther, isK⟩ := persists sp.account row isRow place from_ upTo
      exact List.mem_map.mpr ⟨other, isOther, isK⟩
    · rw [isMin, Option.getD_some] at isFirst
      rw [isPresent, isLast, isFirst] at broken
      exact of_decide_eq_true broken

end View

/-- The level form: every close holds of every account what it claims, a row
that is not there counting as zero, and an account with a row at one close has
one at every later close. -/
structure Book.HoldsLevels (book : Book) : Prop where
  levels : ∀ k ∈ book.closes, ∀ direction accountId,
    storedSide book k direction accountId = claimedSide book k direction accountId
  persists : ∀ row ∈ book.periodBalances, ∀ k ∈ book.closes, row.OfClose k →
    ∀ later ∈ book.closes, k.partition = later.partition → k.endsAt < later.endsAt →
      ∃ other ∈ book.periodBalances, other.OfClose later ∧ other.accountId = row.accountId

section Agreement

variable {book : Book}

/-- Persistence, read by the numbers of the closes. -/
theorem persists_iff (keyed : book.ClosesKeyed) :
    (∀ row ∈ book.periodBalances, ∀ k ∈ book.closes, row.OfClose k →
      ∀ later ∈ book.closes, k.partition = later.partition → k.endsAt < later.endsAt →
        ∃ other ∈ book.periodBalances, other.OfClose later ∧ other.accountId = row.accountId) ↔
      ∀ account, ∀ row ∈ levelsOf book account, ∀ k, row.k ≤ k →
        k ≤ (closesByEnd book account.partition).length →
          ∃ other ∈ levelsOf book account, other.k = k := by
  constructor
  · intro persists account row member k from_ upTo
    have bounds := levelsOf_bounds member
    obtain ⟨b, isRow, n, numbered, ofClose, isOf, isAccount, rfl⟩ := mem_levelsOf_iff.mp member
    obtain ⟨m, alsoNumbered, alsoOf, rfl⟩ := exists_at (bounds.1.trans from_) upTo
    have same := isOf.trans alsoOf.symm
    rcases Nat.eq_or_lt_of_le from_ with equal | before
    · exact ⟨levelAt b n, member, equal⟩
    · obtain ⟨other, isOther, ofLater, alsoAccount⟩ := persists b isRow n.close
        (close_of_cl numbered) ofClose m.close (close_of_cl alsoNumbered) same
        ((k_lt_iff keyed numbered alsoNumbered same).mp before)
      refine ⟨levelAt other m, mem_levelsOf_iff.mpr ⟨other, isOther, m, alsoNumbered, ofLater,
        alsoOf, alsoAccount.trans isAccount, rfl⟩, rfl⟩
  · intro persists row isRow k isClose ofClose later isLater same ends
    obtain ⟨n, numbered, rfl⟩ := exists_numbered isClose
    obtain ⟨m, alsoNumbered, rfl⟩ := exists_numbered isLater
    let account : LevelKey := (n.close.tenantId, row.accountId, n.close.currency)
    have member : levelAt row n ∈ levelsOf book account :=
      mem_levelsOf_iff.mpr ⟨row, isRow, n, numbered, ofClose, rfl, rfl, rfl⟩
    have before := (k_lt_iff keyed numbered alsoNumbered same).mpr ends
    have upTo := (k_bounds alsoNumbered).2
    rw [← same] at upTo
    obtain ⟨level, isLevel, isK⟩ := persists account _ member m.k before.le upTo
    obtain ⟨other, isOther, l, isNumbered, ofLater, alsoOf, alsoAccount, rfl⟩ :=
      mem_levelsOf_iff.mp isLevel
    obtain rfl := numbered_eq_of_k isNumbered alsoNumbered (alsoOf.trans same) isK
    exact ⟨other, isOther, ofLater, alsoAccount⟩

/-- The levels of an account, read by the numbers of its closes. -/
theorem levels_iff (nest : book.ClosesNest) :
    (∀ k ∈ book.closes, ∀ direction accountId,
      storedSide book k direction accountId = claimedSide book k direction accountId) ↔
      ∀ account direction,
        (∀ row ∈ levelsOf book account,
          row.side direction = levelSide book direction account row.k) ∧
        ∀ k, 1 ≤ k → k ≤ (closesByEnd book account.partition).length →
          (∀ row ∈ levelsOf book account, row.k ≠ k) →
            levelSide book direction account k = 0 := by
  constructor
  · intro levels account direction
    constructor
    · intro row member
      have bounds := levelsOf_bounds member
      obtain ⟨n, numbered, isOf, at_⟩ := exists_at bounds.1 bounds.2
      have held := levels n.close (close_of_cl numbered) direction account.2.1
      rw [storedSide_of_row nest.toClosesKeyed member numbered isOf at_.symm,
        ← levelSide_eq_claimedSide nest numbered isOf, at_] at held
      exact held
    · intro k positive upTo noRow
      obtain ⟨n, numbered, isOf, rfl⟩ := exists_at positive upTo
      have held := levels n.close (close_of_cl numbered) direction account.2.1
      rw [storedSide_of_none numbered isOf noRow, ← levelSide_eq_claimedSide nest numbered isOf]
        at held
      exact held.symm
  · intro each k isClose direction accountId
    obtain ⟨n, numbered, rfl⟩ := exists_numbered isClose
    have bounds := k_bounds numbered
    let account : LevelKey := (n.close.tenantId, accountId, n.close.currency)
    have isOf : n.close.partition = account.partition := rfl
    have claimed := @levelSide_eq_claimedSide book direction account nest n numbered isOf
    change storedSide book n.close direction account.2.1 =
      claimedSide book n.close direction account.2.1
    rw [← claimed]
    by_cases present : ∃ row ∈ levelsOf book account, row.k = n.k
    · obtain ⟨row, member, at_⟩ := present
      rw [storedSide_of_row nest.toClosesKeyed member numbered isOf at_,
        (each account direction).1 row member, at_]
    · have noRow : ∀ row ∈ levelsOf book account, row.k ≠ n.k :=
        fun row member at_ => present ⟨row, member, at_⟩
      rw [storedSide_of_none numbered isOf noRow,
        (each account direction).2 n.k bounds.1 bounds.2 noRow]

/-- Rows that persist hold the levels exactly when their differences are what
arrived. -/
theorem differences_iff (nest : book.ClosesNest) (account : LevelKey) (direction : Direction)
    (persists : ∀ row ∈ levelsOf book account, ∀ k, row.k ≤ k →
      k ≤ (closesByEnd book account.partition).length →
        ∃ other ∈ levelsOf book account, other.k = k) :
    ((∀ pair ∈ lagged (levelsOf book account),
        pair.1.side direction - (pair.2.map (StoredLevel.side direction)).getD 0 =
          arrivedSide book direction account pair.1.k) ∧
      ∀ j, (∀ row ∈ levelsOf book account, row.k ≠ j) →
        arrivedSide book direction account j = 0) ↔
      (∀ row ∈ levelsOf book account,
        row.side direction = levelSide book direction account row.k) ∧
      ∀ k, 1 ≤ k → k ≤ (closesByEnd book account.partition).length →
        (∀ row ∈ levelsOf book account, row.k ≠ k) →
          levelSide book direction account k = 0 := by
  have byLevels := fun gaps => @Bucket.forall_lag_iff _ StoredLevel.k
    (StoredLevel.side direction) (levelSide book direction account)
    (closesByEnd book account.partition).length (levelsOf book account) 0 none
    (levelsOf_ascend nest.toClosesKeyed account)
    (fun row member => (levelsOf_bounds member).1) (fun row member => (levelsOf_bounds member).2)
    levelSide_zero.symm gaps
  have arrived : (∀ pair ∈ lagged (levelsOf book account),
        pair.1.side direction - (pair.2.map (StoredLevel.side direction)).getD 0 =
          arrivedSide book direction account pair.1.k) ↔
      ∀ pair ∈ (levelsOf book account).zip (none :: (levelsOf book account).map some),
        pair.1.side direction - (pair.2.map (StoredLevel.side direction)).getD 0 =
          levelSide book direction account pair.1.k -
            levelSide book direction account (pair.1.k - 1) := by
    refine forall₂_congr fun pair inLag => ?_
    rw [arrivedSide_eq (levelsOf_bounds (List.of_mem_zip inLag).1).1]
  -- A close without a row has only closes without a row before it.
  have earlierFree : ∀ k, (∀ row ∈ levelsOf book account, row.k ≠ k) →
      k ≤ (closesByEnd book account.partition).length →
        ∀ earlier ≤ k, ∀ row ∈ levelsOf book account, row.k ≠ earlier := by
    rintro k noRow upTo earlier before row member rfl
    obtain ⟨other, isOther, isK⟩ := persists row member k before upTo
    exact noRow other isOther isK
  constructor
  · rintro ⟨differences, nothing⟩
    have gaps : ∀ band, 0 < band → band ≤ (closesByEnd book account.partition).length →
        (∀ row ∈ levelsOf book account, row.k ≠ band) →
          levelSide book direction account band = levelSide book direction account (band - 1) := by
      intro band positive _ noRow
      have none := nothing band noRow
      rw [arrivedSide_eq positive] at none
      omega
    refine ⟨(byLevels gaps).mp (arrived.mp differences), fun k positive upTo noRow => ?_⟩
    rw [← @levelSide_zero book direction account]
    refine Bucket.level_eq_of_gap (Nat.zero_le k) fun band from_ to_ => ?_
    exact gaps band from_ (to_.trans upTo) (earlierFree k noRow upTo band to_)
  · rintro ⟨held, absent⟩
    have free : ∀ band, band ≤ (closesByEnd book account.partition).length →
        (∀ row ∈ levelsOf book account, row.k ≠ band) →
          levelSide book direction account band = 0 := by
      intro band upTo noRow
      rcases Nat.eq_zero_or_pos band with rfl | positive
      · exact levelSide_zero
      · exact absent band positive upTo noRow
    have gaps : ∀ band, 0 < band → band ≤ (closesByEnd book account.partition).length →
        (∀ row ∈ levelsOf book account, row.k ≠ band) →
          levelSide book direction account band = levelSide book direction account (band - 1) := by
      intro band _ upTo noRow
      rw [free band upTo noRow, free (band - 1) ((Nat.sub_le _ _).trans upTo)
        (earlierFree band noRow upTo (band - 1) (Nat.sub_le _ _))]
    refine ⟨arrived.mpr ((byLevels gaps).mpr held), fun j noRow => ?_⟩
    by_cases inside : 1 ≤ j ∧ j ≤ (closesByEnd book account.partition).length
    · rw [arrivedSide_eq inside.1, gaps j inside.1 inside.2 noRow, sub_self]
    · exact arrivedSide_outside nest (by omega)

/-- `recon_checkpoint_breaks` is empty exactly when the level form holds, in
every book whose closes nest. -/
theorem bounded_check_agrees (book : Book) (nest : book.ClosesNest) :
    reconCheckpointBreaks book = [] ↔ book.HoldsLevels := by
  have holds : book.HoldsLevels ↔ _ ∧ _ :=
    ⟨fun level => ⟨level.levels, level.persists⟩, fun ⟨levels, persists⟩ => ⟨levels, persists⟩⟩
  rw [holds, persists_iff nest.toClosesKeyed, levels_iff nest, reconCheckpointBreaks,
    List.append_eq_nil_iff, valueBreaks_eq_nil_iff nest.toClosesKeyed,
    spanBreaks_eq_nil_iff nest.toClosesKeyed]
  refine and_congr_left fun persists => ?_
  refine forall₂_congr fun account direction => ?_
  exact differences_iff nest account direction (persists account)

end Agreement

namespace Shop

/-- Two closes in cursor order, the second's cursor 10.  The two legs of the first were
written by `xactId`; the first checkpoint has them and the second has not. -/
def closedTwice (xactId : Xid) : Book :=
  { Book.empty chart with
    transactions := [
      ⟨"shop", uuid 5100, uuid 5000, "period_close", .posted, 999, none, none, 5⟩,
      ⟨"shop", uuid 10100, uuid 10000, "period_close", .posted, 1999, none, none, 10⟩]
    accounts := [
      ⟨"shop", fees, .house, none, "fees", .revenue, .credit, .none, "USD", 1, .object [], 0⟩,
      ⟨"shop", retainedEarnings, .house, none, "retained_earnings", .equity, .credit, .none,
        "USD", 1, .object [], 0⟩]
    entries := [
      ⟨"shop", uuid 12200, uuid 5100, fees, .debit, 100, "USD", 0, 1, 999, xactId⟩,
      ⟨"shop", uuid 12201, uuid 5100, retainedEarnings, .credit, 100, "USD", 0, 1, 999, xactId⟩]
    periods := [⟨"shop", "first", 0, 1000, "UTC"⟩, ⟨"shop", "second", 1000, 2000, "UTC"⟩]
    closes := [
      ⟨"shop", "first", "USD", 0, 1000, uuid 5100, 999, 5⟩,
      ⟨"shop", "second", "USD", 1000, 2000, uuid 10100, 1999, 10⟩]
    periodBalances := [
      ⟨"shop", "first", "USD", fees, 100, 0⟩,
      ⟨"shop", "first", "USD", retainedEarnings, 0, 100⟩,
      ⟨"shop", "second", "USD", fees, 0, 0⟩,
      ⟨"shop", "second", "USD", retainedEarnings, 0, 0⟩] }

/-- The book whose legs came after both closes. -/
def lateLegs : Book := closedTwice 12

theorem closedTwice_keyed (xactId : Xid) : (closedTwice xactId).ClosesKeyed where
  pkCloses := by
    change UniqueIndex.Holds _ lateLegs.closes
    unfold UniqueIndex.Holds
    decide
  uqClosesTxn := by
    change UniqueIndex.Holds _ lateLegs.closes
    unfold UniqueIndex.Holds
    decide
  pkPeriodBalances := by
    change UniqueIndex.Holds _ lateLegs.periodBalances
    unfold UniqueIndex.Holds
    decide
  endsApart := by
    change ∀ left ∈ lateLegs.closes, ∀ right ∈ lateLegs.closes, _
    decide

theorem lateLegs_ordered : lateLegs.ClosesOrdered where
  cursors := by decide
  clears := by decide
  atOwn := by decide
  legsInTime := by decide
  legsAfter := by decide

theorem lateLegs_holdsLevels : lateLegs.HoldsLevels where
  levels := by
    have exact_ : ∀ k ∈ lateLegs.closes, k.Exact lateLegs := by decide
    intro k isClose direction accountId
    exact storedSide_of_exact (closedTwice_keyed 12).pkPeriodBalances (exact_ k isClose)
      direction accountId
  persists := by decide

end Shop

/-- What the sweep of the closes asks for is not enough: legs appended to the
first close above the second's cursor are in the first checkpoint and not in the
second, and the differences are not of nested sets. -/
theorem late_legs_look_like_drift :
    ¬ ∀ book : Book, book.ClosesKeyed → book.ClosesOrdered →
      (reconCheckpointBreaks book = [] ↔ book.HoldsLevels) := by
  intro agrees
  have none := (agrees Shop.lateLegs (Shop.closedTwice_keyed 12) Shop.lateLegs_ordered).mpr
    Shop.lateLegs_holdsLevels
  revert none
  decide +kernel

namespace Shop

/-- The year's two closes hold their levels.  With the legs of the first in time, the
second's checkpoint lacks them and neither side of the check holds. -/
theorem closed_years_agree :
    (yearBook.closes.length = 2 ∧ reconCheckpointBreaks yearBook = [] ∧
      (reconCheckpointBreaks yearBook = [] ↔ yearBook.HoldsLevels)) ∧
    ((reconCheckpointBreaks (closedTwice 5)).length = 2 ∧
      (reconCheckpointBreaks (closedTwice 5) = [] ↔ (closedTwice 5).HoldsLevels)) := by
  have kept := kept_of_reachable yearBook_reachable
  have year : yearBook.closes.length = 2 ∧ reconCheckpointBreaks yearBook = [] := by
    decide +kernel
  have cursors : ∀ earlier ∈ yearBook.closes, ∀ later ∈ yearBook.closes,
      earlier.partition = later.partition → earlier.endsAt < later.endsAt →
        earlier.computedAtXid < later.computedAtXid := by
    decide +kernel
  have ordered : (closedTwice 5).ClosesOrdered :=
    { cursors := by decide
      clears := by decide
      atOwn := by decide
      legsInTime := by decide
      legsAfter := by decide }
  have closesOwn : (closedTwice 5).ClosesOwn := by
    unfold Book.ClosesOwn
    decide
  have lacking : (reconCheckpointBreaks (closedTwice 5)).length = 2 := by
    decide +kernel
  have named : ∀ k ∈ (closedTwice 5).closes,
      ((closedTwice 5).transaction? k.tenantId k.transactionId).isSome := by
    decide
  exact ⟨⟨year.1, year.2, bounded_check_agrees _ (kept.closesNest cursors)⟩, lacking,
    bounded_check_agrees _ (ordered.nest (closedTwice_keyed 5) closesOwn named)⟩

end Shop

end OpenLedger
