import Mathlib.Data.List.Sort
import Mathlib.Order.Basic

/-!
# Keyset paging

A page is a number of rows taken from those standing after a key, and it hands
back the key of its last row when it is full.  Whoever follows the keys until
there is none has read every row once, in order, and is done after finitely many
pages: nothing is asked of what answers but that each page is the one after the
rows already seen.
-/

namespace Keyset

section Walking

variable {Row Text : Type}

/-- Following each page's key until there is none, one page a time. -/
inductive Walk (answers : Nat → Option Text → List Row → Option Text → Prop) :
    Nat → Option Text → List (List Row) → Prop where
  | last {time : Nat} {after : Option Text} {page : List Row}
      (answered : answers time after page none) : Walk answers time after [page]
  | more {time : Nat} {after : Option Text} {page : List Row} {next : Text}
      {pages : List (List Row)} (answered : answers time after page (some next))
      (rest : Walk answers (time + 1) (some next) pages) :
      Walk answers time after (page :: pages)

/-- The page after the first `seen` rows. -/
def pageOf (limit : Nat) (rows : List Row) (seen : Nat) : List Row :=
  (rows.drop seen).take limit

/-- The key a page hands back: a full page's last row's. -/
def nextOf (key : Row → Text) (limit : Nat) (page : List Row) : Option Text :=
  if limit ≤ page.length then page.getLast?.map key else none

/-- The key that stands for having seen so many rows. -/
inductive Stands (key : Row → Text) (rows : List Row) : Nat → Option Text → Prop where
  | none : Stands key rows 0 none
  | last {seen : Nat} {row : Row} (isLast : rows[seen]? = some row) :
      Stands key rows (seen + 1) (some (key row))

variable {key : Row → Text} {limit seen : Nat} {rows : List Row} {next : Text}
  {answers : Nat → Option Text → List Row → Option Text → Prop}

theorem pageOf_nil : pageOf limit ([] : List Row) seen = [] := by
  rw [pageOf, List.drop_nil, List.take_nil]

theorem nextOf_nil (positive : 0 < limit) : nextOf key limit [] = none :=
  if_neg (Nat.not_le_of_lt positive)

theorem pageOf_map {Shown : Type} (show_ : Row → Shown) (rows : List Row) :
    pageOf limit (rows.map show_) seen = (pageOf limit rows seen).map show_ := by
  rw [pageOf, pageOf, List.map_take, List.map_drop]

/-- Where no key comes back, the page was all that was left. -/
theorem pageOf_of_last (positive : 0 < limit)
    (ended : nextOf key limit (pageOf limit rows seen) = none) :
    pageOf limit rows seen = rows.drop seen := by
  have short : (pageOf limit rows seen).length < limit := by
    rw [nextOf] at ended
    by_cases full : limit ≤ (pageOf limit rows seen).length
    · rw [if_pos full, Option.map_eq_none_iff, List.getLast?_eq_none_iff] at ended
      rw [ended]
      exact positive
    · exact Nat.lt_of_not_le full
  rw [pageOf, List.length_take] at short
  exact List.take_of_length_le (by omega)

/-- Where a key comes back, the page was full and the key stands for its end. -/
theorem stands_of_more (positive : 0 < limit)
    (isNext : nextOf key limit (pageOf limit rows seen) = some next) :
    seen + limit ≤ rows.length ∧ Stands key rows (seen + limit) (some next) := by
  rw [nextOf] at isNext
  by_cases full : limit ≤ (pageOf limit rows seen).length
  · rw [if_pos full] at isNext
    obtain ⟨row, isLast, isKey⟩ := Option.map_eq_some_iff.mp isNext
    rw [pageOf, List.length_take, List.length_drop] at full
    have room : seen + limit ≤ rows.length := by omega
    refine ⟨room, ?_⟩
    have isThere : rows[seen + (limit - 1)]? = some row := by
      rw [List.getLast?_eq_getElem?, pageOf, List.length_take, List.length_drop,
        Nat.min_eq_left (by omega), List.getElem?_take_of_lt (by omega),
        List.getElem?_drop] at isLast
      exact isLast
    have isEnd : seen + limit = seen + (limit - 1) + 1 := by omega
    rw [isEnd, ← isKey]
    exact .last isThere
  · rw [if_neg full] at isNext
    cases isNext

/-- Pages that are each the one after the rows seen are, together, every row
left, and there are no more of them than the rows fill. -/
theorem walk_reads (positive : 0 < limit)
    (exact_ : ∀ time seen after page next, Stands key rows seen after →
      answers time after page next →
        page = pageOf limit rows seen ∧ next = nextOf key limit page)
    {time : Nat} {after : Option Text} {pages : List (List Row)}
    (walk : Walk answers time after pages) (stands : Stands key rows seen after) :
    pages.flatten = rows.drop seen ∧
      pages.length * limit ≤ (rows.length - seen) + limit := by
  induction walk generalizing seen with
  | last answered =>
      obtain ⟨isPage, isNext⟩ := exact_ _ _ _ _ _ stands answered
      subst isPage
      have isAll := pageOf_of_last positive isNext.symm
      refine ⟨?_, ?_⟩
      · rw [List.flatten_cons, List.flatten_nil, List.append_nil]
        exact isAll
      · rw [List.length_singleton]
        omega
  | more answered rest inductionHypothesis =>
      obtain ⟨isPage, isNext⟩ := exact_ _ _ _ _ _ stands answered
      subst isPage
      obtain ⟨room, standsNext⟩ := stands_of_more positive isNext.symm
      obtain ⟨isRest, bound⟩ := inductionHypothesis standsNext
      refine ⟨?_, ?_⟩
      · rw [List.flatten_cons, isRest, pageOf, ← List.drop_drop]
        exact List.take_append_drop limit (rows.drop seen)
      · rw [List.length_cons, Nat.add_mul, Nat.one_mul]
        omega

/-- Such pages do not go on handing back a key for ever. -/
theorem not_endless (positive : 0 < limit)
    (exact_ : ∀ time seen after page next, Stands key rows seen after →
      answers time after page next →
        page = pageOf limit rows seen ∧ next = nextOf key limit page)
    {afters : Nat → Option Text} {pages : Nat → List Row} (stands : Stands key rows 0 (afters 0)) :
    ¬ ∀ time, ∃ next, answers time (afters time) (pages time) (some next) ∧
      afters (time + 1) = some next := by
  intro endless
  have further : ∀ time, Stands key rows (time * limit) (afters time) := by
    intro time
    induction time with
    | zero =>
        rw [Nat.zero_mul]
        exact stands
    | succ time inductionHypothesis =>
        obtain ⟨next, answered, isAfter⟩ := endless time
        obtain ⟨isPage, isNext⟩ := exact_ _ _ _ _ _ inductionHypothesis answered
        rw [isPage] at isNext
        rw [isAfter, Nat.add_mul, Nat.one_mul]
        exact (stands_of_more positive isNext.symm).2
  obtain ⟨next, answered, _⟩ := endless rows.length
  obtain ⟨isPage, isNext⟩ := exact_ _ _ _ _ _ (further rows.length) answered
  rw [isPage] at isNext
  have room := (stands_of_more positive isNext.symm).1
  have many : rows.length * 1 ≤ rows.length * limit := Nat.mul_le_mul_left _ positive
  omega

/-- Where every such page is answered, some walk comes to an end. -/
theorem walk_ends (positive : 0 < limit)
    (total : ∀ time seen after, Stands key rows seen after →
      answers time after (pageOf limit rows seen)
        (nextOf key limit (pageOf limit rows seen)))
    {time : Nat} {after : Option Text} (stands : Stands key rows seen after) :
    ∃ pages, Walk answers time after pages := by
  induction left : rows.length - seen using Nat.strong_induction_on generalizing seen time after with
  | _ remaining inductionHypothesis =>
      have answered := total time seen after stands
      cases isNext : nextOf key limit (pageOf limit rows seen) with
      | none =>
          rw [isNext] at answered
          exact ⟨_, .last answered⟩
      | some next =>
          rw [isNext] at answered
          obtain ⟨room, standsNext⟩ := stands_of_more positive isNext
          obtain ⟨pages, walk⟩ :=
            inductionHypothesis (rows.length - (seen + limit)) (by omega) standsNext rfl
          exact ⟨_, .more answered walk⟩

end Walking

section Ordered

variable {Row Key : Type} [LinearOrder Key] {rank : Row → Key}

/-- In rows of rising rank, those above a row are those after it. -/
theorem filter_above {rows : List Row}
    (rising : rows.Pairwise fun left right => rank left < rank right) {seen : Nat} {row : Row}
    (isRow : rows[seen]? = some row) :
    (rows.filter fun other => decide (rank row < rank other)) = rows.drop (seen + 1) := by
  induction rows generalizing seen with
  | nil =>
      cases isRow
  | cons head tail inductionHypothesis =>
      have above : ∀ other ∈ tail, rank head < rank other := fun other member =>
        List.rel_of_pairwise_cons rising member
      cases seen with
      | zero =>
          have isHead : head = row := Option.some.inj isRow
          subst isHead
          rw [List.filter_cons_of_neg (by simp), List.drop_succ_cons, List.drop_zero]
          exact List.filter_eq_self.mpr fun other member => decide_eq_true (above other member)
      | succ seen =>
          have isThere : tail[seen]? = some row := isRow
          have below : rank head < rank row := above row (List.mem_of_getElem? isThere)
          rw [List.filter_cons_of_neg (by simpa using below.le), List.drop_succ_cons]
          exact inductionHypothesis rising.of_cons isThere

/-- Rows sorted by rank. -/
def sorted (rank : Row → Key) (rows : List Row) : List Row :=
  rows.insertionSort fun left right => rank left ≤ rank right

theorem mem_sorted {rows : List Row} {row : Row} : row ∈ sorted rank rows ↔ row ∈ rows :=
  List.mem_insertionSort _

theorem pairwise_sorted (rows : List Row) :
    (sorted rank rows).Pairwise fun left right => rank left ≤ rank right := by
  have : Std.Total fun left right : Row => rank left ≤ rank right :=
    ⟨fun left right => le_total _ _⟩
  have : IsTrans Row fun left right => rank left ≤ rank right := ⟨fun _ _ _ => le_trans⟩
  exact List.pairwise_insertionSort _ rows

/-- Rows each of its own rank rise once sorted. -/
theorem rising_sorted {rows : List Row} (distinct : rows.Pairwise fun left right =>
    rank left ≠ rank right) :
    (sorted rank rows).Pairwise fun left right => rank left < rank right := by
  have apart : (sorted rank rows).Pairwise fun left right => rank left ≠ rank right :=
    (List.perm_insertionSort _ rows).symm.pairwise distinct fun different => different.symm
  exact (pairwise_sorted rows).imp₂ (fun _ _ le ne => lt_of_le_of_ne le ne) apart

/-- Sorting what is kept is keeping of what is sorted. -/
theorem sorted_filter {rows : List Row}
    (distinct : rows.Pairwise fun left right => rank left ≠ rank right) (keep : Row → Bool) :
    sorted rank (rows.filter keep) = (sorted rank rows).filter keep := by
  have kept := rising_sorted (distinct.filter keep)
  have sortedFirst := (rising_sorted distinct).filter keep
  have samePages : (sorted rank (rows.filter keep)).Perm ((sorted rank rows).filter keep) :=
    (List.perm_insertionSort _ _).trans ((List.perm_insertionSort _ rows).filter keep).symm
  exact samePages.eq_of_pairwise
    (fun left right _ _ below above => absurd above (not_lt.mpr (le_of_lt below))) kept sortedFirst

end Ordered

/-! ## Rows that keep coming

Where rows appear between two pages, a walk reads all there are at its end exactly
when each of them appeared above the key the walk then held. -/

section Growing

variable {Row Key : Type} [LinearOrder Key] {rank : Row → Key}

/-- Whether a row is above a key, every row being above none. -/
def above (rank : Row → Key) (after : Option Key) (row : Row) : Bool :=
  after.all fun key => decide (key < rank row)

theorem above_none (row : Row) : above rank none row = true := rfl

theorem above_some {key : Key} {row : Row} : above rank (some key) row = true ↔ key < rank row :=
  decide_eq_true_iff

theorem above_trans {after : Option Key} {row other : Row} (isAbove : above rank after row = true)
    (lt : rank row < rank other) : above rank after other = true := by
  cases after with
  | none =>
      rfl
  | some key =>
      exact above_some.mpr (lt_trans (above_some.mp isAbove) lt)

/-- A page of the rows of its own time: the first `limit` above the key. -/
def pageAbove (rank : Row → Key) (limit : Nat) (rowsAt : Nat → List Row) (time : Nat)
    (after : Option Key) : List Row :=
  (sorted rank ((rowsAt time).filter (above rank after))).take limit

/-- What a time answers a key with. -/
def Answers (rank : Row → Key) (limit : Nat) (rowsAt : Nat → List Row) (time : Nat)
    (after : Option Key) (page : List Row) (next : Option Key) : Prop :=
  page = pageAbove rank limit rowsAt time after ∧ next = nextOf rank limit page

variable {limit time : Nat} {rowsAt : Nat → List Row} {after next : Option Key}
  {page : List Row} {row : Row}

theorem mem_of_mem_pageAbove (member : row ∈ pageAbove rank limit rowsAt time after) :
    row ∈ rowsAt time ∧ above rank after row = true :=
  List.mem_filter.mp (mem_sorted.mp (List.mem_of_mem_take member))

theorem rising_pageAbove
    (distinct : (rowsAt time).Pairwise fun left right => rank left ≠ rank right) :
    (pageAbove rank limit rowsAt time after).Pairwise fun left right => rank left < rank right :=
  (rising_sorted (distinct.filter _)).sublist (List.take_sublist limit _)

/-- In rows of rising rank, what is not after a row of the front is in the front. -/
theorem mem_take_of_le {rows : List Row}
    (rising : rows.Pairwise fun left right => rank left < rank right) {other : Row}
    (isThere : row ∈ rows) (inFront : other ∈ rows.take limit) (le : rank row ≤ rank other) :
    row ∈ rows.take limit := by
  rw [← List.take_append_drop limit rows, List.mem_append] at isThere
  cases isThere with
  | inl inTake =>
      exact inTake
  | inr inDrop =>
      rw [← List.take_append_drop limit rows, List.pairwise_append] at rising
      exact absurd le (not_le.mpr (rising.2.2 other inFront row inDrop))

/-- A page leaves out nothing up to the key it hands back. -/
theorem mem_pageAbove_of_le
    (distinct : (rowsAt time).Pairwise fun left right => rank left ≠ rank right)
    (isThere : row ∈ rowsAt time) (isAbove : above rank after row = true) {other : Row}
    (onPage : other ∈ pageAbove rank limit rowsAt time after) (le : rank row ≤ rank other) :
    row ∈ pageAbove rank limit rowsAt time after :=
  mem_take_of_le (rising_sorted (distinct.filter _))
    (mem_sorted.mpr (List.mem_filter.mpr ⟨isThere, isAbove⟩)) onPage le

/-- A page that hands back no key leaves out nothing. -/
theorem mem_pageAbove_of_last (positive : 0 < limit) (isThere : row ∈ rowsAt time)
    (isAbove : above rank after row = true)
    (ended : nextOf rank limit (pageAbove rank limit rowsAt time after) = none) :
    row ∈ pageAbove rank limit rowsAt time after := by
  have isPage : pageAbove rank limit rowsAt time after =
      pageOf limit (sorted rank ((rowsAt time).filter (above rank after))) 0 := rfl
  rw [isPage] at ended ⊢
  rw [pageOf_of_last positive ended, List.drop_zero]
  exact mem_sorted.mpr (List.mem_filter.mpr ⟨isThere, isAbove⟩)

omit [LinearOrder Key] in
/-- The key handed back is the page's last row's. -/
theorem last_of_nextOf {key : Key} (isNext : nextOf rank limit page = some key) :
    ∃ last, page.getLast? = some last ∧ rank last = key := by
  rw [nextOf] at isNext
  by_cases full : limit ≤ page.length
  · rw [if_pos full] at isNext
    exact Option.map_eq_some_iff.mp isNext
  · rw [if_neg full] at isNext
    cases isNext

theorem le_last {last : Row} (rising : page.Pairwise fun left right => rank left < rank right)
    (isLast : page.getLast? = some last) (member : row ∈ page) : rank row ≤ rank last := by
  obtain ⟨front, isPage⟩ := List.getLast?_eq_some_iff.mp isLast
  rw [isPage, List.pairwise_append] at rising
  rw [isPage, List.mem_append, List.mem_singleton] at member
  cases member with
  | inl inFront =>
      exact le_of_lt (rising.2.2 row inFront last (List.mem_singleton_self last))
  | inr isRow =>
      rw [isRow]

/-- Each row that appeared between two pages did so above the key of the first. -/
def Ahead (rank : Row → Key) (rowsAt : Nat → List Row) (time : Nat) (pages : List (List Row)) :
    Prop :=
  ∀ index page, pages[index]? = some page → index + 1 < pages.length →
    ∀ last ∈ page.getLast?, ∀ row ∈ rowsAt (time + index + 1), row ∉ rowsAt (time + index) →
      rank last < rank row

theorem Ahead.tail {pages : List (List Row)} (ahead : Ahead rank rowsAt time (page :: pages)) :
    Ahead rank rowsAt (time + 1) pages := by
  intro index other isPage more last isLast row isThere isNew
  have shifted : time + 1 + index = time + (index + 1) := by omega
  rw [shifted] at isThere isNew
  exact ahead (index + 1) other isPage (Nat.succ_lt_succ more) last isLast row isThere isNew

section Walks

variable {pages : List (List Row)}
  (distinct : ∀ time, (rowsAt time).Pairwise fun left right => rank left ≠ rank right)
include distinct

/-- A walk goes up, from above the key it began at. -/
theorem rising_walk (walk : Walk (Answers rank limit rowsAt) time after pages) :
    pages.flatten.Pairwise (fun left right => rank left < rank right) ∧
      ∀ row ∈ pages.flatten, above rank after row = true := by
  induction walk with
  | last answered =>
      rw [List.flatten_singleton, answered.1]
      exact ⟨rising_pageAbove (distinct _), fun row member => (mem_of_mem_pageAbove member).2⟩
  | @more time after page key pages answered rest inductionHypothesis =>
      obtain ⟨isPage, isNext⟩ := answered
      obtain ⟨risesOn, higher⟩ := inductionHypothesis
      obtain ⟨last, isLast, isKey⟩ := last_of_nextOf isNext.symm
      have rises : page.Pairwise fun left right => rank left < rank right := by
        rw [isPage]
        exact rising_pageAbove (distinct time)
      rw [List.flatten_cons]
      constructor
      · refine List.pairwise_append.mpr ⟨rises, risesOn, ?_⟩
        intro left onPage right onLater
        have upToKey := le_last rises isLast onPage
        have beyond := above_some.mp (higher right onLater)
        rw [← isKey] at beyond
        exact lt_of_le_of_lt upToKey beyond
      · intro row member
        rw [List.mem_append] at member
        cases member with
        | inl onPage =>
            rw [isPage] at onPage
            exact (mem_of_mem_pageAbove onPage).2
        | inr onLater =>
            have beyond := above_some.mp (higher row onLater)
            have onPage := List.mem_of_getLast? isLast
            rw [isPage] at onPage
            rw [← isKey] at beyond
            exact above_trans (mem_of_mem_pageAbove onPage).2 beyond

omit distinct in
/-- Every row read was there when its page was. -/
theorem mem_rowsAt_of_walk (walk : Walk (Answers rank limit rowsAt) time after pages)
    {index : Nat} (isPage : pages[index]? = some page) (member : row ∈ page) :
    row ∈ rowsAt (time + index) := by
  induction walk generalizing index with
  | last answered =>
      cases index with
      | zero =>
          rw [← Option.some.inj isPage, answered.1] at member
          exact (mem_of_mem_pageAbove member).1
      | succ index =>
          cases isPage
  | @more time after first key pages answered rest inductionHypothesis =>
      cases index with
      | zero =>
          rw [← Option.some.inj isPage, answered.1] at member
          exact (mem_of_mem_pageAbove member).1
      | succ index =>
          have isThere := inductionHypothesis isPage
          have shifted : time + 1 + index = time + (index + 1) := by omega
          rw [shifted] at isThere
          exact isThere

omit distinct in
/-- A row that appears during a walk no row falls behind is above where it began. -/
theorem above_of_late (walk : Walk (Answers rank limit rowsAt) time after pages)
    (ahead : Ahead rank rowsAt time pages)
    (isThere : row ∈ rowsAt (time + (pages.length - 1))) (isLate : row ∉ rowsAt time) :
    above rank after row = true := by
  induction walk with
  | last answered =>
      exact absurd isThere isLate
  | @more time after page key pages answered rest inductionHypothesis =>
      obtain ⟨isPage, isNext⟩ := answered
      obtain ⟨last, isLast, isKey⟩ := last_of_nextOf isNext.symm
      have onPage := List.mem_of_getLast? isLast
      rw [isPage] at onPage
      have lastAbove := (mem_of_mem_pageAbove onPage).2
      have some_ : 0 < pages.length := by
        cases rest <;> exact Nat.succ_pos _
      have sameEnd : time + ((page :: pages).length - 1) = time + 1 + (pages.length - 1) := by
        rw [List.length_cons]
        omega
      rw [sameEnd] at isThere
      by_cases soon : row ∈ rowsAt (time + 1)
      · exact above_trans lastAbove
          (ahead 0 page rfl (Nat.succ_lt_succ some_) last isLast row soon isLate)
      · have beyond := above_some.mp (inductionHypothesis ahead.tail isThere soon)
        rw [← isKey] at beyond
        exact above_trans lastAbove beyond

/-- A walk no row falls behind reads all there is at its end above where it began. -/
theorem complete_of_ahead (positive : 0 < limit)
    (walk : Walk (Answers rank limit rowsAt) time after pages)
    (ahead : Ahead rank rowsAt time pages)
    (isThere : row ∈ rowsAt (time + (pages.length - 1)))
    (isAbove : above rank after row = true) : row ∈ pages.flatten := by
  induction walk with
  | last answered =>
      obtain ⟨isPage, isNext⟩ := answered
      rw [isPage] at isNext
      rw [List.flatten_singleton, isPage]
      exact mem_pageAbove_of_last positive isThere isAbove isNext.symm
  | @more time after page key pages answered rest inductionHypothesis =>
      obtain ⟨isPage, isNext⟩ := answered
      obtain ⟨last, isLast, isKey⟩ := last_of_nextOf isNext.symm
      have some_ : 0 < pages.length := by
        cases rest <;> exact Nat.succ_pos _
      have sameEnd : time + ((page :: pages).length - 1) = time + 1 + (pages.length - 1) := by
        rw [List.length_cons]
        omega
      rw [sameEnd] at isThere
      rw [List.flatten_cons, List.mem_append]
      by_cases beyond : above rank (some key) row = true
      · exact Or.inr (inductionHypothesis ahead.tail isThere beyond)
      · have upToKey : rank row ≤ rank last := by
          rw [above_some, ← isKey] at beyond
          exact not_lt.mp beyond
        have isEarly : row ∈ rowsAt time := by
          by_contra isLate
          by_cases soon : row ∈ rowsAt (time + 1)
          · have lt := ahead 0 page rfl (Nat.succ_lt_succ some_) last isLast row soon isLate
            exact absurd upToKey (not_le.mpr lt)
          · exact beyond (above_of_late rest ahead.tail isThere soon)
        have onPage := List.mem_of_getLast? isLast
        rw [isPage] at onPage
        left
        rw [isPage]
        exact mem_pageAbove_of_le (distinct time) isEarly isAbove onPage upToKey

/-- A walk that reads all there is at its end is one no row fell behind. -/
theorem ahead_of_complete (walk : Walk (Answers rank limit rowsAt) time after pages)
    (grows : ∀ earlier later, earlier ≤ later → ∀ row ∈ rowsAt earlier, row ∈ rowsAt later)
    (complete : ∀ row ∈ rowsAt (time + (pages.length - 1)), row ∈ pages.flatten) :
    Ahead rank rowsAt time pages := by
  intro index page isPage more last isLast row isThere isNew
  have atEnd := grows _ (time + (pages.length - 1)) (by omega) row isThere
  obtain ⟨other, isOther, onOther⟩ := List.mem_flatten.mp (complete row atEnd)
  obtain ⟨place, inBounds, isPlace⟩ := List.mem_iff_getElem.mp isOther
  have later : index < place := by
    by_contra notLater
    have isThen := mem_rowsAt_of_walk walk
      (List.getElem?_eq_some_iff.mpr ⟨inBounds, isPlace⟩) onOther
    exact isNew (grows _ _ (by omega) row isThen)
  have rises := (List.pairwise_flatten.mp (rising_walk distinct walk).1).2
  obtain ⟨isIndex, isFirst⟩ := List.getElem?_eq_some_iff.mp isPage
  have apart := List.pairwise_iff_getElem.mp rises index place isIndex inBounds later
  rw [isFirst, isPlace] at apart
  exact apart last (List.mem_of_getLast? isLast) row onOther

end Walks

end Growing

end Keyset
