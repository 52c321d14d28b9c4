import Mathlib.Data.List.Sort
import Mathlib.Data.List.Range
import Mathlib.Data.List.Count
import Mathlib.Tactic.Ring
import Mathlib.Tactic.Linarith

/-!
# Numbering rows back from a counter

Rows of one list share a counter when they have the same key.  A writer that
only learns the counter after advancing it by the number of its rows numbers
each row by walking back: the row's offset is the number of later rows on the
same counter.  The same offsets come out of the window expression
`count(*) - row_number()` once the rows are sorted.
-/

namespace Numbering

universe u v

variable {Row : Type u} {Key : Type v} [DecidableEq Key]

/-- The numbers `base + 1, ..., base + size`. -/
def countingFrom (base : Int) (size : Nat) : List Int :=
  (List.range size).map fun index : Nat => base + 1 + (index : Int)

@[simp]
theorem countingFrom_zero (base : Int) : countingFrom base 0 = [] := rfl

@[simp]
theorem length_countingFrom (base : Int) (size : Nat) :
    (countingFrom base size).length = size := by
  simp [countingFrom]

theorem countingFrom_succ (base : Int) (size : Nat) :
    countingFrom base (size + 1) = (base + 1) :: countingFrom (base + 1) size := by
  simp only [countingFrom, List.range_succ_eq_map, List.map_cons, List.map_map]
  refine List.cons_eq_cons.mpr ⟨by simp, List.map_congr_left fun index _ => ?_⟩
  simp only [Function.comp_apply, Nat.succ_eq_add_one, Nat.cast_add, Nat.cast_one]
  ring

theorem countingFrom_append (base : Int) (first second : Nat) :
    countingFrom base first ++ countingFrom (base + first) second =
      countingFrom base (first + second) := by
  induction first generalizing base with
  | zero =>
      simp
  | succ first inductionHypothesis =>
      have shifted := inductionHypothesis (base + 1)
      rw [Nat.succ_add, countingFrom_succ, countingFrom_succ, List.cons_append,
        ← shifted]
      congr 3
      push_cast
      ring

theorem mem_countingFrom {base value : Int} {size : Nat} :
    value ∈ countingFrom base size ↔ base < value ∧ value ≤ base + size := by
  simp only [countingFrom, List.mem_map, List.mem_range]
  constructor
  · rintro ⟨index, bound, rfl⟩
    omega
  · rintro ⟨above, below⟩
    exact ⟨(value - base - 1).toNat, by omega, by omega⟩

theorem countingFrom_nodup (base : Int) (size : Nat) :
    (countingFrom base size).Nodup := by
  refine List.Nodup.map ?_ List.nodup_range
  intro left right equal
  simpa using equal

/-- Distinct positive numbers are counted from one without a gap exactly when
the greatest is how many there are. -/
theorem max?_eq_length_iff {numbers : List Int} (positive : ∀ value ∈ numbers, 0 < value)
    (distinct : numbers.Nodup) :
    (numbers.length : Int) = (numbers.max?).getD 0 ↔
      numbers.Perm (countingFrom 0 numbers.length) := by
  constructor
  · intro greatest
    have within : numbers ⊆ countingFrom 0 numbers.length := by
      intro value member
      cases isMax : numbers.max? with
      | none =>
          rw [List.max?_eq_none_iff] at isMax
          rw [isMax] at member
          cases member
      | some last =>
          rw [isMax, Option.getD_some] at greatest
          have upTo := (List.max?_eq_some_iff.mp isMax).2 value member
          have above := positive value member
          rw [mem_countingFrom]
          omega
    have counted := List.subperm_of_subset distinct within
    exact counted.perm_of_length_le (length_countingFrom 0 numbers.length).le
  · intro counted
    cases isMax : numbers.max? with
    | none =>
        rw [List.max?_eq_none_iff] at isMax
        rw [isMax]
        rfl
    | some last =>
        obtain ⟨member, greatest⟩ := List.max?_eq_some_iff.mp isMax
        have within := mem_countingFrom.mp (counted.subset member)
        have nonEmpty := List.length_pos_of_mem member
        have reached := greatest numbers.length (counted.symm.subset
          (mem_countingFrom.mpr (by omega)))
        rw [Option.getD_some]
        omega

/-- How many rows of the list share a counter with `row`. -/
def countOver (key : Row → Key) (rows : List Row) (row : Row) : Nat :=
  rows.countP fun other => decide (key other = key row)

/-- Each row's number of later rows on its own counter. -/
def walkBack (key : Row → Key) : List Row → List Nat
  | [] => []
  | row :: rest => countOver key rest row :: walkBack key rest

/-- The row numbers of a sorted list within each partition, given the rows
that come before it. -/
def rowNumbersAfter (key : Row → Key) : List Row → List Row → List Nat
  | _, [] => []
  | seen, row :: rest =>
      (countOver key seen row + 1) :: rowNumbersAfter key (row :: seen) rest

/-- `row_number() OVER (PARTITION BY key)` down a list that is already in the
window's order. -/
def rowNumbers (key : Row → Key) (rows : List Row) : List Nat :=
  rowNumbersAfter key [] rows

/-- `count(*) OVER (PARTITION BY key) - row_number() OVER (PARTITION BY key
ORDER BY le)`, beside the row it belongs to. -/
def windowOffsets (key : Row → Key) (le : Row → Row → Prop) [DecidableRel le]
    (rows : List Row) : List (Row × Nat) :=
  let sorted := rows.insertionSort le
  sorted.zip <|
    (sorted.zip (rowNumbers key sorted)).map fun numbered =>
      countOver key sorted numbered.1 - numbered.2

@[simp]
theorem length_walkBack (key : Row → Key) (rows : List Row) :
    (walkBack key rows).length = rows.length := by
  induction rows with
  | nil =>
      rfl
  | cons row rest inductionHypothesis =>
      simp [walkBack, inductionHypothesis]

theorem countOver_cons (key : Row → Key) (head row : Row) (rest : List Row) :
    countOver key (head :: rest) row =
      countOver key rest row + if key head = key row then 1 else 0 := by
  simp [countOver, List.countP_cons]

theorem countOver_append (key : Row → Key) (left right : List Row) (row : Row) :
    countOver key (left ++ right) row =
      countOver key left row + countOver key right row := by
  simp [countOver]

private theorem offsets_after (key : Row → Key) (seen rows : List Row) :
    ((rows.zip (rowNumbersAfter key seen rows)).map fun numbered =>
        countOver key seen numbered.1 + countOver key rows numbered.1 -
          numbered.2) =
      walkBack key rows := by
  induction rows generalizing seen with
  | nil =>
      rfl
  | cons row rest inductionHypothesis =>
      have tailOffsets := inductionHypothesis (row :: seen)
      rw [rowNumbersAfter, walkBack, List.zip_cons_cons, List.map_cons]
      refine List.cons_eq_cons.mpr ⟨?_, ?_⟩
      · simp only [countOver_cons, if_pos]
        omega
      · rw [← tailOffsets]
        apply List.map_congr_left
        intro numbered _
        rw [countOver_cons, countOver_cons]
        omega

/-- The window expression is the walk back along the sorted rows. -/
theorem windowOffsets_eq (key : Row → Key) (le : Row → Row → Prop)
    [DecidableRel le] (rows : List Row) :
    windowOffsets key le rows =
      (rows.insertionSort le).zip (walkBack key (rows.insertionSort le)) := by
  have offsets := offsets_after key [] (rows.insertionSort le)
  simp only [countOver, List.countP_nil, Nat.zero_add] at offsets
  simp only [windowOffsets, rowNumbers, countOver, offsets]

/-- Walking back from a counter that has been advanced over all its rows
numbers them, in order, just after the old counter. -/
theorem numbers_walkBack (key : Row → Key) (rows : List Row) (chosen : Key)
    (base : Int) :
    (((rows.zip (walkBack key rows)).filter fun numbered =>
        decide (key numbered.1 = chosen)).map fun numbered =>
          base + (rows.countP fun row => decide (key row = chosen)) -
            numbered.2) =
      countingFrom base (rows.countP fun row => decide (key row = chosen)) := by
  induction rows generalizing base with
  | nil =>
      rfl
  | cons row rest inductionHypothesis =>
      by_cases same : key row = chosen
      · have tailNumbers := inductionHypothesis (base + 1)
        simp only [walkBack, List.zip_cons_cons, List.countP_cons, same,
          List.filter_cons, decide_true, if_true, List.map_cons,
          countingFrom_succ, countOver, ← tailNumbers]
        refine List.cons_eq_cons.mpr ⟨by push_cast; ring, ?_⟩
        apply List.map_congr_left
        intro numbered _
        push_cast
        ring
      · simp only [walkBack, List.zip_cons_cons, List.countP_cons, same,
          List.filter_cons, decide_false, Bool.false_eq_true, if_false,
          Nat.add_zero, inductionHypothesis base]

/-- The offsets one counter's rows carry, in the rows' order. -/
theorem offsets_walkBack (key : Row → Key) (rows : List Row) (chosen : Key) :
    ((rows.zip (walkBack key rows)).filter fun numbered =>
        decide (key numbered.1 = chosen)).map Prod.snd =
      (List.range (rows.countP fun row => decide (key row = chosen))).reverse := by
  induction rows with
  | nil =>
      rfl
  | cons row rest inductionHypothesis =>
      by_cases same : key row = chosen
      · simp only [walkBack, List.zip_cons_cons, List.filter_cons, List.countP_cons, same,
          decide_true, if_true, List.map_cons, inductionHypothesis, List.range_succ,
          List.reverse_append, List.reverse_singleton, List.singleton_append, countOver]
      · simp only [walkBack, List.zip_cons_cons, List.filter_cons, List.countP_cons, same,
          decide_false, Bool.false_eq_true, if_false, Nat.add_zero, inductionHypothesis]

theorem lt_countOver_of_mem_zip {key : Row → Key} {rows : List Row} {numbered : Row × Nat}
    (member : numbered ∈ rows.zip (walkBack key rows)) :
    numbered.2 < countOver key rows numbered.1 := by
  have offered : numbered.2 ∈ ((rows.zip (walkBack key rows)).filter fun other =>
      decide (key other.1 = key numbered.1)).map Prod.snd :=
    List.mem_map_of_mem (List.mem_filter.mpr ⟨member, by simp⟩)
  rw [offsets_walkBack, List.mem_reverse, List.mem_range] at offered
  exact offered

/-- Offsets written beside rows listed in order: the rows of one counter carry
the numbers below their count, running down. -/
structure CountsDown (before : Row → Row → Prop) (key : Row → Key) (rows : List Row)
    (numbered : List (Row × Nat)) : Prop where
  listed : (numbered.map Prod.fst).Perm rows
  inOrder : numbered.Pairwise fun left right => before left.1 right.1
  runsDown : numbered.Pairwise fun left right => key left.1 = key right.1 → right.2 < left.2
  /-- What is left of a counter that was advanced over its rows runs up. -/
  runsUp : ∀ lastSeq : Int, numbered.Pairwise fun left right =>
    key left.1 = key right.1 → lastSeq - left.2 < lastSeq - right.2
  covers : ∀ chosen, ((numbered.filter fun n => decide (key n.1 = chosen)).map Prod.snd).Perm
    (List.range (rows.countP fun row => decide (key row = chosen)))

omit [DecidableEq Key] in
theorem runsUp_of_runsDown {key : Row → Key} {numbered : List (Row × Nat)}
    (runsDown : numbered.Pairwise fun left right => key left.1 = key right.1 → right.2 < left.2)
    (lastSeq : Int) :
    numbered.Pairwise fun left right =>
      key left.1 = key right.1 → lastSeq - left.2 < lastSeq - right.2 := by
  refine runsDown.imp fun below same => ?_
  have fewer := below same
  omega

theorem runsDown_walkBack (key : Row → Key) (rows : List Row) :
    (rows.zip (walkBack key rows)).Pairwise fun left right =>
      key left.1 = key right.1 → right.2 < left.2 := by
  induction rows with
  | nil =>
      exact List.Pairwise.nil
  | cons row rest inductionHypothesis =>
      rw [walkBack, List.zip_cons_cons, List.pairwise_cons]
      refine ⟨fun numbered member same => ?_, inductionHypothesis⟩
      have below := lt_countOver_of_mem_zip member
      rwa [countOver, ← show key row = key numbered.1 from same] at below

theorem countsDown_walkBack {before : Row → Row → Prop} {key : Row → Key} {rows : List Row}
    (ordered : rows.Pairwise before) :
    CountsDown before key rows (rows.zip (walkBack key rows)) where
  listed := by
    rw [List.map_fst_zip (length_walkBack key rows).ge]
  inOrder := by
    rw [← List.pairwise_map (f := Prod.fst), List.map_fst_zip (length_walkBack key rows).ge]
    exact ordered
  runsDown := runsDown_walkBack key rows
  runsUp := runsUp_of_runsDown (runsDown_walkBack key rows)
  covers := by
    intro chosen
    rw [offsets_walkBack]
    exact List.reverse_perm _

/-- Rows sorted by the window's order count down along it. -/
theorem countsDown_windowOffsets (key : Row → Key) (le : Row → Row → Prop) [DecidableRel le]
    [Std.Total le] [IsTrans Row le] (rows : List Row) :
    CountsDown le key rows (windowOffsets key le rows) := by
  have sorted : CountsDown le key _ _ :=
    countsDown_walkBack (List.pairwise_insertionSort le rows)
  have permutation := List.perm_insertionSort le rows
  rw [windowOffsets_eq]
  exact {
    listed := sorted.listed.trans permutation
    inOrder := sorted.inOrder
    runsDown := sorted.runsDown
    runsUp := sorted.runsUp
    covers := fun chosen => by
      rw [← permutation.countP_eq]
      exact sorted.covers chosen }

/-- The same numbers, read off rows that carry their own offsets. -/
theorem numbers_of_offsets (key : Row → Key) (offset : Row → Nat) {rows : List Row}
    (walkedBack : rows.map offset = walkBack key rows) (chosen : Key) (base : Int) :
    ((rows.filter fun row => decide (key row = chosen)).map fun row =>
        base + (rows.countP fun row => decide (key row = chosen)) - offset row) =
      countingFrom base (rows.countP fun row => decide (key row = chosen)) := by
  rw [← numbers_walkBack key rows chosen base, ← walkedBack]
  have zipped : rows.zip (rows.map offset) = rows.map fun row => (row, offset row) := by
    have paired := List.zip_map' (f := id) (g := offset) (l := rows)
    simpa using paired
  rw [zipped, List.filter_map, List.map_map]
  rfl

/-- Two keys that tell the same rows apart count the same rows. -/
theorem countOver_congr {Key' : Type v} [DecidableEq Key'] {key : Row → Key}
    {key' : Row → Key'} {rows : List Row} {row : Row}
    (same : ∀ other ∈ rows, key other = key row ↔ key' other = key' row) :
    countOver key rows row = countOver key' rows row :=
  List.countP_congr fun other member => by simpa using same other member

theorem walkBack_congr {Key' : Type v} [DecidableEq Key'] {key : Row → Key}
    {key' : Row → Key'} {rows : List Row}
    (same : ∀ left ∈ rows, ∀ right ∈ rows, key left = key right ↔ key' left = key' right) :
    walkBack key rows = walkBack key' rows := by
  induction rows with
  | nil =>
      rfl
  | cons row rest inductionHypothesis =>
      rw [walkBack, walkBack, inductionHypothesis fun left isLeft right isRight =>
          same left (List.mem_cons_of_mem _ isLeft) right (List.mem_cons_of_mem _ isRight),
        countOver_congr fun other member =>
          same other (List.mem_cons_of_mem _ member) row List.mem_cons_self]

theorem walkBack_map {Source : Type u} (key : Row → Key) (render : Source → Row)
    (rows : List Source) :
    walkBack key (rows.map render) = walkBack (fun source => key (render source)) rows := by
  induction rows with
  | nil =>
      rfl
  | cons row rest inductionHypothesis =>
      rw [List.map_cons, walkBack, walkBack, inductionHypothesis]
      simp [countOver, List.countP_map, Function.comp_def]

/-- Rows alone on their counters have nothing to walk back over. -/
theorem walkBack_of_nodup {key : Row → Key} {rows : List Row}
    (nodup : (rows.map key).Nodup) : walkBack key rows = rows.map fun _ => 0 := by
  induction rows with
  | nil =>
      rfl
  | cons row rest inductionHypothesis =>
      obtain ⟨notInRest, restNodup⟩ := List.nodup_cons.mp nodup
      rw [walkBack, inductionHypothesis restNodup, List.map_cons]
      have alone : countOver key rest row = 0 := by
        rw [countOver, List.countP_eq_zero]
        intro other member
        have different : key other ≠ key row := fun same =>
          notInRest (same ▸ List.mem_map_of_mem member)
        simpa using different
      rw [alone]

/-- Rows before others that share none of their counters keep their offsets. -/
theorem walkBack_append_of_apart {key : Row → Key} {left right : List Row}
    (apart : ∀ row ∈ left, ∀ other ∈ right, key other ≠ key row) :
    walkBack key (left ++ right) = walkBack key left ++ walkBack key right := by
  induction left with
  | nil =>
      rfl
  | cons row rest inductionHypothesis =>
      have none : countOver key right row = 0 := by
        rw [countOver, List.countP_eq_zero]
        intro other member
        simpa using apart row List.mem_cons_self other member
      rw [List.cons_append, walkBack, walkBack, countOver_append, none,
        inductionHypothesis fun other member => apart other (List.mem_cons_of_mem _ member)]
      rfl

/-- `WITH ORDINALITY`: each row beside its position, counted from one. -/
def withOrdinality (rows : List Row) : List (Nat × Row) :=
  rows.mapIdx fun index row => (index + 1, row)

@[simp]
theorem map_snd_withOrdinality (rows : List Row) :
    (withOrdinality rows).map Prod.snd = rows := by
  apply List.ext_getElem
  · simp [withOrdinality]
  · intro index _ _
    simp [withOrdinality]

theorem map_fst_withOrdinality (rows : List Row) :
    (withOrdinality rows).map Prod.fst = (List.range rows.length).map (· + 1) := by
  apply List.ext_getElem
  · simp [withOrdinality]
  · intro index _ _
    simp [withOrdinality]

theorem withOrdinality_increasing (rows : List Row) :
    (withOrdinality rows).Pairwise fun left right => left.1 < right.1 := by
  have ordered : ((withOrdinality rows).map Prod.fst).Pairwise (· < ·) := by
    rw [map_fst_withOrdinality, List.pairwise_map]
    exact List.pairwise_lt_range.imp fun below => Nat.add_lt_add_right below 1
  exact List.pairwise_map.mp ordered

theorem withOrdinality_nodup (rows : List Row) :
    ((withOrdinality rows).map Prod.fst).Nodup := by
  rw [List.Nodup, List.pairwise_map]
  exact (withOrdinality_increasing rows).imp fun below => below.ne

theorem mem_of_mem_withOrdinality {rows : List Row} {ord : Nat} {row : Row}
    (member : (ord, row) ∈ withOrdinality rows) : row ∈ rows := by
  rw [← map_snd_withOrdinality rows]
  exact List.mem_map_of_mem member

/-- A position holds one row. -/
theorem withOrdinality_inj {rows : List Row} {ord : Nat} {left right : Row}
    (isLeft : (ord, left) ∈ withOrdinality rows)
    (isRight : (ord, right) ∈ withOrdinality rows) : left = right := by
  have same := List.inj_on_of_nodup_map (withOrdinality_nodup rows) isLeft isRight rfl
  exact congrArg Prod.snd same

theorem mem_withOrdinality_iff {rows : List Row} {ord : Nat} {row : Row} :
    (ord, row) ∈ withOrdinality rows ↔ ∃ index, rows[index]? = some row ∧ ord = index + 1 := by
  rw [withOrdinality, List.mem_iff_getElem?]
  simp only [List.getElem?_mapIdx, Option.map_eq_some_iff, Prod.mk.injEq]
  constructor
  · intro found
    obtain ⟨index, other, here, isOrd, rfl⟩ := found
    exact ⟨index, here, isOrd.symm⟩
  · intro found
    obtain ⟨index, here, isOrd⟩ := found
    exact ⟨index, row, here, isOrd.symm, rfl⟩

/-- Asking for a position finds its row alone. -/
theorem filter_withOrdinality {rows : List Row} {ord : Nat} {row : Row}
    (member : (ord, row) ∈ withOrdinality rows) :
    ((withOrdinality rows).filter fun r => decide (r.1 = ord)) = [(ord, row)] := by
  have distinct := List.Nodup.of_map Prod.fst (withOrdinality_nodup rows)
  apply List.perm_singleton.mp
  rw [List.perm_ext_iff_of_nodup (distinct.filter _) (List.nodup_singleton _)]
  intro r
  rw [List.mem_filter, List.mem_singleton, decide_eq_true_eq]
  constructor
  · intro isThere
    obtain ⟨inRows, atOrd⟩ := isThere
    exact List.inj_on_of_nodup_map (withOrdinality_nodup rows) inRows member atOrd
  · intro same
    rw [same]
    exact ⟨member, rfl⟩

/-- What a kept row becomes stands after what the rows before it became. -/
theorem getElem?_filterMap_take {Kept : Type v} (keep : Row → Option Kept) {rows : List Row}
    {place : Nat} {row : Row} {kept : Kept} (here : rows[place]? = some row)
    (isKept : keep row = some kept) :
    (rows.filterMap keep)[((rows.take place).filterMap keep).length]? = some kept := by
  induction rows generalizing place with
  | nil =>
      cases here
  | cons head rest inductionHypothesis =>
      cases place with
      | zero =>
          obtain rfl := Option.some.inj here
          rw [List.filterMap_cons_some isKept]
          rfl
      | succ place =>
          have further := inductionHypothesis here
          rw [List.take_succ_cons]
          cases kept : keep head with
          | none =>
              rwa [List.filterMap_cons_none kept, List.filterMap_cons_none kept]
          | some value =>
              rwa [List.filterMap_cons_some kept, List.filterMap_cons_some kept,
                List.length_cons, List.getElem?_cons_succ]

end Numbering
