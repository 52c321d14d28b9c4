import Mathlib.Algebra.Order.Group.Unbundled.Int
import Mathlib.Data.Finset.Dedup
import Mathlib.Data.List.Pairwise
import Mathlib.Order.Interval.Finset.Nat

/-!
# Bands of an ascending list of thresholds

`widthBucket` counts the thresholds a value has reached, by bisection.  Rows
that are numbered by the band they reach can be summed band by band or level by
level, and a level is told from its differences when the rows that are missing
would have changed nothing.
-/

namespace Bucket

universe u v

/-- Bisects the places from `left` up to `right` for the first one `isAbove`
holds of; `fuel` bounds the halvings. -/
def bisect (isAbove : Nat → Bool) : Nat → Nat → Nat → Nat
  | 0, left, _ => left
  | fuel + 1, left, right =>
      if left < right then
        if isAbove ((left + right) / 2) then
          bisect isAbove fuel left ((left + right) / 2)
        else
          bisect isAbove fuel ((left + right) / 2 + 1) right
      else
        left

/-- How many of the ascending thresholds `operand` is at or above. -/
def widthBucket {Value : Type u} [LT Value] [DecidableLT Value] (operand : Value)
    (thresholds : List Value) : Nat :=
  bisect (fun place => thresholds[place]?.any fun threshold => decide (operand < threshold))
    thresholds.length 0 thresholds.length

/-- Nothing before the answer is above, everything from it on is. -/
theorem bisect_spec {isAbove : Nat → Bool} {bound : Nat}
    (ascends : ∀ place later, place ≤ later → later < bound → isAbove place = true →
      isAbove later = true)
    {fuel left right : Nat} (enough : right ≤ left + fuel) (inOrder : left ≤ right)
    (inBound : right ≤ bound)
    (below : ∀ place < left, isAbove place = false)
    (above : ∀ place, right ≤ place → place < bound → isAbove place = true) :
    bisect isAbove fuel left right ≤ right ∧
      (∀ place < bisect isAbove fuel left right, isAbove place = false) ∧
      ∀ place, bisect isAbove fuel left right ≤ place → place < bound → isAbove place = true := by
  induction fuel generalizing left right with
  | zero =>
      have same : right = left := by omega
      exact ⟨inOrder, below, fun place => same ▸ above place⟩
  | succ fuel inductionHypothesis =>
      by_cases open_ : left < right
      · by_cases isMid : isAbove ((left + right) / 2) = true
        · have lower := @inductionHypothesis left ((left + right) / 2)
            (by omega) (by omega) (by omega) below
            (fun place from_ inside => ascends _ place from_ inside isMid)
          rw [bisect, if_pos open_, if_pos isMid]
          exact ⟨lower.1.trans (by omega), lower.2⟩
        · have before : ∀ place < (left + right) / 2 + 1, isAbove place = false := by
            intro place isBefore
            rw [← Bool.not_eq_true]
            intro isPlace
            exact isMid (ascends place _ (by omega) (by omega) isPlace)
          rw [bisect, if_pos open_, if_neg isMid]
          exact inductionHypothesis (by omega) (by omega) inBound before above
      · have same : right = left := by omega
        rw [bisect, if_neg open_]
        exact ⟨inOrder, below, fun place => same ▸ above place⟩

section WidthBucket

variable {Value : Type u} [LinearOrder Value] {thresholds : List Value} {operand : Value}

private theorem widthBucket_spec (ascending : thresholds.Pairwise (· ≤ ·)) :
    widthBucket operand thresholds ≤ thresholds.length ∧
      (∀ place < widthBucket operand thresholds,
        (thresholds[place]?.any fun threshold => decide (operand < threshold)) = false) ∧
      ∀ place, widthBucket operand thresholds ≤ place → place < thresholds.length →
        (thresholds[place]?.any fun threshold => decide (operand < threshold)) = true := by
  have ascends : ∀ place later, place ≤ later → later < thresholds.length →
      (thresholds[place]?.any fun threshold => decide (operand < threshold)) = true →
        (thresholds[later]?.any fun threshold => decide (operand < threshold)) = true := by
    intro place later before inside isAbove
    have placeInside : place < thresholds.length := lt_of_le_of_lt before inside
    rw [List.getElem?_eq_getElem placeInside, Option.any_some, decide_eq_true_eq] at isAbove
    rw [List.getElem?_eq_getElem inside, Option.any_some, decide_eq_true_eq]
    rcases Nat.eq_or_lt_of_le before with rfl | strictly
    · exact isAbove
    · exact lt_of_lt_of_le isAbove
        (List.pairwise_iff_getElem.mp ascending place later placeInside inside strictly)
  exact bisect_spec ascends (by omega) (Nat.zero_le _) le_rfl
    (fun place isBefore => absurd isBefore (Nat.not_lt_zero place))
    (fun place from_ inside => absurd inside (not_lt.mpr from_))

theorem widthBucket_le_length (ascending : thresholds.Pairwise (· ≤ ·)) :
    widthBucket operand thresholds ≤ thresholds.length :=
  (widthBucket_spec ascending).1

/-- A value is in a band up to `place` when it is below the threshold there. -/
theorem widthBucket_le_iff (ascending : thresholds.Pairwise (· ≤ ·)) {place : Nat}
    (inside : place < thresholds.length) :
    widthBucket operand thresholds ≤ place ↔ operand < thresholds[place] := by
  obtain ⟨-, below, above⟩ := @widthBucket_spec _ _ thresholds operand ascending
  have read : (thresholds[place]?.any fun threshold => decide (operand < threshold)) =
      decide (operand < thresholds[place]) := by
    rw [List.getElem?_eq_getElem inside, Option.any_some]
  constructor
  · intro reached
    have isAbove := above place reached inside
    rw [read] at isAbove
    exact of_decide_eq_true isAbove
  · intro isBelow
    by_contra notReached
    have isNot := below place (not_le.mp notReached)
    rw [read] at isNot
    exact of_decide_eq_false isNot isBelow

end WidthBucket

section Levels

variable {Row : Type u} {place : Row → Nat} {value : Row → Int} {level : Nat → Int} {bound : Nat}

/-- A level no band between changes. -/
theorem level_eq_of_gap {low high : Nat} (inOrder : low ≤ high)
    (unchanged : ∀ band, low < band → band ≤ high → level band = level (band - 1)) :
    level high = level low := by
  induction high, inOrder using Nat.le_induction with
  | base =>
      rfl
  | succ high inOrder inductionHypothesis =>
      have last := unchanged (high + 1) (by omega) le_rfl
      rw [last, Nat.add_sub_cancel]
      exact inductionHypothesis fun band from_ upTo => unchanged band from_ (by omega)

/-- Rows in the order of their bands hold the levels exactly when each differs
from the row before it by its own band, and the bands without a row are empty. -/
theorem forall_lag_iff {rows : List Row} {before : Nat} {previous : Option Row}
    (ascending : rows.Pairwise fun left right => place left < place right)
    (after : ∀ row ∈ rows, before < place row)
    (upTo : ∀ row ∈ rows, place row ≤ bound)
    (held : (previous.map value).getD 0 = level before)
    (gaps : ∀ band, before < band → band ≤ bound → (∀ row ∈ rows, place row ≠ band) →
      level band = level (band - 1)) :
    (∀ pair ∈ rows.zip (previous :: rows.map some),
        value pair.1 - (pair.2.map value).getD 0 =
          level (place pair.1) - level (place pair.1 - 1)) ↔
      ∀ row ∈ rows, value row = level (place row) := by
  induction rows generalizing before previous with
  | nil =>
      simp
  | cons head tail inductionHypothesis =>
      obtain ⟨headFirst, tailAscending⟩ := List.pairwise_cons.mp ascending
      have isAfter := after head List.mem_cons_self
      have isInside := upTo head List.mem_cons_self
      have untilHead : level (place head - 1) = level before := by
        refine level_eq_of_gap (by omega) fun band from_ to_ => ?_
        refine gaps band from_ (by omega) fun row member => ?_
        rcases List.mem_cons.mp member with rfl | inTail
        · omega
        · have later := headFirst row inTail
          omega
      have tailGaps : ∀ band, place head < band → band ≤ bound →
          (∀ row ∈ tail, place row ≠ band) → level band = level (band - 1) := by
        intro band from_ to_ none
        refine gaps band (by omega) to_ fun row member => ?_
        rcases List.mem_cons.mp member with rfl | inTail
        · omega
        · exact none row inTail
      have rest := fun holds => @inductionHypothesis (place head) (some head) tailAscending headFirst
        (fun row member => upTo row (List.mem_cons_of_mem _ member)) holds tailGaps
      simp only [List.map_cons, List.zip_cons_cons, List.forall_mem_cons]
      constructor
      · rintro ⟨own, others⟩
        have isLevel : value head = level (place head) := by
          rw [held, untilHead] at own
          omega
        exact ⟨isLevel, (rest isLevel).mp others⟩
      · rintro ⟨isLevel, others⟩
        refine ⟨?_, (rest isLevel).mpr others⟩
        rw [held, untilHead, isLevel]

/-- Distinct places from `first` up to `last` are all of them exactly when
there are as many. -/
theorem length_eq_span_iff {places : List Nat} {first last : Nat} (nodup : places.Nodup)
    (within : ∀ place ∈ places, first ≤ place ∧ place ≤ last) (inOrder : first ≤ last) :
    places.length = last - first + 1 ↔ ∀ place, first ≤ place → place ≤ last → place ∈ places := by
  have toFinset : places.toFinset ⊆ Finset.Icc first last := by
    intro place member
    exact Finset.mem_Icc.mpr (within place (List.mem_toFinset.mp member))
  have counted : places.toFinset.card = places.length := List.toFinset_card_of_nodup nodup
  have span : (Finset.Icc first last).card = last - first + 1 := by
    rw [Nat.card_Icc]
    omega
  constructor
  · intro full place from_ upTo
    have all : places.toFinset = Finset.Icc first last :=
      Finset.eq_of_subset_of_card_le toFinset (by omega)
    rw [← List.mem_toFinset, all]
    exact Finset.mem_Icc.mpr ⟨from_, upTo⟩
  · intro all
    have same : places.toFinset = Finset.Icc first last := by
      refine Finset.Subset.antisymm toFinset fun place member => ?_
      obtain ⟨from_, upTo⟩ := Finset.mem_Icc.mp member
      exact List.mem_toFinset.mpr (all place from_ upTo)
    rw [← counted, same, span]

end Levels

end Bucket
