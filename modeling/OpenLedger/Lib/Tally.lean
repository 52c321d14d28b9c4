import Mathlib.Algebra.BigOperators.Group.List.Basic
import Mathlib.Algebra.Order.BigOperators.Group.List
import Mathlib.Data.List.Dedup
import Mathlib.Data.List.Perm.Basic
import Mathlib.Tactic.Ring
import Mathlib.Tactic.Linarith

/-!
# Filtered sums over lists of rows

An aggregate query sums a column over the rows that satisfy a condition, and
reads the sum of no rows as zero.  This module names that sum `sumWhere` and
proves how it behaves under concatenation, permutation, disjoint splits of the
condition and grouping by a key.
-/

namespace Tally

universe u v w

variable {Row : Type u} {Key : Type v}

/-- The sum of `amount` over the rows that satisfy `keep`. -/
def sumWhere (keep : Row → Bool) (amount : Row → Int) (rows : List Row) : Int :=
  ((rows.filter keep).map amount).sum

@[simp]
theorem sumWhere_nil (keep : Row → Bool) (amount : Row → Int) :
    sumWhere keep amount [] = 0 := rfl

theorem sumWhere_cons
    (keep : Row → Bool) (amount : Row → Int) (row : Row) (rows : List Row) :
    sumWhere keep amount (row :: rows) =
      (if keep row then amount row else 0) + sumWhere keep amount rows := by
  by_cases kept : keep row
  · simp [sumWhere, kept]
  · simp [sumWhere, kept]

@[simp]
theorem sumWhere_append
    (keep : Row → Bool) (amount : Row → Int) (left right : List Row) :
    sumWhere keep amount (left ++ right) =
      sumWhere keep amount left + sumWhere keep amount right := by
  simp [sumWhere]

theorem sumWhere_eq_sum_map (keep : Row → Bool) (amount : Row → Int) (rows : List Row) :
    sumWhere keep amount rows = (rows.map fun row => if keep row then amount row else 0).sum := by
  induction rows with
  | nil =>
      rfl
  | cons head tail inductionHypothesis =>
      rw [sumWhere_cons, inductionHypothesis, List.map_cons, List.sum_cons]

theorem sumWhere_perm
    {keep : Row → Bool} {amount : Row → Int} {left right : List Row}
    (permutation : left.Perm right) :
    sumWhere keep amount left = sumWhere keep amount right :=
  ((permutation.filter keep).map amount).sum_eq

theorem sumWhere_one (keep : Row → Bool) (rows : List Row) :
    sumWhere keep (fun _ => 1) rows = rows.countP keep := by
  simp [sumWhere, List.countP_eq_length_filter]

/-- Lists in which every row is counted as often are one another's permutations. -/
theorem perm_of_sumWhere [DecidableEq Row] {left right : List Row}
    (same : ∀ row, sumWhere (fun other => decide (other = row)) (fun _ => 1) left =
      sumWhere (fun other => decide (other = row)) (fun _ => 1) right) : left.Perm right := by
  refine List.perm_iff_count.mpr fun row => ?_
  have counted := same row
  rw [sumWhere_one, sumWhere_one] at counted
  have asCount : ∀ rows : List Row, rows.countP (fun other => decide (other = row)) =
      rows.count row := fun rows =>
    List.countP_congr fun other _ => by simp
  rw [asCount, asCount] at counted
  exact Int.ofNat_inj.mp counted

theorem sumWhere_congr
    {keep keep' : Row → Bool} {amount amount' : Row → Int} {rows : List Row}
    (sameKeep : ∀ row ∈ rows, keep row = keep' row)
    (sameAmount : ∀ row ∈ rows, keep row → amount row = amount' row) :
    sumWhere keep amount rows = sumWhere keep' amount' rows := by
  induction rows with
  | nil =>
      rfl
  | cons head tail inductionHypothesis =>
      have tailSums :=
        inductionHypothesis
          (fun row member => sameKeep row (List.mem_cons_of_mem head member))
          (fun row member => sameAmount row (List.mem_cons_of_mem head member))
      rw [sumWhere_cons, sumWhere_cons, tailSums,
        ← sameKeep head List.mem_cons_self]
      by_cases kept : keep head
      · rw [if_pos kept, if_pos kept,
          sameAmount head List.mem_cons_self kept]
      · rw [if_neg kept, if_neg kept]

/-- A sum no row of the list enters is zero. -/
theorem sumWhere_eq_zero
    {keep : Row → Bool} {amount : Row → Int} {rows : List Row}
    (none : ∀ row ∈ rows, keep row = false) :
    sumWhere keep amount rows = 0 := by
  have empty : rows.filter keep = [] := by
    rw [List.filter_eq_nil_iff]
    intro row member kept
    rw [none row member] at kept
    exact Bool.noConfusion kept
  simp [sumWhere, empty]

theorem sumWhere_nonneg
    {keep : Row → Bool} {amount : Row → Int} {rows : List Row}
    (nonneg : ∀ row ∈ rows, keep row → 0 ≤ amount row) :
    0 ≤ sumWhere keep amount rows := by
  apply List.sum_nonneg
  intro value member
  obtain ⟨row, rowMember, rfl⟩ := List.mem_map.mp member
  have kept := List.mem_filter.mp rowMember
  exact nonneg row kept.1 kept.2

/-- A sum of positive amounts is zero only when no row enters it. -/
theorem sumWhere_pos
    {keep : Row → Bool} {amount : Row → Int} {rows : List Row}
    (positive : ∀ row ∈ rows, keep row → 0 < amount row)
    {entered : Row} (member : entered ∈ rows) (kept : keep entered) :
    0 < sumWhere keep amount rows := by
  obtain ⟨before, after, rfl⟩ := List.append_of_mem member
  have beforeNonneg : 0 ≤ sumWhere keep amount before :=
    sumWhere_nonneg fun row inside isKept =>
      (positive row (List.mem_append_left _ inside) isKept).le
  have afterNonneg : 0 ≤ sumWhere keep amount after :=
    sumWhere_nonneg fun row inside isKept =>
      (positive row
        (List.mem_append_right _ (List.mem_cons_of_mem _ inside)) isKept).le
  have own := positive entered member kept
  rw [sumWhere_append, sumWhere_cons, if_pos kept]
  linarith

theorem sumWhere_add
    (keep : Row → Bool) (amount amount' : Row → Int) (rows : List Row) :
    sumWhere keep (fun row => amount row + amount' row) rows =
      sumWhere keep amount rows + sumWhere keep amount' rows := by
  induction rows with
  | nil =>
      rfl
  | cons head tail inductionHypothesis =>
      simp only [sumWhere_cons, inductionHypothesis]
      split <;> ring

theorem sumWhere_neg
    (keep : Row → Bool) (amount : Row → Int) (rows : List Row) :
    sumWhere keep (fun row => -amount row) rows =
      -sumWhere keep amount rows := by
  induction rows with
  | nil =>
      rfl
  | cons head tail inductionHypothesis =>
      simp only [sumWhere_cons, inductionHypothesis]
      split <;> ring

/-- Splitting the condition in two halves splits the sum. -/
theorem sumWhere_split
    (keep chosen : Row → Bool) (amount : Row → Int) (rows : List Row) :
    sumWhere keep amount rows =
      sumWhere (fun row => keep row && chosen row) amount rows +
        sumWhere (fun row => keep row && !chosen row) amount rows := by
  induction rows with
  | nil =>
      rfl
  | cons head tail inductionHypothesis =>
      simp only [sumWhere_cons, inductionHypothesis]
      cases keep head <;> cases chosen head <;> simp <;> ring

/-- A condition on the rows is one on their amounts. -/
theorem sumWhere_and (keep chosen : Row → Bool) (amount : Row → Int) (rows : List Row) :
    sumWhere (fun row => keep row && chosen row) amount rows =
      sumWhere keep (fun row => if chosen row then amount row else 0) rows := by
  induction rows with
  | nil =>
      rfl
  | cons head tail inductionHypothesis =>
      rw [sumWhere_cons, sumWhere_cons, inductionHypothesis]
      cases keep head <;> simp

theorem sumWhere_map
    {Source : Type w} (keep : Row → Bool) (amount : Row → Int)
    (render : Source → Row) (rows : List Source) :
    sumWhere keep amount (rows.map render) =
      sumWhere (fun source => keep (render source))
        (fun source => amount (render source)) rows := by
  induction rows with
  | nil =>
      rfl
  | cons head tail inductionHypothesis =>
      simp only [List.map_cons, sumWhere_cons, inductionHypothesis]

theorem sumWhere_filter
    (keep chosen : Row → Bool) (amount : Row → Int) (rows : List Row) :
    sumWhere keep amount (rows.filter chosen) =
      sumWhere (fun row => chosen row && keep row) amount rows := by
  induction rows with
  | nil =>
      rfl
  | cons head tail inductionHypothesis =>
      by_cases isChosen : chosen head
      · simp [sumWhere_cons, isChosen, inductionHypothesis]
      · simp [sumWhere_cons, isChosen, inductionHypothesis]

theorem sumWhere_filterMap
    {Source : Type w} (keep : Row → Bool) (amount : Row → Int)
    (select : Source → Option Row) (rows : List Source) :
    sumWhere keep amount (rows.filterMap select) =
      sumWhere (fun source => (select source).any keep)
        (fun source => (select source).elim 0 amount) rows := by
  induction rows with
  | nil =>
      rfl
  | cons head tail inductionHypothesis =>
      rw [sumWhere_cons]
      cases selected : select head with
      | none =>
          rw [List.filterMap_cons_none selected, inductionHypothesis]
          simp
      | some row =>
          rw [List.filterMap_cons_some selected, sumWhere_cons, inductionHypothesis]
          simp

theorem sumWhere_flatMap
    {Source : Type w} (keep : Row → Bool) (amount : Row → Int)
    (expand : Source → List Row) (rows : List Source) :
    sumWhere keep amount (rows.flatMap expand) =
      (rows.map fun source => sumWhere keep amount (expand source)).sum := by
  induction rows with
  | nil =>
      rfl
  | cons head tail inductionHypothesis =>
      simp [inductionHypothesis]

section Paired

variable {Other : Type w} {related : Row → Other → Prop} {left : List Row}
  {right : List Other}

theorem exists_left_of_forall₂ (rows : List.Forall₂ related left right) {other : Other}
    (member : other ∈ right) : ∃ row ∈ left, related row other := by
  induction rows with
  | nil =>
      cases member
  | cons head _ inductionHypothesis =>
      rcases List.mem_cons.mp member with rfl | inside
      · exact ⟨_, List.mem_cons_self, head⟩
      · obtain ⟨row, isThere, isRelated⟩ := inductionHypothesis inside
        exact ⟨row, List.mem_cons_of_mem _ isThere, isRelated⟩

theorem exists_right_of_forall₂ (rows : List.Forall₂ related left right) {row : Row}
    (member : row ∈ left) : ∃ other ∈ right, related row other := by
  have flipped : List.Forall₂ (flip related) right left := rows.flip
  exact exists_left_of_forall₂ flipped member

/-- Lists that agree row by row select the same values. -/
theorem map_filter_forall₂
    {Value : Type} {keep : Row → Bool} {amount : Row → Value}
    {keep' : Other → Bool} {amount' : Other → Value}
    (rows : List.Forall₂ related left right)
    (same : ∀ row other, related row other →
      keep row = keep' other ∧ (keep row → amount row = amount' other)) :
    (left.filter keep).map amount = (right.filter keep').map amount' := by
  induction rows with
  | nil =>
      rfl
  | @cons row other _ _ head _ inductionHypothesis =>
      obtain ⟨sameKeep, sameAmount⟩ := same _ _ head
      by_cases kept : keep row
      · rw [List.filter_cons_of_pos kept, List.filter_cons_of_pos (sameKeep ▸ kept),
          List.map_cons, List.map_cons, inductionHypothesis, sameAmount kept]
      · rw [List.filter_cons_of_neg kept, List.filter_cons_of_neg (sameKeep ▸ kept),
          inductionHypothesis]

/-- Lists that agree row by row have the same sum. -/
theorem sumWhere_forall₂
    {keep : Row → Bool} {amount : Row → Int}
    {keep' : Other → Bool} {amount' : Other → Int}
    (rows : List.Forall₂ related left right)
    (same : ∀ row other, related row other →
      keep row = keep' other ∧ (keep row → amount row = amount' other)) :
    sumWhere keep amount left = sumWhere keep' amount' right :=
  congrArg List.sum (map_filter_forall₂ rows same)

end Paired

/-- Two duplicate-free lists that hold the same keys of nonzero value have one
sum. -/
theorem sum_map_support {left right : List Key} (leftNodup : left.Nodup)
    (rightNodup : right.Nodup) (value : Key → Int)
    (same : ∀ k, value k ≠ 0 → (k ∈ left ↔ k ∈ right)) :
    (left.map value).sum = (right.map value).sum := by
  have supported : ∀ keys : List Key,
      ((keys.filter fun k => decide (value k ≠ 0)).map value).sum = (keys.map value).sum := by
    intro keys
    induction keys with
    | nil =>
        rfl
    | cons head tail inductionHypothesis =>
        by_cases isZero : value head = 0
        · rw [List.filter_cons_of_neg (by simp [isZero]), inductionHypothesis, List.map_cons,
            List.sum_cons, isZero, zero_add]
        · rw [List.filter_cons_of_pos (by simp [isZero]), List.map_cons, List.map_cons,
            List.sum_cons, List.sum_cons, inductionHypothesis]
  have permuted : (left.filter fun k => decide (value k ≠ 0)).Perm
      (right.filter fun k => decide (value k ≠ 0)) := by
    rw [List.perm_ext_iff_of_nodup (leftNodup.filter _) (rightNodup.filter _)]
    intro k
    rw [List.mem_filter, List.mem_filter]
    exact and_congr_left fun nonzero => same k (of_decide_eq_true nonzero)
  rw [← supported left, ← supported right]
  exact (permuted.map value).sum_eq

section Groups

variable [DecidableEq Key]

/-- Expanding a longer list of keys expands a shorter one, where the keys added
expand to nothing. -/
theorem flatMap_perm_of_subset {left right : List Key} (leftNodup : left.Nodup)
    (rightNodup : right.Nodup) (subset : left ⊆ right) (expand : Key → List Row)
    (nothing : ∀ k ∈ right, k ∉ left → expand k = []) :
    (right.flatMap expand).Perm (left.flatMap expand) := by
  have split : right.Perm (left ++ right.filter fun k => decide (k ∉ left)) := by
    refine (List.perm_ext_iff_of_nodup rightNodup ?_).mpr fun k => ?_
    · refine List.Nodup.append leftNodup (rightNodup.filter _) fun k inLeft inRest => ?_
      exact of_decide_eq_true (List.mem_filter.mp inRest).2 inLeft
    · rw [List.mem_append, List.mem_filter, decide_eq_true_eq]
      by_cases inLeft : k ∈ left
      · exact iff_of_true (subset inLeft) (Or.inl inLeft)
      · simp [inLeft]
  have rest : (right.filter fun k => decide (k ∉ left)).flatMap expand = [] := by
    refine List.flatMap_eq_nil_iff.mpr fun k member => ?_
    obtain ⟨isThere, isNew⟩ := List.mem_filter.mp member
    exact nothing k isThere (of_decide_eq_true isNew)
  have expanded := split.flatMap_right expand
  rw [List.flatMap_append, rest, List.append_nil] at expanded
  exact expanded

/-- A duplicate-free list holds each of its members once. -/
theorem sum_map_single
    {keys : List Key} (nodup : keys.Nodup) {chosen : Key} (value : Int)
    (present : chosen ∈ keys) :
    (keys.map fun k => if chosen = k then value else 0).sum = value := by
  induction keys with
  | nil =>
      cases present
  | cons head tail inductionHypothesis =>
      obtain ⟨headNotTail, tailNodup⟩ := List.nodup_cons.mp nodup
      by_cases same : chosen = head
      · subst same
        have tailZero :
            (tail.map fun k => if chosen = k then value else 0) =
              tail.map fun _ => 0 := by
          apply List.map_congr_left
          intro k member
          exact if_neg fun (equal : chosen = k) => headNotTail (equal ▸ member)
        simp [tailZero]
      · have inTail : chosen ∈ tail :=
          (List.mem_cons.mp present).resolve_left same
        simp [same, inductionHypothesis tailNodup inTail]

/-- One row under each key: the sum over a key is its row's amount. -/
theorem sumWhere_key
    {key : Row → Key} (amount : Row → Int) {rows : List Row}
    (nodup : (rows.map key).Nodup) {row : Row} (member : row ∈ rows) :
    sumWhere (fun other => decide (key other = key row)) amount rows = amount row := by
  induction rows with
  | nil =>
      cases member
  | cons head tail inductionHypothesis =>
      obtain ⟨headNotTail, tailNodup⟩ := List.nodup_cons.mp nodup
      rw [sumWhere_cons]
      rcases List.mem_cons.mp member with rfl | inTail
      · have others : ∀ other ∈ tail, decide (key other = key row) = false := by
          intro other isThere
          refine decide_eq_false fun equal => headNotTail ?_
          rw [← equal]
          exact List.mem_map_of_mem isThere
        rw [sumWhere_eq_zero others]
        simp
      · have different : key head ≠ key row := fun equal =>
          headNotTail (equal ▸ List.mem_map_of_mem inTail)
        rw [inductionHypothesis tailNodup inTail, if_neg (by simpa using different), zero_add]

/-- Over a duplicate-free list of keys that covers the kept rows, the group
sums add up to the whole sum. -/
theorem sum_map_groups
    (keep : Row → Bool) (amount : Row → Int) (key : Row → Key)
    {keys : List Key} (nodup : keys.Nodup) {rows : List Row}
    (covered : ∀ row ∈ rows, keep row → key row ∈ keys) :
    (keys.map fun k =>
        sumWhere (fun row => keep row && decide (key row = k)) amount rows).sum =
      sumWhere keep amount rows := by
  induction rows with
  | nil =>
      simp
  | cons head tail inductionHypothesis =>
      have tailSums :=
        inductionHypothesis fun row member =>
          covered row (List.mem_cons_of_mem head member)
      simp only [sumWhere_cons, List.sum_map_add, tailSums]
      congr 1
      by_cases kept : keep head
      · have present := covered head List.mem_cons_self kept
        simp only [kept, Bool.true_and, decide_eq_true_eq, if_true]
        exact sum_map_single nodup (amount head) present
      · simp [kept]

/-- If the rows of every single key sum to zero, so do the rows of any set of
keys. -/
theorem sumWhere_eq_zero_of_groups
    {keep : Row → Bool} {amount : Row → Int} (key : Row → Key)
    {rows : List Row}
    (groups : ∀ k,
      sumWhere (fun row => keep row && decide (key row = k)) amount rows = 0) :
    sumWhere keep amount rows = 0 := by
  rw [← sum_map_groups keep amount key
    (List.nodup_dedup (rows.map key)) (by
      intro row member _
      exact List.mem_dedup.mpr (List.mem_map_of_mem member))]
  simp [groups]

/-- The row a `GROUP BY` has for a key, when every group has one. -/
theorem find?_grouped
    {Group : Type w} (row : Key → Option Group) (keyOf : Group → Key) {keys : List Key}
    (grouped : ∀ k ∈ keys, ∃ group, row k = some group ∧ keyOf group = k) (k : Key) :
    (keys.filterMap row).find? (fun group => decide (keyOf group = k)) =
      if k ∈ keys then row k else none := by
  induction keys with
  | nil =>
      rfl
  | cons head tail inductionHypothesis =>
      obtain ⟨group, isRow, isKey⟩ := grouped head List.mem_cons_self
      have rest := inductionHypothesis fun other member =>
        grouped other (List.mem_cons_of_mem _ member)
      rw [List.filterMap_cons_some isRow, List.find?_cons, isKey]
      by_cases same : head = k
      · subst same
        simp [isRow]
      · have notHead : k ≠ head := Ne.symm same
        simp [same, notHead, rest]

theorem find?_map_grouped
    {Group : Type w} {row : Key → Group} (keyOf : Group → Key) (keys : List Key)
    (grouped : ∀ k, keyOf (row k) = k) (k : Key) :
    (keys.map row).find? (fun group => decide (keyOf group = k)) =
      if k ∈ keys then some (row k) else none := by
  have all : ∀ other ∈ keys, ∃ group, some (row other) = some group ∧ keyOf group = other :=
    fun other _ => ⟨row other, rfl, grouped other⟩
  have found := find?_grouped (fun k => some (row k)) keyOf all k
  rw [← found, ← List.filterMap_eq_map]
  rfl

/-- Summing a `GROUP BY` over some of its groups sums the rows of those groups. -/
theorem sumWhere_grouped
    (chosen : Key → Bool) (amount : Row → Int) (key : Row → Key) (rows : List Row) :
    sumWhere chosen (fun k => sumWhere (fun row => decide (key row = k)) amount rows)
        (rows.map key).dedup =
      sumWhere (fun row => chosen (key row)) amount rows := by
  have summed : ∀ keys : List Key,
      sumWhere chosen (fun k => sumWhere (fun row => decide (key row = k)) amount rows) keys =
        (keys.map fun k =>
          sumWhere (fun row => chosen (key row) && decide (key row = k)) amount rows).sum := by
    intro keys
    induction keys with
    | nil =>
        rfl
    | cons k rest inductionHypothesis =>
        rw [sumWhere_cons, List.map_cons, List.sum_cons, inductionHypothesis]
        congr 1
        by_cases isChosen : chosen k
        · rw [if_pos isChosen]
          refine sumWhere_congr (fun row _ => ?_) fun _ _ _ => rfl
          by_cases same : key row = k
          · simp [same, isChosen]
          · simp [same]
        · rw [if_neg isChosen, sumWhere_eq_zero]
          intro row _
          by_cases same : key row = k
          · simp [same, isChosen]
          · simp [same]
  rw [summed]
  refine sum_map_groups _ amount key (List.nodup_dedup _) fun row member _ => ?_
  exact List.mem_dedup.mpr (List.mem_map_of_mem member)

end Groups

end Tally
