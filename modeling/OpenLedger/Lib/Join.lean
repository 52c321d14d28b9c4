import Mathlib.Data.List.Basic
import Mathlib.Tactic.Common

/-!
# Outer joins of lists of rows

A left join keeps a row that matches nothing beside a null; a full join also
keeps the rows of the right side that nothing matches.
-/

namespace Join

universe u v

variable {Left : Type u} {Right : Type v}

/-- One row of the left side beside each row it matches, or beside none. -/
def leftJoin (on : Left → Right → Bool) (rows : List Right) (row : Left) :
    List (Option Right) :=
  match rows.filter (on row) with
  | [] => [none]
  | matched => matched.map some

/-- Both sides, each row of either beside what it matches on the other. -/
def fullJoin (on : Left → Right → Bool) (left : List Left) (right : List Right) :
    List (Option Left × Option Right) :=
  (left.flatMap fun row => (leftJoin on right row).map fun other => (some row, other)) ++
    (right.filter fun other => !left.any fun row => on row other).map fun other =>
      (none, some other)

theorem leftJoin_eq_some {on : Left → Right → Bool} {rows : List Right} {row : Left}
    {other : Right} (matched : rows.filter (on row) = [other]) :
    leftJoin on rows row = [some other] := by
  rw [leftJoin, matched]
  rfl

theorem leftJoin_eq_none {on : Left → Right → Bool} {rows : List Right} {row : Left}
    (matched : rows.filter (on row) = []) :
    leftJoin on rows row = [none] := by
  rw [leftJoin, matched]

theorem leftJoin_of_ne_nil {on : Left → Right → Bool} {rows : List Right} {row : Left}
    (matched : rows.filter (on row) ≠ []) :
    leftJoin on rows row = (rows.filter (on row)).map some := by
  rw [leftJoin]
  cases isMatched : rows.filter (on row) with
  | nil =>
      exact absurd isMatched matched
  | cons first rest =>
      rfl

/-- When a row matches at most one other, its left join is what it finds. -/
theorem leftJoin_eq_find? {on : Left → Right → Bool} {rows : List Right} {row : Left}
    (atMostOne : (rows.filter (on row)).length ≤ 1) :
    leftJoin on rows row = [rows.find? (on row)] := by
  rw [← List.head?_filter]
  match matched : rows.filter (on row), atMostOne with
  | [], _ =>
      exact leftJoin_eq_none matched
  | [other], _ =>
      exact leftJoin_eq_some matched

/-- What at most one row satisfies keeps at most one row. -/
theorem length_filter_le_one {keep : Right → Bool} {rows : List Right} (nodup : rows.Nodup)
    (alone : ∀ left ∈ rows, ∀ right ∈ rows, keep left = true → keep right = true →
      left = right) :
    (rows.filter keep).length ≤ 1 := by
  have distinct := nodup.filter keep
  cases kept : rows.filter keep with
  | nil =>
      exact Nat.zero_le 1
  | cons first rest =>
      cases rest with
      | nil =>
          exact Nat.le_refl 1
      | cons second rest =>
          have isFirst := List.mem_filter.mp (kept ▸ List.mem_cons_self : first ∈ rows.filter keep)
          have isSecond := List.mem_filter.mp
            (kept ▸ List.mem_cons_of_mem first List.mem_cons_self : second ∈ rows.filter keep)
          have same := alone first isFirst.1 second isSecond.1 isFirst.2 isSecond.2
          rw [kept] at distinct
          exact absurd (same ▸ List.mem_cons_self) (List.nodup_cons.mp distinct).1

theorem flatMap_singletons {Row : Type u} {Out : Type v} (keep : Row → Bool) (out : Row → Out)
    (rows : List Row) :
    (rows.flatMap fun row => if keep row then [out row] else []) =
      (rows.filter keep).map out := by
  induction rows with
  | nil =>
      rfl
  | cons head tail inductionHypothesis =>
      rw [List.flatMap_cons, inductionHypothesis]
      by_cases kept : keep head
      · rw [if_pos kept, List.filter_cons_of_pos kept, List.map_cons, List.singleton_append]
      · rw [if_neg kept, List.filter_cons_of_neg kept, List.nil_append]

/-- Rows expanded key by key: those of a key are its own expansion. -/
theorem filter_expanded {Key : Type u} {Row : Type v} [DecidableEq Key] {keys : List Key}
    (nodup : keys.Nodup) (expand : Key → List Row) (keyOf : Row → Key)
    (grouped : ∀ k, ∀ row ∈ expand k, keyOf row = k) (k : Key) :
    ((keys.flatMap expand).filter fun row => decide (keyOf row = k)) =
      if k ∈ keys then expand k else [] := by
  induction keys with
  | nil =>
      rfl
  | cons head tail inductionHypothesis =>
      obtain ⟨headNotTail, tailNodup⟩ := List.nodup_cons.mp nodup
      rw [List.flatMap_cons, List.filter_append, inductionHypothesis tailNodup]
      by_cases same : head = k
      · subst same
        have all : (expand head).filter (fun row => decide (keyOf row = head)) = expand head :=
          List.filter_eq_self.mpr fun row member => decide_eq_true (grouped head row member)
        rw [all, if_neg headNotTail, List.append_nil, if_pos List.mem_cons_self]
      · have none : (expand head).filter (fun row => decide (keyOf row = k)) = [] :=
          List.filter_eq_nil_iff.mpr fun row member isKey =>
            same ((grouped head row member).symm.trans (of_decide_eq_true isKey))
        rw [none, List.nil_append]
        simp [Ne.symm same]

theorem filter_groups {Key : Type u} {Group : Type v} [DecidableEq Key] {keys : List Key}
    (nodup : keys.Nodup) (group : Key → Group) (keyOf : Group → Key)
    (grouped : ∀ k, keyOf (group k) = k) (k : Key) :
    ((keys.map group).filter fun g => decide (keyOf g = k)) =
      if k ∈ keys then [group k] else [] := by
  rw [List.map_eq_flatMap]
  refine filter_expanded nodup (fun key => [group key]) keyOf (fun key row member => ?_) k
  rw [List.mem_singleton.mp member, grouped]

/-- A full join in which no left row matches twice. -/
theorem forall_fullJoin_iff {on : Left → Right → Bool} {left : List Left} {right : List Right}
    (atMostOne : ∀ row ∈ left, (right.filter (on row)).length ≤ 1)
    (holds : Option Left × Option Right → Prop) :
    (∀ pair ∈ fullJoin on left right, holds pair) ↔
      (∀ row ∈ left, holds (some row, right.find? (on row))) ∧
        ∀ other ∈ right, (∀ row ∈ left, on row other = false) → holds (none, some other) := by
  simp only [fullJoin, List.mem_append, List.mem_flatMap, List.mem_map, List.mem_filter,
    Bool.not_eq_true', List.any_eq_false, Bool.not_eq_true]
  constructor
  · intro all
    constructor
    · intro row member
      refine all _ (Or.inl ⟨row, member, _, ?_, rfl⟩)
      rw [leftJoin_eq_find? (atMostOne row member)]
      exact List.mem_singleton_self _
    · intro other member unmatched
      exact all _ (Or.inr ⟨other, ⟨member, unmatched⟩, rfl⟩)
  · rintro ⟨ofLeft, ofRight⟩ pair (⟨row, member, other, matched, rfl⟩ | ⟨other, unmatched, rfl⟩)
    · rw [leftJoin_eq_find? (atMostOne row member), List.mem_singleton] at matched
      rw [matched]
      exact ofLeft row member
    · exact ofRight other unmatched.1 unmatched.2

/-- A full join that is a left join: no left row matches twice, and every right
row is matched. -/
theorem fullJoin_eq_map {on : Left → Right → Bool} {left : List Left} {right : List Right}
    (atMostOne : ∀ row ∈ left, (right.filter (on row)).length ≤ 1)
    (matched : ∀ other ∈ right, ∃ row ∈ left, on row other = true) :
    fullJoin on left right = left.map fun row => (some row, right.find? (on row)) := by
  have unmatched : (right.filter fun other => !left.any fun row => on row other) = [] := by
    rw [List.filter_eq_nil_iff]
    intro other member
    obtain ⟨row, inLeft, isOn⟩ := matched other member
    rw [List.any_eq_true.mpr ⟨row, inLeft, isOn⟩]
    exact Bool.false_ne_true
  rw [fullJoin, unmatched, List.map_nil, List.append_nil]
  clear matched unmatched
  induction left with
  | nil =>
      rfl
  | cons head tail inductionHypothesis =>
      rw [List.flatMap_cons, leftJoin_eq_find? (atMostOne head List.mem_cons_self),
        inductionHypothesis fun row member => atMostOne row (List.mem_cons_of_mem _ member)]
      rfl

end Join
