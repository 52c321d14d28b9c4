import OpenLedger.Lib.Tally
import OpenLedger.Lib.UniqueIndex

/-!
# Fenced rows

A table whose rows have owners, read through a fence that lets only some owners'
rows by.  A query that asks for rows of those owners reads the same through the
fence, an index whose keys tell the owners admits the same, and the rows inside
are found again at their rank.
-/

universe u v

namespace Fence

variable {Row : Type u} {Key : Type v} {mine condition : Row → Bool}

/-! ## Queries -/

section Queries

variable (within : ∀ row, condition row = true → mine row = true) (rows : List Row)

include within

theorem and_condition (row : Row) : (mine row && condition row) = condition row := by
  cases holds : condition row with
  | false =>
      rw [Bool.and_false]
  | true =>
      rw [within row holds, Bool.true_and]

theorem find?_within : (rows.filter mine).find? condition = rows.find? condition := by
  rw [List.find?_filter]
  congr 1
  funext row
  exact Eq.trans (by simp) (and_condition within row)

theorem any_within : (rows.filter mine).any condition = rows.any condition := by
  rw [List.any_filter]
  congr 1
  funext row
  exact and_condition within row

theorem filter_within : (rows.filter mine).filter condition = rows.filter condition := by
  rw [List.filter_filter]
  congr 1
  funext row
  rw [Bool.and_comm]
  exact and_condition within row

theorem sumWhere_within (amount : Row → Int) :
    Tally.sumWhere condition amount (rows.filter mine) =
      Tally.sumWhere condition amount rows := by
  rw [Tally.sumWhere_filter]
  congr 1
  funext row
  exact and_condition within row

end Queries

/-! ## Inserts -/

section Inserts

variable {held new : List Row}

theorem filter_append_mine (own : ∀ row ∈ new, mine row = true) :
    (held ++ new).filter mine = held.filter mine ++ new := by
  rw [List.filter_append, List.filter_eq_self.mpr own]

theorem filter_append_foreign (foreign : ∀ row ∈ new, mine row = false) :
    (held ++ new).filter mine = held.filter mine := by
  have none : new.filter mine = [] :=
    List.filter_eq_nil_iff.mpr fun row member => by simp [foreign row member]
  rw [List.filter_append, none, List.append_nil]

/-- Whether a row's key says on which side of the fence the row is. -/
def Tells (mine : Row → Bool) (key : Row → Option Key) : Prop :=
  ∀ left right k, key left = some k → key right = some k → mine left = mine right

variable {key : Row → Option Key}

theorem admits_within (tells : Tells mine key) (own : ∀ row ∈ new, mine row = true) :
    UniqueIndex.Admits key (held.filter mine) new ↔ UniqueIndex.Admits key held new := by
  have unheld : (∀ k ∈ new.filterMap key, k ∉ (held.filter mine).filterMap key) ↔
      ∀ k ∈ new.filterMap key, k ∉ held.filterMap key := by
    constructor
    · intro fenced k isNew isHeld
      obtain ⟨row, isRow, covered⟩ := List.mem_filterMap.mp isNew
      obtain ⟨other, isThere, same⟩ := List.mem_filterMap.mp isHeld
      have inside : mine other = true :=
        (tells other row k same covered).trans (own row isRow)
      exact fenced k isNew
        (List.mem_filterMap.mpr ⟨other, List.mem_filter.mpr ⟨isThere, inside⟩, same⟩)
    · intro all k isNew isHeld
      obtain ⟨other, isThere, same⟩ := List.mem_filterMap.mp isHeld
      exact all k isNew
        (List.mem_filterMap.mpr ⟨other, (List.mem_filter.mp isThere).1, same⟩)
  exact and_congr_right fun _ => unheld

/-- Rows on the two sides of the fence share no key. -/
theorem apart_of_sides {left right : List Row} (tells : Tells mine key)
    (own : ∀ row ∈ left, mine row = true) (foreign : ∀ row ∈ right, mine row = false) :
    UniqueIndex.Apart key left right := by
  intro k isLeft isRight
  obtain ⟨row, isRow, covered⟩ := List.mem_filterMap.mp isLeft
  obtain ⟨other, isThere, same⟩ := List.mem_filterMap.mp isRight
  have sides := tells row other k covered same
  rw [own row isRow, foreign other isThere] at sides
  cases sides

end Inserts

/-! ## Ranks -/

section Ranks

/-- How many rows inside come before a place. -/
def rank (mine : Row → Bool) (rows : List Row) (index : Nat) : Nat :=
  (rows.take index).countP mine

@[simp]
theorem rank_zero (rows : List Row) : rank mine rows 0 = 0 := rfl

@[simp]
theorem rank_succ_cons (head : Row) (tail : List Row) (index : Nat) :
    rank mine (head :: tail) (index + 1) =
      rank mine tail index + if mine head = true then 1 else 0 := by
  rw [rank, List.take_succ_cons, List.countP_cons]
  rfl

theorem getElem?_rank {rows : List Row} {index : Nat} {row : Row}
    (here : rows[index]? = some row) (inside : mine row = true) :
    (rows.filter mine)[rank mine rows index]? = some row := by
  induction rows generalizing index with
  | nil =>
      cases here
  | cons head tail inductionHypothesis =>
      cases index with
      | zero =>
          obtain rfl : head = row := by simpa using here
          simp [inside]
      | succ index =>
          have there : tail[index]? = some row := by simpa using here
          have found := inductionHypothesis there
          by_cases headInside : mine head = true
          · simpa [headInside] using found
          · simpa [headInside] using found

/-- Every row inside has a place outside, and its rank there. -/
theorem exists_of_getElem?_filter {rows : List Row} {place : Nat} {row : Row}
    (found : (rows.filter mine)[place]? = some row) :
    ∃ index, rows[index]? = some row ∧ mine row = true ∧ rank mine rows index = place := by
  induction rows generalizing place with
  | nil =>
      cases found
  | cons head tail inductionHypothesis =>
      by_cases headInside : mine head = true
      · rw [List.filter_cons_of_pos headInside] at found
        cases place with
        | zero =>
            obtain rfl : head = row := by simpa using found
            exact ⟨0, rfl, headInside, rfl⟩
        | succ place =>
            obtain ⟨index, here, inside, ranked⟩ :=
              @inductionHypothesis place (by simpa using found)
            exact ⟨index + 1, by simpa using here, inside, by simp [headInside, ranked]⟩
      · rw [List.filter_cons_of_neg headInside] at found
        obtain ⟨index, here, inside, ranked⟩ := inductionHypothesis found
        exact ⟨index + 1, by simpa using here, inside, by simp [headInside, ranked]⟩

/-- Two places inside have two ranks. -/
theorem rank_injective {rows : List Row} {left right : Nat} {row other : Row}
    (isLeft : rows[left]? = some row) (isRight : rows[right]? = some other)
    (leftInside : mine row = true) (rightInside : mine other = true)
    (same : rank mine rows left = rank mine rows right) : left = right := by
  induction rows generalizing left right with
  | nil =>
      cases isLeft
  | cons head tail inductionHypothesis =>
      cases left with
      | zero =>
          cases right with
          | zero =>
              rfl
          | succ right =>
              obtain rfl : head = row := by simpa using isLeft
              simp [leftInside] at same
      | succ left =>
          cases right with
          | zero =>
              obtain rfl : head = other := by simpa using isRight
              simp [rightInside] at same
          | succ right =>
              rw [rank_succ_cons, rank_succ_cons] at same
              have equal : left = right :=
                inductionHypothesis (by simpa using isLeft) (by simpa using isRight) (by omega)
              omega

theorem filter_set_mine {rows : List Row} {index : Nat} {row new : Row}
    (here : rows[index]? = some row) (inside : mine row = true) (stays : mine new = true) :
    (rows.set index new).filter mine = (rows.filter mine).set (rank mine rows index) new := by
  induction rows generalizing index with
  | nil =>
      cases here
  | cons head tail inductionHypothesis =>
      cases index with
      | zero =>
          obtain rfl : head = row := by simpa using here
          simp [inside, stays]
      | succ index =>
          have there : tail[index]? = some row := by simpa using here
          have after := inductionHypothesis there
          by_cases headInside : mine head = true
          · simpa [headInside] using after
          · simpa [headInside] using after

theorem filter_set_foreign {rows : List Row} {index : Nat} {row new : Row}
    (here : rows[index]? = some row) (outside : mine row = false) (stays : mine new = false) :
    (rows.set index new).filter mine = rows.filter mine := by
  induction rows generalizing index with
  | nil =>
      cases here
  | cons head tail inductionHypothesis =>
      cases index with
      | zero =>
          obtain rfl : head = row := by simpa using here
          simp [outside, stays]
      | succ index =>
          have there : tail[index]? = some row := by simpa using here
          have after := inductionHypothesis there
          by_cases headInside : mine head = true
          · simpa [headInside] using after
          · simpa [headInside] using after

end Ranks

end Fence
