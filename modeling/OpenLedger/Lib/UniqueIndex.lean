import Mathlib.Data.List.Nodup
import Mathlib.Data.List.Basic

/-!
# Unique indexes

A unique index gives some rows a key and refuses a second row with a key it
already holds.  Rows the index does not cover have key `none`.  `Admits` is the
check an insert of several rows runs; `Holds` is what it maintains.
-/

namespace UniqueIndex

universe u v

variable {Row : Type u} {Key : Type v}

/-- No two covered rows share a key. -/
def Holds (key : Row → Option Key) (rows : List Row) : Prop :=
  (rows.filterMap key).Nodup

/-- The new rows neither repeat a key among themselves nor one already held. -/
def Admits (key : Row → Option Key) (held new : List Row) : Prop :=
  (new.filterMap key).Nodup ∧ ∀ k ∈ new.filterMap key, k ∉ held.filterMap key

instance [DecidableEq Key] (key : Row → Option Key) (held new : List Row) :
    Decidable (Admits key held new) :=
  inferInstanceAs (Decidable (_ ∧ _))

@[simp]
theorem admits_nil (key : Row → Option Key) (held : List Row) : Admits key held [] :=
  ⟨List.nodup_nil, fun _ member => absurd member List.not_mem_nil⟩

@[simp]
theorem holds_nil (key : Row → Option Key) : Holds key ([] : List Row) :=
  List.nodup_nil

/-- A single row is admitted beside rows that do not have its key. -/
theorem admits_singleton {key : Row → Option Key} {held : List Row} {row : Row}
    (apart : ∀ other ∈ held, ∀ k, key row = some k → key other ≠ some k) :
    Admits key held [row] := by
  constructor
  · cases covered : key row with
    | none =>
        simp [covered]
    | some k =>
        simp [covered]
  · intro k isNew isHeld
    obtain ⟨new, isRow, covered⟩ := List.mem_filterMap.mp isNew
    obtain ⟨other, isThere, same⟩ := List.mem_filterMap.mp isHeld
    rw [List.mem_singleton.mp isRow] at covered
    exact apart other isThere k covered same

/-- An admitted insert keeps the index. -/
theorem holds_append {key : Row → Option Key} {held new : List Row}
    (holds : Holds key held) (admits : Admits key held new) :
    Holds key (held ++ new) := by
  rw [Holds, List.filterMap_append]
  refine List.Nodup.append holds admits.1 ?_
  intro k inHeld inNew
  exact admits.2 k inNew inHeld

/-- Two held rows with one key are one row. -/
theorem holds_eq {key : Row → Option Key} {rows : List Row}
    (holds : Holds key rows) {left right : Row} {k : Key}
    (leftMember : left ∈ rows) (rightMember : right ∈ rows)
    (leftKey : key left = some k) (rightKey : key right = some k) :
    left = right := by
  induction rows with
  | nil =>
      cases leftMember
  | cons head tail inductionHypothesis =>
      cases covered : key head with
      | none =>
          have tailHolds : Holds key tail := by
            simpa [Holds, covered] using holds
          rcases List.mem_cons.mp leftMember with rfl | leftTail
          · rw [covered] at leftKey
            cases leftKey
          · rcases List.mem_cons.mp rightMember with rfl | rightTail
            · rw [covered] at rightKey
              cases rightKey
            · exact inductionHypothesis tailHolds leftTail rightTail
      | some headKey =>
          have split : headKey ∉ tail.filterMap key ∧ Holds key tail := by
            simpa only [Holds, List.filterMap_cons_some covered, List.nodup_cons]
              using holds
          have notInTail : ∀ row ∈ tail, key row ≠ some headKey := fun row member equal =>
            split.1 (List.mem_filterMap.mpr ⟨row, member, equal⟩)
          rcases List.mem_cons.mp leftMember with rfl | leftTail
          · rcases List.mem_cons.mp rightMember with rfl | rightTail
            · rfl
            · rw [covered] at leftKey
              exact absurd (rightKey.trans leftKey.symm) (notInTail right rightTail)
          · rcases List.mem_cons.mp rightMember with rfl | rightTail
            · rw [covered] at rightKey
              exact absurd (leftKey.trans rightKey.symm) (notInTail left leftTail)
            · exact inductionHypothesis split.2 leftTail rightTail

/-- Two inserts that share no key, so neither waits for the other. -/
def Apart (key : Row → Option Key) (left right : List Row) : Prop :=
  ∀ k ∈ left.filterMap key, k ∉ right.filterMap key

instance [DecidableEq Key] (key : Row → Option Key) (left right : List Row) :
    Decidable (Apart key left right) :=
  inferInstanceAs (Decidable (∀ k ∈ left.filterMap key, k ∉ right.filterMap key))

@[simp]
theorem apart_nil (key : Row → Option Key) (right : List Row) : Apart key [] right :=
  fun _ member => absurd member List.not_mem_nil

theorem Apart.symm {key : Row → Option Key} {left right : List Row}
    (apart : Apart key left right) : Apart key right left :=
  fun k inRight inLeft => apart k inLeft inRight

theorem Apart.append {key : Row → Option Key} {first second right : List Row}
    (firstApart : Apart key first right) (secondApart : Apart key second right) :
    Apart key (first ++ second) right := by
  intro k member
  rw [List.filterMap_append, List.mem_append] at member
  exact member.elim (firstApart k) (secondApart k)

/-- Two inserts, the second admitted behind the first, are one. -/
theorem admits_append {key : Row → Option Key} {held first second : List Row}
    (admits : Admits key held first) (behind : Admits key (held ++ first) second) :
    Admits key held (first ++ second) := by
  have apart : ∀ k ∈ second.filterMap key,
      k ∉ held.filterMap key ∧ k ∉ first.filterMap key := by
    intro k isNew
    have notBefore := behind.2 k isNew
    rw [List.filterMap_append, List.mem_append, not_or] at notBefore
    exact notBefore
  constructor
  · rw [List.filterMap_append]
    exact List.Nodup.append admits.1 behind.1 fun k inFirst inSecond =>
      (apart k inSecond).2 inFirst
  · intro k member
    rw [List.filterMap_append, List.mem_append] at member
    exact member.elim (admits.2 k) fun inSecond => (apart k inSecond).1

/-- An index over part of the rows, its key read off theirs. -/
theorem holds_filterMap {Part PartKey : Type*} {key : Row → Option Key} {rows : List Row}
    (holds : Holds key rows) (part : Row → Option Part) (partKey : Part → Option PartKey)
    (embed : PartKey → Key)
    (reads : ∀ row p k, part row = some p → partKey p = some k → key row = some (embed k)) :
    Holds partKey (rows.filterMap part) := by
  induction rows with
  | nil =>
      exact holds_nil _
  | cons head tail inductionHypothesis =>
      have tailHolds : Holds key tail := by
        rw [Holds, List.filterMap_cons] at holds
        split at holds
        · exact holds
        · exact (List.nodup_cons.mp holds).2
      have tailPart := inductionHypothesis tailHolds
      cases isPart : part head with
      | none =>
          rwa [List.filterMap_cons_none isPart]
      | some p =>
          rw [List.filterMap_cons_some isPart, Holds, List.filterMap_cons]
          cases covered : partKey p with
          | none =>
              exact tailPart
          | some k =>
              refine List.nodup_cons.mpr ⟨fun again => ?_, tailPart⟩
              obtain ⟨q, inPart, sameKey⟩ := List.mem_filterMap.mp again
              obtain ⟨row, inTail, isQ⟩ := List.mem_filterMap.mp inPart
              rw [Holds, List.filterMap_cons_some (reads head p k isPart covered)] at holds
              exact (List.nodup_cons.mp holds).1
                (List.mem_filterMap.mpr ⟨row, inTail, reads row q k isQ sameKey⟩)

/-- An insert stays admitted behind another it is apart from. -/
theorem Admits.behind {key : Row → Option Key} {held new other : List Row}
    (admits : Admits key held new) (apart : Apart key new other) :
    Admits key (held ++ other) new := by
  refine ⟨admits.1, fun k isNew inBoth => ?_⟩
  rw [List.filterMap_append, List.mem_append] at inBoth
  exact inBoth.elim (admits.2 k isNew) (apart k isNew)

/-- A lookup by an indexed key finds the row that has it. -/
theorem find?_of_mem {key : Row → Option Key} {rows : List Row} (holds : Holds key rows)
    {condition : Row → Bool} {row : Row} (member : row ∈ rows)
    (covered : (key row).isSome)
    (selects : ∀ other, condition other = true ↔ key other = key row) :
    rows.find? condition = some row := by
  obtain ⟨k, isKey⟩ := Option.isSome_iff_exists.mp covered
  cases found : rows.find? condition with
  | none =>
      have refused := List.find?_eq_none.mp found row member
      exact absurd ((selects row).mpr rfl) refused
  | some other =>
      have otherKey := (selects other).mp (List.find?_some found)
      rw [holds_eq holds (List.mem_of_find?_eq_some found) member
        (otherKey.trans isKey) isKey]

/-- A condition that selects a row's key keeps that row alone. -/
theorem filter_of_mem {key : Row → Option Key} {rows : List Row} (holds : Holds key rows)
    {condition : Row → Bool} {row : Row} (member : row ∈ rows) (covered : (key row).isSome)
    (selects : ∀ other, condition other = true ↔ key other = key row) :
    rows.filter condition = [row] := by
  obtain ⟨k, isKey⟩ := Option.isSome_iff_exists.mp covered
  induction rows with
  | nil =>
      cases member
  | cons head tail inductionHypothesis =>
      by_cases selected : condition head = true
      · have headKey : key head = some k := ((selects head).mp selected).trans isKey
        have isRow : head = row := holds_eq holds List.mem_cons_self member headKey isKey
        have distinct := holds
        rw [Holds, List.filterMap_cons_some headKey, List.nodup_cons] at distinct
        have noOther : tail.filter condition = [] := by
          rw [List.filter_eq_nil_iff]
          intro other inTail alsoSelected
          have otherKey := ((selects other).mp alsoSelected).trans isKey
          exact distinct.1 (List.mem_filterMap.mpr ⟨other, inTail, otherKey⟩)
        rw [List.filter_cons_of_pos selected, noOther, isRow]
      · have inTail : row ∈ tail := by
          rcases List.mem_cons.mp member with isHead | inTail
          · rw [← isHead] at selected
            exact absurd ((selects row).mpr rfl) selected
          · exact inTail
        have tailHolds : Holds key tail := by
          rw [Holds, List.filterMap_cons] at holds
          split at holds
          · exact holds
          · exact (List.nodup_cons.mp holds).2
        rw [List.filter_cons_of_neg selected]
        exact inductionHypothesis tailHolds inTail

/-- A lookup by a key the admitted rows do not carry finds what it found. -/
theorem find?_append_of_mem {key : Row → Option Key} {held new : List Row}
    (admits : Admits key held new) (holds : Holds key held)
    {condition : Row → Bool} {row : Row} (member : row ∈ new) (covered : (key row).isSome)
    (selects : ∀ other, condition other = true ↔ key other = key row) :
    (held ++ new).find? condition = some row :=
  find?_of_mem (holds_append holds admits) (List.mem_append_right _ member) covered selects

end UniqueIndex
