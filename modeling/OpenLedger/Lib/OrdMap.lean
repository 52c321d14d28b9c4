import Mathlib.Order.Basic
import Mathlib.Order.Lattice
import Mathlib.Data.List.Basic
import Mathlib.Data.List.Pairwise
import Mathlib.Data.List.Nodup
import Mathlib.Data.List.Perm.Basic

/-!
# Maps kept as strictly sorted lists of entries

An `OrdMap` iterates in key order and holds each key at most once; both are
carried by the `sorted` field.  `alter` is the only way to change one: it
replaces the value at a key by a function of the value that was there, if any.
-/

universe u v w

/-- A finite map whose entries are listed in strictly increasing key order. -/
structure OrdMap (Key : Type u) (Value : Type v) [LinearOrder Key] where
  entries : List (Key × Value)
  sorted : entries.Pairwise fun left right => left.1 < right.1

namespace OrdMap

variable {Key : Type u} {Value : Type v} [LinearOrder Key]

def empty : OrdMap Key Value := ⟨[], List.Pairwise.nil⟩

/-- The value under `key` in a list of entries. -/
def lookup (key : Key) : List (Key × Value) → Option Value
  | [] => none
  | (other, value) :: rest => if other = key then some value else lookup key rest

def get? (map : OrdMap Key Value) (key : Key) : Option Value :=
  lookup key map.entries

def keys (map : OrdMap Key Value) : List Key := map.entries.map Prod.fst

/-- Replace the value at `key` in place, or insert a new entry where the order
wants it. -/
def alterEntries (key : Key) (change : Option Value → Value) :
    List (Key × Value) → List (Key × Value)
  | [] => [(key, change none)]
  | (other, value) :: rest =>
      if key < other then
        (key, change none) :: (other, value) :: rest
      else if key = other then
        (key, change (some value)) :: rest
      else
        (other, value) :: alterEntries key change rest

theorem mem_alterEntries
    {key : Key} {change : Option Value → Value} {entries : List (Key × Value)}
    {entry : Key × Value} (member : entry ∈ alterEntries key change entries) :
    entry.1 = key ∨ entry ∈ entries := by
  induction entries with
  | nil =>
      simp only [alterEntries, List.mem_singleton] at member
      exact Or.inl (by rw [member])
  | cons head rest inductionHypothesis =>
      obtain ⟨other, value⟩ := head
      simp only [alterEntries] at member
      split at member
      · rcases List.mem_cons.mp member with rfl | inside
        · exact Or.inl rfl
        · exact Or.inr inside
      · split at member
        · rcases List.mem_cons.mp member with rfl | inside
          · exact Or.inl rfl
          · exact Or.inr (List.mem_cons_of_mem _ inside)
        · rcases List.mem_cons.mp member with rfl | inside
          · exact Or.inr List.mem_cons_self
          · rcases inductionHypothesis inside with isKey | old
            · exact Or.inl isKey
            · exact Or.inr (List.mem_cons_of_mem _ old)

theorem alterEntries_sorted
    (key : Key) (change : Option Value → Value) {entries : List (Key × Value)}
    (sorted : entries.Pairwise fun left right => left.1 < right.1) :
    (alterEntries key change entries).Pairwise
      fun left right => left.1 < right.1 := by
  induction entries with
  | nil =>
      simp [alterEntries]
  | cons head rest inductionHypothesis =>
      obtain ⟨other, value⟩ := head
      obtain ⟨headBelow, restSorted⟩ := List.pairwise_cons.mp sorted
      simp only [alterEntries]
      split
      · rename_i below
        refine List.pairwise_cons.mpr ⟨?_, sorted⟩
        intro entry member
        rcases List.mem_cons.mp member with rfl | inside
        · exact below
        · exact below.trans (headBelow entry inside)
      · split
        · rename_i equal
          subst equal
          exact List.pairwise_cons.mpr ⟨headBelow, restSorted⟩
        · rename_i notBelow different
          refine List.pairwise_cons.mpr
            ⟨?_, inductionHypothesis restSorted⟩
          intro entry member
          rcases mem_alterEntries member with isKey | old
          · rw [isKey]
            exact lt_of_le_of_ne (not_lt.mp notBelow) (Ne.symm different)
          · exact headBelow entry old

def alter (map : OrdMap Key Value) (key : Key)
    (change : Option Value → Value) : OrdMap Key Value :=
  ⟨alterEntries key change map.entries, alterEntries_sorted key change map.sorted⟩

/-- Change every value, keeping the keys. -/
def mapValues {Value' : Type w} (map : OrdMap Key Value)
    (change : Value → Value') : OrdMap Key Value' :=
  ⟨map.entries.map fun entry => (entry.1, change entry.2), by
    rw [List.pairwise_map]
    exact map.sorted⟩

theorem lookup_eq_none_of_lt
    {key : Key} {entries : List (Key × Value)}
    (above : ∀ entry ∈ entries, key < entry.1) :
    lookup key entries = none := by
  induction entries with
  | nil =>
      rfl
  | cons head rest inductionHypothesis =>
      obtain ⟨other, value⟩ := head
      have different : other ≠ key :=
        (above (other, value) List.mem_cons_self).ne'
      rw [lookup, if_neg different]
      exact inductionHypothesis fun entry member =>
        above entry (List.mem_cons_of_mem _ member)

private theorem lookup_alterEntries
    (key other : Key) (change : Option Value → Value)
    {entries : List (Key × Value)}
    (sorted : entries.Pairwise fun left right => left.1 < right.1) :
    lookup other (alterEntries key change entries) =
      if other = key then some (change (lookup key entries))
      else lookup other entries := by
  induction entries with
  | nil =>
      simp [alterEntries, lookup, eq_comm]
  | cons head rest inductionHypothesis =>
      obtain ⟨first, value⟩ := head
      obtain ⟨headBelow, restSorted⟩ := List.pairwise_cons.mp sorted
      simp only [alterEntries]
      split
      · rename_i below
        have absent : lookup key ((first, value) :: rest) = none := by
          apply lookup_eq_none_of_lt
          intro entry member
          rcases List.mem_cons.mp member with rfl | inside
          · exact below
          · exact below.trans (headBelow entry inside)
        rw [lookup, absent]
        simp [eq_comm]
      · split
        · rename_i equal
          subst equal
          by_cases same : other = key
          · simp [lookup, same]
          · simp [lookup, same, Ne.symm same]
        · rename_i different
          rw [lookup, inductionHypothesis restSorted]
          by_cases same : other = key
          · subst same
            simp [lookup, Ne.symm different]
          · simp [lookup, same]

@[simp]
theorem get?_empty (key : Key) :
    (empty : OrdMap Key Value).get? key = none := rfl

theorem get?_alter
    (map : OrdMap Key Value) (key other : Key)
    (change : Option Value → Value) :
    (map.alter key change).get? other =
      if other = key then some (change (map.get? key)) else map.get? other :=
  lookup_alterEntries key other change map.sorted

theorem keys_nodup (map : OrdMap Key Value) : map.keys.Nodup := by
  have increasing : map.keys.Pairwise (· < ·) :=
    List.pairwise_map.mpr map.sorted
  exact increasing.imp fun below => below.ne

theorem get?_eq_some_iff
    (map : OrdMap Key Value) (key : Key) (value : Value) :
    map.get? key = some value ↔ (key, value) ∈ map.entries := by
  obtain ⟨entries, sorted⟩ := map
  induction entries with
  | nil =>
      simp [get?, lookup]
  | cons head rest inductionHypothesis =>
      obtain ⟨first, held⟩ := head
      obtain ⟨headBelow, restSorted⟩ := List.pairwise_cons.mp sorted
      have tail := inductionHypothesis restSorted
      simp only [get?] at tail
      simp only [get?, lookup, List.mem_cons, Prod.mk.injEq]
      by_cases same : first = key
      · subst same
        have absent : (first, value) ∉ rest := fun member =>
          lt_irrefl first (headBelow (first, value) member)
        simp [absent, eq_comm]
      · simp [same, Ne.symm same, tail]

@[simp]
theorem entries_mapValues {Value' : Type w}
    (map : OrdMap Key Value) (change : Value → Value') :
    (map.mapValues change).entries =
      map.entries.map fun entry => (entry.1, change entry.2) := rfl

@[simp]
theorem get?_mapValues {Value' : Type w}
    (map : OrdMap Key Value) (change : Value → Value') (key : Key) :
    (map.mapValues change).get? key = (map.get? key).map change := by
  obtain ⟨entries, sorted⟩ := map
  induction entries with
  | nil =>
      rfl
  | cons head rest inductionHypothesis =>
      have tail := inductionHypothesis (List.pairwise_cons.mp sorted).2
      simp only [get?, entries_mapValues] at tail
      by_cases same : head.1 = key
      · simp [get?, lookup, same]
      · simp [get?, lookup, same, tail]

/-- A map is what it holds under each key. -/
theorem eq_of_get? {left right : OrdMap Key Value}
    (same : ∀ key, left.get? key = right.get? key) : left = right := by
  have sameEntries : left.entries = right.entries := by
    have distinct : ∀ map : OrdMap Key Value, map.entries.Nodup := fun map =>
      List.Nodup.of_map Prod.fst map.keys_nodup
    have permutation : left.entries.Perm right.entries := by
      rw [List.perm_ext_iff_of_nodup (distinct left) (distinct right)]
      intro entry
      rw [← get?_eq_some_iff, same, get?_eq_some_iff]
    refine permutation.eq_of_pairwise (fun first second _ _ below above => ?_)
      left.sorted right.sorted
    exact absurd (below.trans above) (lt_irrefl _)
  cases left
  cases right
  cases sameEntries
  rfl

end OrdMap
