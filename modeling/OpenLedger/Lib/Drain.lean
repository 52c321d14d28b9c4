import Mathlib.Data.List.Basic
import Mathlib.Data.List.Perm.Basic

/-!
# One pass over a queue

A pass walks a queue from its head, takes the items it admits behind those it
has taken already, and stops at a ceiling.  What it takes and what it leaves are
the queue, each in the order it stood there.
-/

namespace Drain

universe u

variable {Item : Type u}

/-- `items` is `taken` and `left` merged, each in its own order. -/
inductive Splits : List Item → List Item → List Item → Prop where
  | nil : Splits [] [] []
  | take (item : Item) {items taken left : List Item} (splits : Splits items taken left) :
      Splits (item :: items) (item :: taken) left
  | leave (item : Item) {items taken left : List Item} (splits : Splits items taken left) :
      Splits (item :: items) taken (item :: left)

namespace Splits

variable {items taken left : List Item}

theorem leaveAll (items : List Item) : Splits items [] items := by
  induction items with
  | nil =>
      exact .nil
  | cons item rest inductionHypothesis =>
      exact .leave item inductionHypothesis

theorem perm (splits : Splits items taken left) : (taken ++ left).Perm items := by
  induction splits with
  | nil =>
      exact .refl _
  | take item _ inductionHypothesis =>
      exact inductionHypothesis.cons item
  | leave item _ inductionHypothesis =>
      exact List.perm_middle.trans (inductionHypothesis.cons item)

theorem taken_sublist (splits : Splits items taken left) : taken.Sublist items := by
  induction splits with
  | nil =>
      exact .slnil
  | take item _ inductionHypothesis =>
      exact inductionHypothesis.cons_cons item
  | leave item _ inductionHypothesis =>
      exact inductionHypothesis.cons item

theorem left_sublist (splits : Splits items taken left) : left.Sublist items := by
  induction splits with
  | nil =>
      exact .slnil
  | take item _ inductionHypothesis =>
      exact inductionHypothesis.cons item
  | leave item _ inductionHypothesis =>
      exact inductionHypothesis.cons_cons item

/-- An item is taken, or stays with no more ahead of it than before. -/
theorem stays {ahead behind : List Item} {item : Item}
    (splits : Splits (ahead ++ item :: behind) taken left) :
    item ∈ taken ∨ ∃ aheadLeft behindLeft,
      left = aheadLeft ++ item :: behindLeft ∧ aheadLeft.length ≤ ahead.length := by
  induction ahead generalizing taken left with
  | nil =>
      cases splits with
      | take _ splits =>
          exact Or.inl List.mem_cons_self
      | leave _ splits =>
          exact Or.inr ⟨[], _, rfl, Nat.le_refl 0⟩
  | cons first ahead inductionHypothesis =>
      cases splits with
      | take _ splits =>
          rcases inductionHypothesis splits with isTaken | ⟨aheadLeft, behindLeft, rfl, fewer⟩
          · exact Or.inl (List.mem_cons_of_mem _ isTaken)
          · exact Or.inr ⟨aheadLeft, behindLeft, rfl, Nat.le_succ_of_le fewer⟩
      | leave _ splits =>
          rcases inductionHypothesis splits with isTaken | ⟨aheadLeft, behindLeft, rfl, fewer⟩
          · exact Or.inl isTaken
          · exact Or.inr ⟨first :: aheadLeft, behindLeft, rfl, Nat.succ_le_succ fewer⟩

end Splits

section Pass

variable (admits : List Item → Item → Bool) (ceiling : Nat)

/-- Take what is admitted behind `taken`, and leave the rest. -/
def pass (taken : List Item) : List Item → List Item × List Item
  | [] => (taken, [])
  | item :: rest =>
      if taken.length < ceiling then
        if admits taken item then pass (taken ++ [item]) rest
        else ((pass taken rest).1, item :: (pass taken rest).2)
      else (taken, item :: rest)

variable {admits} {ceiling}

theorem pass_splits (taken items : List Item) :
    ∃ joined, (pass admits ceiling taken items).1 = taken ++ joined ∧
      Splits items joined (pass admits ceiling taken items).2 := by
  induction items generalizing taken with
  | nil =>
      exact ⟨[], (List.append_nil taken).symm, .nil⟩
  | cons item rest inductionHypothesis =>
      rw [pass]
      split
      · split
        · obtain ⟨joined, isTaken, splits⟩ := inductionHypothesis (taken ++ [item])
          refine ⟨item :: joined, ?_, .take item splits⟩
          rw [isTaken, List.append_assoc, List.singleton_append]
        · obtain ⟨joined, isTaken, splits⟩ := inductionHypothesis taken
          exact ⟨joined, isTaken, .leave item splits⟩
      · exact ⟨[], (List.append_nil taken).symm, .leaveAll _⟩

theorem length_pass {taken : List Item} (few : taken.length ≤ ceiling) (items : List Item) :
    (pass admits ceiling taken items).1.length ≤ ceiling := by
  induction items generalizing taken with
  | nil =>
      exact few
  | cons item rest inductionHypothesis =>
      rw [pass]
      split
      · rename_i below
        split
        · exact inductionHypothesis (by rw [List.length_append]; exact below)
        · exact inductionHypothesis few
      · exact few

/-- What every admitted item keeps, the pass keeps. -/
theorem pass_keeps {Good : List Item → Prop}
    (step : ∀ taken item, Good taken → admits taken item = true → Good (taken ++ [item]))
    {taken : List Item} (good : Good taken) (items : List Item) :
    Good (pass admits ceiling taken items).1 := by
  induction items generalizing taken with
  | nil =>
      exact good
  | cons item rest inductionHypothesis =>
      rw [pass]
      split
      · split
        · rename_i isAdmitted
          exact inductionHypothesis (step taken item good isAdmitted)
        · exact inductionHypothesis good
      · exact good

/-- Below the ceiling nothing is left that could still join, when joining gets
no easier as more is taken. -/
theorem pass_maximal
    (antitone : ∀ taken more item, admits (taken ++ more) item = true → admits taken item = true)
    {taken items : List Item}
    (room : (pass admits ceiling taken items).1.length < ceiling) :
    ∀ item ∈ (pass admits ceiling taken items).2,
      admits (pass admits ceiling taken items).1 item = false := by
  induction items generalizing taken with
  | nil =>
      exact fun _ member => absurd member List.not_mem_nil
  | cons item rest inductionHypothesis =>
      rw [pass] at room ⊢
      split at room
      · rename_i below
        rw [if_pos below]
        split at room
        · rename_i isAdmitted
          rw [if_pos isAdmitted]
          exact inductionHypothesis room
        · rename_i notAdmitted
          rw [if_neg notAdmitted]
          intro other member
          rcases List.mem_cons.mp member with rfl | isLeft
          · obtain ⟨joined, isTaken, _⟩ := @pass_splits Item admits ceiling taken rest
            rw [Bool.eq_false_iff]
            intro isAdmitted
            rw [isTaken] at isAdmitted
            exact notAdmitted (antitone taken joined _ isAdmitted)
          · exact inductionHypothesis room other isLeft
      · rename_i full
        exact absurd room full

end Pass

end Drain
