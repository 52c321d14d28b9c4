import Mathlib.Data.List.Basic
import Mathlib.Logic.Function.Basic

/-!
# Codes whose words say where they end

`Separates code` means that a codeword at the front of a text determines the
value it is of and what follows it.  Sequences of such codewords, written one
after the other or up to a stop mark, determine the values they are of.
-/

namespace PrefixCode

universe u v

variable {Value : Type u} {Symbol : Type v} {code : Value → List Symbol}

/-- A codeword at the front of a text is read back, and so is what follows. -/
def Separates (code : Value → List Symbol) : Prop :=
  ∀ left right leftRest rightRest, code left ++ leftRest = code right ++ rightRest →
    left = right ∧ leftRest = rightRest

/-- A code with a decoder. -/
theorem separates_of_decode (decode : List Symbol → Option (Value × List Symbol))
    (decodes : ∀ value rest, decode (code value ++ rest) = some (value, rest)) :
    Separates code := by
  intro left right leftRest rightRest equal
  have same : some (left, leftRest) = some (right, rightRest) := by
    rw [← decodes, ← decodes, equal]
  exact Prod.mk.inj (Option.some.inj same)

/-- An injective code of one width. -/
theorem separates_of_width {width : Nat} (wide : ∀ value, (code value).length = width)
    (injective : Function.Injective code) : Separates code := by
  intro left right leftRest rightRest equal
  obtain ⟨same, rest⟩ := List.append_inj equal ((wide left).trans (wide right).symm)
  exact ⟨injective same, rest⟩

/-- A sequence of nonempty codewords determines its values. -/
theorem Separates.flatMap_injective (separates : Separates code)
    (nonempty : ∀ value, code value ≠ []) :
    Function.Injective fun values : List Value => values.flatMap code := by
  intro left
  induction left with
  | nil =>
      intro right equal
      cases right with
      | nil =>
          rfl
      | cons value rest =>
          have empty : code value ++ rest.flatMap code = [] := equal.symm
          exact absurd (List.append_eq_nil_iff.mp empty).1 (nonempty value)
  | cons head tail inductionHypothesis =>
      intro right equal
      cases right with
      | nil =>
          have empty : code head ++ tail.flatMap code = [] := equal
          exact absurd (List.append_eq_nil_iff.mp empty).1 (nonempty head)
      | cons value rest =>
          have both : code head ++ tail.flatMap code = code value ++ rest.flatMap code := equal
          obtain ⟨sameHead, sameRest⟩ := separates head value _ _ both
          rw [sameHead, inductionHypothesis sameRest]

/-- A sequence of codewords up to a stop mark that begins none of them. -/
theorem Separates.stopped (separates : Separates code) {stop : Symbol}
    (unmarked : ∀ value rest other, code value ++ rest ≠ stop :: other) :
    Separates fun values : List Value => values.flatMap code ++ [stop] := by
  intro left
  induction left with
  | nil =>
      intro right leftRest rightRest equal
      cases right with
      | nil =>
          exact ⟨rfl, List.cons.inj equal |>.2⟩
      | cons value rest =>
          simp only [List.flatMap_cons, List.append_assoc] at equal
          exact absurd equal.symm (unmarked value _ _)
  | cons head tail inductionHypothesis =>
      intro right leftRest rightRest equal
      cases right with
      | nil =>
          simp only [List.flatMap_cons, List.append_assoc] at equal
          exact absurd equal (unmarked head _ _)
      | cons value rest =>
          simp only [List.flatMap_cons, List.append_assoc] at equal
          obtain ⟨sameHead, sameRest⟩ := separates head value _ _ equal
          rw [← List.append_assoc, ← List.append_assoc] at sameRest
          obtain ⟨sameTail, sameEnd⟩ := inductionHypothesis rest _ _ sameRest
          exact ⟨by rw [sameHead, sameTail], sameEnd⟩

end PrefixCode
