import Mathlib.Data.List.Pairwise
import Mathlib.Logic.Relation
import Mathlib.Order.Lattice

/-!
# Takers that wait for each other

Takers hold locks and ask for more, one after the other, and wait while another holds
the one they ask for.  When every taker asks along one relation on the locks, and the
relation has no circle, no takers wait for each other in a circle.
-/

namespace WaitsFor

universe u v

variable {Taker : Type u} {Lock : Type v}

/-- A relation along which one never comes back. -/
def Acyclic {α : Type u} (before : α → α → Prop) : Prop := ∀ a, ¬ Relation.TransGen before a a

theorem acyclic_of_strict {α : Type u} (before : α → α → Prop) [IsTrans α before]
    [Std.Irrefl before] : Acyclic before := by
  intro a circle
  rw [Relation.transGen_eq_self] at circle
  exact irrefl a circle

theorem Acyclic.on {α : Type u} {β : Type v} {before : β → β → Prop} (acyclic : Acyclic before)
    (place : α → β) : Acyclic fun left right => before (place left) (place right) :=
  fun a circle => acyclic (place a) (circle.lift place fun _ _ step => step)

section Sums

variable {First : Type u} {Second : Type v} {first : First → First → Prop}
  {second : Second → Second → Prop}

/-- What a path over two kinds of locks, the first kind before the second, says of its
ends. -/
theorem path_of_lex {left right : First ⊕ Second}
    (path : Relation.TransGen (Sum.Lex first second) left right) :
    (∃ a b, left = .inl a ∧ right = .inl b ∧ Relation.TransGen first a b) ∨
      (∃ a b, left = .inl a ∧ right = .inr b) ∨
      ∃ a b, left = .inr a ∧ right = .inr b ∧ Relation.TransGen second a b := by
  induction path with
  | single step =>
      cases step with
      | inl step => exact Or.inl ⟨_, _, rfl, rfl, .single step⟩
      | inr step => exact Or.inr (Or.inr ⟨_, _, rfl, rfl, .single step⟩)
      | sep a b => exact Or.inr (Or.inl ⟨_, _, rfl, rfl⟩)
  | tail _ step inductionHypothesis =>
      rcases inductionHypothesis with ⟨a, b, rfl, rfl, soFar⟩ | ⟨a, b, rfl, rfl⟩ |
        ⟨a, b, rfl, rfl, soFar⟩
      · cases step with
        | inl step => exact Or.inl ⟨_, _, rfl, rfl, soFar.tail step⟩
        | sep => exact Or.inr (Or.inl ⟨_, _, rfl, rfl⟩)
      · cases step with
        | inr step => exact Or.inr (Or.inl ⟨_, _, rfl, rfl⟩)
      · cases step with
        | inr step => exact Or.inr (Or.inr ⟨_, _, rfl, rfl, soFar.tail step⟩)

/-- Two kinds of locks, each without circles, have none when all of the first kind are
taken before any of the second. -/
theorem Acyclic.lex (firstAcyclic : Acyclic first) (secondAcyclic : Acyclic second) :
    Acyclic (Sum.Lex first second) := by
  intro lock circle
  rcases path_of_lex circle with ⟨a, b, rfl, same, path⟩ | ⟨a, b, rfl, same⟩ |
    ⟨a, b, rfl, same, path⟩
  · rw [← Sum.inl.inj same] at path
    exact firstAcyclic a path
  · cases same
  · rw [← Sum.inr.inj same] at path
    exact secondAcyclic a path

end Sums

/-- A taker waits for another that holds the lock it asks for. -/
def Waits (holds asks : Taker → Lock → Prop) (waiter holder : Taker) : Prop :=
  ∃ lock, asks waiter lock ∧ holds holder lock

/-- Takers that ask only for locks behind those they hold never wait in a circle. -/
theorem no_circle {holds asks : Taker → Lock → Prop} {before : Lock → Lock → Prop}
    (acyclic : Acyclic before)
    (ordered : ∀ taker held asked, holds taker held → asks taker asked → before held asked) :
    Acyclic (Waits holds asks) := by
  -- along a path of waits the locks asked for lead on to the lock held at its end
  have leads : ∀ {waiter holder}, Relation.TransGen (Waits holds asks) waiter holder →
      ∃ asked held, asks waiter asked ∧ holds holder held ∧
        Relation.ReflTransGen before asked held := by
    intro waiter holder path
    induction path with
    | single wait =>
        obtain ⟨lock, asked, held⟩ := wait
        exact ⟨lock, lock, asked, held, .refl⟩
    | tail _ wait inductionHypothesis =>
        obtain ⟨asked, held, isAsked, isHeld, soFar⟩ := inductionHypothesis
        obtain ⟨lock, asksNext, heldNext⟩ := wait
        exact ⟨asked, lock, isAsked, heldNext, soFar.tail (ordered _ _ _ isHeld asksNext)⟩
  intro taker circle
  obtain ⟨asked, held, isAsked, isHeld, path⟩ := leads circle
  exact acyclic held (Relation.TransGen.head' (ordered _ _ _ isHeld isAsked) path)

/-- A taker's locks along a relation: what it holds comes before what it still wants,
and it wants its locks in order. -/
structure Along (before : Lock → Lock → Prop) (held wanted : List Lock) : Prop where
  behind : ∀ lock ∈ held, ∀ other ∈ wanted, lock ≠ other → before lock other
  ordered : wanted.Pairwise fun lock other => lock ≠ other → before lock other

namespace Along

variable {before : Lock → Lock → Prop} {held wanted : List Lock} {lock : Lock}

theorem start (ordered : wanted.Pairwise fun lock other => lock ≠ other → before lock other) :
    Along before [] wanted :=
  ⟨fun _ member => absurd member List.not_mem_nil, ordered⟩

/-- A lock that is not taken after all. -/
theorem skip (along : Along before held (lock :: wanted)) : Along before held wanted :=
  ⟨fun other isHeld next isWanted => along.behind other isHeld next (List.mem_cons_of_mem _ isWanted),
    (List.pairwise_cons.mp along.ordered).2⟩

theorem take (along : Along before held (lock :: wanted)) :
    Along before (lock :: held) wanted := by
  refine ⟨fun other isHeld next isWanted => ?_, along.skip.ordered⟩
  rcases List.mem_cons.mp isHeld with rfl | isHeld
  · exact (List.pairwise_cons.mp along.ordered).1 next isWanted
  · exact along.skip.behind other isHeld next isWanted

/-- The first lock wanted is behind every lock held, unless it is one of them. -/
theorem asks (along : Along before held (lock :: wanted)) (notHeld : lock ∉ held) :
    ∀ other ∈ held, before other lock := by
  intro other isHeld
  refine along.behind other isHeld lock List.mem_cons_self fun same => notHeld ?_
  rw [← same]
  exact isHeld

end Along

end WaitsFor
