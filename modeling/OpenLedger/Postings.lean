import Mathlib.Data.Prod.Lex
import Mathlib.Data.String.Basic
import Mathlib.Order.Fin.Basic
import OpenLedger.Domain
import OpenLedger.Lib.Numbering
import OpenLedger.Lib.OrdMap
import OpenLedger.Lib.Tally

/-!
# The posting math

What the writer computes before its SQL runs: the legs, one coalesced delta per
account and currency, and each leg's offset back from its account's counter.
The three travel together as an `Append`.
-/

namespace OpenLedger

/-- Which side of an account a leg lands on. -/
inductive Direction where
  | debit
  | credit
deriving DecidableEq, Repr

namespace Direction

def flip : Direction → Direction
  | debit => credit
  | credit => debit

@[simp]
theorem flip_flip (direction : Direction) : direction.flip.flip = direction := by
  cases direction <;> rfl

theorem flip_eq_iff (left right : Direction) : left.flip = right ↔ left = right.flip := by
  cases left <;> cases right <;> decide

end Direction

/-- The key a delta is coalesced under, in account order. -/
abbrev AccountKey := Uuid ×ₗ String

structure Leg where
  accountId : Uuid
  currency : String
  direction : Direction
  amountMinor : Int
deriving DecidableEq, Repr

def Leg.key (leg : Leg) : AccountKey := toLex (leg.accountId, leg.currency)

/-- What one account accumulates across a transaction's legs: `input` the debit
legs, `output` the credit legs. -/
structure Delta where
  input : Int
  output : Int
  legs : Nat
deriving DecidableEq, Repr

def Delta.zero : Delta := ⟨0, 0, 0⟩

/-- Coalescing the legs overflowed 64-bit minor units. -/
structure Overflow where
deriving DecidableEq, Repr

/-- Each posting's two legs: a credit at the source, a debit at the
destination, in posting order. -/
def expandPostings (postings : List Posting) : List Leg :=
  postings.flatMap fun posting => [
    ⟨posting.source, posting.currency, .credit, posting.amountMinor⟩,
    ⟨posting.destination, posting.currency, .debit, posting.amountMinor⟩]

/-- One leg into its account's delta, overflow-checked. -/
def coalesceLeg (deltas : OrdMap AccountKey Delta) (leg : Leg) :
    Except Overflow (OrdMap AccountKey Delta) :=
  let delta := (deltas.get? leg.key).getD .zero
  let side := match leg.direction with
    | .debit => delta.input
    | .credit => delta.output
  match checkedAdd side leg.amountMinor with
  | none => .error ⟨⟩
  | some total =>
      let advanced : Delta := match leg.direction with
        | .debit => ⟨total, delta.output, delta.legs + 1⟩
        | .credit => ⟨delta.input, total, delta.legs + 1⟩
      .ok (deltas.alter leg.key fun _ => advanced)

/-- Coalesce the legs per account and currency. -/
def coalesce (legs : List Leg) : Except Overflow (OrdMap AccountKey Delta) :=
  legs.foldlM coalesceLeg .empty

/-- Each leg's number of later legs on the same account and currency. -/
def offsetsBackFromLastSeq (legs : List Leg) : List Nat :=
  (legs.foldr (fun leg (later : OrdMap AccountKey Nat × List Nat) =>
    (later.1.alter leg.key fun count => count.getD 0 + 1,
      (later.1.get? leg.key).getD 0 :: later.2)) (.empty, [])).2

/-- The append, planned. -/
structure Append where
  legs : List Leg
  seqOffsets : List Nat
  deltas : OrdMap AccountKey Delta

/-- A pending transaction withholds the balance movement and keeps its legs'
numbers. -/
def withholdIfPending (status : TransactionStatus) (delta : Delta) : Delta :=
  match status with
  | .pending => ⟨0, 0, delta.legs⟩
  | .posted => delta

/-- Expand, coalesce and number; the overflow check runs before a pending
transaction's movement is withheld. -/
def planAppend (postings : List Posting) (status : TransactionStatus) :
    Except Overflow Append := do
  let legs := expandPostings postings
  let deltas ← coalesce legs
  return {
    legs
    seqOffsets := offsetsBackFromLastSeq legs
    deltas := deltas.mapValues (withholdIfPending status) }

/-- The legs of one account and currency on one side, summed. -/
def sideSum (direction : Direction) (key : AccountKey) (legs : List Leg) : Int :=
  Tally.sumWhere (fun leg => decide (leg.key = key) && decide (leg.direction = direction))
    Leg.amountMinor legs

def legCount (key : AccountKey) (legs : List Leg) : Nat :=
  legs.countP fun leg => decide (leg.key = key)

/-- The deltas hold exactly the sums and counts of the legs. -/
def Coalesced (deltas : OrdMap AccountKey Delta) (legs : List Leg) : Prop :=
  ∀ key, deltas.get? key =
    if legCount key legs = 0 then none
    else some ⟨sideSum .debit key legs, sideSum .credit key legs, legCount key legs⟩

theorem checkedAdd_eq_some {left right total : Int}
    (added : checkedAdd left right = some total) : total = left + right := by
  simp only [checkedAdd, Option.ite_none_right_eq_some, Option.some.injEq] at added
  exact added.2.symm

theorem legCount_concat (key : AccountKey) (legs : List Leg) (leg : Leg) :
    legCount key (legs ++ [leg]) = legCount key legs + if leg.key = key then 1 else 0 := by
  simp [legCount, List.countP_cons]

theorem sideSum_concat (direction : Direction) (key : AccountKey) (legs : List Leg)
    (leg : Leg) :
    sideSum direction key (legs ++ [leg]) =
      sideSum direction key legs +
        if leg.key = key ∧ leg.direction = direction then leg.amountMinor else 0 := by
  simp [sideSum, Tally.sumWhere_cons]

theorem sideSum_eq_zero_of_legCount {key : AccountKey} {legs : List Leg}
    (none : legCount key legs = 0) (direction : Direction) :
    sideSum direction key legs = 0 := by
  refine Tally.sumWhere_eq_zero fun leg member => ?_
  have different := List.countP_eq_zero.mp none leg member
  simp only [decide_eq_true_eq] at different
  simp [different]

/-- What a key's delta is before and after the legs, in the form every step
preserves. -/
theorem coalesced_getD {deltas : OrdMap AccountKey Delta} {legs : List Leg}
    (coalesced : Coalesced deltas legs) (key : AccountKey) :
    (deltas.get? key).getD .zero =
      ⟨sideSum .debit key legs, sideSum .credit key legs, legCount key legs⟩ := by
  rw [coalesced key]
  split
  · rename_i none
    simp [Delta.zero, sideSum_eq_zero_of_legCount none, none]
  · rfl

theorem coalesced_step
    {deltas deltas' : OrdMap AccountKey Delta} {legs : List Leg} {leg : Leg}
    (coalesced : Coalesced deltas legs) (stepped : coalesceLeg deltas leg = .ok deltas') :
    Coalesced deltas' (legs ++ [leg]) := by
  intro key
  rw [coalesceLeg, coalesced_getD coalesced] at stepped
  split at stepped
  · cases stepped
  · rename_i total added
    simp only [Except.ok.injEq] at stepped
    subst stepped
    rw [OrdMap.get?_alter, legCount_concat, sideSum_concat, sideSum_concat, coalesced key]
    by_cases same : key = leg.key
    · subst same
      cases direction : leg.direction with
      | debit =>
          rw [direction] at added
          simp [checkedAdd_eq_some added]
      | credit =>
          rw [direction] at added
          simp [checkedAdd_eq_some added]
    · simp [same, Ne.symm same]

/-- A coalesced map holds, per account and currency, the sums and the count of
its legs. -/
theorem coalesce_ok {legs : List Leg} {deltas : OrdMap AccountKey Delta}
    (done : coalesce legs = .ok deltas) : Coalesced deltas legs := by
  have folded : ∀ (rest earlier : List Leg) (held : OrdMap AccountKey Delta),
      Coalesced held earlier → rest.foldlM coalesceLeg held = .ok deltas →
        Coalesced deltas (earlier ++ rest) := by
    intro rest
    induction rest with
    | nil =>
        intro earlier held coalesced stopped
        obtain rfl : held = deltas := by simpa [pure, Except.pure] using stopped
        simpa using coalesced
    | cons leg rest inductionHypothesis =>
        intro earlier held coalesced continued
        rw [List.foldlM_cons] at continued
        cases stepped : coalesceLeg held leg with
        | error overflow =>
            rw [stepped] at continued
            cases continued
        | ok next =>
            rw [stepped] at continued
            rw [List.append_cons]
            exact inductionHypothesis _ _ (coalesced_step coalesced stepped) continued
  have all := folded legs [] .empty (fun key => by simp [legCount]) done
  simpa using all

/-- The counts gathered from the right are the counts of the walk back. -/
theorem offsetsBackFromLastSeq_eq (legs : List Leg) :
    offsetsBackFromLastSeq legs = Numbering.walkBack Leg.key legs := by
  have gathered : ∀ rest : List Leg,
      (∀ key, (((rest.foldr (fun leg (later : OrdMap AccountKey Nat × List Nat) =>
          (later.1.alter leg.key fun count => count.getD 0 + 1,
            (later.1.get? leg.key).getD 0 :: later.2)) (.empty, [])).1.get? key).getD 0) =
          legCount key rest) ∧
        offsetsBackFromLastSeq rest = Numbering.walkBack Leg.key rest := by
    intro rest
    induction rest with
    | nil =>
        exact ⟨fun key => rfl, rfl⟩
    | cons leg rest inductionHypothesis =>
        obtain ⟨counts, offsets⟩ := inductionHypothesis
        constructor
        · intro key
          rw [List.foldr_cons, OrdMap.get?_alter]
          by_cases same : key = leg.key
          · subst same
            simp only [if_true, Option.getD_some, counts]
            simp [legCount]
          · rw [if_neg same, counts]
            simp [legCount, Ne.symm same]
        · rw [offsetsBackFromLastSeq, List.foldr_cons, counts, Numbering.walkBack]
          rw [offsetsBackFromLastSeq] at offsets
          rw [offsets]
          rfl
  exact (gathered legs).2

/-- One side of some legs in one currency. -/
def currencySide (direction : Direction) (currency : String) (legs : List Leg) : Int :=
  Tally.sumWhere (fun leg =>
    decide (leg.currency = currency) && decide (leg.direction = direction))
    Leg.amountMinor legs

/-- The debits and the credits cancel in every currency. -/
def Foots (legs : List Leg) : Prop :=
  ∀ currency, currencySide .debit currency legs = currencySide .credit currency legs

/-- A posting's two legs cancel in every currency. -/
theorem expandPostings_foots (postings : List Posting) : Foots (expandPostings postings) := by
  intro currency
  simp only [currencySide, expandPostings, Tally.sumWhere_flatMap]
  congr 1
  refine List.map_congr_left fun posting _ => ?_
  simp [Tally.sumWhere_cons]

/-- What a plan carries: the expanded legs, walked back, and their coalesced
deltas, withheld when the transaction is pending. -/
theorem planAppend_ok {postings : List Posting} {status : TransactionStatus}
    {append : Append} (planned : planAppend postings status = .ok append) :
    append.legs = expandPostings postings ∧
      append.seqOffsets = Numbering.walkBack Leg.key append.legs ∧
      ∃ deltas, Coalesced deltas append.legs ∧
        append.deltas = deltas.mapValues (withholdIfPending status) := by
  cases coalesced : coalesce (expandPostings postings) with
  | error overflow =>
      simp [planAppend, coalesced, bind, Except.bind] at planned
  | ok deltas =>
      simp only [planAppend, coalesced, bind, Except.bind, pure, Except.pure, Except.ok.injEq] at planned
      subst planned
      exact ⟨rfl, offsetsBackFromLastSeq_eq _, deltas, coalesce_ok coalesced, rfl⟩

theorem amountMinor_pos_of_mem_expandPostings {postings : List Posting} {leg : Leg}
    (member : leg ∈ expandPostings postings) : 0 < leg.amountMinor := by
  simp only [expandPostings, List.mem_flatMap, List.mem_cons, List.not_mem_nil,
    or_false] at member
  obtain ⟨posting, _, rfl | rfl⟩ := member
  · exact posting.amountPositive
  · exact posting.amountPositive

end OpenLedger
