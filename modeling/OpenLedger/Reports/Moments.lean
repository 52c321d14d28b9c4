import Mathlib.Logic.Relation
import OpenLedger.Apply

/-!
# Moments

What the read path meets: the committed book, and the cluster's horizon, below
which every transaction has committed or aborted.  The book grows by commits
whose writers were still in flight, so their entries stand at or above the
horizon of the moment they commit in.
-/

namespace OpenLedger

/-- A committed book and a horizon.  The entries' columns hold what their types,
their key and the writer's own range of dates let them hold. -/
structure Moment where
  book : Book
  /-- `pg_snapshot_xmin`. -/
  horizon : Xid
  horizonIsXid8 : horizon < 18446744073709551616
  /-- The counting of transaction ids starts at 3. -/
  counted : ∀ e ∈ book.entries, 3 ≤ e.xactId
  xactIsXid8 : ∀ e ∈ book.entries, e.xactId < 18446744073709551616
  pkAccounts : UniqueIndex.Holds AccountRow.primaryKey book.accounts
  pkEntries : UniqueIndex.Holds EntryRow.primaryKey book.entries
  fkEntriesTxn : ∀ e ∈ book.entries, (book.statusOf e).isSome = true
  /-- A business date is in the years an RFC 3339 text can hold. -/
  dated : ∀ e ∈ book.entries, (OffsetDateTime.ofStored e.effectiveAt).rfc3339.isSome = true

namespace Moment

/-- What happens between two reads: transactions end and the horizon rises, or
one still in flight commits. -/
inductive Step : Moment → Moment → Prop where
  | advance {earlier later : Moment} (sameBook : later.book = earlier.book)
      (rises : earlier.horizon ≤ later.horizon) : Step earlier later
  | commit {earlier later : Moment} (writes : Writes)
      (written : later.book = earlier.book.apply writes)
      (sameHorizon : later.horizon = earlier.horizon)
      (inFlight : ∀ e ∈ writes.entries, earlier.horizon ≤ e.xactId) : Step earlier later

/-- Any run of them. -/
abbrev Later : Moment → Moment → Prop := Relation.ReflTransGen Step

/-- What a run adds stands at or above the horizon it began under. -/
structure Grown (earlier later : Moment) : Prop where
  horizon : earlier.horizon ≤ later.horizon
  entries : ∃ added, later.book.entries = earlier.book.entries ++ added ∧
    ∀ e ∈ added, earlier.horizon ≤ e.xactId
  precedes : earlier.book.Precedes later.book

theorem Grown.refl (moment : Moment) : Grown moment moment where
  horizon := le_refl _
  entries := ⟨[], (List.append_nil _).symm, nofun⟩
  precedes := .refl _

theorem Grown.trans {first second third : Moment} (early : Grown first second)
    (late : Grown second third) : Grown first third where
  horizon := early.horizon.trans late.horizon
  entries := by
    obtain ⟨before, isBefore, aboveBefore⟩ := early.entries
    obtain ⟨after, isAfter, aboveAfter⟩ := late.entries
    refine ⟨before ++ after, ?_, fun e member => ?_⟩
    · rw [isAfter, isBefore, List.append_assoc]
    · rcases List.mem_append.mp member with old | new
      · exact aboveBefore e old
      · exact early.horizon.trans (aboveAfter e new)
  precedes := early.precedes.trans late.precedes

/-- One step grows a moment. -/
theorem Step.grown {earlier later : Moment} (step : Step earlier later) :
    Grown earlier later := by
  cases step with
  | advance sameBook rises =>
      refine ⟨rises, ⟨[], ?_, nofun⟩, ?_⟩
      · rw [sameBook, List.append_nil]
      · rw [sameBook]
        exact .refl _
  | commit writes written sameHorizon inFlight =>
      refine ⟨sameHorizon.ge, ⟨writes.entries, ?_, inFlight⟩, ?_⟩
      · rw [written, Book.entries_apply]
      · rw [written]
        exact .apply _ _

/-- So does a run. -/
theorem Later.grown {earlier later : Moment} (run : Later earlier later) :
    Grown earlier later := by
  induction run with
  | refl =>
      exact .refl _
  | tail _ step inductionHypothesis =>
      exact inductionHypothesis.trans step.grown

end Moment

end OpenLedger
