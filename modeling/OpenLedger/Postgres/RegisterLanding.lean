import OpenLedger.Postgres.Landing
import OpenLedger.Postgres.Register

/-!
# What an opening and a definition land

One row riding on the claim, and no entry: the account carries its type's own
columns, and the period overlaps none of the tenant's others.
-/

namespace OpenLedger.Postgres

variable {env : Env} {current : Book} {hash : List UInt8} {payload : Json}

/-- Writes without a transaction or an entry have nothing to number. -/
theorem landsEntries_of_none {writes : Writes} (upserts : writes.upserts = [])
    (entries : writes.entries = []) : LandsEntries current writes := by
  constructor <;>
    simp [upserts, entries, UpsertRow.inputTo, UpsertRow.outputTo, UpsertRow.legsTo,
      Writes.postedOn, Writes.entriesOn, sideOf]

section Opening

variable {command : OpenAccount} {triple : ChartTriple}

/-- What it takes for an opening to be answered. -/
theorem claimAndOpenAccount_opened {eventId : Uuid} {account : Account} {writes : Writes}
    (answered : claimAndOpenAccount env current command hash payload triple =
      (.ok (some (.opened eventId account)), writes)) :
    current.holderOf command.tenantId command.idempotencyKey = none ∧
      violation env.tzKnown current (openWrites env command hash payload triple) = none ∧
      eventId = env.eventId 0 ∧ account = accountFrom (openedRow env command triple) ∧
      writes = openWrites env command hash payload triple := by
  unfold claimAndOpenAccount at answered
  cases held : current.holderOf command.tenantId command.idempotencyKey with
  | some event =>
      simp [held] at answered
  | none =>
      cases violated : violation env.tzKnown current
          (openWrites env command hash payload triple) with
      | some error =>
          cases race : refusalFromTheAccountRace error with
          | none =>
              simp [held, violated, race] at answered
          | some refused =>
              simp only [held, Option.isSome_none, Bool.false_eq_true, if_false, violated, race,
                Prod.mk.injEq, Except.ok.injEq, Option.some.injEq] at answered
              rw [answered.1] at race
              unfold refusalFromTheAccountRace at race
              split at race <;> cases race
      | none =>
          simp only [held, Option.isSome_none, Bool.false_eq_true, if_false, violated,
            Prod.mk.injEq, Except.ok.injEq, Option.some.injEq,
            OpenedAccount.opened.injEq] at answered
          exact ⟨rfl, rfl, answered.1.1.symm, answered.1.2.symm, answered.2.symm⟩

theorem openWrites_lands (charted : chartTripleForPurpose current command.purpose = some triple)
    (free : current.holderOf command.tenantId command.idempotencyKey = none)
    (allowed : violation env.tzKnown current (openWrites env command hash payload triple) =
      none) :
    Lands current (openWrites env command hash payload triple) where
  toLandsEntries := landsEntries_of_none rfl rfl
  admitted := ⟨env.tzKnown, (violation_eq_none_iff ..).mp allowed⟩
  claims := claims_of_free free
  nonEmpty := fun _ member => by cases member
  supersedes := fun _ member => by cases member
  pendingPlain := fun _ member => by cases member
  notBoth := fun _ member => by cases member
  checkpointed := fun _ member => by cases member
  balancesOnAccount := fun _ member => by cases member
  caused := fun _ member => by cases member
  closed := fun _ member => by cases member
  named := fun _ member => by cases member
  ofPeriod := fun _ member => by cases member
  apart := List.Pairwise.nil
  charted := fun account member => by
    obtain rfl := List.mem_singleton.mp member
    obtain ⟨type, found, rfl⟩ := Option.map_eq_some_iff.mp charted
    refine ⟨⟨type, found, rfl, rfl, rfl⟩, ?_⟩
    simp only [openedRow]
    cases stripes : command.stripeCount with
    | none =>
        exact Nat.one_pos
    | some count =>
        have window := command.stripesInWindow count stripes
        simp only [isStripeCount, Bool.and_eq_true, decide_eq_true_eq] at window
        simp only [Option.getD_some]
        omega

end Opening

section Defining

variable {command : DefinePeriod}

/-- What it takes for a definition to be answered. -/
theorem claimAndDefinePeriod_defined {eventId : Uuid} {period : Period} {writes : Writes}
    (answered : claimAndDefinePeriod env current command hash payload =
      (.ok (some (.defined eventId period)), writes)) :
    current.holderOf command.tenantId command.idempotencyKey = none ∧
      violation env.tzKnown current (defineWrites env command hash payload) = none ∧
      eventId = env.eventId 0 ∧ period = periodFrom (definedRow command) ∧
      writes = defineWrites env command hash payload := by
  unfold claimAndDefinePeriod at answered
  cases held : current.holderOf command.tenantId command.idempotencyKey with
  | some event =>
      simp [held] at answered
  | none =>
      cases violated : violation env.tzKnown current
          (defineWrites env command hash payload) with
      | some error =>
          cases race : refusalFromThePeriodConstraints error with
          | none =>
              simp [held, violated, race] at answered
          | some refused =>
              simp only [held, Option.isSome_none, Bool.false_eq_true, if_false, violated, race,
                Prod.mk.injEq, Except.ok.injEq, Option.some.injEq] at answered
              rw [answered.1] at race
              unfold refusalFromThePeriodConstraints at race
              split at race <;> cases race
      | none =>
          simp only [held, Option.isSome_none, Bool.false_eq_true, if_false, violated,
            Prod.mk.injEq, Except.ok.injEq, Option.some.injEq,
            DefinedPeriod.defined.injEq] at answered
          exact ⟨rfl, rfl, answered.1.1.symm, answered.1.2.symm, answered.2.symm⟩

theorem defineWrites_lands
    (free : current.holderOf command.tenantId command.idempotencyKey = none)
    (allowed : violation env.tzKnown current (defineWrites env command hash payload) = none) :
    Lands current (defineWrites env command hash payload) where
  toLandsEntries := landsEntries_of_none rfl rfl
  admitted := ⟨env.tzKnown, (violation_eq_none_iff ..).mp allowed⟩
  claims := claims_of_free free
  nonEmpty := fun _ member => by cases member
  supersedes := fun _ member => by cases member
  pendingPlain := fun _ member => by cases member
  notBoth := fun _ member => by cases member
  checkpointed := fun _ member => by cases member
  balancesOnAccount := fun _ member => by cases member
  caused := fun _ member => by cases member
  closed := fun _ member => by cases member
  named := fun _ member => by cases member
  ofPeriod := fun _ member => by cases member
  apart := List.pairwise_singleton ..
  charted := fun _ member => by cases member

end Defining

end OpenLedger.Postgres
