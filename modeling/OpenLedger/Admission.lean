import OpenLedger.CloseFits
import OpenLedger.Interleaved

/-!
# What the doors admit

A command is judged once, by its constructor, and then rendered, stored and
closed over.  This module asks whether what was admitted can be: whether its
instants have a text, its bounds stay apart as microseconds, and its strings
hold nothing the columns refuse.
-/

namespace OpenLedger

open Postgres

/-! ## Instants as texts -/

namespace OffsetDateTime

/-- What a date-time is by construction: its year, where it stands, is one of
the representable ones. -/
def Representable (instant : OffsetDateTime) : Prop :=
  -9999 ≤ instant.year ∧ instant.year ≤ 9999
deriving Decidable

end OffsetDateTime

/-- An offset within a day carries an instant of the year 1 or later no further
back than the year 0. -/
theorem OffsetDateTime.year_nonneg {instant : OffsetDateTime}
    (first : 1 ≤ Instant.yearAt instant.nanos 0) (minutes : instant.WholeMinutes) :
    0 ≤ instant.year := by
  have firstDay := Instant.le_year_iff.mp first
  have within := minutes.1
  rw [OffsetDateTime.year, Instant.yearAt, Instant.le_year_iff]
  unfold Instant.firstDayOf Instant.nanosPerSecond at firstDay ⊢
  omega

/-- An instant from the year 1 on has a text in any offset it can be written
with. -/
theorem OffsetDateTime.rfc3339_isSome {instant : OffsetDateTime}
    (representable : instant.Representable) (minutes : instant.WholeMinutes)
    (first : 1 ≤ Instant.yearAt instant.nanos 0) : instant.rfc3339.isSome = true :=
  rfc3339_isSome_iff.mpr ⟨instant.year_nonneg first minutes, representable.2, minutes⟩

/-- A date the writer takes is of the years 1 to 9999. -/
theorem yearAt_of_isEffectiveInstant {instant : OffsetDateTime}
    (inRange : isEffectiveInstant instant = true) :
    1 ≤ Instant.yearAt instant.nanos 0 ∧ Instant.yearAt instant.nanos 0 ≤ 9999 := by
  unfold isEffectiveInstant OffsetDateTime.checkedToUtc at inRange
  dsimp only at inRange
  split at inRange
  · cases inRange
  · rename_i utc isUtc
    split at isUtc
    · rename_i years
      rw [← Option.some.inj isUtc, Bool.and_eq_true, decide_eq_true_eq] at inRange
      exact ⟨inRange.1, years.2⟩
    · cases isUtc

section Rendering

variable {sha256 : List UInt8 → List UInt8}

theorem DefinePeriod.boundPayload_isOk {instant : OffsetDateTime}
    (hasText : instant.rfc3339.isSome = true) :
    ∃ json, DefinePeriod.boundPayload instant = .ok json := by
  obtain ⟨text, rendered⟩ := Option.isSome_iff_exists.mp hasText
  exact ⟨.string text, by rw [DefinePeriod.boundPayload, rendered]⟩

theorem DefinePeriod.payload_isOk {command : DefinePeriod}
    (starts : command.startsAt.rfc3339.isSome = true)
    (ends : command.endsAt.rfc3339.isSome = true) : ∃ json, command.payload = .ok json := by
  obtain ⟨startsAt, isStart⟩ := DefinePeriod.boundPayload_isOk starts
  obtain ⟨endsAt, isEnd⟩ := DefinePeriod.boundPayload_isOk ends
  unfold DefinePeriod.payload
  rw [isStart, isEnd]
  exact ⟨_, rfl⟩

theorem PostTransaction.payload_isOk {command : PostTransaction}
    (hasText : ∀ instant ∈ command.effectiveAt, instant.rfc3339.isSome = true) :
    ∃ json, command.payload = .ok json := by
  unfold PostTransaction.payload
  cases given : command.effectiveAt with
  | none =>
      exact ⟨_, rfl⟩
  | some instant =>
      obtain ⟨text, rendered⟩ := Option.isSome_iff_exists.mp (hasText instant given)
      simp only [rendered]
      exact ⟨_, rfl⟩

/-- A definition's canonical bytes see its bounds as instants. -/
theorem DefinePeriod.canonicalBytes_of_instants {left right : DefinePeriod}
    (tenant : left.tenantId = right.tenantId) (code : left.code = right.code)
    (zone : left.tz = right.tz) (starts : left.startsAt.nanos = right.startsAt.nanos)
    (ends : left.endsAt.nanos = right.endsAt.nanos) :
    left.canonicalBytes = right.canonicalBytes := by
  have bound : ∀ one other : OffsetDateTime, one.nanos = other.nanos →
      DefinePeriod.boundBytes one = DefinePeriod.boundBytes other := by
    intro one other same
    simp only [DefinePeriod.boundBytes, OffsetDateTime.checkedToUtc, same]
  unfold DefinePeriod.canonicalBytes
  rw [bound _ _ starts, bound _ _ ends, tenant, code, zone]

/-- So do a posting's. -/
theorem PostTransaction.canonicalBytes_of_instants {left right : PostTransaction}
    (tenant : left.tenantId = right.tenantId) (status : left.status = right.status)
    (resolves : left.resolvesId = right.resolvesId)
    (reverses : left.reversesId = right.reversesId) (postings : left.postings = right.postings)
    (dated : left.effectiveAt.map OffsetDateTime.nanos =
      right.effectiveAt.map OffsetDateTime.nanos) :
    left.canonicalBytes = right.canonicalBytes := by
  have effective : PostTransaction.effectiveBytes left.effectiveAt =
      PostTransaction.effectiveBytes right.effectiveAt := by
    cases isLeft : left.effectiveAt with
    | none =>
        rw [isLeft, Option.map_none, eq_comm, Option.map_eq_none_iff] at dated
        rw [dated]
    | some one =>
        rw [isLeft, Option.map_some, eq_comm, Option.map_eq_some_iff] at dated
        obtain ⟨other, isRight, same⟩ := dated
        rw [isRight]
        simp only [PostTransaction.effectiveBytes, OffsetDateTime.checkedToUtc, same]
  unfold PostTransaction.canonicalBytes
  rw [effective, tenant, status, resolves, reverses, postings]

/-- A bound the refusal of `new` names, in an offset the texts write: its UTC year
is 1 or later. -/
def OffsetDateTime.Writable (instant : OffsetDateTime) : Prop :=
  instant.Representable ∧ instant.WholeMinutes ∧ 1 ≤ Instant.yearAt instant.nanos 0

theorem DefinePeriod.renders_of_writable (sha256 : List UInt8 → List UInt8)
    {command : DefinePeriod}
    (starts : command.startsAt.Writable) (ends : command.endsAt.Writable) :
    ∃ hash payload, command.idempotencyHash sha256 = .ok hash ∧
      command.payload = .ok payload := by
  have startYear : 0 ≤ Instant.yearAt command.startsAt.nanos 0 := by
    have first := starts.2.2
    omega
  have endYear : 0 ≤ Instant.yearAt command.endsAt.nanos 0 := by
    have first := ends.2.2
    omega
  obtain ⟨bytes, isBytes⟩ := command.canonicalBytes_isOk_iff.mpr ⟨startYear, endYear⟩
  obtain ⟨payload, isPayload⟩ := command.payload_isOk
    (OffsetDateTime.rfc3339_isSome starts.1 starts.2.1 starts.2.2)
    (OffsetDateTime.rfc3339_isSome ends.1 ends.2.1 ends.2.2)
  refine ⟨sha256 bytes, payload, ?_, isPayload⟩
  rw [DefinePeriod.idempotencyHash, isBytes]
  rfl

theorem PostTransaction.idempotencyHash_isOk (sha256 : List UInt8 → List UInt8)
    (command : PostTransaction) :
    ∃ hash, command.idempotencyHash sha256 = .ok hash := by
  obtain ⟨bytes, isBytes⟩ := command.canonicalBytes_isOk
  refine ⟨sha256 bytes, ?_⟩
  rw [PostTransaction.idempotencyHash, isBytes]
  rfl

/-- A validated date is of the years the refusal names, so the offset alone
decides whether it has a text. -/
theorem PostTransaction.payload_isOk_of_minutes {command : PostTransaction}
    (written : ∀ instant ∈ command.effectiveAt, instant.Representable ∧ instant.WholeMinutes) :
    ∃ payload, command.payload = .ok payload := by
  apply command.payload_isOk
  intro instant given
  have inRange := (yearAt_of_isEffectiveInstant (command.effectiveInRange instant given)).1
  exact OffsetDateTime.rfc3339_isSome (written instant given).1 (written instant given).2 inRange

theorem planFor_ne_internal {command : PostTransaction} {hash : List UInt8} {payload : Json}
    (hashed : command.idempotencyHash sha256 = .ok hash) (rendered : command.payload = .ok payload)
    (detail : String) : planFor sha256 command ≠ .error (.internal detail) := by
  unfold planFor
  rw [hashed]
  dsimp only
  rw [rendered]
  dsimp only
  split
  · intro isInternal
    cases isInternal
  · intro isInternal
    cases isInternal

theorem definePeriod_ne_internal {command : DefinePeriod} {hash : List UInt8} {payload : Json}
    (hashed : command.idempotencyHash sha256 = .ok hash) (rendered : command.payload = .ok payload)
    (detail : String) : definePeriod sha256 command ≠ refuse (.internal detail) := by
  unfold definePeriod
  rw [hashed, rendered]
  intro isRefusal
  cases isRefusal

end Rendering

/-- Two definitions that say the same of the same instants. -/
def DefinePeriod.SameInstants (left right : DefinePeriod) : Prop :=
  left.tenantId = right.tenantId ∧ left.code = right.code ∧ left.tz = right.tz ∧
    left.startsAt.nanos = right.startsAt.nanos ∧ left.endsAt.nanos = right.endsAt.nanos

/-- Two postings that say the same of the same instant. -/
def PostTransaction.SameInstants (left right : PostTransaction) : Prop :=
  left.tenantId = right.tenantId ∧ left.status = right.status ∧
    left.resolvesId = right.resolvesId ∧ left.reversesId = right.reversesId ∧
    left.postings = right.postings ∧
    left.effectiveAt.map OffsetDateTime.nanos = right.effectiveAt.map OffsetDateTime.nanos

/-- What validation admits in an offset the texts write is hashed and rendered:
no use-case stops at an internal arm.  The hash does not see the offset an instant
came in. -/
theorem validated_commands_render (sha256 : List UInt8 → List UInt8) :
    (∀ command : DefinePeriod, command.startsAt.Writable → command.endsAt.Writable →
      (∃ hash payload, command.idempotencyHash sha256 = .ok hash ∧
        command.payload = .ok payload) ∧
      ∀ detail, definePeriod sha256 command ≠ refuse (.internal detail)) ∧
    (∀ command : PostTransaction,
      (∃ hash, command.idempotencyHash sha256 = .ok hash) ∧
      ((∀ instant ∈ command.effectiveAt, instant.Representable ∧ instant.WholeMinutes) →
        (∃ payload, command.payload = .ok payload) ∧
        ∀ detail, planFor sha256 command ≠ .error (.internal detail))) ∧
    (∀ left right : DefinePeriod, left.SameInstants right →
      left.canonicalBytes = right.canonicalBytes) ∧
    ∀ left right : PostTransaction, left.SameInstants right →
      left.canonicalBytes = right.canonicalBytes := by
  refine ⟨?_, ?_, ?_, ?_⟩
  · intro command starts ends
    obtain ⟨hash, payload, hashed, rendered⟩ := command.renders_of_writable sha256 starts ends
    exact ⟨⟨hash, payload, hashed, rendered⟩, definePeriod_ne_internal hashed rendered⟩
  · intro command
    obtain ⟨hash, hashed⟩ := command.idempotencyHash_isOk sha256
    refine ⟨⟨hash, hashed⟩, ?_⟩
    intro written
    obtain ⟨payload, rendered⟩ := command.payload_isOk_of_minutes written
    exact ⟨⟨payload, rendered⟩, planFor_ne_internal hashed rendered⟩
  · intro left right same
    exact DefinePeriod.canonicalBytes_of_instants same.1 same.2.1 same.2.2.1 same.2.2.2.1
      same.2.2.2.2
  · intro left right same
    exact PostTransaction.canonicalBytes_of_instants same.1 same.2.1 same.2.2.1 same.2.2.2.1
      same.2.2.2.2.1 same.2.2.2.2.2

namespace Shop

/-- The first period, said two hours further east. -/
def firstPeriodInCairo : DefinePeriod :=
  (DefinePeriod.new "shop" "first" "first" ⟨0, 7200⟩ ⟨1000000, 7200⟩ "UTC").toOption.get
    (by decide +kernel)

/-- A posting dated in an offset with a seconds part, as local mean times have. -/
def amsterdamFee : PostTransaction :=
  (PostTransaction.new "shop" "fee" (some ⟨1000, 1172⟩) .posted none none
    [oneCent]).toOption.get (by decide +kernel)

/-- Midnight of the year 0 one hour east of Greenwich: a year before it in UTC. -/
def ancientPeriod : DefinePeriod :=
  (DefinePeriod.new "shop" "old" "old" ⟨-62167222800000000000, 3600⟩ ⟨0, 0⟩
    "UTC").toOption.get (by decide +kernel)

theorem firstPeriodInCairo_same : firstPeriod.SameInstants firstPeriodInCairo :=
  ⟨by decide +kernel, by decide +kernel, by decide +kernel, by decide +kernel, by decide +kernel⟩

/-- The payloads of equal instants differ by the offset they came in, and an
offset no text writes, or a year before the texts' first, has no rendering. -/
theorem offsets_are_rendered :
    (firstPeriod.SameInstants firstPeriodInCairo ∧
      firstPeriod.payload ≠ firstPeriodInCairo.payload) ∧
    amsterdamFee.payload.toOption = none ∧ ancientPeriod.canonicalBytes.toOption = none := by
  refine ⟨⟨firstPeriodInCairo_same, ?_⟩, by decide +kernel, by decide +kernel⟩
  intro same
  have read : firstPeriod.payload.toOption.map Json.render =
      firstPeriodInCairo.payload.toOption.map Json.render :=
    congrArg (fun payload => payload.toOption.map Json.render) same
  exact absurd read (by decide +kernel)

/-- A definition in each offset and a posting go through. -/
theorem firstPeriod_renders :
    (∃ hash payload, firstPeriodInCairo.idempotencyHash id = .ok hash ∧
      firstPeriodInCairo.payload = .ok payload) ∧
    (∃ payload, firstFee.payload = .ok payload) ∧
    firstPeriod.canonicalBytes = firstPeriodInCairo.canonicalBytes := by
  have renders := validated_commands_render id
  refine ⟨(renders.1 firstPeriodInCairo ?_ ?_).1, ((renders.2.1 firstFee).2 ?_).1,
    renders.2.2.1 firstPeriod firstPeriodInCairo firstPeriodInCairo_same⟩
  · exact ⟨by decide +kernel, by decide +kernel, by decide +kernel⟩
  · exact ⟨by decide +kernel, by decide +kernel, by decide +kernel⟩
  · intro instant given
    have isDate : firstFee.effectiveAt = some ⟨1000, 0⟩ := by decide +kernel
    rw [isDate, Option.mem_some_iff] at given
    rw [← given]
    exact ⟨by decide +kernel, by decide +kernel⟩

end Shop

/-! ## Periods as stored -/

/-- A whole microsecond that the encoding tells the bounds apart by: one after 2000 that
is after the start and no later than the end, or one before 2000 that is no earlier
than the start and before the end. -/
def DefinePeriod.SpansAMicrosecond (command : DefinePeriod) : Prop :=
  ∃ boundary : Int,
    OffsetDateTime.encodingEpoch < boundary ∧ command.startsAt.nanos < 1000 * boundary ∧
        1000 * boundary ≤ command.endsAt.nanos ∨
      boundary < OffsetDateTime.encodingEpoch ∧ command.startsAt.nanos ≤ 1000 * boundary ∧
        1000 * boundary < command.endsAt.nanos

theorem DefinePeriod.stored_lt_iff (command : DefinePeriod) :
    command.startsAt.stored < command.endsAt.stored ↔ command.SpansAMicrosecond := by
  obtain ⟨first, isFirst, startCases⟩ := command.startsAt.stored_cases
  obtain ⟨last, isLast, endCases⟩ := command.endsAt.stored_cases
  have ordered := command.ordered
  have inMicros : command.startsAt.stored < command.endsAt.stored ↔ first < last := by
    rw [isFirst, isLast]
  rw [inMicros]
  constructor
  · intro apart
    -- The later of the two is the boundary after 2000, the earlier the one before.
    by_cases late : OffsetDateTime.encodingEpoch < last
    · exact ⟨last, by omega⟩
    · exact ⟨first, by omega⟩
  · intro spans
    obtain ⟨boundary, either⟩ := spans
    omega

section Stored

variable {sha256 : List UInt8 → List UInt8} {env : Env} {book : Book}

/-- The row check speaks before anything else a definition could meet. -/
theorem violation_of_defineWrites (command : DefinePeriod) (hash : List UInt8) (payload : Json) :
    violation env.tzKnown book (defineWrites env command hash payload) =
        some (.constraint .ckPeriodsNonEmpty) ↔
      ¬ command.SpansAMicrosecond := by
  rw [← command.stored_lt_iff]
  constructor
  · intro violated
    have failed := failed_of_violation violated
    simp only [constraintChecks, List.mem_cons, Prod.mk.injEq, List.not_mem_nil, or_false,
      reduceCtorEq, DbError.constraint.injEq, and_false, and_true] at failed
    have rowFails := of_decide_eq_false failed.symm
    intro apart
    apply rowFails
    intro row member
    rw [List.mem_singleton.mp member]
    exact apart
  · intro together
    have fails : decide (∀ row ∈ (defineWrites env command hash payload).periods,
        row.startsAt < row.endsAt) = false := by
      rw [decide_eq_false_iff_not]
      intro holds
      exact together (holds (definedRow command) (List.mem_singleton_self _))
    rw [violation, constraintChecks, fails]
    rfl

theorem claimAndDefinePeriod_nonEmpty (command : DefinePeriod) (hash : List UInt8)
    (payload : Json)
    (free : (book.holderOf command.tenantId command.idempotencyKey).isSome = false) :
    (claimAndDefinePeriod env book command hash payload).1 =
        .error (.backend (.constraint .ckPeriodsNonEmpty)) ↔
      ¬ command.SpansAMicrosecond := by
  rw [← @violation_of_defineWrites env book command hash payload]
  unfold claimAndDefinePeriod
  rw [if_neg (Bool.eq_false_iff.mp free)]
  dsimp only
  cases violated : violation env.tzKnown book (defineWrites env command hash payload) with
  | none =>
      constructor
      · intro isError
        cases isError
      · intro isError
        cases isError
  | some error =>
      dsimp only
      constructor
      · intro isError
        cases refused : refusalFromThePeriodConstraints error with
        | none =>
            rw [refused] at isError
            injection isError with isBackend
            injection isBackend with same
            rw [same]
        | some named =>
            rw [refused] at isError
            cases isError
      · intro same
        rw [Option.some.inj same]
        rfl

/-- The closing instant of a plan is inside the bounds it carries, whichever book
the closing statement then runs over. -/
theorem closeWrites_inPeriod (kept : Kept book) {command : ClosePeriod} {plan : ClosePlan}
    (planned : closePlan book command = .ok plan) (snapshot current : Book)
    (hash : List UInt8) (payload : Json) :
    violation env.tzKnown current (closeWrites env snapshot current command hash payload plan) ≠
      some (.constraint .ckClosesTxnInPeriod) := by
  intro violated
  have failed := failed_of_violation violated
  simp only [constraintChecks, List.mem_cons, Prod.mk.injEq, List.not_mem_nil, or_false,
    reduceCtorEq, DbError.constraint.injEq, and_false, and_true, false_or] at failed
  have rowFails := of_decide_eq_false failed.symm
  apply rowFails
  intro row member
  rw [List.mem_singleton.mp member]
  exact instant_inPeriod kept (planFits_of_closePlan planned)

/-- Every stored period has a last instant, and it is inside. -/
theorem lastInstant_inside (kept : Kept book) (asked : book.Asked sha256) {period : PeriodRow}
    (member : period ∈ book.periods) :
    ∃ closesAt, theLastInstantInside period.endsAt = some closesAt ∧
      period.startsAt ≤ closesAt ∧ closesAt < period.endsAt := by
  have first := asked.startsInRange member
  have nonEmpty := kept.periodsNonEmpty period member
  refine ⟨period.endsAt - 1, ?_, ?_, ?_⟩
  · rw [theLastInstantInside, if_pos]
    exact Int.le_sub_one_of_lt (Int.lt_of_le_of_lt first nonEmpty)
  · exact Int.le_sub_one_of_lt nonEmpty
  · exact Int.sub_lt_self _ one_pos

end Stored

/-- An accepted definition is non-empty as stored, and not refused by the storage for
being empty, exactly when its bounds have a whole microsecond between them.  Every
period that is stored closes inside itself. -/
theorem periods_hold_as_stored (sha256 : List UInt8 → List UInt8) (chart : Chart) :
    (∀ command : DefinePeriod,
      (command.startsAt.stored < command.endsAt.stored ∧
        ∀ (env : Env) (book : Book) (hash : List UInt8) (payload : Json),
          (claimAndDefinePeriod env book command hash payload).1 ≠
            .error (.backend (.constraint .ckPeriodsNonEmpty))) ↔
        command.SpansAMicrosecond) ∧
    (∀ (command : DefinePeriod) (env : Env) (book : Book) (hash : List UInt8) (payload : Json),
      (book.holderOf command.tenantId command.idempotencyKey).isSome = false →
        ((claimAndDefinePeriod env book command hash payload).1 =
            .error (.backend (.constraint .ckPeriodsNonEmpty)) ↔
          ¬ command.SpansAMicrosecond)) ∧
    ∀ machine, Interleaved sha256 chart machine →
      (∀ period ∈ machine.committed.periods, period.startsAt < period.endsAt ∧
        ∃ closesAt, theLastInstantInside period.endsAt = some closesAt ∧
          period.startsAt ≤ closesAt ∧ closesAt < period.endsAt) ∧
      ∀ (command : ClosePeriod) (plan : ClosePlan),
        closePlan machine.committed command = .ok plan →
        ∀ (env : Env) (snapshot current : Book) (hash : List UInt8) (payload : Json),
          violation env.tzKnown current
              (closeWrites env snapshot current command hash payload plan) ≠
            some (.constraint .ckClosesTxnInPeriod) := by
  refine ⟨?_, ?_, ?_⟩
  · intro command
    constructor
    · intro holds
      exact command.stored_lt_iff.mp holds.1
    · intro spans
      refine ⟨command.stored_lt_iff.mpr spans, ?_⟩
      intro env book hash payload
      by_cases held : (book.holderOf command.tenantId command.idempotencyKey).isSome
      · unfold claimAndDefinePeriod
        rw [if_pos held]
        intro isError
        cases isError
      · have free := Bool.eq_false_iff.mpr held
        intro isError
        exact (claimAndDefinePeriod_nonEmpty command hash payload free).mp isError spans
  · intro command env book hash payload free
    exact claimAndDefinePeriod_nonEmpty command hash payload free
  · intro machine interleaved
    have kept := (sound_of_interleaved interleaved).kept
    have asked := asked_of_interleaved interleaved
    refine ⟨?_, ?_⟩
    · intro period member
      exact ⟨kept.periodsNonEmpty period member, lastInstant_inside kept asked member⟩
    · intro command plan planned env snapshot current hash payload
      exact closeWrites_inPeriod kept planned snapshot current hash payload

namespace Shop

/-- A period of half a microsecond, from the first of September 2026. -/
def blink : DefinePeriod :=
  (DefinePeriod.new "shop" "blink" "blink" ⟨1788220800000000000, 0⟩
    ⟨1788220800000000500, 0⟩ "UTC").toOption.get (by decide +kernel)

theorem blink_spans_nothing : ¬ blink.SpansAMicrosecond := by
  rw [← blink.stored_lt_iff]
  decide +kernel

/-- An accepted definition is stored empty, and so it is not stored: the check speaks
where the constructor did not. -/
theorem blink_is_stored_empty :
    blink.startsAt.nanos < blink.endsAt.nanos ∧
      ¬ blink.startsAt.stored < blink.endsAt.stored ∧
      (claimAndDefinePeriod (envOf 1) (Book.empty chart) blink [] .null).1 =
        .error (.backend (.constraint .ckPeriodsNonEmpty)) :=
  ⟨blink.ordered, by decide +kernel,
    (claimAndDefinePeriod_nonEmpty blink [] .null rfl).mpr blink_spans_nothing⟩

/-- The first period is stored with its bounds apart, is not refused for them, and a
close of it is dated inside it. -/
theorem firstPeriod_holds_as_stored :
    (claimAndDefinePeriod (envOf 1) (Book.empty chart) firstPeriod [] .null).1 ≠
        .error (.backend (.constraint .ckPeriodsNonEmpty)) ∧
      ∃ plan, closePlan (machineAfter ready).committed firstClose = .ok plan ∧
        violation (envOf 9).tzKnown (machineAfter ready).committed
            (closeWrites (envOf 9) (machineAfter ready).committed
              (machineAfter ready).committed firstClose [] .null plan) ≠
          some (.constraint .ckClosesTxnInPeriod) := by
  have hold := periods_hold_as_stored id chart
  have spans : firstPeriod.SpansAMicrosecond :=
    ⟨1, Or.inr ⟨by decide, by decide +kernel, by decide +kernel⟩⟩
  have refused := hold.2.1 firstPeriod (envOf 1) (Book.empty chart) [] .null rfl
  refine ⟨fun isError => refused.mp isError spans, ?_⟩
  have planned : closePlan (machineAfter ready).committed firstClose =
      .ok ⟨0, 1000, retainedEarnings, 999⟩ := by
    decide +kernel
  exact ⟨_, planned, (hold.2.2 (machineAfter ready) (interleaved_machineAfter ready)).2
    firstClose _ planned (envOf 9) _ _ [] .null⟩

end Shop

end OpenLedger
