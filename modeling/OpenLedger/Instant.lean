import Mathlib.Algebra.Group.Int.Defs
import Mathlib.Data.List.Basic

/-!
# Instants

An `OffsetDateTime` is an instant together with the offset it was written in.
The canonical byte forms render the instant in UTC, the payloads render it in
the caller's own offset, and the columns store it as whole microseconds.
-/

namespace OpenLedger

/-- A stored `timestamptz`: microseconds since the Unix epoch. -/
abbrev Timestamp := Int

/-- A `timestamptz` bound a report takes, the two infinities included. -/
inductive ReportInstant where
  | minusInfinity
  | at (instant : Timestamp)
  | infinity
deriving DecidableEq, Repr

namespace ReportInstant

/-- `effective_at < bound`. -/
def isAfter : ReportInstant → Timestamp → Bool
  | minusInfinity, _ => false
  | .at instant, effectiveAt => decide (effectiveAt < instant)
  | infinity, _ => true

/-- `effective_at >= bound`. -/
def isReachedBy : ReportInstant → Timestamp → Bool
  | minusInfinity, _ => true
  | .at instant, effectiveAt => decide (instant ≤ effectiveAt)
  | infinity, _ => false

/-- `effective_at > bound`. -/
def isBefore : ReportInstant → Timestamp → Bool
  | minusInfinity, _ => true
  | .at instant, effectiveAt => decide (instant < effectiveAt)
  | infinity, _ => false

/-- `effective_at = bound`. -/
def isAt : ReportInstant → Timestamp → Bool
  | .at instant, effectiveAt => decide (effectiveAt = instant)
  | _, _ => false

/-- `ends_at <= bound`. -/
def covers : ReportInstant → Timestamp → Bool
  | minusInfinity, _ => false
  | .at instant, endsAt => decide (endsAt ≤ instant)
  | infinity, _ => true

/-- `bound <= other`. -/
def isBy : ReportInstant → ReportInstant → Bool
  | minusInfinity, _ => true
  | .at instant, .at other => decide (instant ≤ other)
  | .at _, minusInfinity => false
  | infinity, .at _ => false
  | infinity, minusInfinity => false
  | _, infinity => true

@[simp]
theorem isAfter_at (instant effectiveAt : Timestamp) :
    (ReportInstant.at instant).isAfter effectiveAt = decide (effectiveAt < instant) := rfl

@[simp]
theorem isReachedBy_at (instant effectiveAt : Timestamp) :
    (ReportInstant.at instant).isReachedBy effectiveAt = decide (instant ≤ effectiveAt) := rfl

/-- An instant is on one side of a bound or the other. -/
theorem isReachedBy_eq (bound : ReportInstant) (effectiveAt : Timestamp) :
    bound.isReachedBy effectiveAt = !bound.isAfter effectiveAt := by
  cases bound with
  | minusInfinity =>
      rfl
  | «at» instant =>
      rw [isReachedBy, isAfter, ← decide_not]
      exact decide_eq_decide.mpr Int.not_lt.symm
  | infinity =>
      rfl

/-- What is before a bound is before every later one. -/
theorem isAfter_of_isBy {bound other : ReportInstant} (by_ : bound.isBy other = true)
    {effectiveAt : Timestamp} (before : bound.isAfter effectiveAt = true) :
    other.isAfter effectiveAt = true := by
  cases bound with
  | minusInfinity =>
      cases before
  | «at» instant =>
      cases other with
      | minusInfinity =>
          cases by_
      | «at» later =>
          have isBefore : effectiveAt < instant := of_decide_eq_true before
          exact decide_eq_true (Int.lt_of_lt_of_le isBefore (of_decide_eq_true by_))
      | infinity =>
          rfl
  | infinity =>
      cases other with
      | infinity =>
          rfl
      | _ =>
          cases by_

/-- A bound is after everything that is before an end it covers. -/
theorem isAfter_of_covers {bound : ReportInstant} {endsAt effectiveAt : Timestamp}
    (covers : bound.covers endsAt = true) (before : effectiveAt < endsAt) :
    bound.isAfter effectiveAt = true := by
  cases bound with
  | minusInfinity =>
      cases covers
  | «at» instant =>
      have reached : endsAt ≤ instant := of_decide_eq_true covers
      exact decide_eq_true (Int.lt_of_lt_of_le before reached)
  | infinity =>
      rfl

end ReportInstant

/-- An instant and the offset it was written in. -/
structure OffsetDateTime where
  /-- Nanoseconds since the Unix epoch, in UTC. -/
  nanos : Int
  /-- Seconds east of UTC. -/
  offset : Int
deriving DecidableEq, Repr

namespace Instant

/-- Year, month and day of a day count since the Unix epoch, in the proleptic
Gregorian calendar. -/
def civil (days : Int) : Int × Int × Int :=
  let shifted := days + 719468
  let era := shifted / 146097
  let dayOfEra := shifted - era * 146097
  let yearOfEra :=
    (dayOfEra - dayOfEra / 1460 + dayOfEra / 36524 - dayOfEra / 146096) / 365
  let dayOfYear := dayOfEra - (365 * yearOfEra + yearOfEra / 4 - yearOfEra / 100)
  let shiftedMonth := (5 * dayOfYear + 2) / 153
  let day := dayOfYear - (153 * shiftedMonth + 2) / 5 + 1
  let month := if shiftedMonth < 10 then shiftedMonth + 3 else shiftedMonth - 9
  let year := yearOfEra + era * 400 + if month ≤ 2 then 1 else 0
  (year, month, day)

def nanosPerSecond : Int := 1000000000

/-- The calendar year an instant falls in, `seconds` east of UTC. -/
def yearAt (nanos seconds : Int) : Int :=
  (civil ((nanos / nanosPerSecond + seconds) / 86400)).1

/-- The last `width` decimal digits of a number, zero-padded. -/
def digits : Nat → Nat → List Char
  | 0, _ => []
  | width + 1, value =>
      digits width (value / 10) ++ [Char.ofNat (48 + value % 10)]

/-- The nine digits of a sub-second part without its trailing zeros. -/
def fraction (nanos : Nat) : List Char :=
  if nanos = 0 then []
  else '.' :: ((digits 9 nanos).reverse.dropWhile (· = '0')).reverse

def offsetSuffix (offset : Int) : List Char :=
  if offset = 0 then ['Z']
  else
    let magnitude := offset.natAbs
    (if offset < 0 then '-' else '+') ::
      (digits 2 (magnitude / 3600) ++ ':' :: digits 2 (magnitude / 60 % 60))

end Instant

/-- The days of the years 0 to 9999 are bounded. -/
theorem Instant.civil_bounds {days : Int} (first : 0 ≤ (Instant.civil days).1)
    (last : (Instant.civil days).1 ≤ 9999) : -1000000 ≤ days ∧ days ≤ 4000000 := by
  unfold Instant.civil at first last
  dsimp only at first last
  constructor <;> split at first <;> split at last <;> omega

namespace OffsetDateTime

open Instant

/-- `checked_to_offset(UtcOffset::UTC)`: `none` once the normalization leaves
the representable years. -/
def checkedToUtc (instant : OffsetDateTime) : Option OffsetDateTime :=
  let year := yearAt instant.nanos 0
  if -9999 ≤ year ∧ year ≤ 9999 then some { instant with offset := 0 } else none

/-- `from_unix_timestamp_nanos`: an instant in UTC, within the representable
years. -/
def fromUnixTimestampNanos (nanos : Int) : Option OffsetDateTime :=
  (⟨nanos, 0⟩ : OffsetDateTime).checkedToUtc

/-- The first of 2000, in microseconds. -/
def encodingEpoch : Int := 946684800000000

/-- The calendar year in the offset the instant is written in. -/
def year (instant : OffsetDateTime) : Int := yearAt instant.nanos instant.offset

/-- The RFC 3339 rendering in the instant's own offset.  Years outside four
digits, offsets of a day or more and offsets with a seconds part have none. -/
def rfc3339 (instant : OffsetDateTime) : Option String :=
  let local_ := instant.nanos / nanosPerSecond + instant.offset
  let (year, month, day) := civil (local_ / 86400)
  let second := (local_ % 86400).toNat
  if 0 ≤ year ∧ year ≤ 9999 ∧ instant.offset.natAbs / 3600 ≤ 23 ∧
      instant.offset.natAbs % 60 = 0 then
    some <| String.ofList <|
      digits 4 year.toNat ++ '-' :: digits 2 month.toNat ++ '-' ::
        digits 2 day.toNat ++ 'T' :: digits 2 (second / 3600) ++ ':' ::
        digits 2 (second / 60 % 60) ++ ':' :: digits 2 (second % 60) ++
        fraction (instant.nanos % nanosPerSecond).toNat ++
        offsetSuffix instant.offset
  else none

/-- The column's value: the whole microseconds between the instant and the first
of 2000, where the encoding counts from.  What is left of one is dropped, so an
instant before 2000 is stored as the microsecond after it. -/
def stored (instant : OffsetDateTime) : Timestamp :=
  encodingEpoch + (instant.nanos - 1000 * encodingEpoch).tdiv 1000

/-- A column's value read back, which is in UTC. -/
def ofStored (stored : Timestamp) : OffsetDateTime := ⟨stored * 1000, 0⟩

/-- From 2000 on the microsecond at or before the instant is stored, and before 2000
the one at or after it. -/
theorem stored_cases (instant : OffsetDateTime) : ∃ micros : Int, instant.stored = micros ∧
    (1000 * encodingEpoch ≤ instant.nanos ∧ 1000 * micros ≤ instant.nanos ∧
        instant.nanos < 1000 * micros + 1000 ∨
      instant.nanos < 1000 * encodingEpoch ∧ instant.nanos ≤ 1000 * micros ∧
        1000 * micros < instant.nanos + 1000) := by
  refine ⟨encodingEpoch + (instant.nanos - 1000 * encodingEpoch).tdiv 1000, rfl, ?_⟩
  by_cases since : 1000 * encodingEpoch ≤ instant.nanos
  · have quotient : (instant.nanos - 1000 * encodingEpoch).tdiv 1000 =
        (instant.nanos - 1000 * encodingEpoch) / 1000 :=
      Int.tdiv_eq_ediv_of_nonneg (by omega)
    omega
  · have quotient : (1000 * encodingEpoch - instant.nanos).tdiv 1000 =
        (1000 * encodingEpoch - instant.nanos) / 1000 :=
      Int.tdiv_eq_ediv_of_nonneg (by omega)
    have negated := Int.neg_tdiv (1000 * encodingEpoch - instant.nanos) 1000
    rw [Int.neg_sub, quotient] at negated
    omega

/-- A column's value is stored as itself. -/
@[simp]
theorem stored_ofStored (stored : Timestamp) : (ofStored stored).stored = stored := by
  obtain ⟨micros, isStored, either⟩ := (ofStored stored).stored_cases
  have isNanos : (ofStored stored).nanos = stored * 1000 := rfl
  rw [isNanos] at either
  have same : micros = stored := by omega
  exact isStored.trans same

/-- What renders from UTC is in the years an RFC 3339 text holds. -/
theorem year_of_rfc3339 {nanos : Int}
    (renders : (⟨nanos, 0⟩ : OffsetDateTime).rfc3339.isSome = true) :
    0 ≤ yearAt nanos 0 ∧ yearAt nanos 0 ≤ 9999 := by
  unfold rfc3339 at renders
  dsimp only at renders
  split at renders
  · rename_i inRange
    exact ⟨inRange.1, inRange.2.1⟩
  · cases renders

/-- What renders from UTC reads back from its nanoseconds. -/
theorem fromUnixTimestampNanos_of_rfc3339 {nanos : Int}
    (renders : (⟨nanos, 0⟩ : OffsetDateTime).rfc3339.isSome = true) :
    fromUnixTimestampNanos nanos = some ⟨nanos, 0⟩ := by
  have years := year_of_rfc3339 renders
  exact if_pos ⟨Int.le_trans (by decide) years.1, years.2⟩

theorem nanos_of_rfc3339 {nanos : Int}
    (renders : (⟨nanos, 0⟩ : OffsetDateTime).rfc3339.isSome = true) :
    -(2 ^ 80) ≤ nanos ∧ nanos ≤ 2 ^ 80 := by
  have years := year_of_rfc3339 renders
  have days := Instant.civil_bounds years.1 years.2
  unfold nanosPerSecond at days
  omega

end OffsetDateTime

/-- The first instant the Rust type represents, as the column would hold it. -/
def firstRepresentable : Timestamp := -377705116800000000

/-- `ends_at` minus one microsecond, unless that is below the floor of the
representable range. -/
def theLastInstantInside (endsAt : Timestamp) : Option Timestamp :=
  if firstRepresentable ≤ endsAt - 1 then some (endsAt - 1) else none

theorem eq_of_theLastInstantInside {endsAt closesAt : Timestamp}
    (instant : theLastInstantInside endsAt = some closesAt) : closesAt = endsAt - 1 := by
  unfold theLastInstantInside at instant
  split at instant
  · exact (Option.some.inj instant).symm
  · cases instant

example :
    (OffsetDateTime.mk 1787832000000000000 7200).rfc3339 =
      some "2026-08-27T14:00:00+02:00" := by decide

end OpenLedger
