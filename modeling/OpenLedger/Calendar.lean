import Mathlib.Tactic.Ring
import OpenLedger.Instant
import OpenLedger.Lib.PrefixCode

/-!
# The calendar read back

A day count is read back from its year, month and day, a number from its digits,
and an instant from its RFC 3339 text in UTC: two instants that render alike are
one instant.
-/

namespace OpenLedger

namespace Instant

/-- The day count of a date of the proleptic Gregorian calendar. -/
def daysOfCivil (year month day : Int) : Int :=
  let shiftedYear := if month ≤ 2 then year - 1 else year
  let era := shiftedYear / 400
  let yearOfEra := shiftedYear - era * 400
  let shiftedMonth := if month ≤ 2 then month + 9 else month - 3
  let dayOfYear := (153 * shiftedMonth + 2) / 5 + day - 1
  era * 146097 + (365 * yearOfEra + yearOfEra / 4 - yearOfEra / 100) + dayOfYear - 719468

theorem yearOfEra_bounds {dayOfEra : Int} (first : 0 ≤ dayOfEra) (last : dayOfEra ≤ 146096) :
    0 ≤ (dayOfEra - dayOfEra / 1460 + dayOfEra / 36524 - dayOfEra / 146096) / 365 ∧
      (dayOfEra - dayOfEra / 1460 + dayOfEra / 36524 - dayOfEra / 146096) / 365 ≤ 399 := by
  omega

/-- The day of the year is one of 366: the leap days before a year are within
one of the quarters and centuries of its days. -/
theorem dayOfYear_bounds {dayOfEra year : Int} (first : 0 ≤ dayOfEra)
    (last : dayOfEra ≤ 146096)
    (isYear : year =
      (dayOfEra - dayOfEra / 1460 + dayOfEra / 36524 - dayOfEra / 146096) / 365) :
    0 ≤ dayOfEra - (365 * year + year / 4 - year / 100) ∧
      dayOfEra - (365 * year + year / 4 - year / 100) ≤ 365 := by
  have century : dayOfEra / 36524 = 0 ∨ dayOfEra / 36524 = 1 ∨ dayOfEra / 36524 = 2 ∨
      dayOfEra / 36524 = 3 ∨ dayOfEra / 36524 = 4 := by omega
  have quarter : year / 4 = dayOfEra / 1460 ∨ year / 4 = dayOfEra / 1460 - 1 := by omega
  have hundred : year / 100 = dayOfEra / 36524 ∨ year / 100 = dayOfEra / 36524 - 1 := by
    rcases century with c | c | c | c | c <;> omega
  rcases century with c | c | c | c | c <;> rcases quarter with q | q <;>
    rcases hundred with h | h <;> omega

/-- A date's parts, from the era, the year in it, the day in that and the month
counted from March. -/
theorem civil_eq (days : Int) : ∃ era yearOfEra dayOfYear shiftedMonth : Int,
    days + 719468 =
      era * 146097 + (365 * yearOfEra + yearOfEra / 4 - yearOfEra / 100) + dayOfYear ∧
    (0 ≤ yearOfEra ∧ yearOfEra ≤ 399) ∧ (0 ≤ dayOfYear ∧ dayOfYear ≤ 365) ∧
    shiftedMonth = (5 * dayOfYear + 2) / 153 ∧
    civil days =
      (yearOfEra + era * 400 +
          if (if shiftedMonth < 10 then shiftedMonth + 3 else shiftedMonth - 9) ≤ 2 then 1 else 0,
        if shiftedMonth < 10 then shiftedMonth + 3 else shiftedMonth - 9,
        dayOfYear - (153 * shiftedMonth + 2) / 5 + 1) := by
  have first : 0 ≤ days + 719468 - (days + 719468) / 146097 * 146097 := by omega
  have last : days + 719468 - (days + 719468) / 146097 * 146097 ≤ 146096 := by omega
  refine ⟨_, _, _, _, ?_, yearOfEra_bounds first last, dayOfYear_bounds first last rfl, rfl, rfl⟩
  omega

theorem daysOfCivil_civil (days : Int) :
    daysOfCivil (civil days).1 (civil days).2.1 (civil days).2.2 = days := by
  obtain ⟨era, yearOfEra, dayOfYear, shiftedMonth, isDays, year, day, isMonth, isCivil⟩ :=
    civil_eq days
  have shifted : (yearOfEra + era * 400) / 400 = era := by omega
  rw [isCivil, daysOfCivil]
  dsimp only
  by_cases early : shiftedMonth < 10
  · have late : ¬ shiftedMonth + 3 ≤ 2 := by omega
    simp only [if_pos early, if_neg late, add_zero, shifted]
    omega
  · have soon : shiftedMonth - 9 ≤ 2 := by omega
    have same : yearOfEra + era * 400 + 1 - 1 = yearOfEra + era * 400 := by omega
    simp only [if_neg early, if_pos soon, same, shifted]
    omega

theorem civil_injective : Function.Injective civil := by
  intro left right equal
  rw [← daysOfCivil_civil left, equal, daysOfCivil_civil]

/-- The first day of a year. -/
def firstDayOf (year : Int) : Int :=
  365 * (year - 1) + (year - 1) / 4 - (year - 1) / 100 + (year - 1) / 400 - 719162

theorem firstDayOf_mono {early late : Int} (le : early ≤ late) :
    firstDayOf early ≤ firstDayOf late := by
  unfold firstDayOf
  omega

/-- A day is of the year it falls in. -/
theorem firstDayOf_year (days : Int) :
    firstDayOf (civil days).1 ≤ days ∧ days < firstDayOf ((civil days).1 + 1) := by
  obtain ⟨era, yearOfEra, dayOfYear, shiftedMonth, isDays, year, day, isMonth, isCivil⟩ :=
    civil_eq days
  rw [isCivil]
  unfold firstDayOf
  dsimp only
  by_cases early : shiftedMonth < 10
  · rw [if_pos early, if_neg (by omega)]
    constructor
    · omega
    · omega
  · rw [if_neg early, if_pos (by omega)]
    constructor
    · omega
    · omega

/-- The days of a year and of those after it. -/
theorem le_year_iff {year days : Int} : year ≤ (civil days).1 ↔ firstDayOf year ≤ days := by
  obtain ⟨first, last⟩ := firstDayOf_year days
  constructor
  · intro le
    exact (firstDayOf_mono le).trans first
  · intro since
    by_contra earlier
    have next : (civil days).1 + 1 ≤ year := by omega
    have later := firstDayOf_mono next
    omega

theorem year_lt_iff {year days : Int} : (civil days).1 < year ↔ days < firstDayOf year := by
  have since := @le_year_iff year days
  omega

/-- A date's month and day are within what two digits hold. -/
theorem civil_monthDay (days : Int) :
    (0 ≤ (civil days).2.1 ∧ (civil days).2.1 < 100) ∧
      0 ≤ (civil days).2.2 ∧ (civil days).2.2 < 100 := by
  obtain ⟨era, yearOfEra, dayOfYear, shiftedMonth, _, _, day, isMonth, isCivil⟩ := civil_eq days
  rw [isCivil]
  dsimp only
  by_cases early : shiftedMonth < 10
  · rw [if_pos early]
    omega
  · rw [if_neg early]
    omega

@[simp]
theorem length_digits (width value : Nat) : (digits width value).length = width := by
  induction width generalizing value with
  | zero =>
      rfl
  | succ width inductionHypothesis =>
      simp [digits, inductionHypothesis]

theorem digit_inj {left right : Nat} (leftDigit : left < 10) (rightDigit : right < 10)
    (equal : Char.ofNat (48 + left) = Char.ofNat (48 + right)) : left = right := by
  have digit : ∀ l < 10, ∀ r < 10, Char.ofNat (48 + l) = Char.ofNat (48 + r) → l = r := by
    decide
  exact digit left leftDigit right rightDigit equal

/-- The digits determine the number, up to the width they have room for. -/
theorem digits_inj {width left right : Nat} (leftFits : left < 10 ^ width)
    (rightFits : right < 10 ^ width) (equal : digits width left = digits width right) :
    left = right := by
  induction width generalizing left right with
  | zero =>
      simp only [Nat.pow_zero, Nat.lt_one_iff] at leftFits rightFits
      omega
  | succ width inductionHypothesis =>
      simp only [digits] at equal
      obtain ⟨high, low⟩ := List.append_inj equal (by simp)
      have lastDigit : left % 10 = right % 10 :=
        digit_inj (Nat.mod_lt _ (by decide)) (Nat.mod_lt _ (by decide))
          (List.singleton_inj.mp low)
      rw [Nat.pow_succ] at leftFits rightFits
      have rest := inductionHypothesis (by omega) (by omega) high
      omega

/-- A text is its padding and what is left without it. -/
theorem padded (mark : Char) (text : List Char) :
    text = List.replicate (text.length - (text.dropWhile (· = mark)).length) mark ++
      text.dropWhile (· = mark) := by
  induction text with
  | nil =>
      rfl
  | cons head tail inductionHypothesis =>
      by_cases isMark : head = mark
      · have dropped : (head :: tail).dropWhile (· = mark) = tail.dropWhile (· = mark) := by
          simp [isMark]
        have shorter := (List.dropWhile_sublist (fun c => decide (c = mark)) (l := tail)).length_le
        rw [dropped, List.length_cons, Nat.succ_sub shorter, List.replicate_succ,
          List.cons_append, ← inductionHypothesis, isMark]
      · have kept : (head :: tail).dropWhile (· = mark) = head :: tail := by
          simp [isMark]
        rw [kept, Nat.sub_self]
        rfl

/-- A padded text is read back from what is left without its padding. -/
theorem dropWhile_inj {mark : Char} {left right : List Char}
    (sameLength : left.length = right.length)
    (equal : left.dropWhile (· = mark) = right.dropWhile (· = mark)) : left = right := by
  rw [padded mark left, padded mark right, sameLength, equal]

/-- The sub-second part is read back from its digits without trailing zeros. -/
theorem fraction_inj {left right : Nat} (leftFits : left < 10 ^ 9) (rightFits : right < 10 ^ 9)
    (equal : fraction left = fraction right) : left = right := by
  by_cases leftZero : left = 0
  · by_cases rightZero : right = 0
    · omega
    · simp [fraction, leftZero, rightZero] at equal
  · by_cases rightZero : right = 0
    · simp [fraction, leftZero, rightZero] at equal
    · rw [fraction, fraction, if_neg leftZero, if_neg rightZero] at equal
      have reversed := List.reverse_injective (List.cons.inj equal).2
      have padded := dropWhile_inj (by simp) reversed
      exact digits_inj leftFits rightFits (List.reverse_injective padded)

end Instant

namespace OffsetDateTime

open Instant

/-- An offset that is written in RFC 3339: whole minutes, within a day. -/
def WholeMinutes (instant : OffsetDateTime) : Prop :=
  instant.offset.natAbs / 3600 ≤ 23 ∧ instant.offset.natAbs % 60 = 0
deriving Decidable

theorem rfc3339_isSome_iff {instant : OffsetDateTime} :
    instant.rfc3339.isSome = true ↔
      0 ≤ instant.year ∧ instant.year ≤ 9999 ∧ instant.WholeMinutes := by
  unfold rfc3339 year WholeMinutes Instant.yearAt
  dsimp only
  split
  · rename_i inRange
    exact ⟨fun _ => ⟨inRange.1, inRange.2.1, inRange.2.2⟩, fun _ => rfl⟩
  · rename_i outOfRange
    exact ⟨fun isSome => Bool.noConfusion isSome, fun inRange => absurd inRange outOfRange⟩

/-- The parts of a text: the date, the time of day, the fraction and the offset. -/
theorem rfc3339_parts {instant : OffsetDateTime} {text : String}
    (renders : instant.rfc3339 = some text) :
    let seconds := instant.nanos / nanosPerSecond + instant.offset
    let date := civil (seconds / 86400)
    let second := (seconds % 86400).toNat
    (0 ≤ date.1 ∧ date.1 ≤ 9999) ∧
    text.toList = digits 4 date.1.toNat ++ ('-' :: (digits 2 date.2.1.toNat ++ ('-' ::
      (digits 2 date.2.2.toNat ++ ('T' :: (digits 2 (second / 3600) ++ (':' ::
        (digits 2 (second / 60 % 60) ++ (':' :: (digits 2 (second % 60) ++
          (fraction (instant.nanos % nanosPerSecond).toNat ++
            offsetSuffix instant.offset))))))))))) := by
  unfold rfc3339 at renders
  dsimp only at renders
  split at renders
  · rename_i inRange
    refine ⟨⟨inRange.1, inRange.2.1⟩, ?_⟩
    rw [← Option.some.inj renders, String.toList_ofList]
    simp only [List.append_assoc, List.cons_append]
  · cases renders

/-- In UTC the offset is a letter. -/
theorem rfc3339_utc {nanos : Int} {text : String}
    (renders : (⟨nanos, 0⟩ : OffsetDateTime).rfc3339 = some text) :
    let seconds := nanos / nanosPerSecond
    let date := civil (seconds / 86400)
    let second := (seconds % 86400).toNat
    (0 ≤ date.1 ∧ date.1 ≤ 9999) ∧
    text.toList = digits 4 date.1.toNat ++ ('-' :: (digits 2 date.2.1.toNat ++ ('-' ::
      (digits 2 date.2.2.toNat ++ ('T' :: (digits 2 (second / 3600) ++ (':' ::
        (digits 2 (second / 60 % 60) ++ (':' :: (digits 2 (second % 60) ++
          (fraction (nanos % nanosPerSecond).toNat ++ ['Z']))))))))))) := by
  have parts := rfc3339_parts renders
  simp only [Int.add_zero] at parts
  exact parts

/-- Two instants in UTC with one text are one instant. -/
theorem rfc3339_utc_inj {left right : Int} {text : String}
    (leftRenders : (⟨left, 0⟩ : OffsetDateTime).rfc3339 = some text)
    (rightRenders : (⟨right, 0⟩ : OffsetDateTime).rfc3339 = some text) : left = right := by
  obtain ⟨leftYear, leftText⟩ := rfc3339_utc leftRenders
  obtain ⟨rightYear, rightText⟩ := rfc3339_utc rightRenders
  have equal := leftText.symm.trans rightText
  have leftDate := civil_monthDay (left / nanosPerSecond / 86400)
  have rightDate := civil_monthDay (right / nanosPerSecond / 86400)
  obtain ⟨years, equal⟩ := List.append_inj equal (by simp)
  obtain ⟨months, equal⟩ := List.append_inj (List.cons.inj equal).2 (by simp)
  obtain ⟨days, equal⟩ := List.append_inj (List.cons.inj equal).2 (by simp)
  obtain ⟨hours, equal⟩ := List.append_inj (List.cons.inj equal).2 (by simp)
  obtain ⟨minutes, equal⟩ := List.append_inj (List.cons.inj equal).2 (by simp)
  obtain ⟨seconds, equal⟩ := List.append_inj (List.cons.inj equal).2 (by simp)
  have fractions := List.append_cancel_right equal
  have sameYear := digits_inj (by omega) (by omega) years
  have sameMonth := digits_inj (by omega) (by omega) months
  have sameDay := digits_inj (by omega) (by omega) days
  have sameHour := digits_inj (by omega) (by omega) hours
  have sameMinute := digits_inj (by omega) (by omega) minutes
  have sameSecond := digits_inj (by omega) (by omega) seconds
  have sameNanos := fraction_inj (by unfold nanosPerSecond; omega)
    (by unfold nanosPerSecond; omega) fractions
  have sameDate : left / nanosPerSecond / 86400 = right / nanosPerSecond / 86400 := by
    refine civil_injective (Prod.ext ?_ (Prod.ext ?_ ?_)) <;> omega
  unfold nanosPerSecond at sameDate sameNanos sameHour sameMinute sameSecond
  omega

end OffsetDateTime

end OpenLedger
