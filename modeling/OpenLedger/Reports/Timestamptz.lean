import OpenLedger.Calendar
import OpenLedger.Reports.Store

/-!
# The cast to timestamptz

A bound goes to the storage as RFC 3339 text.  What the cast is documented to make of
such a text, and a reader that makes it of every one of them.
-/

namespace OpenLedger

/-- Sixteen hours, in seconds. -/
def sixteenHours : Nat := 57600

/-- What the `timestamptz` cast takes of the texts RFC 3339 writes: years from 1 on, as
there is no year 0, in an offset of less than sixteen hours. -/
structure TimestamptzCast (accepts : String → Prop) : Prop where
  reads : ∀ (instant : OffsetDateTime) (text : String), instant.rfc3339 = some text →
    1 ≤ instant.year → instant.offset.natAbs < sixteenHours → accepts text
  noYearZero : ∀ (instant : OffsetDateTime) (text : String), instant.rfc3339 = some text →
    instant.year = 0 → ¬ accepts text
  noWideOffset : ∀ (instant : OffsetDateTime) (text : String), instant.rfc3339 = some text →
    sixteenHours ≤ instant.offset.natAbs → ¬ accepts text

namespace OffsetDateTime

/-- The years and the offsets the cast takes. -/
def Castable (instant : OffsetDateTime) : Prop :=
  1 ≤ instant.year ∧ instant.offset.natAbs < sixteenHours

/-- No other microsecond is nearer to the instant. -/
def IsNearest (instant : OffsetDateTime) (micros : Int) : Prop :=
  -500 ≤ 1000 * micros - instant.nanos ∧ 1000 * micros - instant.nanos ≤ 500

/-- A column's value is the one microsecond nearest to itself. -/
theorem eq_of_isNearest {stored micros : Int}
    (nearest : (ofStored stored).IsNearest micros) : micros = stored := by
  have isNanos : (ofStored stored).nanos = stored * 1000 := rfl
  unfold IsNearest at nearest
  rw [isNanos] at nearest
  omega

end OffsetDateTime

/-- A cast that takes these texts, and reads each as a microsecond nearest to the
instant it writes. -/
structure TimestamptzReads (timestamptz : String → Except NotATimestamp Timestamp) : Prop where
  cast : TimestamptzCast fun text => ∃ micros, timestamptz text = .ok micros
  nearest : ∀ (instant : OffsetDateTime) (text : String) (micros : Timestamp),
    instant.rfc3339 = some text → timestamptz text = .ok micros → instant.IsNearest micros

/-- The cast takes a text exactly when it takes its year and its offset. -/
theorem TimestamptzCast.accepts_iff {accepts : String → Prop} (cast : TimestamptzCast accepts)
    {instant : OffsetDateTime} {text : String} (rendered : instant.rfc3339 = some text) :
    accepts text ↔ instant.Castable := by
  have year := (OffsetDateTime.rfc3339_isSome_iff.mp (Option.isSome_of_eq_some rendered)).1
  constructor
  · intro accepted
    constructor
    · by_contra early
      exact cast.noYearZero instant text rendered (by omega) accepted
    · by_contra wide
      exact cast.noWideOffset instant text rendered (not_lt.mp wide) accepted
  · intro castable
    exact cast.reads instant text rendered castable.1 castable.2

/-- The bound that is named: the microsecond nearest to an instant, and where none is
given the infinity on that side. -/
def ReportInstant.Names (bound : ReportInstant) (given : Option OffsetDateTime)
    (whenUnbounded : ReportInstant) : Prop :=
  match given with
  | none => bound = whenUnbounded
  | some instant => ∃ micros, bound = .at micros ∧ instant.IsNearest micros

/-- The bound a statement compares with: the cast of the text that is bound. -/
def Binds (timestamptz : String → Except NotATimestamp Timestamp)
    (given : Option OffsetDateTime) (whenUnbounded : String) (bound : ReportInstant) : Prop :=
  ∃ text, asBoundInstant given whenUnbounded = .ok text ∧
    castBound timestamptz text = .ok bound

section Binding

variable {timestamptz : String → Except NotATimestamp Timestamp} {instant : OffsetDateTime}
  {text whenUnbounded : String} {bound : ReportInstant}

theorem asBoundInstant_some (rendered : instant.rfc3339 = some text) (whenUnbounded : String) :
    asBoundInstant (some instant) whenUnbounded = .ok text := by
  unfold asBoundInstant
  dsimp only
  rw [rendered]

theorem asBoundInstant_none (unrendered : instant.rfc3339 = none) (whenUnbounded : String) :
    asBoundInstant (some instant) whenUnbounded = .error (.storage (.notRendered instant)) := by
  unfold asBoundInstant
  dsimp only
  rw [unrendered]

/-- A rendered instant is not a sentinel. -/
theorem castBound_rendered (rendered : instant.rfc3339 = some text) :
    castBound timestamptz text =
      match timestamptz text with
      | .ok micros => .ok (.at micros)
      | .error unread => .error (refusal unread.raised.errcode unread.raised.message) := by
  have isText := (OffsetDateTime.rfc3339_parts rendered).2
  have long : 20 ≤ text.toList.length := by
    rw [isText]
    simp only [List.length_append, List.length_cons, Instant.length_digits]
    have suffix : 1 ≤ (Instant.offsetSuffix instant.offset).length := by
      unfold Instant.offsetSuffix
      split <;> simp
    omega
  have notFirst : text ≠ theBeginningOfTime := by
    intro same
    rw [same] at long
    exact absurd long (by decide)
  have notLast : text ≠ theEndOfTime := by
    intro same
    rw [same] at long
    exact absurd long (by decide)
  cases read : timestamptz text with
  | ok micros =>
      simp only [castBound, if_neg notFirst, if_neg notLast, read]
  | error unread =>
      simp only [castBound, if_neg notFirst, if_neg notLast, read]

theorem binds_unbounded : Binds timestamptz none theBeginningOfTime .minusInfinity ∧
    Binds timestamptz none theEndOfTime .infinity :=
  ⟨⟨_, rfl, rfl⟩, ⟨_, rfl, rfl⟩⟩

/-- Where no instant is given, the bound is the infinity of its side. -/
theorem bound_of_binds_none :
    (Binds timestamptz none theBeginningOfTime bound → bound = .minusInfinity) ∧
      (Binds timestamptz none theEndOfTime bound → bound = .infinity) := by
  constructor
  · intro binds
    obtain ⟨text, isText, casts⟩ := binds
    cases isText
    exact (Except.ok.inj casts).symm
  · intro binds
    obtain ⟨text, isText, casts⟩ := binds
    cases isText
    exact (Except.ok.inj casts).symm

theorem binds_some_iff (rendered : instant.rfc3339 = some text) :
    Binds timestamptz (some instant) whenUnbounded bound ↔
      ∃ micros, bound = .at micros ∧ timestamptz text = .ok micros := by
  unfold Binds
  rw [asBoundInstant_some rendered]
  constructor
  · intro binds
    obtain ⟨other, isOther, casts⟩ := binds
    rw [← Except.ok.inj isOther, castBound_rendered rendered] at casts
    cases reads : timestamptz text with
    | ok micros =>
        rw [reads] at casts
        exact ⟨micros, (Except.ok.inj casts).symm, rfl⟩
    | error unread =>
        rw [reads] at casts
        cases casts
  · intro reads
    obtain ⟨micros, isBound, reads⟩ := reads
    refine ⟨text, rfl, ?_⟩
    rw [castBound_rendered rendered, reads, isBound]

/-- An instant that renders is bound exactly when it is castable. -/
theorem binds_iff_castable (reads : TimestamptzReads timestamptz)
    (renders : instant.rfc3339.isSome = true) (whenUnbounded : String) :
    (∃ bound, Binds timestamptz (some instant) whenUnbounded bound) ↔ instant.Castable := by
  obtain ⟨text, rendered⟩ := Option.isSome_iff_exists.mp renders
  rw [← reads.cast.accepts_iff rendered]
  constructor
  · intro binds
    obtain ⟨bound, binds⟩ := binds
    obtain ⟨micros, _, isRead⟩ := (binds_some_iff rendered).mp binds
    exact ⟨micros, isRead⟩
  · intro accepted
    obtain ⟨micros, isRead⟩ := accepted
    exact ⟨.at micros, (binds_some_iff rendered).mpr ⟨micros, rfl, isRead⟩⟩

/-- What an instant is bound to is what it names. -/
theorem names_of_binds (reads : TimestamptzReads timestamptz)
    (binds : Binds timestamptz (some instant) whenUnbounded bound) (unbounded : ReportInstant) :
    bound.Names (some instant) unbounded := by
  cases rendered : instant.rfc3339 with
  | none =>
      obtain ⟨text, isText, _⟩ := binds
      rw [asBoundInstant_none rendered] at isText
      cases isText
  | some text =>
      obtain ⟨micros, isBound, isRead⟩ := (binds_some_iff rendered).mp binds
      exact ⟨micros, isBound, reads.nearest instant text micros rendered isRead⟩

/-- A column's value from the year 1 on is bound to itself. -/
theorem binds_ofStored (reads : TimestamptzReads timestamptz) {stored : Timestamp}
    (renders : (OffsetDateTime.ofStored stored).rfc3339.isSome = true)
    (year : 1 ≤ (OffsetDateTime.ofStored stored).year) (whenUnbounded : String) :
    Binds timestamptz (some (.ofStored stored)) whenUnbounded (.at stored) := by
  have inUtc : (0 : Int).natAbs < sixteenHours := by decide
  have castable : (OffsetDateTime.ofStored stored).Castable := ⟨year, inUtc⟩
  obtain ⟨bound, binds⟩ := (binds_iff_castable reads renders whenUnbounded).mpr castable
  obtain ⟨micros, isBound, nearest⟩ := names_of_binds reads binds .infinity
  rw [OffsetDateTime.eq_of_isNearest nearest] at isBound
  rw [← isBound]
  exact binds

/-- Bounds that are bound and cast are what a statement goes on with. -/
theorem bound_of_binds {answer : Type}
    {statement : ReportInstant → ReportInstant → ReportInstant → Except ReportRefusal answer}
    {first second third : Option OffsetDateTime} {unboundedFirst unboundedSecond
    unboundedThird : String} {boundFirst boundSecond boundThird : ReportInstant}
    (bindsFirst : Binds timestamptz first unboundedFirst boundFirst)
    (bindsSecond : Binds timestamptz second unboundedSecond boundSecond)
    (bindsThird : Binds timestamptz third unboundedThird boundThird) :
    (do
      let firstText ← asBoundInstant first unboundedFirst
      let secondText ← asBoundInstant second unboundedSecond
      let thirdText ← asBoundInstant third unboundedThird
      let firstBound ← castBound timestamptz firstText
      let secondBound ← castBound timestamptz secondText
      let thirdBound ← castBound timestamptz thirdText
      statement firstBound secondBound thirdBound) =
      statement boundFirst boundSecond boundThird := by
  obtain ⟨firstText, isFirst, castsFirst⟩ := bindsFirst
  obtain ⟨secondText, isSecond, castsSecond⟩ := bindsSecond
  obtain ⟨thirdText, isThird, castsThird⟩ := bindsThird
  rw [isFirst, isSecond, isThird]
  change (castBound timestamptz firstText >>= _) = _
  rw [castsFirst]
  change (castBound timestamptz secondText >>= _) = _
  rw [castsSecond]
  change (castBound timestamptz thirdText >>= _) = _
  rw [castsThird]
  rfl

end Binding

/-! ## A cast of these texts -/

namespace Shop

def number (digits : List Char) : Nat := Nat.ofDigitChars 10 digits 0

/-- A number of a known width, and the text after its separator. -/
def field (width : Nat) (text : List Char) : Nat × List Char :=
  (number (text.take width), text.drop (width + 1))

/-- The nanoseconds of a fraction, if there is one, and the text after it. -/
def fractionOf (text : List Char) : Nat × List Char :=
  if text.head? = some '.' then
    let digits := text.tail.takeWhile Char.isDigit
    (number digits * 10 ^ (9 - digits.length), text.tail.dropWhile Char.isDigit)
  else (0, text)

/-- The seconds of an offset. -/
def offsetOf (text : List Char) : Int :=
  let (hours, minutes) := field 2 text.tail
  let magnitude : Int := hours * 3600 + number minutes * 60
  if text.head? = some '-' then -magnitude
  else if text.head? = some '+' then magnitude
  else 0

/-- What an RFC 3339 text writes. -/
structure Written where
  year : Nat
  seconds : Int
  nanos : Nat
  offset : Int
deriving DecidableEq, Repr

def written (text : List Char) : Written :=
  let (year, text) := field 4 text
  let (month, text) := field 2 text
  let (day, text) := field 2 text
  let (hour, text) := field 2 text
  let (minute, text) := field 2 text
  let (nanos, offset) := fractionOf (text.drop 2)
  { year
    seconds := Instant.daysOfCivil year month day * 86400 + hour * 3600 + minute * 60 +
      number (text.take 2)
    nanos
    offset := offsetOf offset }

/-- `timestamptz_in`, of the texts RFC 3339 writes. -/
def timestamptzIn (text : String) : Except NotATimestamp Timestamp :=
  let read := written text.toList
  if read.year = 0 then
    .error (.datetimeFieldOverflow ("date/time field value out of range: \"" ++ text ++ "\""))
  else if sixteenHours ≤ read.offset.natAbs then
    .error (.invalidTimeZoneDisplacement
      ("time zone displacement out of range: \"" ++ text ++ "\""))
  else
    let nanos : Int := (read.seconds - read.offset) * Instant.nanosPerSecond + read.nanos
    .ok ((nanos + 500) / 1000)

/-- A number reads back from its digits. -/
theorem number_digits {width value : Nat} (fits : value < 10 ^ width) :
    number (Instant.digits width value) = value := by
  induction width generalizing value with
  | zero =>
      rw [Nat.pow_zero, Nat.lt_one_iff] at fits
      rw [fits]
      rfl
  | succ width inductionHypothesis =>
      rw [Nat.pow_succ] at fits
      have lastDigit : ∀ ones < 10, (Char.ofNat (48 + ones)).toNat - '0'.toNat = ones := by
        decide
      have rest : number (Instant.digits width (value / 10)) = value / 10 :=
        inductionHypothesis (by omega)
      unfold number at rest ⊢
      rw [Instant.digits, Nat.ofDigitChars_append, rest, Nat.ofDigitChars_cons,
        Nat.ofDigitChars_nil, lastDigit _ (Nat.mod_lt _ (by decide))]
      omega

theorem field_digits {width value : Nat} (fits : value < 10 ^ width) (mark : Char)
    (rest : List Char) :
    field width (Instant.digits width value ++ mark :: rest) = (value, rest) := by
  have first : (Instant.digits width value ++ mark :: rest).take width =
      Instant.digits width value := List.take_left' (Instant.length_digits width value)
  have other : (Instant.digits width value ++ mark :: rest).drop (width + 1) = rest := by
    rw [List.drop_append, Instant.length_digits]
    simp
  rw [field, first, other, number_digits fits]

theorem isDigit_of_mem_digits {width value : Nat} {digit : Char}
    (member : digit ∈ Instant.digits width value) : digit.isDigit = true := by
  have each : ∀ ones < 10, (Char.ofNat (48 + ones)).isDigit = true := by decide
  induction width generalizing value with
  | zero =>
      cases member
  | succ width inductionHypothesis =>
      rw [Instant.digits, List.mem_append, List.mem_singleton] at member
      cases member with
      | inl earlier =>
          exact inductionHypothesis earlier
      | inr isLast =>
          rw [isLast]
          exact each _ (Nat.mod_lt _ (by decide))

/-- A run of digits ends where its text goes on with something else. -/
theorem takeWhile_digits {digits rest : List Char}
    (areDigits : ∀ digit ∈ digits, digit.isDigit = true)
    (stops : ∀ mark ∈ rest.head?, mark.isDigit = false) :
    (digits ++ rest).takeWhile Char.isDigit = digits ∧
      (digits ++ rest).dropWhile Char.isDigit = rest := by
  have nothing : rest.takeWhile Char.isDigit = [] ∧ rest.dropWhile Char.isDigit = rest := by
    cases rest with
    | nil =>
        exact ⟨rfl, rfl⟩
    | cons mark rest =>
        have notDigit : ¬ mark.isDigit = true := Bool.eq_false_iff.mp (stops mark rfl)
        exact ⟨List.takeWhile_cons_of_neg notDigit, List.dropWhile_cons_of_neg notDigit⟩
  constructor
  · rw [List.takeWhile_append_of_pos areDigits, nothing.1, List.append_nil]
  · rw [List.dropWhile_append_of_pos areDigits, nothing.2]

/-- The digits of a fraction are nine with the zeros behind them left out. -/
theorem fraction_eq {nanos : Nat} (notWhole : nanos ≠ 0) :
    ∃ trimmed, Instant.fraction nanos = '.' :: trimmed ∧
      Instant.digits 9 nanos = trimmed ++ List.replicate (9 - trimmed.length) '0' := by
  refine ⟨((Instant.digits 9 nanos).reverse.dropWhile (· = '0')).reverse, if_neg notWhole, ?_⟩
  have isPadded := congrArg List.reverse (Instant.padded '0' (Instant.digits 9 nanos).reverse)
  rw [List.reverse_append, List.reverse_reverse, List.reverse_replicate, List.length_reverse,
    Instant.length_digits] at isPadded
  rw [List.length_reverse]
  exact isPadded

theorem fractionOf_fraction {nanos : Nat} (fits : nanos < 10 ^ 9) {rest : List Char}
    (stops : ∀ mark ∈ rest.head?, mark.isDigit = false ∧ mark ≠ '.') :
    fractionOf (Instant.fraction nanos ++ rest) = (nanos, rest) := by
  by_cases whole : nanos = 0
  · have noFraction : ¬ rest.head? = some '.' := fun isPoint => (stops '.' isPoint).2 rfl
    rw [whole, Instant.fraction, if_pos rfl, List.nil_append, fractionOf, if_neg noFraction]
  · obtain ⟨trimmed, isFraction, isPadded⟩ := fraction_eq whole
    have areDigits : ∀ digit ∈ trimmed, digit.isDigit = true := by
      intro digit member
      have within : digit ∈ Instant.digits 9 nanos := by
        rw [isPadded]
        exact List.mem_append_left _ member
      exact isDigit_of_mem_digits within
    have split := takeWhile_digits areDigits fun mark isNext => (stops mark isNext).1
    have value := number_digits fits
    rw [isPadded, number, Nat.ofDigitChars_append, Nat.ofDigitChars_replicate_zero,
      Nat.mul_comm] at value
    have isFirst : ('.' :: (trimmed ++ rest)).head? = some '.' := rfl
    rw [isFraction, List.cons_append, fractionOf, if_pos isFirst]
    dsimp only
    rw [List.tail_cons, split.1, split.2, number, value]

/-- An offset of whole minutes within a day reads back from its suffix. -/
theorem offsetOf_suffix {offset : Int} (within : offset.natAbs / 3600 ≤ 23)
    (wholeMinutes : offset.natAbs % 60 = 0) : offsetOf (Instant.offsetSuffix offset) = offset := by
  by_cases utc : offset = 0
  · rw [utc]
    rfl
  · have suffix : Instant.offsetSuffix offset =
        (if offset < 0 then '-' else '+') ::
          (Instant.digits 2 (offset.natAbs / 3600) ++
            ':' :: Instant.digits 2 (offset.natAbs / 60 % 60)) := if_neg utc
    have minutes : number (Instant.digits 2 (offset.natAbs / 60 % 60)) =
        offset.natAbs / 60 % 60 := number_digits (by omega)
    rw [suffix, offsetOf, List.tail_cons, field_digits (by omega)]
    dsimp only
    rw [minutes, List.head?_cons]
    by_cases behind : offset < 0
    · rw [if_pos behind, if_pos rfl]
      omega
    · rw [if_neg behind, if_neg (by decide), if_pos rfl]
      omega

theorem offsetSuffix_stops (offset : Int) :
    ∀ mark ∈ (Instant.offsetSuffix offset).head?, mark.isDigit = false ∧ mark ≠ '.' := by
  intro mark isFirst
  unfold Instant.offsetSuffix at isFirst
  split at isFirst
  · rw [← Option.some.inj isFirst]
    decide
  · dsimp only at isFirst
    rw [← Option.some.inj isFirst]
    split <;> decide

/-- A text reads back as what it was written from. -/
theorem written_rfc3339 {instant : OffsetDateTime} {text : String}
    (rendered : instant.rfc3339 = some text) :
    written text.toList =
      ⟨instant.year.toNat, instant.nanos / Instant.nanosPerSecond + instant.offset,
        (instant.nanos % Instant.nanosPerSecond).toNat, instant.offset⟩ := by
  obtain ⟨year, isText⟩ := OffsetDateTime.rfc3339_parts rendered
  have minutes := (OffsetDateTime.rfc3339_isSome_iff.mp (Option.isSome_of_eq_some rendered)).2.2
  revert isText year
  generalize isLocal : instant.nanos / Instant.nanosPerSecond + instant.offset = seconds
  intro year isText
  have monthDay := Instant.civil_monthDay (seconds / 86400)
  have days := Instant.daysOfCivil_civil (seconds / 86400)
  have isYear : instant.year = (Instant.civil (seconds / 86400)).1 := by
    rw [OffsetDateTime.year, Instant.yearAt, isLocal]
  have ofDay : (seconds % 86400).toNat < 86400 := by omega
  have nanos : (instant.nanos % Instant.nanosPerSecond).toNat < 10 ^ 9 := by
    unfold Instant.nanosPerSecond
    omega
  have second : number (Instant.digits 2 ((seconds % 86400).toNat % 60)) =
      (seconds % 86400).toNat % 60 := number_digits (by omega)
  have twoDigits : ∀ rest : List Char,
      (Instant.digits 2 ((seconds % 86400).toNat % 60) ++ rest).take 2 =
        Instant.digits 2 ((seconds % 86400).toNat % 60) ∧
      (Instant.digits 2 ((seconds % 86400).toNat % 60) ++ rest).drop 2 = rest := fun rest =>
    ⟨List.take_left' (Instant.length_digits 2 _), List.drop_left' (Instant.length_digits 2 _)⟩
  rw [isText]
  unfold written
  rw [field_digits (by omega)]
  dsimp only
  rw [field_digits (by omega)]
  dsimp only
  rw [field_digits (by omega)]
  dsimp only
  rw [field_digits (by omega)]
  dsimp only
  rw [field_digits (by omega)]
  dsimp only
  rw [(twoDigits _).1, (twoDigits _).2, fractionOf_fraction nanos (offsetSuffix_stops _), second,
    isYear]
  dsimp only
  rw [offsetOf_suffix minutes.1 minutes.2]
  have ofYear : ((Instant.civil (seconds / 86400)).1.toNat : Int) =
      (Instant.civil (seconds / 86400)).1 := Int.toNat_of_nonneg year.1
  have ofMonth : ((Instant.civil (seconds / 86400)).2.1.toNat : Int) =
      (Instant.civil (seconds / 86400)).2.1 := Int.toNat_of_nonneg monthDay.1.1
  have ofDate : ((Instant.civil (seconds / 86400)).2.2.toNat : Int) =
      (Instant.civil (seconds / 86400)).2.2 := Int.toNat_of_nonneg monthDay.2.1
  rw [ofYear, ofMonth, ofDate, days]
  congr 1
  omega

/-- The reader is a cast as it is documented. -/
theorem timestamptzIn_reads : TimestamptzReads timestamptzIn := by
  have taken : ∀ (instant : OffsetDateTime) (text : String), instant.rfc3339 = some text →
      ((∃ micros, timestamptzIn text = .ok micros) ↔ instant.Castable) ∧
        ∀ micros, timestamptzIn text = .ok micros → instant.IsNearest micros := by
    intro instant text rendered
    have year := (OffsetDateTime.rfc3339_isSome_iff.mp (Option.isSome_of_eq_some rendered)).1
    unfold timestamptzIn
    rw [written_rfc3339 rendered]
    dsimp only
    by_cases yearZero : instant.year.toNat = 0
    · rw [if_pos yearZero]
      refine ⟨⟨nofun, fun castable => ?_⟩, nofun⟩
      have isLater := castable.1
      omega
    · rw [if_neg yearZero]
      by_cases wide : sixteenHours ≤ instant.offset.natAbs
      · rw [if_pos wide]
        refine ⟨⟨nofun, fun castable => ?_⟩, nofun⟩
        exact absurd castable.2 (not_lt.mpr wide)
      · rw [if_neg wide]
        refine ⟨⟨fun _ => ⟨by omega, not_le.mp wide⟩, fun _ => ⟨_, rfl⟩⟩, ?_⟩
        intro micros isRead
        rw [← Except.ok.inj isRead]
        unfold OffsetDateTime.IsNearest Instant.nanosPerSecond
        omega
  constructor
  · constructor
    · intro instant text rendered year offset
      exact (taken instant text rendered).1.mpr ⟨year, offset⟩
    · intro instant text rendered isZero accepted
      have castable := ((taken instant text rendered).1.mp accepted).1
      omega
    · intro instant text rendered wide accepted
      have castable := ((taken instant text rendered).1.mp accepted).2
      omega
  · intro instant text micros rendered isRead
    exact (taken instant text rendered).2 micros isRead

end Shop

end OpenLedger
