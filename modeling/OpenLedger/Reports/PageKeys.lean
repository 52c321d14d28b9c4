import OpenLedger.Admission
import OpenLedger.Reports.Walks

/-!
# Page keys and the bounds they become

A key goes out as text and comes back as whatever the caller sends.  Its instant
and the bounds of a date range go on to the storage as RFC 3339 text, which the
`timestamptz` cast reads.
-/

namespace OpenLedger

namespace OffsetDateTime

theorem fromUnixTimestampNanos_eq_some {nanos : Int} {instant : OffsetDateTime}
    (reads : fromUnixTimestampNanos nanos = some instant) :
    instant = ⟨nanos, 0⟩ ∧ -9999 ≤ Instant.yearAt nanos 0 ∧ Instant.yearAt nanos 0 ≤ 9999 := by
  unfold fromUnixTimestampNanos checkedToUtc at reads
  dsimp only at reads
  split at reads
  · rename_i years
    exact ⟨(Option.some.inj reads).symm, years⟩
  · cases reads

/-- Every representable instant is a 128-bit count of nanoseconds. -/
theorem nanos_of_fromUnixTimestampNanos {nanos : Int} {instant : OffsetDateTime}
    (reads : fromUnixTimestampNanos nanos = some instant) :
    -(2 ^ 80) ≤ nanos ∧ nanos ≤ 2 ^ 80 := by
  have years := (fromUnixTimestampNanos_eq_some reads).2
  have first := Instant.le_year_iff.mp years.1
  have last := Instant.year_lt_iff.mp (Int.lt_add_one_of_le years.2)
  unfold Instant.firstDayOf Instant.nanosPerSecond at first last
  omega

/-- An instant the writer takes is still representable as it is stored. -/
theorem fromUnixTimestampNanos_stored {instant : OffsetDateTime}
    (inRange : isEffectiveInstant instant = true) :
    fromUnixTimestampNanos (ofStored instant.stored).nanos = some (ofStored instant.stored) := by
  have years : -9999 ≤ Instant.yearAt (ofStored instant.stored).nanos 0 ∧
      Instant.yearAt (ofStored instant.stored).nanos 0 ≤ 9999 := by
    have inYears := yearAt_of_isEffectiveInstant inRange
    have first := Instant.le_year_iff.mp inYears.1
    obtain ⟨micros, isStored, either⟩ := instant.stored_cases
    have isNanos : (ofStored instant.stored).nanos = micros * 1000 := by
      rw [isStored]
      rfl
    rw [isNanos]
    unfold encodingEpoch at either
    rcases either with since | before
    · -- From 2000 on the second is the same, and so the year.
      have seconds : micros * 1000 / Instant.nanosPerSecond =
          instant.nanos / Instant.nanosPerSecond := by
        unfold Instant.nanosPerSecond
        omega
      have sameYear : Instant.yearAt (micros * 1000) 0 = Instant.yearAt instant.nanos 0 := by
        rw [Instant.yearAt, Instant.yearAt, seconds]
      rw [sameYear]
      exact ⟨(by decide : (-9999 : Int) ≤ 1).trans inYears.1, inYears.2⟩
    · -- Before 2000 it may be the next second, no later than the first of 2000.
      have early : -9999 ≤ Instant.yearAt (micros * 1000) 0 := by
        rw [Instant.yearAt, Instant.le_year_iff]
        unfold Instant.firstDayOf Instant.nanosPerSecond at first ⊢
        omega
      have late : Instant.yearAt (micros * 1000) 0 < 10000 := by
        rw [Instant.yearAt, Instant.year_lt_iff]
        unfold Instant.firstDayOf Instant.nanosPerSecond
        omega
      exact ⟨early, Int.le_of_lt_add_one late⟩
  unfold fromUnixTimestampNanos checkedToUtc
  dsimp only
  exact if_pos years

end OffsetDateTime

namespace StatementKey

/-- The order a key belongs to. -/
def axis : StatementKey → StatementAxis
  | recorded _ _ => .recorded
  | effective _ _ _ => .effective

/-- A key of an entry as it is stored: its instant, where the axis has one, is a
representable count of microseconds, in UTC. -/
def NamesEntry : StatementKey → Prop
  | recorded _ _ => True
  | effective effectiveAt _ _ => ∃ stored, effectiveAt = OffsetDateTime.ofStored stored ∧
      OffsetDateTime.fromUnixTimestampNanos effectiveAt.nanos = some effectiveAt

/-- A key whose instant reads back from its nanoseconds. -/
def Representable : StatementKey → Prop
  | recorded _ _ => True
  | effective effectiveAt _ _ =>
      OffsetDateTime.fromUnixTimestampNanos effectiveAt.nanos = some effectiveAt

theorem NamesEntry.representable {key : StatementKey} (names : key.NamesEntry) :
    key.Representable := by
  cases key with
  | recorded xactId entryId =>
      exact trivial
  | effective effectiveAt xactId entryId =>
      obtain ⟨stored, _, reads⟩ := names
      exact reads

section Texts

variable {parseUuid : String → Option Uuid} {key : StatementKey} {text : String}

/-- The fields a key's text has between its commas. -/
def fields : StatementKey → List (List Char)
  | recorded xactId entryId => [xactId.text.toList, entryId.hyphenated.toList]
  | effective effectiveAt xactId entryId =>
      [Decimal.render effectiveAt.nanos, xactId.text.toList, entryId.hyphenated.toList]

theorem splitOn_rendered (key : StatementKey) : key.rendered.toList.splitOn ',' = key.fields := by
  have isText : key.rendered = commaSeparated key.fields := by
    cases key with
    | recorded xactId entryId => rfl
    | effective effectiveAt xactId entryId => rfl
  rw [isText]
  cases key with
  | recorded xactId entryId =>
      apply splitOn_commaSeparated (List.cons_ne_nil _ _)
      simp only [List.forall_mem_cons, List.not_mem_nil, false_implies, implies_true,
        and_true]
      exact ⟨comma_not_mem_text xactId, comma_not_mem_hyphenated entryId⟩
  | effective effectiveAt xactId entryId =>
      apply splitOn_commaSeparated (List.cons_ne_nil _ _)
      simp only [List.forall_mem_cons, List.not_mem_nil, false_implies, implies_true,
        and_true]
      exact ⟨comma_not_mem_render effectiveAt.nanos, comma_not_mem_text xactId,
        comma_not_mem_hyphenated entryId⟩

/-- A key reads back from its own text on its own axis. -/
theorem parse_rendered (readsUuid : ∀ id : Uuid, parseUuid id.hyphenated = some id)
    (representable : key.Representable) : parse parseUuid key.rendered key.axis = some key := by
  cases key with
  | recorded xactId entryId =>
      exact parse_rendered_recorded readsUuid xactId entryId
  | effective effectiveAt xactId entryId =>
      have reads : OffsetDateTime.fromUnixTimestampNanos effectiveAt.nanos = some effectiveAt :=
        representable
      have bounds := OffsetDateTime.nanos_of_fromUnixTimestampNanos reads
      have readsNanos : parseNanos (Decimal.render effectiveAt.nanos) = some effectiveAt.nanos :=
        Decimal.readSigned_render (by omega) (by omega)
      unfold parse
      rw [splitOn_rendered]
      simp [axis, fields, readsUuid, readsNanos, reads]

/-- The number of fields tells the axes apart. -/
theorem parse_rendered_foreign (parseUuid : String → Option Uuid) {axis : StatementAxis}
    (foreign : axis ≠ key.axis) : parse parseUuid key.rendered axis = none := by
  unfold parse
  rw [splitOn_rendered]
  cases key with
  | recorded xactId entryId =>
      cases axis with
      | recorded => exact absurd rfl foreign
      | effective => rfl
  | effective effectiveAt xactId entryId =>
      cases axis with
      | recorded => rfl
      | effective => exact absurd rfl foreign

/-- What is read on an axis is a key of it, in whatever spelling it came. -/
theorem representable_of_parse {axis : StatementAxis}
    (reads : parse parseUuid text axis = some key) : key.axis = axis ∧ key.Representable := by
  unfold parse at reads
  split at reads
  · simp only [Option.bind_eq_bind, Option.pure_def, Option.bind_eq_some_iff] at reads
    obtain ⟨xactId, _, entryId, _, isKey⟩ := reads
    rw [← Option.some.inj isKey]
    exact ⟨rfl, trivial⟩
  · simp only [Option.bind_eq_bind, Option.pure_def, Option.bind_eq_some_iff] at reads
    obtain ⟨nanos, _, effectiveAt, readsInstant, xactId, _, entryId, _, isKey⟩ := reads
    have isInstant := (OffsetDateTime.fromUnixTimestampNanos_eq_some readsInstant).1
    rw [← Option.some.inj isKey]
    refine ⟨rfl, ?_⟩
    change OffsetDateTime.fromUnixTimestampNanos effectiveAt.nanos = some effectiveAt
    rw [isInstant] at readsInstant ⊢
    exact readsInstant
  · cases reads

end Texts

end StatementKey

/-- A page key survives its text on its own axis and is refused on the other, an
instant the writer takes giving one; and a text read in any spelling is of a key that
survives its own. -/
theorem page_keys_survive_their_text {parseUuid : String → Option Uuid}
    (readsUuid : ∀ id : Uuid, parseUuid id.hyphenated = some id) :
    (∀ key : StatementKey, key.NamesEntry →
      StatementKey.parse parseUuid key.rendered key.axis = some key ∧
        ∀ axis, axis ≠ key.axis → StatementKey.parse parseUuid key.rendered axis = none) ∧
    (∀ instant, isEffectiveInstant instant = true → ∀ (xactId : Cursor) (entryId : Uuid),
      (StatementKey.effective (.ofStored instant.stored) xactId entryId).NamesEntry) ∧
    ∀ text axis key, StatementKey.parse parseUuid text axis = some key →
      key.axis = axis ∧ StatementKey.parse parseUuid key.rendered axis = some key := by
  refine ⟨?_, ?_, ?_⟩
  · intro key names
    refine ⟨StatementKey.parse_rendered readsUuid names.representable, ?_⟩
    intro axis foreign
    exact StatementKey.parse_rendered_foreign parseUuid foreign
  · intro instant inRange xactId entryId
    exact ⟨instant.stored, rfl, OffsetDateTime.fromUnixTimestampNanos_stored inRange⟩
  · intro text axis key reads
    obtain ⟨isAxis, representable⟩ := StatementKey.representable_of_parse reads
    refine ⟨isAxis, ?_⟩
    rw [← isAxis]
    exact StatementKey.parse_rendered readsUuid representable

/-! ## Bounds as text -/

/-- The instant of a page key, where its axis has one. -/
def StatementKey.instant : StatementKey → Option OffsetDateTime
  | .recorded _ _ => none
  | .effective effectiveAt _ _ => some effectiveAt

/-- Every instant a statement's read binds. -/
def StatementFace.instants (face : StatementFace) : List OffsetDateTime :=
  face.effectiveFrom.toList ++ face.effectiveTo.toList ++
    (face.after.bind StatementKey.instant).toList

/-- An instant with a text the cast takes. -/
def BindsAsText (accepts : String → Prop) (instant : OffsetDateTime) : Prop :=
  ∃ text, (∀ whenUnbounded, asBoundInstant (some instant) whenUnbounded = .ok text) ∧
    accepts text

section Binding

variable {accepts : String → Prop} {parseUuid : String → Option Uuid}
  {query : AccountStatementQuery} {face : StatementFace}

/-- An instant that renders is bound exactly when the cast takes its year and its
offset. -/
theorem bindsAsText_iff (cast : TimestamptzCast accepts) {instant : OffsetDateTime}
    (renders : instant.rfc3339.isSome = true) :
    BindsAsText accepts instant ↔ instant.Castable := by
  obtain ⟨text, rendered⟩ := Option.isSome_iff_exists.mp renders
  rw [← cast.accepts_iff rendered]
  constructor
  · intro binds
    obtain ⟨other, isOther, accepted⟩ := binds
    rw [← Except.ok.inj ((isOther "").symm.trans (asBoundInstant_some rendered ""))]
    exact accepted
  · intro accepted
    exact ⟨text, asBoundInstant_some rendered, accepted⟩

/-- An instant without a text is bound by none. -/
theorem not_bindsAsText {instant : OffsetDateTime} (unrendered : instant.rfc3339 = none) :
    ¬ BindsAsText accepts instant := by
  intro binds
  obtain ⟨text, isText, _⟩ := binds
  have contradiction := (asBoundInstant_none unrendered "").symm.trans (isText "")
  cases contradiction

/-- An instant read from nanoseconds is in UTC, so the year alone decides. -/
theorem bindsAsText_iff_of_nanos (cast : TimestamptzCast accepts) {nanos : Int}
    {instant : OffsetDateTime}
    (reads : OffsetDateTime.fromUnixTimestampNanos nanos = some instant) :
    BindsAsText accepts instant ↔ instant.Castable := by
  obtain ⟨isInstant, years⟩ := OffsetDateTime.fromUnixTimestampNanos_eq_some reads
  by_cases renders : instant.rfc3339.isSome = true
  · exact bindsAsText_iff cast renders
  · have unrendered : instant.rfc3339 = none := by
      rw [← Option.not_isSome_iff_eq_none]
      exact renders
    constructor
    · intro binds
      exact absurd binds (not_bindsAsText unrendered)
    · intro castable
      have year := castable.1
      refine absurd (OffsetDateTime.rfc3339_isSome_iff.mpr ⟨by omega, ?_, ?_⟩) renders
      · rw [isInstant]
        exact years.2
      · rw [isInstant]
        have inUtc : (0 : Int).natAbs / 3600 ≤ 23 ∧ (0 : Int).natAbs % 60 = 0 := by decide
        exact inUtc

/-- A key's instant came from nanoseconds. -/
theorem instant_of_face (judged : faceOfTheRequest parseUuid query = .ok face)
    {instant : OffsetDateTime} (ofKey : face.after.bind StatementKey.instant = some instant) :
    OffsetDateTime.fromUnixTimestampNanos instant.nanos = some instant := by
  obtain ⟨key, isAfter, ofKey⟩ := Option.bind_eq_some_iff.mp ofKey
  have isKey := (face_iff.mp judged).2.2.1
  rw [isAfter] at isKey
  unfold thePageKeyOfThisAxisOrRefuseAForeignOne at isKey
  cases supplied : query.after with
  | none =>
      rw [supplied] at isKey
      cases isKey
  | some text =>
      rw [supplied] at isKey
      dsimp only at isKey
      cases reads : StatementKey.parse parseUuid text face.axis with
      | none =>
          rw [reads] at isKey
          cases isKey
      | some read =>
          rw [reads] at isKey
          cases isKey
          have representable := (StatementKey.representable_of_parse reads).2
          cases key with
          | recorded xactId entryId =>
              cases ofKey
          | effective effectiveAt xactId entryId =>
              cases ofKey
              exact representable

/-- A range that is judged is the request's own. -/
theorem range_of_face (judged : faceOfTheRequest parseUuid query = .ok face) :
    face.effectiveFrom = query.effectiveFrom ∧ face.effectiveTo = query.effectiveTo := by
  have range := (face_iff.mp judged).2.2.2
  unfold theRangeOnlyTheEffectiveAxisTakes at range
  split at range
  · cases range
  · have pair := Prod.mk.inj (Except.ok.inj range)
    exact ⟨pair.1.symm, pair.2.symm⟩

/-- One unrendered bound fails the statement. -/
theorem accountStatementAt_unrendered (timestamptz : String → Except NotATimestamp Timestamp) (book : Book)
    {read : AccountStatementRead} (byEffective : read.axis = .effective)
    {instant : OffsetDateTime} (unrendered : instant.rfc3339 = none)
    (isBound : instant ∈ read.effectiveFrom ∨ instant ∈ read.effectiveTo ∨
      read.after.bind StatementKey.instant = some instant) :
    ∃ failed, accountStatementAt timestamptz book read = .error (.storage (.notRendered failed)) := by
  have bound : ∀ (given : Option OffsetDateTime) (unbounded : String),
      (∃ failed, asBoundInstant given unbounded = .error (.storage (.notRendered failed))) ∨
      ((∃ text, asBoundInstant given unbounded = .ok text) ∧ given ≠ some instant) := by
    intro given unbounded
    cases given with
    | none =>
        exact Or.inr ⟨⟨_, rfl⟩, by nofun⟩
    | some given =>
        cases rendered : given.rfc3339 with
        | none =>
            exact Or.inl ⟨given, asBoundInstant_none rendered unbounded⟩
        | some text =>
            refine Or.inr ⟨⟨text, asBoundInstant_some rendered unbounded⟩, ?_⟩
            intro same
            rw [Option.some.inj same, unrendered] at rendered
            cases rendered
  unfold accountStatementAt
  rw [byEffective]
  dsimp only
  cases bound read.effectiveFrom theBeginningOfTime with
  | inl fails =>
      obtain ⟨failed, isError⟩ := fails
      rw [isError]
      exact ⟨failed, rfl⟩
  | inr passes =>
      obtain ⟨⟨first, isFirst⟩, notFirst⟩ := passes
      rw [isFirst]
      cases bound read.effectiveTo theEndOfTime with
      | inl fails =>
          obtain ⟨failed, isError⟩ := fails
          rw [isError]
          exact ⟨failed, rfl⟩
      | inr passes =>
          obtain ⟨⟨second, isSecond⟩, notSecond⟩ := passes
          rw [isSecond]
          have ofKey : read.after.bind StatementKey.instant = some instant := by
            cases isBound with
            | inl isFrom =>
                exact absurd isFrom notFirst
            | inr later =>
                cases later with
                | inl isTo =>
                    exact absurd isTo notSecond
                | inr isKey =>
                    exact isKey
          obtain ⟨key, isAfter, isInstant⟩ := Option.bind_eq_some_iff.mp ofKey
          cases key with
          | recorded xactId entryId =>
              cases isInstant
          | effective effectiveAt xactId entryId =>
              rw [isAfter]
              cases isInstant
              refine ⟨instant, ?_⟩
              dsimp only
              rw [asBoundInstant_none unrendered]
              rfl

end Binding

/-- A judged read's bounds all become texts the cast takes exactly when every instant
it carries is of a year the cast knows, in an offset it knows; and on the effective
axis a page key before the year 0 is answered as a failure of the storage. -/
theorem bounds_bind_exactly_when_castable {accepts : String → Prop}
    (cast : TimestamptzCast accepts) {parseUuid : String → Option Uuid}
    {query : AccountStatementQuery} {face : StatementFace}
    (fromTheEdge : ∀ instant, instant ∈ query.effectiveFrom ∨ instant ∈ query.effectiveTo →
      instant.rfc3339.isSome = true)
    (judged : faceOfTheRequest parseUuid query = .ok face) :
    ((∀ instant ∈ face.instants, BindsAsText accepts instant) ↔
      ∀ instant ∈ face.instants, instant.Castable) ∧
    (face.axis = .effective → ∀ instant ∈ face.instants, instant.rfc3339 = none →
      ∀ (timestamptz : String → Except NotATimestamp Timestamp) (book : Book) (cursor : Cursor),
        ∃ failed, accountStatementAt timestamptz book (face.read query cursor) =
          .error (.storage (.notRendered failed))) := by
  have range := range_of_face judged
  have each : ∀ instant ∈ face.instants, BindsAsText accepts instant ↔ instant.Castable := by
    intro instant member
    rw [StatementFace.instants, List.mem_append, List.mem_append, Option.mem_toList,
      Option.mem_toList, Option.mem_toList, range.1, range.2] at member
    cases member with
    | inl ofRange =>
        exact bindsAsText_iff cast (fromTheEdge instant ofRange)
    | inr ofKey =>
        exact bindsAsText_iff_of_nanos cast (instant_of_face judged ofKey)
  constructor
  · constructor
    · intro binds instant member
      exact (each instant member).mp (binds instant member)
    · intro castable instant member
      exact (each instant member).mpr (castable instant member)
  · intro byEffective instant member unrendered timestamptz book cursor
    rw [StatementFace.instants, List.mem_append, List.mem_append, Option.mem_toList,
      Option.mem_toList, Option.mem_toList, or_assoc] at member
    have isEffective : (face.read query cursor).axis = .effective := byEffective
    exact accountStatementAt_unrendered timestamptz book isEffective unrendered member

namespace Shop

/-! ## Keys at the ends of the calendar -/

/-- An instant before the epoch, as it is stored. -/
def earlyKey : StatementKey := .effective (.ofStored (-1)) 7 till

/-- It survives its text, and the other axis refuses it. -/
theorem earlyKey_survives :
    StatementKey.parse parseStr earlyKey.rendered .effective = some earlyKey ∧
      StatementKey.parse parseStr earlyKey.rendered .recorded = none := by
  have keys := page_keys_survive_their_text parseStr_hyphenated
  have names : earlyKey.NamesEntry := ⟨-1, rfl, by decide⟩
  exact ⟨(keys.1 earlyKey names).1, (keys.1 earlyKey names).2 .recorded (by decide)⟩

/-- A request for the entries after a key. -/
def entriesAfter (after : StatementKey) : AccountStatementQuery :=
  ⟨"shop", till, some "effective", none, none, none, none, some after.rendered⟩

def faceAfter (after : StatementKey) : StatementFace := ⟨.effective, 100, some after, none, none⟩

theorem faceAfter_judged {after : StatementKey} (isEffective : after.axis = .effective)
    (representable : after.Representable) :
    faceOfTheRequest parseStr (entriesAfter after) = .ok (faceAfter after) := by
  have reads := StatementKey.parse_rendered parseStr_hyphenated representable
  rw [isEffective] at reads
  have isKey : thePageKeyOfThisAxisOrRefuseAForeignOne parseStr (some after.rendered)
      .effective = .ok (some after) := by
    unfold thePageKeyOfThisAxisOrRefuseAForeignOne
    dsimp only
    rw [reads]
  exact face_iff.mpr ⟨rfl, rfl, isKey, rfl⟩

/-- The texts that are read. -/
def IsTimestamp (text : String) : Prop := ∃ micros, timestamptzIn text = .ok micros

/-- The page after the key of 1969 binds. -/
theorem earlyKey_binds : BindsAsText IsTimestamp (OffsetDateTime.ofStored (-1)) := by
  have judged := @faceAfter_judged earlyKey rfl rfl
  have binds := (bounds_bind_exactly_when_castable timestamptzIn_reads.cast (by nofun) judged).1
  refine binds.mpr ?_ _ (List.mem_singleton_self _)
  intro instant member
  rw [List.mem_singleton.mp member]
  exact ⟨by decide, by decide⟩

/-- The last nanosecond before the year 0. -/
def ancientKey : StatementKey := .effective ⟨-62167219200000000001, 0⟩ 7 till

/-- Its text is taken for a key and no text binds it: the read is answered as a failure
of the storage. -/
theorem ancientKey_fails :
    faceOfTheRequest parseStr (entriesAfter ancientKey) = .ok (faceAfter ancientKey) ∧
      (¬ ∀ instant ∈ (faceAfter ancientKey).instants, BindsAsText IsTimestamp instant) ∧
      accountStatementAt timestamptzIn (Book.empty chart)
          ((faceAfter ancientKey).read (entriesAfter ancientKey) 7) =
        .error (.storage (.notRendered ⟨-62167219200000000001, 0⟩)) := by
  have unrendered : (⟨-62167219200000000001, 0⟩ : OffsetDateTime).rfc3339 = none := by decide
  refine ⟨faceAfter_judged rfl rfl, ?_, ?_⟩
  · intro binds
    exact not_bindsAsText unrendered (binds _ (List.mem_singleton_self _))
  · rfl

end Shop

end OpenLedger
