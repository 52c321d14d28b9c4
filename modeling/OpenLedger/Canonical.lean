import OpenLedger.Accounts
import OpenLedger.Calendar
import OpenLedger.JsonText
import OpenLedger.Periods

/-!
# The canonical byte forms determine the request

Each operation's bytes begin with its own tag, and each field says where it ends.
Two commands share their bytes exactly when they are one operation and agree on
every field it is about.
-/

namespace OpenLedger

theorem utf8EncodeChar_separates : PrefixCode.Separates String.utf8EncodeChar := by
  intro left right leftRest rightRest equal
  have bytes := congrArg (fun bytes : List UInt8 => bytes.toByteArray.utf8DecodeChar? 0) equal
  simp only [List.toByteArray_append, ByteArray.utf8DecodeChar?_utf8EncodeChar_append,
    Option.some.injEq] at bytes
  subst bytes
  exact ⟨rfl, List.append_cancel_left equal⟩

theorem utf8Bytes_injective : Function.Injective utf8Bytes := by
  intro left right equal
  exact String.toList_injective
    (utf8EncodeChar_separates.flatMap_injective (fun _ => String.utf8EncodeChar_ne_nil) equal)

/-- A character is at most four bytes. -/
theorem length_utf8Bytes_le (text : String) :
    (utf8Bytes text).length ≤ 4 * text.toList.length := by
  rw [utf8Bytes]
  induction text.toList with
  | nil =>
      exact Nat.le_refl 0
  | cons character rest inductionHypothesis =>
      have four := Char.utf8Size_le_four character
      rw [List.flatMap_cons, List.length_append, String.length_utf8EncodeChar, List.length_cons]
      omega

/-- What a length prefix has room for. -/
def Fits (bytes : List UInt8) : Prop := bytes.length < 256 ^ 8

theorem fits_of_le {bytes : List UInt8} {most : Nat} (short : bytes.length ≤ most)
    (most_lt : most < 256 ^ 8) : Fits bytes :=
  Nat.lt_of_le_of_lt short most_lt

theorem fits_of_identity {text : String} (identity : isIdentity text = true) :
    Fits (utf8Bytes text) := by
  rw [isIdentity, Bool.and_eq_true, decide_eq_true_eq] at identity
  exact fits_of_le identity.2 (by decide)

theorem length_of_currency {currency : String} (iso : isCurrency currency = true) :
    (utf8Bytes currency).length = 3 := by
  rw [isCurrency, Bool.and_eq_true, decide_eq_true_eq] at iso
  exact iso.1

theorem fits_of_currency {currency : String} (iso : isCurrency currency = true) :
    Fits (utf8Bytes currency) :=
  fits_of_le (length_of_currency iso).le (by decide)

/-- A text that is not blank has a byte. -/
theorem utf8Bytes_ne_nil {text : String} (notBlank : isBlank text = false) :
    utf8Bytes text ≠ [] := by
  intro empty
  cases isText : text.toList with
  | nil =>
      rw [isBlank, isText] at notBlank
      cases notBlank
  | cons character rest =>
      rw [utf8Bytes, isText, List.flatMap_cons] at empty
      exact String.utf8EncodeChar_ne_nil (List.append_eq_nil_iff.mp empty).1

theorem length_rfc3339_le {nanos : Int} {text : String}
    (renders : (⟨nanos, 0⟩ : OffsetDateTime).rfc3339 = some text) :
    text.toList.length ≤ 40 := by
  have fractions : ∀ sub, (Instant.fraction sub).length ≤ 10 := by
    intro sub
    rw [Instant.fraction]
    split
    · exact Nat.zero_le 10
    · have shorter := (List.dropWhile_sublist (fun c => decide (c = '0'))
        (l := (Instant.digits 9 sub).reverse)).length_le
      simp only [List.length_cons, List.length_reverse, Instant.length_digits] at shorter ⊢
      omega
  have short := fractions (nanos % Instant.nanosPerSecond).toNat
  rw [(OffsetDateTime.rfc3339_utc renders).2]
  simp only [List.length_append, List.length_cons, Instant.length_digits, List.length_nil]
  omega

/-- An instant's text in UTC, as bytes. -/
def utcBytes (instant : OffsetDateTime) : Option (List UInt8) :=
  (instant.checkedToUtc.bind OffsetDateTime.rfc3339).map utf8Bytes

theorem utcBytes_eq_some {instant : OffsetDateTime} {bytes : List UInt8}
    (rendered : utcBytes instant = some bytes) :
    ∃ text, (⟨instant.nanos, 0⟩ : OffsetDateTime).rfc3339 = some text ∧
      bytes = utf8Bytes text := by
  obtain ⟨text, isText, isBytes⟩ := Option.map_eq_some_iff.mp rendered
  obtain ⟨utc, isUtc, renders⟩ := Option.bind_eq_some_iff.mp isText
  rw [OffsetDateTime.checkedToUtc] at isUtc
  split at isUtc
  · rw [← Option.some.inj isUtc] at renders
    exact ⟨text, renders, isBytes.symm⟩
  · cases isUtc

theorem fits_of_utcBytes {instant : OffsetDateTime} {bytes : List UInt8}
    (rendered : utcBytes instant = some bytes) : Fits bytes := by
  obtain ⟨text, renders, rfl⟩ := utcBytes_eq_some rendered
  have short := length_rfc3339_le renders
  have bytes := length_utf8Bytes_le text
  exact fits_of_le (show (utf8Bytes text).length ≤ 160 by omega) (by decide)

/-- Two instants with one text are one instant, whatever their offsets. -/
theorem utcBytes_inj {left right : OffsetDateTime} {bytes : List UInt8}
    (leftRendered : utcBytes left = some bytes) (rightRendered : utcBytes right = some bytes) :
    left.nanos = right.nanos := by
  obtain ⟨leftText, leftRenders, rfl⟩ := utcBytes_eq_some leftRendered
  obtain ⟨rightText, rightRenders, same⟩ := utcBytes_eq_some rightRendered
  rw [utf8Bytes_injective same] at leftRenders
  exact OffsetDateTime.rfc3339_utc_inj leftRenders rightRenders

/-- What an instant renders as depends on the instant alone. -/
theorem utcBytes_of_nanos {left right : OffsetDateTime} (same : left.nanos = right.nanos) :
    utcBytes left = utcBytes right := by
  rw [utcBytes, utcBytes, OffsetDateTime.checkedToUtc, OffsetDateTime.checkedToUtc, same]

/-- A rendered instant has bytes, so an absent one differs from it. -/
theorem utcBytes_ne_nil {instant : OffsetDateTime} {bytes : List UInt8}
    (rendered : utcBytes instant = some bytes) : bytes ≠ [] := by
  obtain ⟨text, renders, rfl⟩ := utcBytes_eq_some rendered
  intro empty
  have noText : text = "" := utf8Bytes_injective (empty.trans rfl)
  have isText := (OffsetDateTime.rfc3339_utc renders).2
  rw [noText] at isText
  have sizes := congrArg List.length isText
  simp at sizes

/-! ## The fields of each operation -/

theorem status_canonical_injective : Function.Injective TransactionStatus.canonical := by
  intro left right
  cases left <;> cases right <;> decide

theorem ownerType_canonical_injective : Function.Injective AccountOwnerType.canonical := by
  intro left right
  cases left <;> cases right <;> decide

theorem fits_of_status (status : TransactionStatus) : Fits (utf8Bytes status.canonical) := by
  cases status <;> exact fits_of_le (length_utf8Bytes_le _) (by decide)

theorem fits_of_ownerType (kind : AccountOwnerType) : Fits (utf8Bytes kind.canonical) := by
  cases kind <;> exact fits_of_le (length_utf8Bytes_le _) (by decide)

theorem asBytes_injective : Function.Injective Uuid.asBytes := by
  intro left right equal
  exact Fin.ext (Bytes.beBytes_inj (lt_of_lt_of_eq left.isLt (by norm_num))
    (lt_of_lt_of_eq right.isLt (by norm_num)) equal)

namespace PostTransaction

theorem pointerBytes_injective : Function.Injective pointerBytes := by
  intro left right equal
  cases left with
  | none =>
      cases right with
      | none => rfl
      | some id =>
          have sizes := congrArg List.length equal
          simp [pointerBytes, Uuid.asBytes] at sizes
  | some id =>
      cases right with
      | none =>
          have sizes := congrArg List.length equal
          simp [pointerBytes, Uuid.asBytes] at sizes
      | some other => exact congrArg some (asBytes_injective equal)

theorem fits_pointerBytes (id : Option Uuid) : Fits (pointerBytes id) := by
  cases id with
  | none => exact fits_of_le (Nat.zero_le 16) (by decide)
  | some id => exact fits_of_le (show (pointerBytes (some id)).length ≤ 16 by
      simp [pointerBytes, Uuid.asBytes]) (by decide)

theorem effectiveBytes_some (instant : OffsetDateTime) {bytes : List UInt8} :
    effectiveBytes (some instant) = .ok bytes ↔ utcBytes instant = some bytes := by
  unfold effectiveBytes utcBytes
  dsimp only
  cases instant.checkedToUtc with
  | none => simp
  | some utc =>
      simp only [Option.bind_some]
      cases utc.rfc3339 with
      | none => simp
      | some rendered => simp

/-- An absent date differs from every date, and two dates that render alike are
one instant. -/
theorem effectiveBytes_inj {left right : Option OffsetDateTime} {bytes : List UInt8}
    (leftBytes : effectiveBytes left = .ok bytes) (rightBytes : effectiveBytes right = .ok bytes) :
    left.map OffsetDateTime.nanos = right.map OffsetDateTime.nanos := by
  cases left with
  | none =>
      cases right with
      | none => rfl
      | some instant =>
          cases leftBytes
          exact absurd rfl (utcBytes_ne_nil ((effectiveBytes_some instant).mp rightBytes))
  | some instant =>
      rw [effectiveBytes_some] at leftBytes
      cases right with
      | none =>
          cases rightBytes
          exact absurd rfl (utcBytes_ne_nil leftBytes)
      | some other =>
          rw [effectiveBytes_some] at rightBytes
          exact congrArg some (utcBytes_inj leftBytes rightBytes)

theorem effectiveBytes_of_nanos {left right : Option OffsetDateTime} {bytes : List UInt8}
    (same : left.map OffsetDateTime.nanos = right.map OffsetDateTime.nanos)
    (leftBytes : effectiveBytes left = .ok bytes) : effectiveBytes right = .ok bytes := by
  cases left with
  | none =>
      cases right with
      | none => exact leftBytes
      | some other => cases same
  | some instant =>
      cases right with
      | none => cases same
      | some other =>
          rw [effectiveBytes_some] at leftBytes ⊢
          rw [← utcBytes_of_nanos (Option.some.inj same)]
          exact leftBytes

theorem fits_effectiveBytes {instant : Option OffsetDateTime} {bytes : List UInt8}
    (rendered : effectiveBytes instant = .ok bytes) : Fits bytes := by
  cases instant with
  | none =>
      cases rendered
      exact fits_of_le (Nat.zero_le 0) (by decide)
  | some instant => exact fits_of_utcBytes ((effectiveBytes_some instant).mp rendered)

theorem length_postingBytes (posting : Posting) : (postingBytes posting).length = 51 := by
  simp [postingBytes, Uuid.asBytes, length_of_currency posting.currencyIso]

/-- A posting is read back from its fifty-one bytes. -/
theorem postingBytes_separates : PrefixCode.Separates postingBytes := by
  refine PrefixCode.separates_of_width length_postingBytes fun left right equal => ?_
  simp only [postingBytes, List.append_assoc] at equal
  obtain ⟨sources, equal⟩ := List.append_inj equal (by simp [Uuid.asBytes])
  obtain ⟨destinations, equal⟩ := List.append_inj equal (by simp [Uuid.asBytes])
  obtain ⟨amounts, equal⟩ := List.append_inj equal (by simp)
  have currencies := (@Bytes.put_append_inj _ _ [] [] (fits_of_currency left.currencyIso)
    (fits_of_currency right.currencyIso) (by simpa using equal)).1
  have sameSource := asBytes_injective sources
  have sameDestination := asBytes_injective destinations
  have sameCurrency := utf8Bytes_injective currencies
  have leftFits := left.amountFits
  have rightFits := right.amountFits
  unfold i64Max at leftFits rightFits
  have sameAmount := Bytes.leBytes_inj (by norm_num; omega) (by norm_num; omega) amounts
  have leftPositive := left.amountPositive
  have rightPositive := right.amountPositive
  cases left
  cases right
  simp only at sameSource sameDestination sameCurrency sameAmount leftPositive rightPositive
  rw [Posting.mk.injEq]
  exact ⟨sameSource, sameDestination, by omega, sameCurrency⟩

theorem postings_injective :
    Function.Injective fun postings : List Posting => postings.flatMap postingBytes :=
  postingBytes_separates.flatMap_injective fun posting empty => by
    have sizes := length_postingBytes posting
    rw [empty] at sizes
    cases sizes

end PostTransaction

/-- An absent text differs from every owner that is not blank. -/
theorem textBytes_inj {left right : Option String}
    (leftNotBlank : ∀ text ∈ left, isBlank text = false)
    (rightNotBlank : ∀ text ∈ right, isBlank text = false)
    (equal : OpenAccount.textBytes left = OpenAccount.textBytes right) : left = right := by
  cases left with
  | none =>
      cases right with
      | none => rfl
      | some text => exact absurd equal.symm (utf8Bytes_ne_nil (rightNotBlank text rfl))
  | some text =>
      cases right with
      | none => exact absurd equal (utf8Bytes_ne_nil (leftNotBlank text rfl))
      | some other => exact congrArg some (utf8Bytes_injective equal)

theorem fits_textBytes {text : Option String}
    (identity : ∀ given ∈ text, isIdentity given = true) : Fits (OpenAccount.textBytes text) := by
  cases text with
  | none => exact fits_of_le (Nat.zero_le 0) (by decide)
  | some given => exact fits_of_identity (identity given rfl)

theorem stripeBytes_inj {left right : Option Nat}
    (leftWindow : ∀ stripes : Nat, stripes ∈ left → isStripeCount stripes = true)
    (rightWindow : ∀ stripes : Nat, stripes ∈ right → isStripeCount stripes = true)
    (equal : OpenAccount.stripeBytes left = OpenAccount.stripeBytes right) : left = right := by
  have narrow : ∀ stripes : Nat, isStripeCount stripes = true → stripes < 256 ^ 2 := by
    intro stripes window
    simp only [isStripeCount, Bool.and_eq_true, decide_eq_true_eq] at window
    norm_num
    omega
  cases left with
  | none =>
      cases right with
      | none => rfl
      | some stripes =>
          have sizes := congrArg List.length equal
          simp [OpenAccount.stripeBytes] at sizes
  | some stripes =>
      cases right with
      | none =>
          have sizes := congrArg List.length equal
          simp [OpenAccount.stripeBytes] at sizes
      | some other =>
          exact congrArg some (Bytes.leBytes_inj (narrow _ (leftWindow stripes rfl))
            (narrow _ (rightWindow other rfl)) equal)

theorem fits_stripeBytes (stripes : Option Nat) : Fits (OpenAccount.stripeBytes stripes) := by
  cases stripes with
  | none => exact fits_of_le (Nat.zero_le 2) (by decide)
  | some stripes =>
      exact fits_of_le (show (OpenAccount.stripeBytes (some stripes)).length ≤ 2 by
        simp [OpenAccount.stripeBytes]) (by decide)

/-- Metadata texts agree exactly where the parsed values do; none differs from
every value. -/
theorem metadataBytes_eq_iff {left right : Option Json}
    (leftParsed : ∀ value ∈ left, value.Parsed) (rightParsed : ∀ value ∈ right, value.Parsed) :
    OpenAccount.metadataBytes left = OpenAccount.metadataBytes right ↔
      left.map Json.printed = right.map Json.printed := by
  have some_ne : ∀ value : Json, value.Parsed → OpenAccount.metadataBytes (some value) ≠ [] := by
    intro value parsed empty
    have noText : String.ofList value.render = "" := utf8Bytes_injective empty
    obtain ⟨character, rest, isText, _⟩ := Json.render_opening parsed
    have sizes := congrArg (fun text : String => text.toList.length) noText
    simp [isText] at sizes
  cases left with
  | none =>
      cases right with
      | none => exact ⟨fun _ => rfl, fun _ => rfl⟩
      | some value =>
          exact ⟨fun equal => absurd equal.symm (some_ne value (rightParsed value rfl)),
            fun equal => by cases equal⟩
  | some value =>
      cases right with
      | none =>
          exact ⟨fun equal => absurd equal (some_ne value (leftParsed value rfl)),
            fun equal => by cases equal⟩
      | some other =>
          have texts := Json.render_eq_iff (leftParsed value rfl) (rightParsed other rfl)
          simp only [OpenAccount.metadataBytes, Option.map_some, Option.some.injEq, ← texts]
          constructor
          · intro equal
            have same := congrArg String.toList (utf8Bytes_injective equal)
            simpa using same
          · intro equal
            rw [equal]

/-! ## The operations -/

/-- The four operations. -/
inductive CommandKind where
  | post
  | openAccount
  | definePeriod
  | closePeriod
deriving DecidableEq, Repr

/-- What each operation's bytes begin with. -/
def CommandKind.tag : CommandKind → String
  | post => "openledger.post.v1"
  | openAccount => "openledger.account.v1"
  | definePeriod => "openledger.period.v1"
  | closePeriod => "openledger.close.v1"

/-- No tag is the beginning of another operation's bytes: they part within
thirteen bytes. -/
theorem CommandKind.eq_of_tag_append {left right : CommandKind} {leftRest rightRest : List UInt8}
    (equal : utf8Bytes left.tag ++ leftRest = utf8Bytes right.tag ++ rightRest) :
    left = right := by
  have long : ∀ kind : CommandKind, 13 ≤ (utf8Bytes kind.tag).length := by
    intro kind
    cases kind <;> decide
  have opening := congrArg (List.take 13) equal
  rw [List.take_append_of_le_length (long left), List.take_append_of_le_length (long right)]
    at opening
  cases left <;> cases right <;> first | rfl | exact absurd opening (by decide)

/-- One of the four operations, its metadata as a parser built it. -/
inductive Command where
  | post (command : PostTransaction)
  | openAccount (command : OpenAccount) (parsed : ∀ value ∈ command.metadata, value.Parsed)
  | definePeriod (command : DefinePeriod)
  | closePeriod (command : ClosePeriod)

namespace Command

def canonicalBytes : Command → Except Invalid (List UInt8)
  | post command => command.canonicalBytes
  | openAccount command _ => .ok command.canonicalBytes
  | definePeriod command => command.canonicalBytes
  | closePeriod command => .ok command.canonicalBytes

def idempotencyHash (sha256 : List UInt8 → List UInt8) : Command → Except Invalid (List UInt8)
  | post command => command.idempotencyHash sha256
  | openAccount command _ => .ok (command.idempotencyHash sha256)
  | definePeriod command => command.idempotencyHash sha256
  | closePeriod command => .ok (command.idempotencyHash sha256)

def kind : Command → CommandKind
  | post _ => .post
  | openAccount _ _ => .openAccount
  | definePeriod _ => .definePeriod
  | closePeriod _ => .closePeriod

/-- One operation, and every field it is about: instants as instants, metadata as
parsed values with numbers as they print. -/
def SameRequest : Command → Command → Prop
  | post left, post right =>
      left.tenantId = right.tenantId ∧
      left.effectiveAt.map OffsetDateTime.nanos = right.effectiveAt.map OffsetDateTime.nanos ∧
      left.status = right.status ∧ left.resolvesId = right.resolvesId ∧
      left.reversesId = right.reversesId ∧ left.postings = right.postings
  | openAccount left _, openAccount right _ =>
      left.tenantId = right.tenantId ∧ left.purpose = right.purpose ∧
      left.ownerType = right.ownerType ∧ left.ownerId = right.ownerId ∧
      left.currency = right.currency ∧ left.stripeCount = right.stripeCount ∧
      left.metadata.map Json.printed = right.metadata.map Json.printed
  | definePeriod left, definePeriod right =>
      left.tenantId = right.tenantId ∧ left.code = right.code ∧
      left.startsAt.nanos = right.startsAt.nanos ∧ left.endsAt.nanos = right.endsAt.nanos ∧
      left.tz = right.tz
  | closePeriod left, closePeriod right =>
      left.tenantId = right.tenantId ∧ left.periodCode = right.periodCode ∧
      left.currency = right.currency
  | _, _ => False

end Command

/-! ## What equal bytes say, operation by operation -/

/-- The bytes of a posting, whose date renders. -/
theorem PostTransaction.canonicalBytes_eq_ok {command : PostTransaction} {bytes : List UInt8} :
    command.canonicalBytes = .ok bytes ↔
      ∃ effective, effectiveBytes command.effectiveAt = .ok effective ∧
        bytes = utf8Bytes "openledger.post.v1" ++
          (Bytes.put (utf8Bytes command.tenantId) ++ (Bytes.put effective ++
            (Bytes.put (utf8Bytes command.status.canonical) ++
              (Bytes.put (pointerBytes command.resolvesId) ++
                (Bytes.put (pointerBytes command.reversesId) ++
                  (Bytes.leBytes 8 command.postings.length ++
                    command.postings.flatMap postingBytes)))))) := by
  unfold canonicalBytes
  cases effectiveBytes command.effectiveAt with
  | error refusal =>
      constructor
      · intro rendered
        cases rendered
      · rintro ⟨_, date, _⟩
        cases date
  | ok effective =>
      constructor
      · intro rendered
        refine ⟨effective, rfl, ?_⟩
        rw [← Except.ok.inj rendered]
        simp only [List.append_assoc]
      · rintro ⟨_, ⟨⟩, rfl⟩
        simp only [← List.append_assoc]
        rfl

theorem PostTransaction.canonicalBytes_eq_iff {left right : PostTransaction}
    {bytes : List UInt8} (rendered : left.canonicalBytes = .ok bytes) :
    right.canonicalBytes = .ok bytes ↔ (Command.post left).SameRequest (.post right) := by
  obtain ⟨leftEffective, leftDate, isLeft⟩ := canonicalBytes_eq_ok.mp rendered
  rw [canonicalBytes_eq_ok]
  constructor
  · rintro ⟨rightEffective, rightDate, isRight⟩
    have equal := isLeft.symm.trans isRight
    rw [List.append_cancel_left_eq] at equal
    obtain ⟨tenants, equal⟩ := Bytes.put_append_inj
      (fits_of_identity left.tenantIdentity) (fits_of_identity right.tenantIdentity) equal
    obtain ⟨dates, equal⟩ := Bytes.put_append_inj
      (fits_effectiveBytes leftDate) (fits_effectiveBytes rightDate) equal
    obtain ⟨statuses, equal⟩ := Bytes.put_append_inj
      (fits_of_status left.status) (fits_of_status right.status) equal
    obtain ⟨resolutions, equal⟩ := Bytes.put_append_inj
      (fits_pointerBytes left.resolvesId) (fits_pointerBytes right.resolvesId) equal
    obtain ⟨reversals, equal⟩ := Bytes.put_append_inj
      (fits_pointerBytes left.reversesId) (fits_pointerBytes right.reversesId) equal
    have postings := (List.append_inj equal (by simp)).2
    exact ⟨utf8Bytes_injective tenants,
      effectiveBytes_inj leftDate (rightDate.trans (congrArg Except.ok dates.symm)),
      status_canonical_injective (utf8Bytes_injective statuses),
      pointerBytes_injective resolutions, pointerBytes_injective reversals,
      postings_injective postings⟩
  · rintro ⟨tenant, date, status, resolves, reverses, postings⟩
    refine ⟨leftEffective, effectiveBytes_of_nanos date leftDate, ?_⟩
    rw [isLeft, tenant, status, resolves, reverses, postings]

/-- Equal bytes name one account, whatever its metadata was built by. -/
theorem OpenAccount.fields_of_canonicalBytes {left right : OpenAccount}
    (equal : left.canonicalBytes = right.canonicalBytes) :
    left.tenantId = right.tenantId ∧ left.purpose = right.purpose ∧
      left.ownerType = right.ownerType ∧ left.ownerId = right.ownerId ∧
      left.currency = right.currency ∧ left.stripeCount = right.stripeCount ∧
      metadataBytes left.metadata = metadataBytes right.metadata := by
  simp only [canonicalBytes, List.append_assoc, List.append_cancel_left_eq] at equal
  obtain ⟨tenants, equal⟩ := Bytes.put_append_inj
    (fits_of_identity left.tenantIdentity) (fits_of_identity right.tenantIdentity) equal
  obtain ⟨purposes, equal⟩ := Bytes.put_append_inj
    (fits_of_identity left.purposeIdentity) (fits_of_identity right.purposeIdentity) equal
  obtain ⟨kinds, equal⟩ := Bytes.put_append_inj
    (fits_of_ownerType left.ownerType) (fits_of_ownerType right.ownerType) equal
  obtain ⟨owners, equal⟩ := Bytes.put_append_inj
    (fits_textBytes left.ownerIdentity) (fits_textBytes right.ownerIdentity) equal
  obtain ⟨currencies, equal⟩ := Bytes.put_append_inj
    (fits_of_currency left.currencyIso) (fits_of_currency right.currencyIso) equal
  obtain ⟨stripes, equal⟩ := Bytes.put_append_inj
    (fits_stripeBytes left.stripeCount) (fits_stripeBytes right.stripeCount) equal
  exact ⟨utf8Bytes_injective tenants, utf8Bytes_injective purposes,
    ownerType_canonical_injective (utf8Bytes_injective kinds),
    textBytes_inj left.ownerNotBlank right.ownerNotBlank owners,
    utf8Bytes_injective currencies,
    stripeBytes_inj left.stripesInWindow right.stripesInWindow stripes,
    Bytes.put_injective equal⟩

theorem OpenAccount.canonicalBytes_eq_iff {left right : OpenAccount}
    (leftParsed : ∀ value ∈ left.metadata, value.Parsed)
    (rightParsed : ∀ value ∈ right.metadata, value.Parsed) :
    left.canonicalBytes = right.canonicalBytes ↔
      (Command.openAccount left leftParsed).SameRequest (.openAccount right rightParsed) := by
  have metadataAgrees := metadataBytes_eq_iff leftParsed rightParsed
  constructor
  · intro equal
    obtain ⟨tenant, purpose, kind, owner, currency, stripes, metadata⟩ :=
      fields_of_canonicalBytes equal
    exact ⟨tenant, purpose, kind, owner, currency, stripes, metadataAgrees.mp metadata⟩
  · rintro ⟨tenant, purpose, kind, owner, currency, stripes, metadata⟩
    rw [canonicalBytes, canonicalBytes, tenant, purpose, kind, owner, currency, stripes,
      metadataAgrees.mpr metadata]

theorem DefinePeriod.boundBytes_eq_ok {instant : OffsetDateTime} {bytes : List UInt8} :
    boundBytes instant = .ok bytes ↔ utcBytes instant = some bytes := by
  unfold boundBytes utcBytes
  cases instant.checkedToUtc.bind OffsetDateTime.rfc3339 with
  | none => simp
  | some rendered => simp

/-- The bytes of a definition, whose two bounds both render. -/
theorem DefinePeriod.canonicalBytes_eq_ok {command : DefinePeriod} {bytes : List UInt8} :
    command.canonicalBytes = .ok bytes ↔
      ∃ startsAt endsAt, utcBytes command.startsAt = some startsAt ∧
        utcBytes command.endsAt = some endsAt ∧
        bytes = utf8Bytes "openledger.period.v1" ++
          (Bytes.put (utf8Bytes command.tenantId) ++ (Bytes.put (utf8Bytes command.code) ++
            (Bytes.put startsAt ++ (Bytes.put endsAt ++
              Bytes.put (utf8Bytes command.tz))))) := by
  simp only [← boundBytes_eq_ok]
  rw [canonicalBytes]
  cases boundBytes command.startsAt with
  | error refusal =>
      constructor
      · intro rendered
        cases rendered
      · rintro ⟨_, _, first, _⟩
        cases first
  | ok startsAt =>
      cases boundBytes command.endsAt with
      | error refusal =>
          constructor
          · intro rendered
            cases rendered
          · rintro ⟨_, _, _, last, _⟩
            cases last
      | ok endsAt =>
          constructor
          · intro rendered
            refine ⟨startsAt, endsAt, rfl, rfl, ?_⟩
            rw [← Except.ok.inj rendered]
            simp only [List.append_assoc]
          · rintro ⟨_, _, ⟨⟩, ⟨⟩, rfl⟩
            simp only [← List.append_assoc]
            rfl

theorem DefinePeriod.canonicalBytes_eq_iff {left right : DefinePeriod}
    {bytes : List UInt8} (rendered : left.canonicalBytes = .ok bytes) :
    right.canonicalBytes = .ok bytes ↔
      (Command.definePeriod left).SameRequest (.definePeriod right) := by
  obtain ⟨leftStart, leftEnd, leftStarts, leftEnds, isLeft⟩ := canonicalBytes_eq_ok.mp rendered
  rw [canonicalBytes_eq_ok]
  constructor
  · rintro ⟨rightStart, rightEnd, rightStarts, rightEnds, isRight⟩
    have equal := isLeft.symm.trans isRight
    rw [List.append_cancel_left_eq] at equal
    obtain ⟨tenants, equal⟩ := Bytes.put_append_inj
      (fits_of_identity left.tenantIdentity) (fits_of_identity right.tenantIdentity) equal
    obtain ⟨codes, equal⟩ := Bytes.put_append_inj
      (fits_of_identity left.codeIdentity) (fits_of_identity right.codeIdentity) equal
    obtain ⟨starts, equal⟩ := Bytes.put_append_inj
      (fits_of_utcBytes leftStarts) (fits_of_utcBytes rightStarts) equal
    obtain ⟨ends, zones⟩ := Bytes.put_append_inj
      (fits_of_utcBytes leftEnds) (fits_of_utcBytes rightEnds) equal
    subst starts
    subst ends
    exact ⟨utf8Bytes_injective tenants, utf8Bytes_injective codes,
      utcBytes_inj leftStarts rightStarts, utcBytes_inj leftEnds rightEnds,
      utf8Bytes_injective (Bytes.put_injective zones)⟩
  · rintro ⟨tenant, code, starts, ends, tz⟩
    refine ⟨leftStart, leftEnd, ?_, ?_, ?_⟩
    · rw [← utcBytes_of_nanos starts, leftStarts]
    · rw [← utcBytes_of_nanos ends, leftEnds]
    · rw [isLeft, tenant, code, tz]

theorem ClosePeriod.canonicalBytes_eq_iff {left right : ClosePeriod} :
    left.canonicalBytes = right.canonicalBytes ↔
      (Command.closePeriod left).SameRequest (.closePeriod right) := by
  constructor
  · intro equal
    simp only [canonicalBytes, List.append_assoc, List.append_cancel_left_eq] at equal
    obtain ⟨tenants, equal⟩ := Bytes.put_append_inj
      (fits_of_identity left.tenantIdentity) (fits_of_identity right.tenantIdentity) equal
    obtain ⟨codes, currencies⟩ := Bytes.put_append_inj
      (fits_of_identity left.codeIdentity) (fits_of_identity right.codeIdentity) equal
    exact ⟨utf8Bytes_injective tenants, utf8Bytes_injective codes,
      utf8Bytes_injective (Bytes.put_injective currencies)⟩
  · rintro ⟨tenant, code, currency⟩
    rw [canonicalBytes, canonicalBytes, tenant, code, currency]

/-! ## Which commands have bytes -/

/-- An instant has a text exactly when its year in UTC is not negative. -/
theorem utcBytes_isSome_iff {instant : OffsetDateTime} :
    (utcBytes instant).isSome ↔
      instant.checkedToUtc.isSome ∧ 0 ≤ Instant.yearAt instant.nanos 0 := by
  rw [utcBytes, OffsetDateTime.checkedToUtc]
  split
  · rename_i years
    simp only [Option.bind_some, Option.isSome_map, Option.isSome_some, true_and]
    constructor
    · intro renders
      exact (OffsetDateTime.year_of_rfc3339 renders).1
    · intro notNegative
      rw [OffsetDateTime.rfc3339]
      simp only
      rw [if_pos]
      · rfl
      · exact ⟨notNegative, years.2, by decide, by decide⟩
  · simp

theorem PostTransaction.canonicalBytes_isOk (command : PostTransaction) :
    ∃ bytes, command.canonicalBytes = .ok bytes := by
  have renders : ∃ bytes, effectiveBytes command.effectiveAt = .ok bytes := by
    cases isDate : command.effectiveAt with
    | none => exact ⟨[], rfl⟩
    | some instant =>
        have inRange := command.effectiveInRange instant isDate
        have hasText : (utcBytes instant).isSome := by
          rw [utcBytes_isSome_iff]
          unfold isEffectiveInstant at inRange
          cases isUtc : instant.checkedToUtc with
          | none =>
              rw [isUtc] at inRange
              cases inRange
          | some utc =>
              rw [isUtc, Bool.and_eq_true, decide_eq_true_eq] at inRange
              rw [OffsetDateTime.checkedToUtc] at isUtc
              split at isUtc
              · rw [← Option.some.inj isUtc] at inRange
                have first : 1 ≤ Instant.yearAt instant.nanos 0 := inRange.1
                exact ⟨rfl, by omega⟩
              · cases isUtc
        obtain ⟨bytes, rendered⟩ := Option.isSome_iff_exists.mp hasText
        exact ⟨bytes, (effectiveBytes_some instant).mpr rendered⟩
  obtain ⟨effective, rendered⟩ := renders
  exact ⟨_, canonicalBytes_eq_ok.mpr ⟨effective, rendered, rfl⟩⟩

theorem DefinePeriod.canonicalBytes_isOk_iff (command : DefinePeriod) :
    (∃ bytes, command.canonicalBytes = .ok bytes) ↔
      0 ≤ Instant.yearAt command.startsAt.nanos 0 ∧
        0 ≤ Instant.yearAt command.endsAt.nanos 0 := by
  constructor
  · rintro ⟨bytes, rendered⟩
    obtain ⟨startsAt, endsAt, starts, ends, _⟩ := canonicalBytes_eq_ok.mp rendered
    exact ⟨(utcBytes_isSome_iff.mp (Option.isSome_of_eq_some starts)).2,
      (utcBytes_isSome_iff.mp (Option.isSome_of_eq_some ends)).2⟩
  · rintro ⟨starts, ends⟩
    obtain ⟨startsAt, startText⟩ := Option.isSome_iff_exists.mp
      (utcBytes_isSome_iff.mpr ⟨command.startsInUtc, starts⟩)
    obtain ⟨endsAt, endText⟩ := Option.isSome_iff_exists.mp
      (utcBytes_isSome_iff.mpr ⟨command.endsInUtc, ends⟩)
    exact ⟨_, canonicalBytes_eq_ok.mpr ⟨startsAt, endsAt, startText, endText, rfl⟩⟩

namespace Command

/-- A definition of years before 0 is refused before it reaches the store; every
other command has bytes. -/
def Renders : Command → Prop
  | definePeriod command =>
      0 ≤ Instant.yearAt command.startsAt.nanos 0 ∧
        0 ≤ Instant.yearAt command.endsAt.nanos 0
  | _ => True

theorem canonicalBytes_isOk_iff (command : Command) :
    (∃ bytes, command.canonicalBytes = .ok bytes) ↔ command.Renders := by
  cases command with
  | post command => exact ⟨fun _ => trivial, fun _ => command.canonicalBytes_isOk⟩
  | openAccount command parsed => exact ⟨fun _ => trivial, fun _ => ⟨_, rfl⟩⟩
  | definePeriod command => exact command.canonicalBytes_isOk_iff
  | closePeriod command => exact ⟨fun _ => trivial, fun _ => ⟨_, rfl⟩⟩

/-! ## Across operations -/

theorem tag_of_canonicalBytes {command : Command} {bytes : List UInt8}
    (rendered : command.canonicalBytes = .ok bytes) :
    ∃ rest, bytes = utf8Bytes command.kind.tag ++ rest := by
  cases command with
  | post command =>
      obtain ⟨effective, _, isBytes⟩ :=
        PostTransaction.canonicalBytes_eq_ok.mp
          (show command.canonicalBytes = .ok bytes from rendered)
      exact ⟨_, isBytes⟩
  | openAccount command parsed =>
      rw [← Except.ok.inj rendered, OpenAccount.canonicalBytes]
      simp only [List.append_assoc]
      exact ⟨_, rfl⟩
  | definePeriod command =>
      obtain ⟨startsAt, endsAt, _, _, isBytes⟩ :=
        DefinePeriod.canonicalBytes_eq_ok.mp (show command.canonicalBytes = .ok bytes from rendered)
      exact ⟨_, isBytes⟩
  | closePeriod command =>
      rw [← Except.ok.inj rendered, ClosePeriod.canonicalBytes]
      simp only [List.append_assoc]
      exact ⟨_, rfl⟩

theorem kind_eq_of_sameRequest {left right : Command} (same : left.SameRequest right) :
    left.kind = right.kind := by
  cases left <;> cases right <;> first | rfl | exact same.elim

/-- Two commands share their bytes exactly when they are one request. -/
theorem canonicalBytes_eq_iff {left : Command} {bytes : List UInt8}
    (rendered : left.canonicalBytes = .ok bytes) (right : Command) :
    right.canonicalBytes = .ok bytes ↔ left.SameRequest right := by
  by_cases oneKind : left.kind = right.kind
  · cases left with
    | post left =>
        cases right with
        | post right => exact PostTransaction.canonicalBytes_eq_iff rendered
        | openAccount | definePeriod | closePeriod => cases oneKind
    | openAccount left leftParsed =>
        cases right with
        | openAccount right rightParsed =>
            rw [← OpenAccount.canonicalBytes_eq_iff leftParsed rightParsed]
            have isBytes : left.canonicalBytes = bytes := Except.ok.inj rendered
            rw [isBytes]
            exact ⟨fun same => (Except.ok.inj same).symm, fun same => congrArg Except.ok same.symm⟩
        | post | definePeriod | closePeriod => cases oneKind
    | definePeriod left =>
        cases right with
        | definePeriod right => exact DefinePeriod.canonicalBytes_eq_iff rendered
        | post | openAccount | closePeriod => cases oneKind
    | closePeriod left =>
        cases right with
        | closePeriod right =>
            rw [← ClosePeriod.canonicalBytes_eq_iff]
            have isBytes : left.canonicalBytes = bytes := Except.ok.inj rendered
            rw [isBytes]
            exact ⟨fun same => (Except.ok.inj same).symm, fun same => congrArg Except.ok same.symm⟩
        | post | openAccount | definePeriod => cases oneKind
  · constructor
    · intro rightRendered
      obtain ⟨leftRest, isLeft⟩ := tag_of_canonicalBytes rendered
      obtain ⟨rightRest, isRight⟩ := tag_of_canonicalBytes rightRendered
      exact absurd (CommandKind.eq_of_tag_append (isLeft.symm.trans isRight)) oneKind
    · intro same
      exact absurd (kind_eq_of_sameRequest same) oneKind

theorem idempotencyHash_eq_ok {sha256 : List UInt8 → List UInt8} {command : Command}
    {hash : List UInt8} :
    command.idempotencyHash sha256 = .ok hash ↔
      ∃ bytes, command.canonicalBytes = .ok bytes ∧ sha256 bytes = hash := by
  have mapped : command.idempotencyHash sha256 = command.canonicalBytes.map sha256 := by
    cases command <;> rfl
  rw [mapped]
  cases command.canonicalBytes with
  | error refusal => simp [Except.map]
  | ok bytes => simp [Except.map]

/-- A hash without collisions tells two requests apart as their bytes do. -/
theorem idempotencyHash_eq_iff {sha256 : List UInt8 → List UInt8}
    (collisionFree : Function.Injective sha256) {left : Command} {hash : List UInt8}
    (hashed : left.idempotencyHash sha256 = .ok hash) (right : Command) :
    right.idempotencyHash sha256 = .ok hash ↔ left.SameRequest right := by
  obtain ⟨bytes, rendered, isHash⟩ := idempotencyHash_eq_ok.mp hashed
  rw [← canonicalBytes_eq_iff rendered right, idempotencyHash_eq_ok]
  constructor
  · rintro ⟨other, otherRendered, same⟩
    rw [← collisionFree (same.trans isHash.symm)]
    exact otherRendered
  · intro same
    exact ⟨bytes, same, isHash⟩

end Command

/-- The four encoders are jointly injective, and so is the hash over them: a
stored hash is met by the same request alone. -/
theorem canonical_bytes_tell_requests_apart (sha256 : List UInt8 → List UInt8)
    (collisionFree : Function.Injective sha256) (left : Command) :
    ((∃ bytes, left.canonicalBytes = .ok bytes) ↔ left.Renders) ∧
      (∀ bytes, left.canonicalBytes = .ok bytes → ∀ right : Command,
        (right.canonicalBytes = .ok bytes ↔ left.SameRequest right)) ∧
      ∀ hash, left.idempotencyHash sha256 = .ok hash → ∀ right : Command,
        (right.idempotencyHash sha256 = .ok hash ↔ left.SameRequest right) :=
  ⟨left.canonicalBytes_isOk_iff, fun _ => Command.canonicalBytes_eq_iff,
    fun _ => Command.idempotencyHash_eq_iff collisionFree⟩

namespace Shop

/-- One period, its bounds written in an offset of the caller's. -/
def september (offset : Int) : DefinePeriod where
  tenantId := "shop"
  idempotencyKey := "september"
  code := "2026-09"
  startsAt := ⟨1788220800000000000, offset⟩
  endsAt := ⟨1790812800000000000, offset⟩
  tz := "Europe/Lisbon"
  tenantNotBlank := by decide
  keyNotEmpty := by decide
  tenantIdentity := by decide
  keyIdentity := by decide
  codeNotBlank := by decide
  codeIdentity := by decide
  tzNotBlank := by decide
  tzIdentity := by decide
  ordered := show (1788220800000000000 : Int) < 1790812800000000000 by decide
  startsInUtc := rfl
  endsInUtc := rfl

/-- Its offset is no part of the request. -/
theorem september_is_one_request :
    ∃ bytes, (Command.definePeriod (september 0)).canonicalBytes = .ok bytes ∧
      (Command.definePeriod (september 3600)).canonicalBytes = .ok bytes := by
  have apart := canonical_bytes_tell_requests_apart id Function.injective_id
    (.definePeriod (september 0))
  obtain ⟨bytes, rendered⟩ := apart.1.mpr ⟨by decide, by decide⟩
  have same := (apart.2.1 bytes rendered (.definePeriod (september 3600))).mpr
    ⟨rfl, rfl, rfl, rfl, rfl⟩
  exact ⟨bytes, rendered, same⟩

end Shop

end OpenLedger
