import OpenLedger.Domain

/-!
# Defining a period and closing one

The two commands, their validation, their canonical byte forms and payloads.  A
definition carries the caller's idempotency key; a close derives its own from
the tenant, the period and the currency.
-/

namespace OpenLedger

/-- One accepted operation: define this half-open period under this key. -/
structure DefinePeriod where
  tenantId : String
  idempotencyKey : String
  code : String
  startsAt : OffsetDateTime
  endsAt : OffsetDateTime
  /-- Provenance, never the boundary. -/
  tz : String
  tenantNotBlank : isBlank tenantId = false
  keyNotEmpty : idempotencyKey ≠ ""
  tenantIdentity : isIdentity tenantId = true
  keyIdentity : isIdentity idempotencyKey = true
  codeNotBlank : isBlank code = false
  codeIdentity : isIdentity code = true
  tzNotBlank : isBlank tz = false
  tzIdentity : isIdentity tz = true
  ordered : startsAt.nanos < endsAt.nanos
  startsInUtc : startsAt.checkedToUtc.isSome
  endsInUtc : endsAt.checkedToUtc.isSome

namespace DefinePeriod

/-- The only door to a definition, with its refusals in the order they are
checked. -/
def new (tenantId idempotencyKey code : String) (startsAt endsAt : OffsetDateTime)
    (tz : String) : Except Invalid DefinePeriod :=
  if blank : isBlank tenantId = true then .error ⟨"tenant_id must not be blank"⟩
  else if empty : idempotencyKey = "" then .error ⟨"idempotency_key must not be empty"⟩
  else
    match tenant : validateIdentity tenantId "tenant_id must not contain NUL bytes"
        "tenant_id must be at most 512 bytes" with
    | .error refusal => .error refusal
    | .ok () =>
    match key : validateIdentity idempotencyKey "idempotency_key must not contain NUL bytes"
        "idempotency_key must be at most 512 bytes" with
    | .error refusal => .error refusal
    | .ok () =>
    if blankCode : isBlank code = true then .error ⟨"code must not be blank"⟩
    else
    match named : validateIdentity code "code must not contain NUL bytes"
        "code must be at most 512 bytes" with
    | .error refusal => .error refusal
    | .ok () =>
    if blankZone : isBlank tz = true then .error ⟨"tz must not be blank"⟩
    else
    match zone : validateIdentity tz "tz must not contain NUL bytes"
        "tz must be at most 512 bytes" with
    | .error refusal => .error refusal
    | .ok () =>
    if backwards : endsAt.nanos ≤ startsAt.nanos then
      .error ⟨"ends_at must be after starts_at"⟩
    else if range : startsAt.checkedToUtc.isSome ∧ endsAt.checkedToUtc.isSome then
      .ok {
        tenantId, idempotencyKey, code, startsAt, endsAt, tz
        tenantNotBlank := notBlank_of_not blank
        keyNotEmpty := empty
        tenantIdentity := isIdentity_of_ok tenant
        keyIdentity := isIdentity_of_ok key
        codeNotBlank := notBlank_of_not blankCode
        codeIdentity := isIdentity_of_ok named
        tzNotBlank := notBlank_of_not blankZone
        tzIdentity := isIdentity_of_ok zone
        ordered := not_le.mp backwards
        startsInUtc := range.1
        endsInUtc := range.2 }
    else .error ⟨"starts_at and ends_at must fall between year 1 and 9999 UTC"⟩

/-- One bound as the hash covers it, normalized to UTC. -/
def boundBytes (instant : OffsetDateTime) : Except Invalid (List UInt8) :=
  match instant.checkedToUtc.bind OffsetDateTime.rfc3339 with
  | none => .error ⟨"starts_at and ends_at must be representable"⟩
  | some rendered => .ok (utf8Bytes rendered)

def canonicalBytes (command : DefinePeriod) : Except Invalid (List UInt8) := do
  let startsAt ← boundBytes command.startsAt
  let endsAt ← boundBytes command.endsAt
  return utf8Bytes "openledger.period.v1" ++
    Bytes.put (utf8Bytes command.tenantId) ++
    Bytes.put (utf8Bytes command.code) ++
    Bytes.put startsAt ++
    Bytes.put endsAt ++
    Bytes.put (utf8Bytes command.tz)

def idempotencyHash (sha256 : List UInt8 → List UInt8) (command : DefinePeriod) :
    Except Invalid (List UInt8) :=
  command.canonicalBytes.map sha256

/-- One bound as the payload renders it, in the caller's own offset. -/
def boundPayload (instant : OffsetDateTime) : Except Invalid Json :=
  match instant.rfc3339 with
  | none => .error ⟨"starts_at and ends_at must be representable"⟩
  | some rendered => .ok (.string rendered)

def payload (command : DefinePeriod) : Except Invalid Json := do
  let startsAt ← boundPayload command.startsAt
  let endsAt ← boundPayload command.endsAt
  return Json.objectOf [
    ("version", Json.integer 1),
    ("tenant_id", .string command.tenantId),
    ("idempotency_key", .string command.idempotencyKey),
    ("code", .string command.code),
    ("starts_at", startsAt),
    ("ends_at", endsAt),
    ("tz", .string command.tz)]

end DefinePeriod

/-- One period as the register holds it. -/
structure Period where
  code : String
  startsAt : Timestamp
  endsAt : Timestamp
  tz : String
deriving DecidableEq, Repr

/-- The stored result of an accepted definition. -/
structure PeriodDefined where
  eventId : Uuid
  period : Period
  replayed : Bool
deriving DecidableEq, Repr

/-- The deterministic key of a close, `tenant:close:period:currency`. -/
def closeKey (tenantId periodCode currency : String) : String :=
  tenantId ++ ":close:" ++ periodCode ++ ":" ++ currency

/-- One accepted operation: close this period, for this currency. -/
structure ClosePeriod where
  tenantId : String
  periodCode : String
  currency : String
  tenantNotBlank : isBlank tenantId = false
  tenantIdentity : isIdentity tenantId = true
  codeNotBlank : isBlank periodCode = false
  codeIdentity : isIdentity periodCode = true
  currencyIso : isCurrency currency = true
  keyIdentity : isIdentity (closeKey tenantId periodCode currency) = true

namespace ClosePeriod

def new (tenantId periodCode currency : String) : Except Invalid ClosePeriod :=
  if blank : isBlank tenantId = true then .error ⟨"tenant_id must not be blank"⟩
  else
    match tenant : validateIdentity tenantId "tenant_id must not contain NUL bytes"
        "tenant_id must be at most 512 bytes" with
    | .error refusal => .error refusal
    | .ok () =>
    if blankCode : isBlank periodCode = true then .error ⟨"code must not be blank"⟩
    else
    match named : validateIdentity periodCode "code must not contain NUL bytes"
        "code must be at most 512 bytes" with
    | .error refusal => .error refusal
    | .ok () =>
    if iso : isCurrency currency = true then
      match derived : validateIdentity (closeKey tenantId periodCode currency)
          "the derived close key must not contain NUL bytes"
          "tenant_id and code are together too long for the derived close key" with
      | .error refusal => .error refusal
      | .ok () =>
          .ok {
            tenantId, periodCode, currency
            tenantNotBlank := notBlank_of_not blank
            tenantIdentity := isIdentity_of_ok tenant
            codeNotBlank := notBlank_of_not blankCode
            codeIdentity := isIdentity_of_ok named
            currencyIso := iso
            keyIdentity := isIdentity_of_ok derived }
    else .error ⟨"currency must be three uppercase ASCII letters"⟩

def idempotencyKey (command : ClosePeriod) : String :=
  closeKey command.tenantId command.periodCode command.currency

def canonicalBytes (command : ClosePeriod) : List UInt8 :=
  utf8Bytes "openledger.close.v1" ++
    Bytes.put (utf8Bytes command.tenantId) ++
    Bytes.put (utf8Bytes command.periodCode) ++
    Bytes.put (utf8Bytes command.currency)

def idempotencyHash (sha256 : List UInt8 → List UInt8) (command : ClosePeriod) :
    List UInt8 :=
  sha256 command.canonicalBytes

def payload (command : ClosePeriod) : Json :=
  Json.objectOf [
    ("version", Json.integer 1),
    ("tenant_id", .string command.tenantId),
    ("idempotency_key", .string command.idempotencyKey),
    ("period_code", .string command.periodCode),
    ("currency", .string command.currency)]

end ClosePeriod

/-- What a close moved out of one temporary account, debit-positive. -/
structure SweptPosition where
  accountId : Uuid
  positionMinor : Int
deriving DecidableEq, Repr

/-- The stored result of an accepted close.  There is no `replayed` flag: a
close happens once. -/
structure PeriodClosed where
  eventId : Uuid
  transactionId : Uuid
  periodCode : String
  currency : String
  effectiveAt : Timestamp
  computedAtXid : Nat
  swept : List SweptPosition
  checkpointRows : Nat
deriving DecidableEq, Repr

end OpenLedger
