import OpenLedger.Instant
import OpenLedger.Json
import OpenLedger.Lib.Bytes

/-!
# Entities and value objects

The posting types, their validation, the canonical byte form the idempotency
hash is computed over, and the versioned payload the event log stores.  A
`Posting` and a `PostTransaction` carry what their constructors check, so an
unbalanced or ill-formed command cannot be built.  The digest itself is a
parameter: nothing here depends on which one it is.
-/

namespace OpenLedger

/-- A uuid, as the 128-bit number its sixteen bytes spell. -/
abbrev Uuid := Fin 340282366920938463463374607431768211456

def Uuid.asBytes (id : Uuid) : List UInt8 := Bytes.beBytes 16 id.val

def i64Max : Int := 9223372036854775807

def i64Min : Int := -9223372036854775808

/-- `checked_add` on 64-bit minor units. -/
def checkedAdd (left right : Int) : Option Int :=
  if i64Min ≤ left + right ∧ left + right ≤ i64Max then some (left + right) else none

/-- The UTF-8 bytes of a string. -/
def utf8Bytes (text : String) : List UInt8 :=
  text.toList.flatMap String.utf8EncodeChar

/-- The characters `str::trim` strips: Unicode `White_Space`. -/
def isWhitespace (character : Char) : Bool :=
  let code := character.toNat
  (9 ≤ code && code ≤ 13) || code = 32 || code = 133 || code = 160 || code = 5760 ||
    (8192 ≤ code && code ≤ 8202) || code = 8232 || code = 8233 || code = 8239 ||
    code = 8287 || code = 12288

def isBlank (text : String) : Bool := text.toList.all isWhitespace

def containsNul (text : String) : Bool := text.toList.any fun character => character.toNat = 0

/-- ISO 4217: three uppercase ASCII letters. -/
def isCurrency (currency : String) : Bool :=
  (utf8Bytes currency).length = 3 &&
    (utf8Bytes currency).all fun byte => 65 ≤ byte.toNat && byte.toNat ≤ 90

/-- A request the writer refuses before touching the database. -/
structure Invalid where
  detail : String
deriving DecidableEq, Repr

def maxIdentityBytes : Nat := 512

/-- The contract the caller-chosen identity strings share. -/
def isIdentity (value : String) : Bool :=
  !containsNul value && (utf8Bytes value).length ≤ maxIdentityBytes

/-- The same contract, with the refusals the caller names. -/
def validateIdentity (value nulBytes tooLong : String) : Except Invalid Unit :=
  if containsNul value then .error ⟨nulBytes⟩
  else if maxIdentityBytes < (utf8Bytes value).length then .error ⟨tooLong⟩
  else .ok ()

theorem validateIdentity_ok_iff (value nulBytes tooLong : String) :
    validateIdentity value nulBytes tooLong = .ok () ↔ isIdentity value = true := by
  unfold validateIdentity isIdentity
  cases containsNul value with
  | true =>
      simp
  | false =>
      by_cases long : maxIdentityBytes < (utf8Bytes value).length
      · simp [long]
      · simp [long, not_lt.mp long]

theorem isIdentity_of_ok {value nulBytes tooLong : String}
    (accepted : validateIdentity value nulBytes tooLong = .ok ()) : isIdentity value = true :=
  (validateIdentity_ok_iff value nulBytes tooLong).mp accepted

theorem notBlank_of_not {value : String} (notBlank : ¬ isBlank value = true) :
    isBlank value = false := by
  simpa using notBlank

/-- A movement of money from `source` to `destination`. -/
structure Posting where
  source : Uuid
  destination : Uuid
  amountMinor : Int
  currency : String
  amountPositive : 0 < amountMinor
  amountFits : amountMinor ≤ i64Max
  currencyIso : isCurrency currency = true
  distinctAccounts : source ≠ destination
deriving DecidableEq

/-- The only door to a posting. -/
def Posting.new (source destination : Uuid) (amountMinor : Int64) (currency : String) :
    Except Invalid Posting :=
  if positive : 0 < amountMinor.toInt then
    if iso : isCurrency currency = true then
      if distinct : source ≠ destination then
        .ok ⟨source, destination, amountMinor.toInt, currency, positive,
          Int.le_of_lt_add_one amountMinor.toInt_lt, iso, distinct⟩
      else .error ⟨"source and destination are the same account"⟩
    else .error ⟨"currency must be three uppercase ASCII letters"⟩
  else .error ⟨"amount_minor must be positive"⟩

/-- Whether the transaction lands on the books or is a claim about what may
happen.  A status never mutates. -/
inductive TransactionStatus where
  | pending
  | posted
deriving DecidableEq, Repr

/-- The status word the canonical byte form covers. -/
def TransactionStatus.canonical : TransactionStatus → String
  | .pending => "pending"
  | .posted => "posted"

/-- The years a command's `effective_at` may fall in, in UTC. -/
def isEffectiveInstant (instant : OffsetDateTime) : Bool :=
  match instant.checkedToUtc with
  | none => false
  | some utc => 1 ≤ utc.year && utc.year ≤ 9999

/-- One accepted operation: post these movements atomically under this
idempotency key. -/
structure PostTransaction where
  tenantId : String
  idempotencyKey : String
  /-- `none` only on a reversal, which then takes its target's date. -/
  effectiveAt : Option OffsetDateTime
  status : TransactionStatus
  resolvesId : Option Uuid
  reversesId : Option Uuid
  postings : List Posting
  resolutionPosted : resolvesId.isSome → status = .posted
  reversalAlone : reversesId.isSome → resolvesId = none
  reversalPosted : reversesId.isSome → status = .posted
  reversalBare : reversesId.isSome → postings = []
  tenantNotBlank : isBlank tenantId = false
  keyNotEmpty : idempotencyKey ≠ ""
  tenantIdentity : isIdentity tenantId = true
  keyIdentity : isIdentity idempotencyKey = true
  postingsNotEmpty : reversesId = none → postings ≠ []
  effectiveGiven : reversesId = none → effectiveAt.isSome
  effectiveInRange : ∀ instant ∈ effectiveAt, isEffectiveInstant instant = true

namespace PostTransaction

/-- The only door to a command, with its refusals in the order they are
checked. -/
def new (tenantId idempotencyKey : String) (effectiveAt : Option OffsetDateTime)
    (status : TransactionStatus) (resolvesId reversesId : Option Uuid)
    (postings : List Posting) : Except Invalid PostTransaction :=
  if resolvedPending : resolvesId.isSome ∧ status = .pending then
    .error ⟨"a resolving transaction cannot itself be pending"⟩
  else if both : reversesId.isSome ∧ resolvesId.isSome then
    .error ⟨"a transaction cannot both resolve and reverse another"⟩
  else if reversedPending : reversesId.isSome ∧ status = .pending then
    .error ⟨"a reversing transaction cannot itself be pending"⟩
  else if carriesPostings : reversesId.isSome ∧ postings ≠ [] then
    .error ⟨"a reversal derives its postings from its target; the request must not carry postings"⟩
  else if blank : isBlank tenantId = true then .error ⟨"tenant_id must not be blank"⟩
  else if empty : idempotencyKey = "" then .error ⟨"idempotency_key must not be empty"⟩
  else
    match tenant : validateIdentity tenantId "tenant_id must not contain NUL bytes"
        "tenant_id must be at most 512 bytes" with
    | .error refusal => .error refusal
    | .ok () =>
        match key : validateIdentity idempotencyKey
            "idempotency_key must not contain NUL bytes"
            "idempotency_key must be at most 512 bytes" with
        | .error refusal => .error refusal
        | .ok () =>
            if noPostings : reversesId = none ∧ postings = [] then
              .error ⟨"postings must not be empty"⟩
            else if noDate : reversesId = none ∧ effectiveAt = none then
              .error ⟨"effective_at is required unless the request is a reversal"⟩
            else if range : ∀ instant ∈ effectiveAt, isEffectiveInstant instant = true then
              .ok {
                tenantId, idempotencyKey, effectiveAt, status, resolvesId, reversesId, postings
                resolutionPosted := fun some => by
                  cases status with
                  | pending => exact absurd ⟨some, rfl⟩ resolvedPending
                  | posted => rfl
                reversalAlone := fun some => by
                  simpa [some] using both
                reversalPosted := fun some => by
                  cases status with
                  | pending => exact absurd ⟨some, rfl⟩ reversedPending
                  | posted => rfl
                reversalBare := fun some => by
                  simpa [some] using carriesPostings
                tenantNotBlank := notBlank_of_not blank
                keyNotEmpty := empty
                tenantIdentity := isIdentity_of_ok tenant
                keyIdentity := isIdentity_of_ok key
                postingsNotEmpty := fun none equal => noPostings ⟨none, equal⟩
                effectiveGiven := fun none => by
                  cases effectiveAt with
                  | none => exact absurd ⟨none, rfl⟩ noDate
                  | some instant => rfl
                effectiveInRange := range }
            else .error ⟨"effective_at must fall between year 1 and 9999 UTC"⟩

/-- An absent pointer is zero bytes under its length prefix. -/
def pointerBytes : Option Uuid → List UInt8
  | none => []
  | some id => id.asBytes

/-- The instant as the hash covers it: normalized to UTC, or zero bytes when
the caller gave none. -/
def effectiveBytes : Option OffsetDateTime → Except Invalid (List UInt8)
  | none => .ok []
  | some instant =>
      match instant.checkedToUtc with
      | none => .error ⟨"effective_at must fall between year 1 and 9999 UTC"⟩
      | some utc =>
          match utc.rfc3339 with
          | none => .error ⟨"effective_at is not representable"⟩
          | some rendered => .ok (utf8Bytes rendered)

def postingBytes (posting : Posting) : List UInt8 :=
  posting.source.asBytes ++ posting.destination.asBytes ++
    Bytes.leBytes 8 posting.amountMinor.toNat ++ Bytes.put (utf8Bytes posting.currency)

/-- The canonical byte form the idempotency hash is computed over: a version
tag, then each value length-prefixed, naming no field. -/
def canonicalBytes (command : PostTransaction) : Except Invalid (List UInt8) := do
  let effective ← effectiveBytes command.effectiveAt
  return utf8Bytes "openledger.post.v1" ++
    Bytes.put (utf8Bytes command.tenantId) ++
    Bytes.put effective ++
    Bytes.put (utf8Bytes command.status.canonical) ++
    Bytes.put (pointerBytes command.resolvesId) ++
    Bytes.put (pointerBytes command.reversesId) ++
    Bytes.leBytes 8 command.postings.length ++
    command.postings.flatMap postingBytes

/-- The digest over the canonical bytes. -/
def idempotencyHash (sha256 : List UInt8 → List UInt8) (command : PostTransaction) :
    Except Invalid (List UInt8) :=
  command.canonicalBytes.map sha256

end PostTransaction

/-- A uuid in its hyphenated lowercase form. -/
def Uuid.hyphenated (id : Uuid) : String :=
  let digits := id.asBytes.flatMap fun byte =>
    [Json.hexDigit (byte.toNat / 16), Json.hexDigit (byte.toNat % 16)]
  String.ofList <|
    digits.take 8 ++ '-' :: (digits.drop 8).take 4 ++ '-' :: (digits.drop 12).take 4 ++
      '-' :: (digits.drop 16).take 4 ++ '-' :: digits.drop 20

def Uuid.toJson (id : Uuid) : Json := .string id.hyphenated

namespace PostTransaction

def postingPayload (posting : Posting) : Json :=
  Json.objectOf [
    ("source", posting.source.toJson),
    ("destination", posting.destination.toJson),
    ("amount_minor", Json.integer posting.amountMinor),
    ("currency", .string posting.currency)]

/-- The event payload: the request, rendered field by field, with the instant
in the caller's own offset and every absence an explicit null. -/
def payload (command : PostTransaction) : Except Invalid Json := do
  let effective ← match command.effectiveAt with
    | none => .ok Json.null
    | some instant =>
        match instant.rfc3339 with
        | none => .error ⟨"effective_at is not representable"⟩
        | some rendered => .ok (.string rendered)
  return Json.objectOf [
    ("version", Json.integer 1),
    ("tenant_id", .string command.tenantId),
    ("idempotency_key", .string command.idempotencyKey),
    ("effective_at", effective),
    ("status", .string command.status.canonical),
    ("resolves_id", Json.ofOption Uuid.toJson command.resolvesId),
    ("reverses_id", Json.ofOption Uuid.toJson command.reversesId),
    ("postings", .array (command.postings.map postingPayload))]

end PostTransaction

/-- The stored result of an accepted operation. -/
structure Posted where
  eventId : Uuid
  transactionId : Option Uuid
  replayed : Bool
deriving DecidableEq, Repr

end OpenLedger
