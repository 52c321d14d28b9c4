import OpenLedger.Domain

/-!
# Opening an account

The command, its validation, its canonical byte form and its payload.  The
caller names a purpose; the category, the normal balance and the counterparty
scope are read from the chart and cannot be stated.
-/

namespace OpenLedger

/-- Who an account belongs to. -/
inductive AccountOwnerType where
  | company
  | platform
  | bankAccount
  | house
deriving DecidableEq, Repr

namespace AccountOwnerType

def canonical : AccountOwnerType → String
  | company => "company"
  | platform => "platform"
  | bankAccount => "bank_account"
  | house => "house"

def isTheHouse (ownerType : AccountOwnerType) : Bool := ownerType = house

end AccountOwnerType

inductive Category where
  | asset
  | liability
  | equity
  | revenue
  | expense
deriving DecidableEq, Repr

/-- The income-statement categories a close sweeps. -/
def Category.isTemporary : Category → Bool
  | .revenue => true
  | .expense => true
  | _ => false

inductive NormalBalance where
  | debit
  | credit
deriving DecidableEq, Repr

/-- Whether accounts of a type face one counterparty each. -/
inductive CounterpartyScope where
  | none
  | shared
  | perShard
deriving DecidableEq, Repr

/-- What an account type is, as the chart holds it. -/
structure ChartTriple where
  category : Category
  normalBalance : NormalBalance
  counterpartyScope : CounterpartyScope
deriving DecidableEq, Repr

/-- A type whose split key is the counterparty may only be held in an owned
account. -/
def ChartTriple.mustBeOwned (triple : ChartTriple) : Bool :=
  triple.counterpartyScope = .perShard

/-- Who an account belongs to, as the request states it. -/
structure AccountOwner where
  ownerType : AccountOwnerType
  ownerId : Option String

/-- The window `ck_accounts__stripe_count` holds. -/
def isStripeCount (stripes : Int) : Bool := 1 ≤ stripes && stripes ≤ 1024

/-- One accepted operation: open this account under this idempotency key. -/
structure OpenAccount where
  tenantId : String
  idempotencyKey : String
  purpose : String
  ownerType : AccountOwnerType
  ownerId : Option String
  currency : String
  /-- `none` means the column's default, one stripe. -/
  stripeCount : Option Nat
  metadata : Option Json
  tenantNotBlank : isBlank tenantId = false
  keyNotEmpty : idempotencyKey ≠ ""
  tenantIdentity : isIdentity tenantId = true
  keyIdentity : isIdentity idempotencyKey = true
  purposeNotBlank : isBlank purpose = false
  purposeIdentity : isIdentity purpose = true
  ownerNotBlank : ∀ owner ∈ ownerId, isBlank owner = false
  ownerIdentity : ∀ owner ∈ ownerId, isIdentity owner = true
  currencyIso : isCurrency currency = true
  stripesInWindow : ∀ stripes ∈ stripeCount, isStripeCount stripes = true
  metadataObject : ∀ value ∈ metadata, value.isObject = true

/-- An owner id's contract, when there is one. -/
def validateOwnerId (ownerId : Option String) : Except Invalid Unit :=
  ownerId.elim (.ok ()) fun ownerId =>
    validateIdentity ownerId "owner_id must not contain NUL bytes"
      "owner_id must be at most 512 bytes"

theorem ownerNotBlank_of_not {ownerId : Option String}
    (notBlank : ¬ ∃ owner ∈ ownerId, isBlank owner = true) :
    ∀ owner ∈ ownerId, isBlank owner = false := by
  intro owner given
  exact notBlank_of_not fun blank => notBlank ⟨owner, given, blank⟩

theorem ownerIdentity_of_ok {ownerId : Option String}
    (accepted : validateOwnerId ownerId = .ok ()) :
    ∀ owner ∈ ownerId, isIdentity owner = true := by
  intro owner given
  rw [Option.mem_def] at given
  rw [given] at accepted
  exact isIdentity_of_ok accepted

theorem stripesInWindow_of_all {stripeCount : Option Int64}
    (window : (stripeCount.all fun stripes => isStripeCount stripes.toInt) = true) :
    ∀ stripes : Nat, stripes ∈ stripeCount.map (fun stripes => stripes.toInt.toNat) →
      isStripeCount stripes = true := by
  intro stripes given
  obtain ⟨counted, isCounted, rfl⟩ := Option.mem_map.mp given
  rw [isCounted, Option.all_some] at window
  simp only [isStripeCount, Bool.and_eq_true, decide_eq_true_eq] at window ⊢
  omega

namespace OpenAccount

/-- The only door to a command, with its refusals in the order they are
checked. -/
def new (tenantId idempotencyKey purpose : String) (owner : AccountOwner)
    (currency : String) (stripeCount : Option Int64) (metadata : Option Json) :
    Except Invalid OpenAccount :=
  if blank : isBlank tenantId = true then .error ⟨"tenant_id must not be blank"⟩
  else if empty : idempotencyKey = "" then .error ⟨"idempotency_key must not be empty"⟩
  else
    match tenant : validateIdentity tenantId "tenant_id must not contain NUL bytes"
        "tenant_id must be at most 512 bytes" with
    | .error refusal => .error refusal
    | .ok () =>
    match key : validateIdentity idempotencyKey "idempotency_key must not contain NUL bytes"
        "idempotency_key must be at most 512 bytes" with
    | .error refusal => .error refusal
    | .ok () =>
    if blankPurpose : isBlank purpose = true then .error ⟨"purpose must not be blank"⟩
    else
    match named : validateIdentity purpose "purpose must not contain NUL bytes"
        "purpose must be at most 512 bytes" with
    | .error refusal => .error refusal
    | .ok () =>
    if blankOwner : ∃ ownerId ∈ owner.ownerId, isBlank ownerId = true then
      .error ⟨"owner_id must not be blank"⟩
    else
    match owned : validateOwnerId owner.ownerId with
    | .error refusal => .error refusal
    | .ok () =>
    if iso : isCurrency currency = true then
      if window : (stripeCount.all fun stripes => isStripeCount stripes.toInt) = true then
        if object : ∀ value ∈ metadata, value.isObject = true then
          .ok {
            tenantId, idempotencyKey, purpose, currency, metadata
            ownerType := owner.ownerType
            ownerId := owner.ownerId
            stripeCount := stripeCount.map fun stripes => stripes.toInt.toNat
            tenantNotBlank := notBlank_of_not blank
            keyNotEmpty := empty
            tenantIdentity := isIdentity_of_ok tenant
            keyIdentity := isIdentity_of_ok key
            purposeNotBlank := notBlank_of_not blankPurpose
            purposeIdentity := isIdentity_of_ok named
            ownerNotBlank := ownerNotBlank_of_not blankOwner
            ownerIdentity := ownerIdentity_of_ok owned
            currencyIso := iso
            stripesInWindow := stripesInWindow_of_all window
            metadataObject := object }
        else .error ⟨"metadata must be a JSON object"⟩
      else .error ⟨"stripe_count must be between 1 and 1024"⟩
    else .error ⟨"currency must be three uppercase ASCII letters"⟩

/-- An absent value is zero bytes under its length prefix. -/
def textBytes : Option String → List UInt8
  | none => []
  | some text => utf8Bytes text

def stripeBytes : Option Nat → List UInt8
  | none => []
  | some stripes => Bytes.leBytes 2 stripes

def metadataBytes : Option Json → List UInt8
  | none => []
  | some metadata => utf8Bytes (String.ofList metadata.render)

/-- The canonical byte form, under this operation's own version tag. -/
def canonicalBytes (command : OpenAccount) : List UInt8 :=
  utf8Bytes "openledger.account.v1" ++
    Bytes.put (utf8Bytes command.tenantId) ++
    Bytes.put (utf8Bytes command.purpose) ++
    Bytes.put (utf8Bytes command.ownerType.canonical) ++
    Bytes.put (textBytes command.ownerId) ++
    Bytes.put (utf8Bytes command.currency) ++
    Bytes.put (stripeBytes command.stripeCount) ++
    Bytes.put (metadataBytes command.metadata)

def idempotencyHash (sha256 : List UInt8 → List UInt8) (command : OpenAccount) :
    List UInt8 :=
  sha256 command.canonicalBytes

/-- The event payload: the request and not the answer, absences as explicit
nulls. -/
def payload (command : OpenAccount) : Json :=
  Json.objectOf [
    ("version", Json.integer 1),
    ("tenant_id", .string command.tenantId),
    ("idempotency_key", .string command.idempotencyKey),
    ("purpose", .string command.purpose),
    ("owner_type", .string command.ownerType.canonical),
    ("owner_id", Json.ofOption .string command.ownerId),
    ("currency", .string command.currency),
    ("stripe_count", Json.ofOption (fun stripes : Nat => Json.integer stripes)
      command.stripeCount),
    ("metadata", Json.ofOption id command.metadata)]

end OpenAccount

/-- One account as the register holds it. -/
structure Account where
  accountId : Uuid
  ownerType : AccountOwnerType
  ownerId : Option String
  purpose : String
  category : Category
  normalBalance : NormalBalance
  counterpartyScope : CounterpartyScope
  currency : String
  stripeCount : Nat
  metadata : Json
  createdAt : Timestamp

/-- The stored result of an accepted opening. -/
structure AccountOpened where
  eventId : Uuid
  account : Account
  replayed : Bool

end OpenLedger
