import OpenLedger.Postgres.Marshalling

/-!
# What the storage can hold

Neither a text column nor a string inside a document column can hold U+0000.
Every operation binds texts of its own and one document, its payload; an
opening also binds the caller's metadata, which no constructor reads into.
-/

namespace OpenLedger

/-- A text PostgreSQL takes. -/
def NulFree (text : String) : Prop := containsNul text = false

instance (text : String) : Decidable (NulFree text) :=
  inferInstanceAs (Decidable (containsNul text = false))

theorem nulFree_iff {text : String} :
    NulFree text ↔ ∀ character ∈ text.toList, character.toNat ≠ 0 := by
  simp [NulFree, containsNul]

theorem nulFree_ofList {characters : List Char} :
    NulFree (String.ofList characters) ↔ ∀ character ∈ characters, character.toNat ≠ 0 := by
  rw [nulFree_iff, String.toList_ofList]

theorem nulFree_of_isIdentity {text : String} (identity : isIdentity text = true) :
    NulFree text := by
  rw [isIdentity, Bool.and_eq_true, Bool.not_eq_true'] at identity
  exact identity.1

/-- An uppercase code has no byte below the letters'. -/
theorem nulFree_of_isCurrency {currency : String} (iso : isCurrency currency = true) :
    NulFree currency := by
  rw [nulFree_iff]
  intro character member isNul
  rw [isCurrency, Bool.and_eq_true, List.all_eq_true] at iso
  have encoded : String.utf8EncodeChar character = [0] := by
    have isZero : character = Char.ofNat 0 := Char.toNat_inj.mp isNul
    rw [isZero]
    rfl
  have isByte : (0 : UInt8) ∈ utf8Bytes currency := by
    rw [utf8Bytes, List.mem_flatMap]
    exact ⟨character, member, encoded ▸ List.mem_singleton_self _⟩
  have letter := iso.2 0 isByte
  exact absurd letter (by decide)

/-! ## Documents -/

namespace Json

mutual

/-- Every key and every string of a value, at any depth. -/
def texts : Json → List String
  | null => []
  | bool _ => []
  | number _ => []
  | string value => [value]
  | array items => textsOfItems items
  | object members => textsOfMembers members

def textsOfItems : List Json → List String
  | [] => []
  | item :: items => item.texts ++ textsOfItems items

def textsOfMembers : List (String × Json) → List String
  | [] => []
  | (key, value) :: members => key :: (value.texts ++ textsOfMembers members)

end

/-- A document PostgreSQL takes. -/
def NulFree (value : Json) : Prop := ∀ text ∈ value.texts, OpenLedger.NulFree text

instance (value : Json) : Decidable value.NulFree :=
  inferInstanceAs (Decidable (∀ text ∈ value.texts, OpenLedger.NulFree text))

/-- A member of a document PostgreSQL takes. -/
def MemberNulFree (member : String × Json) : Prop :=
  OpenLedger.NulFree member.1 ∧ member.2.NulFree

theorem nulFree_string {value : String} (free : OpenLedger.NulFree value) :
    (string value).NulFree := by
  intro text member
  rw [texts, List.mem_singleton] at member
  rw [member]
  exact free

theorem nulFree_integer (value : Int) : (integer value).NulFree := by
  intro text member
  exact absurd member List.not_mem_nil

theorem nulFree_null : null.NulFree := by
  intro text member
  exact absurd member List.not_mem_nil

theorem nulFree_ofOption {α : Type} {render : α → Json} {value : Option α}
    (free : ∀ given ∈ value, (render given).NulFree) : (ofOption render value).NulFree := by
  cases value with
  | none =>
      exact nulFree_null
  | some given =>
      exact free given rfl

theorem nulFree_array {items : List Json} (free : ∀ item ∈ items, item.NulFree) :
    (array items).NulFree := by
  induction items with
  | nil =>
      intro text member
      exact absurd member List.not_mem_nil
  | cons item items inductionHypothesis =>
      intro text member
      rw [texts, textsOfItems, List.mem_append] at member
      cases member with
      | inl ofItem =>
          exact free item List.mem_cons_self text ofItem
      | inr ofItems =>
          have rest := inductionHypothesis fun other isThere =>
            free other (List.mem_cons_of_mem item isThere)
          exact rest text ofItems

theorem nulFree_object_iff {members : List (String × Json)} :
    (object members).NulFree ↔ ∀ member ∈ members, MemberNulFree member := by
  induction members with
  | nil =>
      constructor
      · intro _ member isThere
        exact absurd isThere List.not_mem_nil
      · intro _ text isThere
        exact absurd isThere List.not_mem_nil
  | cons member members inductionHypothesis =>
      obtain ⟨key, value⟩ := member
      rw [List.forall_mem_cons, ← inductionHypothesis]
      simp only [NulFree, MemberNulFree, texts, textsOfMembers, List.forall_mem_cons,
        List.forall_mem_append, and_assoc]

/-- Inserting a member keeps the others or replaces one. -/
theorem mem_insertMember {key : String} {value : Json} {members : List (String × Json)}
    {member : String × Json} (isThere : member ∈ insertMember key value members) :
    member = (key, value) ∨ member ∈ members := by
  induction members with
  | nil =>
      rw [insertMember, List.mem_singleton] at isThere
      exact Or.inl isThere
  | cons held members inductionHypothesis =>
      obtain ⟨other, kept⟩ := held
      rw [insertMember] at isThere
      by_cases before : key < other
      · rw [if_pos before, List.mem_cons] at isThere
        exact isThere
      · rw [if_neg before] at isThere
        by_cases same : key = other
        · rw [if_pos same, List.mem_cons] at isThere
          exact isThere.imp_right (List.mem_cons_of_mem _)
        · rw [if_neg same, List.mem_cons] at isThere
          cases isThere with
          | inl isHeld =>
              exact Or.inr (isHeld ▸ List.mem_cons_self)
          | inr isInserted =>
              exact (inductionHypothesis isInserted).imp_right (List.mem_cons_of_mem _)

theorem mem_objectOf_fold {members sorted : List (String × Json)} {member : String × Json}
    (isThere : member ∈ members.foldl (fun sorted member =>
      insertMember member.1 member.2 sorted) sorted) :
    member ∈ members ∨ member ∈ sorted := by
  induction members generalizing sorted with
  | nil =>
      exact Or.inr isThere
  | cons first members inductionHypothesis =>
      rw [List.foldl_cons] at isThere
      cases inductionHypothesis isThere with
      | inl isLater =>
          exact Or.inl (List.mem_cons_of_mem first isLater)
      | inr isInserted =>
          cases mem_insertMember isInserted with
          | inl isFirst =>
              exact Or.inl (isFirst ▸ List.mem_cons_self)
          | inr isSorted =>
              exact Or.inr isSorted

theorem nulFree_objectOf {members : List (String × Json)}
    (free : ∀ member ∈ members, MemberNulFree member) : (objectOf members).NulFree := by
  rw [objectOf, nulFree_object_iff]
  intro member isThere
  cases mem_objectOf_fold isThere with
  | inl isMember =>
      exact free member isMember
  | inr isNone =>
      exact absurd isNone List.not_mem_nil

/-- A member under a name of the program's own. -/
theorem memberNulFree {key : String} {value : Json} (free : value.NulFree)
    (named : OpenLedger.NulFree key := by decide) : MemberNulFree (key, value) := ⟨named, free⟩

end Json

/-! ## Texts the program prints -/

theorem toNat_hexDigit_ne {value : Nat} (digit : value < 16) : (Json.hexDigit value).toNat ≠ 0 := by
  have each : ∀ value : Fin 16, (Json.hexDigit value).toNat ≠ 0 := by decide
  exact each ⟨value, digit⟩

theorem nulFree_hyphenated (id : Uuid) : NulFree id.hyphenated := by
  rw [Uuid.hyphenated, nulFree_ofList]
  have digits : ∀ character ∈ id.asBytes.flatMap fun byte =>
      [Json.hexDigit (byte.toNat / 16), Json.hexDigit (byte.toNat % 16)],
      character.toNat ≠ 0 := by
    intro character member
    obtain ⟨byte, _, isDigit⟩ := List.mem_flatMap.mp member
    have bound := byte.toNat_lt
    rw [List.mem_cons, List.mem_singleton] at isDigit
    cases isDigit with
    | inl high =>
        rw [high]
        exact toNat_hexDigit_ne (by omega)
    | inr low =>
        rw [low]
        exact toNat_hexDigit_ne (by omega)
  have taken := fun start length character member =>
    digits character (List.mem_of_mem_drop (i := start) (List.mem_of_mem_take (i := length) member))
  simp only [List.forall_mem_append, List.forall_mem_cons]
  refine ⟨⟨⟨⟨?_, ?_, ?_⟩, ?_, ?_⟩, ?_, ?_⟩, ?_, ?_⟩
  · exact taken 0 8
  · decide
  · exact taken 8 4
  · decide
  · exact taken 12 4
  · decide
  · exact taken 16 4
  · decide
  · intro character member
    exact digits character (List.mem_of_mem_drop member)

theorem toNat_digit_ne (value : Nat) : (Char.ofNat (48 + value % 10)).toNat ≠ 0 := by
  have each : ∀ value : Fin 10, (Char.ofNat (48 + value)).toNat ≠ 0 := by decide
  exact each ⟨value % 10, Nat.mod_lt _ (by decide)⟩

theorem toNat_digits_ne (width value : Nat) :
    ∀ character ∈ Instant.digits width value, character.toNat ≠ 0 := by
  induction width generalizing value with
  | zero =>
      intro character member
      exact absurd member List.not_mem_nil
  | succ width inductionHypothesis =>
      intro character member
      rw [Instant.digits, List.mem_append, List.mem_singleton] at member
      cases member with
      | inl isEarlier =>
          exact inductionHypothesis (value / 10) character isEarlier
      | inr isLast =>
          rw [isLast]
          exact toNat_digit_ne value

theorem toNat_fraction_ne (nanos : Nat) :
    ∀ character ∈ Instant.fraction nanos, character.toNat ≠ 0 := by
  intro character member
  rw [Instant.fraction] at member
  by_cases whole : nanos = 0
  · rw [if_pos whole] at member
    exact absurd member List.not_mem_nil
  · rw [if_neg whole, List.mem_cons] at member
    cases member with
    | inl isPoint =>
        rw [isPoint]
        decide
    | inr isDigit =>
        have kept := (List.dropWhile_sublist _).subset (List.mem_reverse.mp isDigit)
        exact toNat_digits_ne 9 nanos character (List.mem_reverse.mp kept)

theorem toNat_offsetSuffix_ne (offset : Int) :
    ∀ character ∈ Instant.offsetSuffix offset, character.toNat ≠ 0 := by
  intro character member
  rw [Instant.offsetSuffix] at member
  by_cases utc : offset = 0
  · rw [if_pos utc, List.mem_singleton] at member
    rw [member]
    decide
  · rw [if_neg utc] at member
    simp only [List.mem_cons, List.mem_append] at member
    rcases member with isSign | hours | rfl | minutes
    · rw [isSign]
      split <;> decide
    · exact toNat_digits_ne _ _ character hours
    · decide
    · exact toNat_digits_ne _ _ character minutes

/-- An instant's text is digits and separators. -/
theorem nulFree_rfc3339 {instant : OffsetDateTime} {text : String}
    (rendered : instant.rfc3339 = some text) : NulFree text := by
  unfold OffsetDateTime.rfc3339 at rendered
  dsimp only at rendered
  split at rendered
  · rw [← Option.some.inj rendered, nulFree_ofList]
    simp only [List.forall_mem_append, List.forall_mem_cons]
    refine ⟨⟨⟨⟨⟨⟨⟨?_, ?_, ?_⟩, ?_, ?_⟩, ?_, ?_⟩, ?_, ?_⟩, ?_, ?_⟩, ?_⟩, ?_⟩
    all_goals first
      | exact toNat_digits_ne _ _
      | exact toNat_fraction_ne _
      | exact toNat_offsetSuffix_ne _
      | decide
  · cases rendered

/-! ## What each operation binds -/

/-- The text parameters of an operation's statements and their documents. -/
structure Bound where
  texts : List String
  documents : List Json

def Bound.NulFree (bound : Bound) : Prop :=
  (∀ text ∈ bound.texts, OpenLedger.NulFree text) ∧
    ∀ document ∈ bound.documents, document.NulFree

instance (bound : Bound) : Decidable bound.NulFree :=
  inferInstanceAs (Decidable (_ ∧ _))

namespace Category

def asStored : Category → String
  | asset => "asset"
  | liability => "liability"
  | equity => "equity"
  | revenue => "revenue"
  | expense => "expense"

end Category

def NormalBalance.asStored : NormalBalance → String
  | .debit => "debit"
  | .credit => "credit"

def CounterpartyScope.asStored : CounterpartyScope → String
  | .none => "none"
  | .shared => "shared"
  | .perShard => "per_shard"

/-- Every leg and every delta carries its posting's currency. -/
def PostTransaction.bound (command : PostTransaction) : Bound where
  texts := [command.tenantId, command.idempotencyKey, command.status.canonical,
    Postgres.directionAsStored .debit, Postgres.directionAsStored .credit] ++
      command.postings.map Posting.currency
  documents := command.payload.toOption.toList

/-- The chart's words are bound beside the caller's. -/
def OpenAccount.bound (triple : ChartTriple) (command : OpenAccount) : Bound where
  texts := [command.tenantId, command.idempotencyKey, command.ownerType.canonical,
    command.purpose, triple.category.asStored, triple.normalBalance.asStored,
    triple.counterpartyScope.asStored, command.currency] ++ command.ownerId.toList
  documents := command.payload :: command.metadata.toList

def DefinePeriod.bound (command : DefinePeriod) : Bound where
  texts := [command.tenantId, command.idempotencyKey, command.code, command.tz]
  documents := command.payload.toOption.toList

def ClosePeriod.bound (command : ClosePeriod) : Bound where
  texts := [command.tenantId, command.idempotencyKey, command.periodCode, command.currency]
  documents := [command.payload]

theorem nulFree_canonical (status : TransactionStatus) : NulFree status.canonical := by
  cases status with
  | pending => decide
  | posted => decide

theorem AccountOwnerType.nulFree_canonical (ownerType : AccountOwnerType) :
    NulFree ownerType.canonical := by
  cases ownerType with
  | company => decide
  | platform => decide
  | bankAccount => decide
  | house => decide

theorem ChartTriple.nulFree_asStored (triple : ChartTriple) :
    NulFree triple.category.asStored ∧ NulFree triple.normalBalance.asStored ∧
      NulFree triple.counterpartyScope.asStored := by
  have categories : ∀ category : Category, NulFree category.asStored := by
    intro category
    cases category <;> decide
  have balances : ∀ balance : NormalBalance, NulFree balance.asStored := by
    intro balance
    cases balance <;> decide
  have scopes : ∀ scope : CounterpartyScope, NulFree scope.asStored := by
    intro scope
    cases scope <;> decide
  exact ⟨categories _, balances _, scopes _⟩

open Json in
theorem PostTransaction.nulFree_postingPayload (posting : Posting) :
    (postingPayload posting).NulFree := by
  apply nulFree_objectOf
  simp only [List.forall_mem_cons, List.not_mem_nil, false_implies, implies_true, and_true]
  refine ⟨?_, ?_, ?_, ?_⟩
  · exact memberNulFree (nulFree_string (nulFree_hyphenated posting.source))
  · exact memberNulFree (nulFree_string (nulFree_hyphenated posting.destination))
  · exact memberNulFree (nulFree_integer posting.amountMinor)
  · exact memberNulFree (nulFree_string (nulFree_of_isCurrency posting.currencyIso))

open Json in
/-- A posting's payload is its own texts, its ids and its instant's text. -/
theorem PostTransaction.nulFree_payload {command : PostTransaction} {payload : Json}
    (rendered : command.payload = .ok payload) : payload.NulFree := by
  have build : ∀ effective : Json, effective.NulFree → (objectOf [
      ("version", Json.integer 1),
      ("tenant_id", .string command.tenantId),
      ("idempotency_key", .string command.idempotencyKey),
      ("effective_at", effective),
      ("status", .string command.status.canonical),
      ("resolves_id", Json.ofOption Uuid.toJson command.resolvesId),
      ("reverses_id", Json.ofOption Uuid.toJson command.reversesId),
      ("postings", .array (command.postings.map postingPayload))]).NulFree := by
    intro effective dated
    apply nulFree_objectOf
    simp only [List.forall_mem_cons, List.not_mem_nil, false_implies, implies_true, and_true]
    refine ⟨?_, ?_, ?_, ?_, ?_, ?_, ?_, ?_⟩
    · exact memberNulFree (nulFree_integer 1)
    · exact memberNulFree (nulFree_string (nulFree_of_isIdentity command.tenantIdentity))
    · exact memberNulFree (nulFree_string (nulFree_of_isIdentity command.keyIdentity))
    · exact memberNulFree dated
    · exact memberNulFree (nulFree_string (nulFree_canonical command.status))
    · exact memberNulFree (nulFree_ofOption fun id _ => nulFree_string (nulFree_hyphenated id))
    · exact memberNulFree (nulFree_ofOption fun id _ => nulFree_string (nulFree_hyphenated id))
    · refine memberNulFree (nulFree_array ?_)
      intro item member
      obtain ⟨posting, _, isItem⟩ := List.mem_map.mp member
      rw [← isItem]
      exact nulFree_postingPayload posting
  unfold PostTransaction.payload at rendered
  cases given : command.effectiveAt with
  | none =>
      rw [given] at rendered
      rw [← Except.ok.inj rendered]
      exact build _ nulFree_null
  | some instant =>
      simp only [given] at rendered
      cases hasText : instant.rfc3339 with
      | none =>
          rw [hasText] at rendered
          cases rendered
      | some text =>
          rw [hasText] at rendered
          rw [← Except.ok.inj rendered]
          exact build _ (nulFree_string (nulFree_rfc3339 hasText))

open Json in
theorem DefinePeriod.nulFree_boundPayload {instant : OffsetDateTime} {document : Json}
    (rendered : boundPayload instant = .ok document) : document.NulFree := by
  unfold boundPayload at rendered
  cases hasText : instant.rfc3339 with
  | none =>
      rw [hasText] at rendered
      cases rendered
  | some text =>
      rw [hasText] at rendered
      rw [← Except.ok.inj rendered]
      exact nulFree_string (nulFree_rfc3339 hasText)

open Json in
theorem DefinePeriod.nulFree_payload {command : DefinePeriod} {payload : Json}
    (rendered : command.payload = .ok payload) : payload.NulFree := by
  unfold DefinePeriod.payload at rendered
  cases starts : boundPayload command.startsAt with
  | error refusal =>
      rw [starts] at rendered
      cases rendered
  | ok startsAt =>
      cases ends : boundPayload command.endsAt with
      | error refusal =>
          rw [starts, ends] at rendered
          cases rendered
      | ok endsAt =>
          rw [starts, ends] at rendered
          rw [← Except.ok.inj rendered]
          apply nulFree_objectOf
          simp only [List.forall_mem_cons, List.not_mem_nil, false_implies, implies_true, and_true]
          refine ⟨?_, ?_, ?_, ?_, ?_, ?_, ?_⟩
          · exact memberNulFree (nulFree_integer 1)
          · exact memberNulFree (nulFree_string (nulFree_of_isIdentity command.tenantIdentity))
          · exact memberNulFree (nulFree_string (nulFree_of_isIdentity command.keyIdentity))
          · exact memberNulFree (nulFree_string (nulFree_of_isIdentity command.codeIdentity))
          · exact memberNulFree (nulFree_boundPayload starts)
          · exact memberNulFree (nulFree_boundPayload ends)
          · exact memberNulFree (nulFree_string (nulFree_of_isIdentity command.tzIdentity))

open Json in
theorem ClosePeriod.nulFree_payload (command : ClosePeriod) : command.payload.NulFree := by
  apply nulFree_objectOf
  simp only [List.forall_mem_cons, List.not_mem_nil, false_implies, implies_true, and_true]
  refine ⟨?_, ?_, ?_, ?_, ?_⟩
  · exact memberNulFree (nulFree_integer 1)
  · exact memberNulFree (nulFree_string (nulFree_of_isIdentity command.tenantIdentity))
  · exact memberNulFree (nulFree_string (nulFree_of_isIdentity command.keyIdentity))
  · exact memberNulFree (nulFree_string (nulFree_of_isIdentity command.codeIdentity))
  · exact memberNulFree (nulFree_string (nulFree_of_isCurrency command.currencyIso))

open Json in
/-- An opening's payload adds the caller's metadata, as it came. -/
theorem OpenAccount.nulFree_payload {command : OpenAccount}
    (free : ∀ metadata ∈ command.metadata, metadata.NulFree) : command.payload.NulFree := by
  apply nulFree_objectOf
  simp only [List.forall_mem_cons, List.not_mem_nil, false_implies, implies_true, and_true]
  refine ⟨?_, ?_, ?_, ?_, ?_, ?_, ?_, ?_, ?_⟩
  · exact memberNulFree (nulFree_integer 1)
  · exact memberNulFree (nulFree_string (nulFree_of_isIdentity command.tenantIdentity))
  · exact memberNulFree (nulFree_string (nulFree_of_isIdentity command.keyIdentity))
  · exact memberNulFree (nulFree_string (nulFree_of_isIdentity command.purposeIdentity))
  · exact memberNulFree (nulFree_string command.ownerType.nulFree_canonical)
  · exact memberNulFree (nulFree_ofOption fun owner given =>
      nulFree_string (nulFree_of_isIdentity (command.ownerIdentity owner given)))
  · exact memberNulFree (nulFree_string (nulFree_of_isCurrency command.currencyIso))
  · exact memberNulFree (nulFree_ofOption fun stripes _ => nulFree_integer stripes)
  · exact memberNulFree (nulFree_ofOption free)

theorem PostTransaction.nulFree_bound (command : PostTransaction) : command.bound.NulFree := by
  constructor
  · intro text member
    rw [PostTransaction.bound, List.mem_append] at member
    cases member with
    | inl isOwn =>
        revert text
        simp only [List.forall_mem_cons, List.not_mem_nil, false_implies, implies_true, and_true]
        exact ⟨nulFree_of_isIdentity command.tenantIdentity,
          nulFree_of_isIdentity command.keyIdentity, nulFree_canonical command.status,
          by decide, by decide⟩
    | inr isCurrency =>
        obtain ⟨posting, _, isText⟩ := List.mem_map.mp isCurrency
        rw [← isText]
        exact nulFree_of_isCurrency posting.currencyIso
  · intro document member
    cases rendered : command.payload with
    | error refusal =>
        rw [PostTransaction.bound, rendered] at member
        exact absurd member List.not_mem_nil
    | ok payload =>
        rw [PostTransaction.bound, rendered] at member
        rw [List.mem_singleton.mp member]
        exact nulFree_payload rendered

theorem DefinePeriod.nulFree_bound (command : DefinePeriod) : command.bound.NulFree := by
  constructor
  · simp only [DefinePeriod.bound, List.forall_mem_cons, List.not_mem_nil, false_implies,
      implies_true, and_true]
    exact ⟨nulFree_of_isIdentity command.tenantIdentity,
      nulFree_of_isIdentity command.keyIdentity, nulFree_of_isIdentity command.codeIdentity,
      nulFree_of_isIdentity command.tzIdentity⟩
  · intro document member
    cases rendered : command.payload with
    | error refusal =>
        rw [DefinePeriod.bound, rendered] at member
        exact absurd member List.not_mem_nil
    | ok payload =>
        rw [DefinePeriod.bound, rendered] at member
        rw [List.mem_singleton.mp member]
        exact nulFree_payload rendered

theorem ClosePeriod.nulFree_bound (command : ClosePeriod) : command.bound.NulFree := by
  constructor
  · simp only [ClosePeriod.bound, List.forall_mem_cons, List.not_mem_nil, false_implies,
      implies_true, and_true]
    exact ⟨nulFree_of_isIdentity command.tenantIdentity,
      nulFree_of_isIdentity command.keyIdentity, nulFree_of_isIdentity command.codeIdentity,
      nulFree_of_isCurrency command.currencyIso⟩
  · intro document member
    rw [List.mem_singleton.mp member]
    exact command.nulFree_payload

theorem OpenAccount.nulFree_bound_iff (triple : ChartTriple) (command : OpenAccount) :
    (command.bound triple).NulFree ↔ ∀ metadata ∈ command.metadata, metadata.NulFree := by
  constructor
  · intro free metadata given
    have bound : metadata ∈ (command.bound triple).documents := by
      rw [OpenAccount.bound]
      exact List.mem_cons_of_mem _ (Option.mem_toList.mpr given)
    exact free.2 metadata bound
  · intro free
    constructor
    · intro text member
      rw [OpenAccount.bound, List.mem_append] at member
      cases member with
      | inl isOwn =>
          have words := triple.nulFree_asStored
          revert text
          simp only [List.forall_mem_cons, List.not_mem_nil, false_implies, implies_true,
            and_true]
          exact ⟨nulFree_of_isIdentity command.tenantIdentity,
            nulFree_of_isIdentity command.keyIdentity, command.ownerType.nulFree_canonical,
            nulFree_of_isIdentity command.purposeIdentity, words.1, words.2.1, words.2.2,
            nulFree_of_isCurrency command.currencyIso⟩
      | inr isOwner =>
          exact nulFree_of_isIdentity (command.ownerIdentity text (Option.mem_toList.mp isOwner))
    · intro document member
      rw [OpenAccount.bound, List.mem_cons] at member
      cases member with
      | inl isPayload =>
          rw [isPayload]
          exact nulFree_payload free
      | inr isMetadata =>
          exact free document (Option.mem_toList.mp isMetadata)

/-- Every text and every document of an admitted command is one the storage takes,
but for an opening's, which are exactly when its metadata is. -/
theorem admitted_commands_are_storable (triple : ChartTriple) :
    (∀ command : PostTransaction, command.bound.NulFree) ∧
    (∀ command : DefinePeriod, command.bound.NulFree) ∧
    (∀ command : ClosePeriod, command.bound.NulFree) ∧
    ∀ command : OpenAccount,
      (command.bound triple).NulFree ↔ ∀ metadata ∈ command.metadata, metadata.NulFree :=
  ⟨PostTransaction.nulFree_bound, DefinePeriod.nulFree_bound, ClosePeriod.nulFree_bound,
    OpenAccount.nulFree_bound_iff triple⟩

namespace Shop

/-- A note that is one U+0000. -/
def nulNote : Json := .object [("note", .string (String.singleton (Char.ofNat 0)))]

def notedTill : OpenAccount :=
  (OpenAccount.new "shop" "noted" "till" ⟨.house, none⟩ "USD" none (some nulNote)).toOption.get
    (by decide +kernel)

/-- The constructor admits it, and neither the column nor the payload can hold it. -/
theorem notedTill_not_storable :
    notedTill.metadata = some nulNote ∧ ¬ nulNote.NulFree ∧ ¬ notedTill.payload.NulFree ∧
      ¬ (notedTill.bound ⟨.asset, .debit, .none⟩).NulFree := by
  have given : notedTill.metadata = some nulNote := rfl
  refine ⟨given, by decide +kernel, by decide +kernel, ?_⟩
  intro free
  have bound : nulNote ∈ (notedTill.bound ⟨.asset, .debit, .none⟩).documents :=
    List.mem_cons_of_mem _ (Option.mem_toList.mpr given)
  exact absurd (free.2 nulNote bound) (by decide +kernel)

end Shop

end OpenLedger
