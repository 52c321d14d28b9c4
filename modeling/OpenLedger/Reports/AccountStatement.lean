import OpenLedger.Reports.Cursor
import OpenLedger.Schema

/-!
# An account's statement

The two orders a page of an account's entries can be in, the key a page hands
back, and the two statements that read a page.  Every bound is a value: a first
page starts at the bottom of the order, and an absent date bound is an infinity.
-/

namespace OpenLedger

/-- Which of the two time axes orders an account statement. -/
inductive StatementAxis where
  /-- Commit order. -/
  | recorded
  /-- Business order. -/
  | effective
deriving DecidableEq, Repr

namespace StatementAxis

def parse (text : String) : Option StatementAxis :=
  if text = "recorded" then some recorded
  else if text = "effective" then some effective
  else none

def named : StatementAxis → String
  | recorded => "recorded"
  | effective => "effective"

end StatementAxis

/-- The ordering key of the last entry on a page. -/
inductive StatementKey where
  | recorded (xactId : Cursor) (entryId : Uuid)
  | effective (effectiveAt : OffsetDateTime) (xactId : Cursor) (entryId : Uuid)
deriving DecidableEq, Repr

namespace StatementKey

/-- Fields with a comma between them. -/
def commaSeparated (fields : List (List Char)) : String :=
  String.ofList ([','].intercalate fields)

/-- The key as text, for the `next_after` a page hands back. -/
def rendered : StatementKey → String
  | recorded xactId entryId =>
      commaSeparated [xactId.text.toList, entryId.hyphenated.toList]
  | effective effectiveAt xactId entryId =>
      commaSeparated
        [Decimal.render effectiveAt.nanos, xactId.text.toList, entryId.hyphenated.toList]

/-- `i128::from_str`. -/
def parseNanos (text : List Char) : Option Int :=
  Decimal.readSigned 170141183460469231731687303715884105728
    170141183460469231731687303715884105727 text

/-- A key a caller sent back, read against the axis they are paging. -/
def parse (parseUuid : String → Option Uuid) (text : String) (axis : StatementAxis) :
    Option StatementKey :=
  match axis, text.toList.splitOn ',' with
  | .recorded, [xactId, entryId] => do
      let xactId ← Cursor.parse (String.ofList xactId)
      let entryId ← parseUuid (String.ofList entryId)
      return recorded xactId entryId
  | .effective, [effectiveAt, xactId, entryId] => do
      let nanos ← parseNanos effectiveAt
      let effectiveAt ← OffsetDateTime.fromUnixTimestampNanos nanos
      let xactId ← Cursor.parse (String.ofList xactId)
      let entryId ← parseUuid (String.ofList entryId)
      return effective effectiveAt xactId entryId
  | _, _ => none

section RoundTrip

variable {parseUuid : String → Option Uuid}

theorem comma_not_mem_text (xactId : Cursor) : ',' ∉ xactId.text.toList := by
  intro member
  rw [Cursor.text, String.toList_ofList] at member
  have isDigit := (Decimal.Spells.toDigits xactId.val).allDigits ',' member
  exact absurd isDigit (by decide)

theorem comma_not_mem_render (value : Int) : ',' ∉ Decimal.render value := by
  intro member
  rcases Decimal.mem_render member with isDigit | isMinus
  · exact absurd isDigit (by decide)
  · exact absurd isMinus (by decide)

theorem hexDigit_ne_comma : ∀ value < 16, Json.hexDigit value ≠ ',' := by decide

theorem comma_not_mem_hyphenated (id : Uuid) : ',' ∉ id.hyphenated.toList := by
  have noComma : ',' ∉ id.asBytes.flatMap fun byte =>
      [Json.hexDigit (byte.toNat / 16), Json.hexDigit (byte.toNat % 16)] := by
    intro member
    obtain ⟨byte, _, isHex⟩ := List.mem_flatMap.mp member
    have small : byte.toNat < 256 := byte.toNat_lt
    simp only [List.mem_cons, List.not_mem_nil, or_false] at isHex
    rcases isHex with isHigh | isLow
    · exact hexDigit_ne_comma _ (by omega) isHigh.symm
    · exact hexDigit_ne_comma _ (by omega) isLow.symm
  have notHyphen : ',' ≠ '-' := by decide
  intro member
  rw [Uuid.hyphenated, String.toList_ofList] at member
  simp only [List.mem_append, List.mem_cons, notHyphen, false_or] at member
  rcases member with (((first | second) | third) | fourth) | fifth
  · exact noComma (List.mem_of_mem_take first)
  · exact noComma (List.mem_of_mem_drop (List.mem_of_mem_take second))
  · exact noComma (List.mem_of_mem_drop (List.mem_of_mem_take third))
  · exact noComma (List.mem_of_mem_drop (List.mem_of_mem_take fourth))
  · exact noComma (List.mem_of_mem_drop fifth)

theorem splitOn_commaSeparated {fields : List (List Char)} (nonEmpty : fields ≠ [])
    (noComma : ∀ field ∈ fields, ',' ∉ field) :
    (commaSeparated fields).toList.splitOn ',' = fields := by
  rw [commaSeparated, String.toList_ofList]
  exact List.splitOn_intercalate ',' noComma nonEmpty

/-- A key of commit order reads back from its text. -/
theorem parse_rendered_recorded (readsUuid : ∀ id : Uuid, parseUuid id.hyphenated = some id)
    (xactId : Cursor) (entryId : Uuid) :
    parse parseUuid (recorded xactId entryId).rendered .recorded =
      some (recorded xactId entryId) := by
  have split := @splitOn_commaSeparated [xactId.text.toList, entryId.hyphenated.toList]
    (List.cons_ne_nil _ _) (by
      simp only [List.mem_cons, List.not_mem_nil, or_false]
      rintro field (rfl | rfl)
      · exact comma_not_mem_text xactId
      · exact comma_not_mem_hyphenated entryId)
  unfold parse rendered
  dsimp only
  rw [split]
  simp [readsUuid]

/-- A key of business order reads back from its text, its instant being one an
RFC 3339 text can hold. -/
theorem parse_rendered_effective (readsUuid : ∀ id : Uuid, parseUuid id.hyphenated = some id)
    {nanos : Int} (renders : (⟨nanos, 0⟩ : OffsetDateTime).rfc3339.isSome = true)
    (xactId : Cursor) (entryId : Uuid) :
    parse parseUuid (effective ⟨nanos, 0⟩ xactId entryId).rendered .effective =
      some (effective ⟨nanos, 0⟩ xactId entryId) := by
  have split := @splitOn_commaSeparated
    [Decimal.render nanos, xactId.text.toList, entryId.hyphenated.toList]
    (List.cons_ne_nil _ _) (by
      simp only [List.mem_cons, List.not_mem_nil, or_false]
      rintro field (rfl | rfl | rfl)
      · exact comma_not_mem_render nanos
      · exact comma_not_mem_text xactId
      · exact comma_not_mem_hyphenated entryId)
  have bounds := OffsetDateTime.nanos_of_rfc3339 renders
  have readsNanos : parseNanos (Decimal.render nanos) = some nanos :=
    Decimal.readSigned_render (by omega) (by omega)
  unfold parse rendered
  dsimp only
  rw [split]
  simp [readsUuid, readsNanos, OffsetDateTime.fromUnixTimestampNanos_of_rfc3339 renders]

end RoundTrip

end StatementKey

/-- `THE_BOTTOM_OF_THE_COMMIT_ORDER`. -/
def bottomOfTheCommitOrder : Xid := 0

/-- `the_bottom_of_the_entry_order()`: the nil uuid. -/
def bottomOfTheEntryOrder : Uuid := 0

/-- `(xact_id, id)`. -/
def EntryRow.recordedRank (e : EntryRow) : Xid ×ₗ Uuid := toLex (e.xactId, e.id)

/-- `(effective_at, xact_id, id)`. -/
def EntryRow.effectiveRank (e : EntryRow) : Timestamp ×ₗ Xid ×ₗ Uuid :=
  toLex (e.effectiveAt, toLex (e.xactId, e.id))

/-- What a page by recorded order binds beyond its account. -/
structure RecordedPage where
  cursor : Xid
  afterXact : Xid
  afterEntry : Uuid
  limit : Nat

/-- The `WHERE` of `ACCOUNT_STATEMENT_BY_RECORDED`. -/
def RecordedPage.keeps (page : RecordedPage) (tenantId : String) (accountId : Uuid)
    (e : EntryRow) : Bool :=
  decide (e.tenantId = tenantId) && decide (e.accountId = accountId) &&
    decide (e.xactId < page.cursor) && decide (page.afterXact ≤ e.xactId) &&
    (decide (page.afterXact < e.xactId) ||
      (decide (e.xactId = page.afterXact) && decide (page.afterEntry < e.id)))

/-- What a page by effective order binds beyond its account. -/
structure EffectivePage where
  cursor : Xid
  effectiveFrom : ReportInstant
  effectiveTo : ReportInstant
  afterEffective : ReportInstant
  afterXact : Xid
  afterEntry : Uuid
  limit : Nat

/-- The `WHERE` of `ACCOUNT_STATEMENT_BY_EFFECTIVE`. -/
def EffectivePage.keeps (page : EffectivePage) (tenantId : String) (accountId : Uuid)
    (e : EntryRow) : Bool :=
  decide (e.tenantId = tenantId) && decide (e.accountId = accountId) &&
    decide (e.xactId < page.cursor) && page.effectiveFrom.isReachedBy e.effectiveAt &&
    page.effectiveTo.isAfter e.effectiveAt && page.afterEffective.isReachedBy e.effectiveAt &&
    (page.afterEffective.isBefore e.effectiveAt ||
      (page.afterEffective.isAt e.effectiveAt &&
        (decide (page.afterXact < e.xactId) ||
          (decide (e.xactId = page.afterXact) && decide (page.afterEntry < e.id)))))

/-- One row of an account statement's answer: the account, and an entry beside
its transaction's status unless the join found none. -/
structure AccountStatementSqlRow where
  accountId : Uuid
  entry : Option EntryRow
  status : Option TransactionStatus

/-- The `LEFT JOIN LATERAL` of a page to the account register. -/
def statementSqlRows (book : Book) (tenantId : String) (accountId : Uuid)
    (page : List EntryRow) : List AccountStatementSqlRow :=
  (book.accounts.filter fun a =>
      decide (a.tenantId = tenantId) && decide (a.id = accountId)).flatMap fun a =>
    if page.isEmpty then [⟨a.id, none, none⟩]
    else page.map fun e => ⟨a.id, some e, book.statusOf e⟩

/-- `ACCOUNT_STATEMENT_BY_RECORDED`. -/
def accountStatementByRecorded (book : Book) (tenantId : String) (accountId : Uuid)
    (page : RecordedPage) : List AccountStatementSqlRow :=
  statementSqlRows book tenantId accountId <|
    (((book.entries.filter (page.keeps tenantId accountId)).insertionSort
      fun left right => left.recordedRank ≤ right.recordedRank)).take page.limit

/-- `ACCOUNT_STATEMENT_BY_EFFECTIVE`. -/
def accountStatementByEffective (book : Book) (tenantId : String) (accountId : Uuid)
    (page : EffectivePage) : List AccountStatementSqlRow :=
  statementSqlRows book tenantId accountId <|
    (((book.entries.filter (page.keeps tenantId accountId)).insertionSort
      fun left right => left.effectiveRank ≤ right.effectiveRank)).take page.limit

/-- One entry of an account's statement. -/
structure AccountStatementEntry where
  entryId : Uuid
  transactionId : Uuid
  status : TransactionStatus
  direction : Direction
  amountMinor : Int
  currency : String
  effectiveAt : OffsetDateTime
  accountSeq : Int
  xactId : Cursor
deriving DecidableEq, Repr

end OpenLedger
