import OpenLedger.Json
import OpenLedger.Lib.Decimal
import OpenLedger.Reports.Service

/-!
# The amount a caller writes

An amount travels as text.  The dashboard judges what is typed into a form by a
pattern and an exact integer, the API judges the body by a scan over bytes and
a 64-bit parse, and a posting then asks for a positive amount.
-/

namespace OpenLedger

/-- What can be wrong with an amount. -/
inductive AmountRefusal where
  | notAnExactInteger
  | outsideTheRange
  | notPositive
deriving DecidableEq, Repr

/-- The sentence an amount is refused with, around the text as it is quoted. -/
def AmountRefusal.sentence (quoted : String) : AmountRefusal → String
  | .notAnExactInteger =>
      "amount_minor " ++ quoted ++ " is not an exact integer: send minor units as a decimal " ++
        "string of digits, optionally signed, with no leading plus, no whitespace, no " ++
        "decimal point and no exponent"
  | .outsideTheRange =>
      "amount_minor " ++ quoted ++ " is outside the range of 64-bit minor units, which is " ++
        "what ledger_entries.amount_minor holds"
  | .notPositive => "amount_minor must be positive"

/-- The text after a leading minus, if it has one. -/
def stripMinus (text : List Char) : Option (List Char) :=
  if text.head? = some '-' then some text.tail else none

/-- `is_ascii_digit`. -/
def isAsciiDigit (byte : UInt8) : Bool := 48 ≤ byte.toNat && byte.toNat ≤ 57

/-- `checked_mul` on 64 bits. -/
def checkedMul (left right : Int) : Option Int :=
  if i64Min ≤ left * right ∧ left * right ≤ i64Max then some (left * right) else none

/-- `checked_sub` on 64 bits. -/
def checkedSub (left right : Int) : Option Int :=
  if i64Min ≤ left - right ∧ left - right ≤ i64Max then some (left - right) else none

/-- One more digit of a number read so far: a negative one is read downwards. -/
def i64Digit (negative : Bool) (result : Int) (byte : UInt8) : Option Int :=
  (checkedMul result 10).bind fun tens =>
    if isAsciiDigit byte then
      let digit : Int := byte.toNat - 48
      if negative then checkedSub tens digit else checkedAdd tens digit
    else none

/-- `str::parse::<i64>`. -/
def i64FromStr (text : String) : Option Int :=
  let bytes := utf8Bytes text
  if bytes = [] ∨ bytes = [43] ∨ bytes = [45] then none
  else if bytes.head? = some 43 then bytes.tail.foldlM (i64Digit false) 0
  else if bytes.head? = some 45 then bytes.tail.foldlM (i64Digit true) 0
  else bytes.foldlM (i64Digit false) 0

/-- The API's parse: digits after at most a minus, and a 64-bit value.  It does
not judge the sign. -/
def minorUnits (text : String) : Except Invalid Int64 :=
  let digits := (stripMinus text.toList).getD text.toList
  if digits = [] ∨ (utf8Bytes (String.ofList digits)).all isAsciiDigit = false then
    .error ⟨AmountRefusal.notAnExactInteger.sentence (debugText text)⟩
  else
    match i64FromStr text with
    | some amount => .ok (Int64.ofInt amount)
    | none => .error ⟨AmountRefusal.outsideTheRange.sentence (debugText text)⟩

/-- One posting of a request's body. -/
def postingOfBody (source destination : Uuid) (amountMinor currency : String) :
    Except Invalid Posting := do
  let amount ← minorUnits amountMinor
  Posting.new source destination amount currency

/-- `/^-?[0-9]+$/`. -/
def isAmountPattern (text : String) : Bool :=
  let digits := (stripMinus text.toList).getD text.toList
  !digits.isEmpty && digits.all fun character =>
    48 ≤ character.toNat && character.toNat ≤ 57

/-- `BigInt` of a text the pattern admits. -/
def bigInt (text : String) : Int :=
  match stripMinus text.toList with
  | some digits => -(Nat.ofDigitChars 10 digits 0 : Int)
  | none => Nat.ofDigitChars 10 text.toList 0

/-- The dashboard's judgement, which sends the text it was given. -/
def minorUnitsToPost (text : String) : Except String String :=
  let quoted := String.ofList (Json.renderString text)
  if isAmountPattern text = false then
    .error (AmountRefusal.notAnExactInteger.sentence quoted)
  else if bigInt text < i64Min ∨ i64Max < bigInt text then
    .error (AmountRefusal.outsideTheRange.sentence quoted)
  else if bigInt text ≤ 0 then .error (AmountRefusal.notPositive.sentence quoted)
  else .ok text

/-- The integer a text spells: a run of digits after at most a minus. -/
def SpellsInteger (text : List Char) (value : Int) : Prop :=
  ∃ digits magnitude, Decimal.Spells digits magnitude ∧
    (text = digits ∧ value = magnitude ∨ text = '-' :: digits ∧ value = -magnitude)

/-- A magnitude under its sign. -/
def signed (negative : Bool) (magnitude : Nat) : Int :=
  if negative then -(magnitude : Int) else magnitude

section Text

variable {text : List Char} {digits : List Char} {magnitude : Nat}

theorem stripMinus_cons (digits : List Char) : stripMinus ('-' :: digits) = some digits := by
  simp [stripMinus]

theorem stripMinus_of_spells (spells : Decimal.Spells digits magnitude) :
    stripMinus digits = none := by
  cases digits with
  | nil =>
      rfl
  | cons character rest =>
      have notMinus := spells.head.2
      simp [stripMinus, notMinus]

theorem eq_of_stripMinus (stripped : stripMinus text = some digits) : text = '-' :: digits := by
  unfold stripMinus at stripped
  cases text with
  | nil =>
      cases stripped
  | cons character rest =>
      simp only [List.head?_cons, Option.some.injEq, List.tail_cons,
        Option.ite_none_right_eq_some] at stripped
      rw [stripped.1, stripped.2]

/-- Both sides strip a minus and look at what is left. -/
theorem spellsInteger_iff {value : Int} :
    SpellsInteger text value ↔
      ∃ magnitude, Decimal.Spells ((stripMinus text).getD text) magnitude ∧
        value = signed (stripMinus text).isSome magnitude := by
  constructor
  · intro spelled
    obtain ⟨digits, magnitude, spells, isText⟩ := spelled
    rcases isText with plain | minus
    · obtain ⟨rfl, rfl⟩ := plain
      rw [stripMinus_of_spells spells]
      exact ⟨magnitude, spells, rfl⟩
    · obtain ⟨rfl, rfl⟩ := minus
      rw [stripMinus_cons]
      exact ⟨magnitude, spells, rfl⟩
  · intro left
    obtain ⟨magnitude, spells, isValue⟩ := left
    cases stripped : stripMinus text with
    | none =>
        rw [stripped] at spells isValue
        exact ⟨text, magnitude, spells, Or.inl ⟨rfl, isValue⟩⟩
    | some digits =>
        rw [stripped] at spells isValue
        exact ⟨digits, magnitude, spells, Or.inr ⟨eq_of_stripMinus stripped, isValue⟩⟩

/-- An integer is rendered as a text that spells it. -/
theorem spellsInteger_render (value : Int) : SpellsInteger (Decimal.render value) value := by
  cases value with
  | ofNat magnitude =>
      exact ⟨_, magnitude, Decimal.Spells.toDigits magnitude, Or.inl ⟨rfl, rfl⟩⟩
  | negSucc less =>
      exact ⟨_, less + 1, Decimal.Spells.toDigits (less + 1), Or.inr ⟨rfl, rfl⟩⟩

theorem isDigit_eq (character : Char) :
    character.isDigit = (48 ≤ character.toNat && character.toNat ≤ 57 : Bool) := by
  have asNat := Char.isDigit_iff_toNat (c := character)
  have zero : '0'.toNat = 48 := by decide
  have nine : '9'.toNat = 57 := by decide
  rw [zero, nine] at asNat
  rw [Bool.eq_iff_iff, asNat]
  simp

/-- The bytes of a character are digits when it is one, and its only byte is
its code then. -/
theorem utf8EncodeChar_all_isAsciiDigit (character : Char) :
    (String.utf8EncodeChar character).all isAsciiDigit = character.isDigit := by
  rw [isDigit_eq]
  have code : character.toNat = character.val.toNat := rfl
  by_cases ascii : character.val.toNat ≤ 127
  · have byte : (UInt8.ofNat character.val.toNat).toNat = character.val.toNat := by
      rw [UInt8.toNat_ofNat']
      omega
    simp only [String.utf8EncodeChar, if_pos ascii, List.all_cons, List.all_nil,
      Bool.and_true, isAsciiDigit, byte, code]
  · have notDigit : ¬ character.toNat ≤ 57 := by omega
    have led : ∀ (marker : Nat) (rest : List UInt8), 128 ≤ marker → marker < 256 →
        (UInt8.ofNat marker :: rest).all isAsciiDigit = false := by
      intro marker rest above below
      have byte : (UInt8.ofNat marker).toNat = marker := by
        rw [UInt8.toNat_ofNat']
        omega
      have outside : ¬ marker ≤ 57 := by omega
      simp [isAsciiDigit, byte, outside]
    simp only [String.utf8EncodeChar, if_neg ascii, notDigit, decide_false, Bool.and_false]
    split
    · exact led _ _ (by omega) (by omega)
    · split
      · exact led _ _ (by omega) (by omega)
      · exact led _ _ (by omega) (by omega)

theorem utf8EncodeChar_of_isDigit {character : Char} (isDigit : character.isDigit = true) :
    String.utf8EncodeChar character = [UInt8.ofNat character.toNat] := by
  rw [isDigit_eq] at isDigit
  simp only [Bool.and_eq_true, decide_eq_true_eq] at isDigit
  have ascii : character.val.toNat ≤ 127 := by
    have code : character.toNat = character.val.toNat := rfl
    omega
  simp only [String.utf8EncodeChar, if_pos ascii]
  rfl

theorem utf8Bytes_all_isAsciiDigit (digits : List Char) :
    (utf8Bytes (String.ofList digits)).all isAsciiDigit = digits.all Char.isDigit := by
  rw [utf8Bytes, String.toList_ofList, List.all_flatMap]
  simp only [utf8EncodeChar_all_isAsciiDigit]

theorem utf8Bytes_of_spells (spells : Decimal.Spells digits magnitude) :
    digits.flatMap String.utf8EncodeChar =
      digits.map fun character => UInt8.ofNat character.toNat := by
  rw [List.map_eq_flatMap]
  exact List.flatMap_congr fun character member =>
    utf8EncodeChar_of_isDigit (spells.allDigits character member)

end Text

section Parse

/-- A value within 64 bits. -/
def withinI64 (value : Int) : Option Int :=
  if i64Min ≤ value ∧ value ≤ i64Max then some value else none

theorem withinI64_eq_some_iff {value fitted : Int} :
    withinI64 value = some fitted ↔ (i64Min ≤ value ∧ value ≤ i64Max) ∧ value = fitted := by
  simp [withinI64]

/-- A greater magnitude of the same sign does not come back into range. -/
theorem withinI64_signed_none {negative : Bool} {less more : Nat} (grows : less ≤ more)
    (outside : withinI64 (signed negative less) = none) :
    withinI64 (signed negative more) = none := by
  cases negative with
  | false =>
      simp only [signed, withinI64, i64Min, i64Max, Bool.false_eq_true, if_false,
        ite_eq_right_iff, reduceCtorEq, imp_false] at outside ⊢
      omega
  | true =>
      simp only [signed, withinI64, i64Min, i64Max, if_true, ite_eq_right_iff, reduceCtorEq,
        imp_false] at outside ⊢
      omega

/-- Both checks of a digit come to one: the magnitude with the digit appended
is within range or it is not. -/
theorem i64Digit_signed (negative : Bool) (magnitude : Nat) {character : Char}
    (isDigit : character.isDigit = true) :
    i64Digit negative (signed negative magnitude) (UInt8.ofNat character.toNat) =
      withinI64 (signed negative (10 * magnitude + (character.toNat - '0'.toNat))) := by
  have code : 48 ≤ character.toNat ∧ character.toNat ≤ 57 := by
    rw [isDigit_eq] at isDigit
    simpa using isDigit
  have byte : (UInt8.ofNat character.toNat).toNat = character.toNat := by
    rw [UInt8.toNat_ofNat']
    omega
  have zero : '0'.toNat = 48 := by decide
  have appended : ((10 * magnitude + (character.toNat - 48) : Nat) : Int) =
      magnitude * 10 + (character.toNat - 48) := by omega
  cases negative with
  | false =>
      simp only [i64Digit, signed, checkedMul, checkedAdd, withinI64, isAsciiDigit, byte, zero,
        i64Min, i64Max, code.1, code.2, decide_true, Bool.and_self, Bool.false_eq_true,
        if_false, if_true, appended]
      by_cases tens : (magnitude : Int) * 10 ≤ 9223372036854775807
      · rw [if_pos ⟨by omega, tens⟩, Option.bind_some]
      · rw [if_neg fun fits => tens fits.2, if_neg (by omega)]
        rfl
  | true =>
      simp only [i64Digit, signed, checkedMul, checkedSub, withinI64, isAsciiDigit, byte, zero,
        i64Min, i64Max, code.1, code.2, decide_true, Bool.and_self, if_true, appended]
      have downwards : -(magnitude : Int) * 10 - ((character.toNat : Int) - 48) =
          -(magnitude * 10 + (character.toNat - 48)) := by omega
      rw [← downwards]
      by_cases tens : -9223372036854775808 ≤ -(magnitude : Int) * 10
      · rw [if_pos ⟨tens, by omega⟩, Option.bind_some]
      · rw [if_neg fun fits => tens fits.1, if_neg (by omega)]
        rfl

theorem le_ofDigitChars (digits : List Char) (start : Nat) :
    start ≤ Nat.ofDigitChars 10 digits start := by
  induction digits generalizing start with
  | nil =>
      exact le_refl start
  | cons character rest inductionHypothesis =>
      rw [Nat.ofDigitChars_cons]
      exact le_trans (by omega) (inductionHypothesis _)

/-- The digits are read exactly as long as what they spell is within range. -/
theorem foldlM_i64Digit (negative : Bool) {digits : List Char}
    (allDigits : ∀ character ∈ digits, character.isDigit = true) (start : Nat)
    (fits : withinI64 (signed negative start) = some (signed negative start)) :
    (digits.map fun character => UInt8.ofNat character.toNat).foldlM (i64Digit negative)
        (signed negative start) =
      withinI64 (signed negative (Nat.ofDigitChars 10 digits start)) := by
  induction digits generalizing start with
  | nil =>
      exact fits.symm
  | cons character rest inductionHypothesis =>
      have restDigits : ∀ other ∈ rest, other.isDigit = true := fun other member =>
        allDigits other (List.mem_cons_of_mem _ member)
      rw [List.map_cons, List.foldlM_cons, Nat.ofDigitChars_cons,
        i64Digit_signed negative start (allDigits character List.mem_cons_self)]
      cases isWithin : withinI64
          (signed negative (10 * start + (character.toNat - '0'.toNat))) with
      | none =>
          rw [withinI64_signed_none (le_ofDigitChars rest _) isWithin]
          rfl
      | some fitted =>
          have same := (withinI64_eq_some_iff.mp isWithin).2
          rw [← same] at isWithin ⊢
          exact inductionHypothesis restDigits _ isWithin

theorem withinI64_zero (negative : Bool) :
    withinI64 (signed negative 0) = some (signed negative 0) := by
  cases negative <;> decide

/-- A run of digits is parsed to what it spells, if that is within range. -/
theorem foldlM_i64Digit_spells (negative : Bool) {digits : List Char} {magnitude : Nat}
    (spells : Decimal.Spells digits magnitude) :
    (digits.flatMap String.utf8EncodeChar).foldlM (i64Digit negative) 0 =
      withinI64 (signed negative magnitude) := by
  have folded := foldlM_i64Digit negative spells.allDigits 0 (withinI64_zero negative)
  have zero : signed negative 0 = 0 := by cases negative <;> rfl
  rw [zero, spells.value] at folded
  rw [utf8Bytes_of_spells spells, folded]

/-- The 64-bit parse of a text that spells an integer. -/
theorem i64FromStr_of_spells {text : String} {value : Int}
    (spelled : SpellsInteger text.toList value) : i64FromStr text = withinI64 value := by
  obtain ⟨digits, magnitude, spells, isText⟩ := spelled
  have notEmpty : digits.flatMap String.utf8EncodeChar ≠ [] := by
    rw [utf8Bytes_of_spells spells]
    simpa using spells.nonEmpty
  rcases isText with plain | minus
  · obtain ⟨isText, rfl⟩ := plain
    have bytes : utf8Bytes text = digits.flatMap String.utf8EncodeChar := by
      rw [utf8Bytes, isText]
    have firstIsDigit : ∀ byte, (digits.flatMap String.utf8EncodeChar).head? = some byte →
        isAsciiDigit byte = true := by
      intro byte isFirst
      have allBytes := utf8Bytes_all_isAsciiDigit digits
      rw [List.all_eq_true.mpr spells.allDigits, List.all_eq_true, utf8Bytes,
        String.toList_ofList] at allBytes
      exact allBytes byte (List.mem_of_mem_head? isFirst)
    have noSign : ∀ byte : UInt8, isAsciiDigit byte = false →
        (digits.flatMap String.utf8EncodeChar).head? ≠ some byte := by
      intro byte isSign isFirst
      rw [firstIsDigit byte isFirst] at isSign
      cases isSign
    have noPlus := noSign 43 (by decide)
    have noMinus := noSign 45 (by decide)
    have notSignAlone : ¬ (digits.flatMap String.utf8EncodeChar = [] ∨
        digits.flatMap String.utf8EncodeChar = [43] ∨
          digits.flatMap String.utf8EncodeChar = [45]) := by
      intro isOne
      rcases isOne with isEmpty | isPlus | isMinus
      · exact notEmpty isEmpty
      · exact noPlus (by rw [isPlus]; rfl)
      · exact noMinus (by rw [isMinus]; rfl)
    unfold i64FromStr
    simp only [bytes, if_neg notSignAlone, if_neg noPlus, if_neg noMinus]
    exact foldlM_i64Digit_spells false spells
  · obtain ⟨isText, rfl⟩ := minus
    have bytes : utf8Bytes text = 45 :: digits.flatMap String.utf8EncodeChar := by
      rw [utf8Bytes, isText]
      rfl
    have notSignAlone : ¬ ((45 : UInt8) :: digits.flatMap String.utf8EncodeChar = [] ∨
        45 :: digits.flatMap String.utf8EncodeChar = [43] ∨
          45 :: digits.flatMap String.utf8EncodeChar = [45]) := by
      simp [notEmpty]
    unfold i64FromStr
    simp only [bytes, if_neg notSignAlone, List.head?_cons, if_true, List.tail_cons]
    exact foldlM_i64Digit_spells true spells

end Parse

section Grammar

variable {text : String} {value : Int}

/-- Whether a text is read at all. -/
theorem spells_rest_iff (text : List Char) :
    ((stripMinus text).getD text ≠ [] ∧
        ((stripMinus text).getD text).all Char.isDigit = true) ↔
      ∃ value, SpellsInteger text value := by
  constructor
  · intro isRun
    exact ⟨_, spellsInteger_iff.mpr
      ⟨_, ⟨isRun.1, List.all_eq_true.mp isRun.2, rfl⟩, rfl⟩⟩
  · intro spelled
    obtain ⟨value, spelled⟩ := spelled
    obtain ⟨_, spells, _⟩ := spellsInteger_iff.mp spelled
    exact ⟨spells.nonEmpty, List.all_eq_true.mpr spells.allDigits⟩

theorem minorUnits_of_spells (spelled : SpellsInteger text.toList value) :
    minorUnits text =
      if i64Min ≤ value ∧ value ≤ i64Max then .ok (Int64.ofInt value)
      else .error ⟨AmountRefusal.outsideTheRange.sentence (debugText text)⟩ := by
  obtain ⟨nonEmpty, allDigits⟩ := (spells_rest_iff text.toList).mpr ⟨value, spelled⟩
  have read : ¬ ((stripMinus text.toList).getD text.toList = [] ∨
      (utf8Bytes (String.ofList ((stripMinus text.toList).getD text.toList))).all
        isAsciiDigit = false) := by
    rw [utf8Bytes_all_isAsciiDigit, allDigits]
    simp [nonEmpty]
  unfold minorUnits
  simp only [if_neg read, i64FromStr_of_spells spelled, withinI64]
  by_cases fits : i64Min ≤ value ∧ value ≤ i64Max
  · simp only [if_pos fits]
  · simp only [if_neg fits]

theorem minorUnits_of_not_spells (noValue : ¬ ∃ value, SpellsInteger text.toList value) :
    minorUnits text =
      .error ⟨AmountRefusal.notAnExactInteger.sentence (debugText text)⟩ := by
  have unread : (stripMinus text.toList).getD text.toList = [] ∨
      (utf8Bytes (String.ofList ((stripMinus text.toList).getD text.toList))).all
        isAsciiDigit = false := by
    rw [utf8Bytes_all_isAsciiDigit]
    by_contra isRun
    rw [not_or, Bool.not_eq_false] at isRun
    exact noValue ((spells_rest_iff text.toList).mp isRun)
  unfold minorUnits
  simp only [if_pos unread]

theorem isAmountPattern_iff :
    isAmountPattern text = true ↔ ∃ value, SpellsInteger text.toList value := by
  rw [← spells_rest_iff, isAmountPattern]
  simp only [← isDigit_eq, Bool.and_eq_true, Bool.not_eq_eq_eq_not, Bool.not_true,
    List.isEmpty_eq_false_iff]

theorem bigInt_of_spells (spelled : SpellsInteger text.toList value) : bigInt text = value := by
  obtain ⟨magnitude, spells, isValue⟩ := spellsInteger_iff.mp spelled
  rw [isValue, bigInt]
  cases stripped : stripMinus text.toList with
  | none =>
      rw [stripped] at spells
      simp only [signed, Option.isSome_none, Bool.false_eq_true, if_false]
      rw [← spells.value]
      rfl
  | some digits =>
      rw [stripped] at spells
      simp only [signed, Option.isSome_some, if_true]
      rw [← spells.value]
      rfl

theorem minorUnitsToPost_of_spells (spelled : SpellsInteger text.toList value) :
    minorUnitsToPost text =
      if value < i64Min ∨ i64Max < value then
        .error (AmountRefusal.outsideTheRange.sentence (String.ofList (Json.renderString text)))
      else if value ≤ 0 then
        .error (AmountRefusal.notPositive.sentence (String.ofList (Json.renderString text)))
      else .ok text := by
  have admitted : ¬ isAmountPattern text = false := by
    rw [isAmountPattern_iff.mpr ⟨value, spelled⟩]
    exact Bool.noConfusion
  unfold minorUnitsToPost
  simp only [if_neg admitted, bigInt_of_spells spelled]

theorem minorUnitsToPost_of_not_spells (noValue : ¬ ∃ value, SpellsInteger text.toList value) :
    minorUnitsToPost text =
      .error (AmountRefusal.notAnExactInteger.sentence
        (String.ofList (Json.renderString text))) := by
  have refused : isAmountPattern text = false := by
    rw [← Bool.not_eq_true, isAmountPattern_iff]
    exact noValue
  unfold minorUnitsToPost
  simp only [if_pos refused]

theorem toInt_ofInt_of_fits (fits : i64Min ≤ value ∧ value ≤ i64Max) :
    (Int64.ofInt value).toInt = value := by
  unfold i64Min i64Max at fits
  exact Int64.toInt_ofInt_of_le (by omega) (by omega)

/-- A posting judges its amount before anything else. -/
theorem Posting.new_of_not_positive {amount : Int64} (notPositive : amount.toInt ≤ 0)
    (source destination : Uuid) (currency : String) :
    Posting.new source destination amount currency =
      .error ⟨"amount_minor must be positive"⟩ := by
  rw [Posting.new, dif_neg (not_lt.mpr notPositive)]

theorem Posting.new_of_positive {amount : Int64} {source destination : Uuid}
    {currency : String} (positive : 0 < amount.toInt) (iso : isCurrency currency = true)
    (distinct : source ≠ destination) :
    ∃ posting, Posting.new source destination amount currency = .ok posting ∧
      posting.amountMinor = amount.toInt := by
  rw [Posting.new, dif_pos positive, dif_pos iso, dif_pos distinct]
  exact ⟨_, rfl, rfl⟩

/-- One amount grammar.  Between accounts and in a currency a posting takes,
both sides judge every text alike: what spells no integer, an integer beyond 64
bits and one that is not positive are refused in the same words, and any other
text is sent as it is and posted as the value it spells.  What a value is
rendered to is accepted as that value. -/
theorem one_amount_grammar {source destination : Uuid} {currency : String}
    (iso : isCurrency currency = true) (distinct : source ≠ destination) :
    (∀ text value, SpellsInteger text.toList value → 1 ≤ value → value ≤ i64Max →
        minorUnitsToPost text = .ok text ∧
          ∃ posting, postingOfBody source destination text currency = .ok posting ∧
            posting.amountMinor = value) ∧
      (∀ text refusal,
        ((refusal = AmountRefusal.notAnExactInteger ∧
            ¬ ∃ value, SpellsInteger text.toList value) ∨
          ∃ value, SpellsInteger text.toList value ∧
            ((refusal = AmountRefusal.outsideTheRange ∧ (value < i64Min ∨ i64Max < value)) ∨
              refusal = AmountRefusal.notPositive ∧ i64Min ≤ value ∧ value ≤ 0)) →
        minorUnitsToPost text =
            .error (refusal.sentence (String.ofList (Json.renderString text))) ∧
          postingOfBody source destination text currency =
            .error ⟨refusal.sentence (debugText text)⟩) ∧
      (∀ text, ((∃ minor, minorUnitsToPost text = .ok minor) ↔
          ∃ posting, postingOfBody source destination text currency = .ok posting) ∧
        ((∃ minor, minorUnitsToPost text = .ok minor) ↔
          ∃ value, SpellsInteger text.toList value ∧ 1 ≤ value ∧ value ≤ i64Max)) ∧
      ∀ value : Int, 1 ≤ value → value ≤ i64Max →
        let rendered := String.ofList (Decimal.render value)
        minorUnitsToPost rendered = .ok rendered ∧
          ∃ posting, postingOfBody source destination rendered currency = .ok posting ∧
            posting.amountMinor = value := by
  have accepted : ∀ text value, SpellsInteger text.toList value → 1 ≤ value → value ≤ i64Max →
      minorUnitsToPost text = .ok text ∧
        ∃ posting, postingOfBody source destination text currency = .ok posting ∧
          posting.amountMinor = value := by
    intro text value spelled positive below
    have fits : i64Min ≤ value ∧ value ≤ i64Max := by
      unfold i64Min
      exact ⟨by omega, below⟩
    constructor
    · rw [minorUnitsToPost_of_spells spelled, if_neg (by omega), if_neg (by omega)]
    · have isPositive : 0 < (Int64.ofInt value).toInt := by
        rw [toInt_ofInt_of_fits fits]
        omega
      obtain ⟨posting, isPosting, isAmount⟩ := Posting.new_of_positive isPositive iso distinct
      refine ⟨posting, ?_, isAmount.trans (toInt_ofInt_of_fits fits)⟩
      rw [postingOfBody, minorUnits_of_spells spelled, if_pos fits]
      exact isPosting
  have refused : ∀ text refusal,
      ((refusal = AmountRefusal.notAnExactInteger ∧
          ¬ ∃ value, SpellsInteger text.toList value) ∨
        ∃ value, SpellsInteger text.toList value ∧
          ((refusal = AmountRefusal.outsideTheRange ∧ (value < i64Min ∨ i64Max < value)) ∨
            refusal = AmountRefusal.notPositive ∧ i64Min ≤ value ∧ value ≤ 0)) →
      minorUnitsToPost text =
          .error (refusal.sentence (String.ofList (Json.renderString text))) ∧
        postingOfBody source destination text currency =
          .error ⟨refusal.sentence (debugText text)⟩ := by
    intro text refusal why
    rcases why with unread | wrong
    · obtain ⟨rfl, noValue⟩ := unread
      rw [postingOfBody, minorUnits_of_not_spells noValue]
      exact ⟨minorUnitsToPost_of_not_spells noValue, rfl⟩
    · obtain ⟨value, spelled, outside | notPositive⟩ := wrong
      · obtain ⟨rfl, beyond⟩ := outside
        rw [postingOfBody, minorUnits_of_spells spelled, minorUnitsToPost_of_spells spelled,
          if_pos beyond, if_neg (by omega)]
        exact ⟨rfl, rfl⟩
      · obtain ⟨rfl, above, atMostZero⟩ := notPositive
        have fits : i64Min ≤ value ∧ value ≤ i64Max := by
          unfold i64Max
          exact ⟨above, by omega⟩
        have notAbove : (Int64.ofInt value).toInt ≤ 0 := by
          rw [toInt_ofInt_of_fits fits]
          exact atMostZero
        rw [postingOfBody, minorUnits_of_spells spelled, minorUnitsToPost_of_spells spelled,
          if_pos fits, if_neg (by omega), if_pos atMostZero]
        exact ⟨rfl, Posting.new_of_not_positive notAbove source destination currency⟩
  have judged : ∀ text, (∃ value, SpellsInteger text.toList value ∧ 1 ≤ value ∧
      value ≤ i64Max) ∨ ∃ refusal, minorUnitsToPost text =
          .error (AmountRefusal.sentence (String.ofList (Json.renderString text)) refusal) ∧
        postingOfBody source destination text currency =
          .error ⟨refusal.sentence (debugText text)⟩ := by
    intro text
    by_cases read : ∃ value, SpellsInteger text.toList value
    · obtain ⟨value, spelled⟩ := read
      by_cases beyond : value < i64Min ∨ i64Max < value
      · exact Or.inr ⟨_, refused text _ (Or.inr ⟨value, spelled, Or.inl ⟨rfl, beyond⟩⟩)⟩
      · by_cases positive : 1 ≤ value
        · exact Or.inl ⟨value, spelled, positive, by omega⟩
        · exact Or.inr ⟨_, refused text _
            (Or.inr ⟨value, spelled, Or.inr ⟨rfl, by omega, by omega⟩⟩)⟩
    · exact Or.inr ⟨_, refused text _ (Or.inl ⟨rfl, read⟩)⟩
  refine ⟨accepted, refused, fun text => ?_, fun value positive below => ?_⟩
  · rcases judged text with isAmount | isRefused
    · obtain ⟨value, spelled, positive, below⟩ := isAmount
      obtain ⟨isSent, posting, isPosted, _⟩ := accepted text value spelled positive below
      have sent : ∃ minor, minorUnitsToPost text = .ok minor := ⟨text, isSent⟩
      exact ⟨⟨fun _ => ⟨posting, isPosted⟩, fun _ => sent⟩,
        fun _ => ⟨value, spelled, positive, below⟩, fun _ => sent⟩
    · obtain ⟨refusal, notSent, notPosted⟩ := isRefused
      have neverSent : ¬ ∃ minor, minorUnitsToPost text = .ok minor := by
        rw [notSent]
        nofun
      have neverPosted :
          ¬ ∃ posting, postingOfBody source destination text currency = .ok posting := by
        rw [notPosted]
        nofun
      refine ⟨⟨fun sent => absurd sent neverSent, fun posted => absurd posted neverPosted⟩,
        fun sent => absurd sent neverSent, fun isAmount => ?_⟩
      obtain ⟨value, spelled, positive, below⟩ := isAmount
      exact absurd ⟨text, (accepted text value spelled positive below).1⟩ neverSent
  · refine accepted _ value ?_ positive below
    rw [String.toList_ofList]
    exact spellsInteger_render value

/-- A thousand, with a zero in front. -/
theorem leading_zero_accepted :
    minorUnitsToPost "01000" = .ok "01000" ∧
      ∃ posting, postingOfBody ⟨1, by decide⟩ ⟨2, by decide⟩ "01000" "USD" = .ok posting ∧
        posting.amountMinor = 1000 := by
  have grammar := @one_amount_grammar ⟨1, by decide⟩ ⟨2, by decide⟩ "USD" (by decide +kernel)
    (by decide)
  have digits : Decimal.Spells ['0', '1', '0', '0', '0'] 1000 :=
    ⟨by decide, List.all_eq_true.mp rfl, by decide⟩
  exact grammar.1 "01000" 1000 ⟨_, 1000, digits, Or.inl ⟨by decide, rfl⟩⟩ (by decide) (by decide)

end Grammar

end OpenLedger
