import OpenLedger.Domain
import OpenLedger.Lib.Decimal

/-!
# Commit-order cursors

A cursor is an `xid8`, held as the unsigned 64-bit value it is and rendered as
decimal text.  Reading one back reproduces what the database reads, the wrap of
a negative decimal included.
-/

namespace OpenLedger

/-- A commit-order cursor. -/
abbrev Cursor := Fin 18446744073709551616

namespace Cursor

def u64Max : Nat := 18446744073709551615

/-- `value as u64`. -/
def wrapping (value : Int) : Cursor :=
  ⟨(value % 18446744073709551616).toNat, by omega⟩

/-- The text without the white space around it. -/
def trimmed (text : String) : List Char := Decimal.trim isWhitespace text.toList

/-- The value PostgreSQL would read from this text, or nothing. -/
def parse (text : String) : Option Cursor :=
  match Decimal.readUnsigned u64Max (trimmed text) with
  | some value => some (wrapping value)
  | none => (Decimal.readSigned 9223372036854775808 9223372036854775807 (trimmed text)).map wrapping

/-- The decimal text `xid8` reads and writes. -/
def text (cursor : Cursor) : String := String.ofList (Nat.toDigits 10 cursor.val)

/-- What an `xid8` is read from: digits below 2^64, or a minus and digits up to
2^63 that wrap around. -/
inductive ReadsAsXid8 (text : String) (cursor : Cursor) : Prop where
  | plain (digits : List Char)
      (isText : trimmed text = digits ∨ trimmed text = '+' :: digits)
      (spells : Decimal.Spells digits cursor.val)
  | wrapped (digits : List Char) (magnitude : Nat)
      (isText : trimmed text = '-' :: digits)
      (spells : Decimal.Spells digits magnitude)
      (fits : magnitude ≤ 2 ^ 63)
      (wraps : cursor.val = (2 ^ 64 - magnitude) % 2 ^ 64)

theorem wrapping_natCast {value : Nat} (fits : value ≤ u64Max) :
    (wrapping value).val = value := by
  have below : value ≤ 18446744073709551615 := fits
  change (((value : Int) % 18446744073709551616).toNat) = value
  omega

theorem wrapping_negative {magnitude : Nat} (fits : magnitude ≤ 9223372036854775808) :
    (wrapping (-(magnitude : Int))).val = (2 ^ 64 - magnitude) % 2 ^ 64 := by
  change ((-(magnitude : Int)) % 18446744073709551616).toNat = _
  omega

theorem wrapping_inj {value : Nat} (fits : value ≤ u64Max) {cursor : Cursor}
    (isValue : cursor.val = value) : wrapping value = cursor :=
  Fin.ext ((wrapping_natCast fits).trans isValue.symm)

theorem val_le_u64Max (cursor : Cursor) : cursor.val ≤ u64Max :=
  Nat.le_of_lt_succ cursor.isLt

/-- Digits are no signed integer below zero. -/
theorem not_minus {text digits : List Char} {value : Nat}
    (isText : text = digits ∨ text = '+' :: digits) (spells : Decimal.Spells digits value)
    {rest : List Char} : text ≠ '-' :: rest := by
  rintro rfl
  rcases isText with rfl | isPlus
  · exact spells.head.2 rfl
  · cases isPlus

/-- The parse reads exactly what an `xid8` is read from. -/
theorem parse_eq_some_iff {text : String} {cursor : Cursor} :
    parse text = some cursor ↔ ReadsAsXid8 text cursor := by
  unfold parse
  cases reads : Decimal.readUnsigned u64Max (trimmed text) with
  | some value =>
      obtain ⟨digits, isText, spells, fits⟩ := Decimal.readUnsigned_eq_some_iff.mp reads
      simp only [Option.some.injEq]
      constructor
      · rintro rfl
        refine .plain digits isText ?_
        rw [wrapping_natCast fits]
        exact spells
      · intro readsAs
        cases readsAs with
        | plain others isOther spellsOther =>
            have same := Decimal.readUnsigned_eq_some_iff.mpr
              ⟨others, isOther, spellsOther, val_le_u64Max cursor⟩
            rw [reads] at same
            exact wrapping_inj fits (Option.some.inj same).symm
        | wrapped others magnitude isOther =>
            exact absurd isOther (not_minus isText spells)
  | none =>
      rw [Option.map_eq_some_iff]
      constructor
      · rintro ⟨value, readsSigned, rfl⟩
        rcases Decimal.readSigned_eq_some_iff.mp readsSigned with
          ⟨digits, magnitude, isText, spells, fits, rfl⟩ |
          ⟨digits, magnitude, isText, spells, fits, rfl⟩
        · exact .wrapped digits magnitude isText spells (by omega) (wrapping_negative fits)
        · have unsigned := Decimal.readUnsigned_eq_some_iff.mpr
            ⟨digits, isText, spells, show magnitude ≤ u64Max by unfold u64Max; omega⟩
          rw [reads] at unsigned
          cases unsigned
      · intro readsAs
        cases readsAs with
        | plain digits isText spells =>
            have unsigned := Decimal.readUnsigned_eq_some_iff.mpr
              ⟨digits, isText, spells, val_le_u64Max cursor⟩
            rw [reads] at unsigned
            cases unsigned
        | wrapped digits magnitude isText spells fits wraps =>
            have small : magnitude ≤ 9223372036854775808 := by omega
            refine ⟨-(magnitude : Int), Decimal.readSigned_eq_some_iff.mpr <| Or.inl
              ⟨digits, magnitude, isText, spells, small, rfl⟩, Fin.ext ?_⟩
            rw [wrapping_negative small, wraps]

theorem isWhitespace_of_isDigit {character : Char} (isDigit : character.isDigit = true) :
    isWhitespace character = false := by
  have bounds : 48 ≤ character.toNat ∧ character.toNat ≤ 57 := by
    simpa [Char.isDigit, UInt32.le_iff_toNat_le] using isDigit
  simp only [isWhitespace, Bool.or_eq_false_iff, Bool.and_eq_false_iff, decide_eq_false_iff_not]
  omega

theorem trimmed_text (cursor : Cursor) : trimmed cursor.text = Nat.toDigits 10 cursor.val := by
  rw [trimmed, text, String.toList_ofList]
  exact Decimal.trim_of_none fun character member =>
    isWhitespace_of_isDigit ((Decimal.Spells.toDigits cursor.val).allDigits character member)

/-- A cursor reads back from its own text. -/
@[simp]
theorem parse_text (cursor : Cursor) : parse cursor.text = some cursor :=
  parse_eq_some_iff.mpr <|
    .plain _ (Or.inl (trimmed_text cursor)) (Decimal.Spells.toDigits cursor.val)

example : (parse " +7\n").map Fin.val = some 7 := by decide +kernel

/-- The wrap that lands above every horizon. -/
example : (parse "-1").map Fin.val = some 18446744073709551615 := by decide +kernel

end Cursor

end OpenLedger
