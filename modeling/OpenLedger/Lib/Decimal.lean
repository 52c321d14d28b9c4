import Mathlib.Data.List.DropRight
import Mathlib.Data.Option.Basic

/-!
# Decimal text

Integers read from decimal text the way a strict reader reads them: an optional
sign, at least one digit and nothing after, and no value outside the bounds.
What an integer renders to reads back as that integer, and a rendered integer
holds no character a reader would trim or split at.
-/

namespace Decimal

/-- A run of digits and the number it spells. -/
structure Spells (text : List Char) (value : Nat) : Prop where
  nonEmpty : text ≠ []
  allDigits : ∀ character ∈ text, character.isDigit = true
  value : Nat.ofDigitChars 10 text 0 = value

/-- The number a run of digits spells, if it is one. -/
def readDigits (text : List Char) : Option Nat :=
  if text ≠ [] ∧ text.all Char.isDigit = true then some (Nat.ofDigitChars 10 text 0) else none

/-- An unsigned integer of at most `most`. -/
def readUnsigned (most : Nat) (text : List Char) : Option Nat :=
  match text with
  | '+' :: digits => (readDigits digits).filter (· ≤ most)
  | digits => (readDigits digits).filter (· ≤ most)

/-- A signed integer of magnitude at most `least` below zero and `most` above. -/
def readSigned (least most : Nat) (text : List Char) : Option Int :=
  match text with
  | '-' :: digits => ((readDigits digits).filter (· ≤ least)).map fun value => -Int.ofNat value
  | '+' :: digits => ((readDigits digits).filter (· ≤ most)).map Int.ofNat
  | digits => ((readDigits digits).filter (· ≤ most)).map Int.ofNat

/-- An integer's decimal text. -/
def render : Int → List Char
  | .ofNat value => Nat.toDigits 10 value
  | .negSucc less => '-' :: Nat.toDigits 10 (less + 1)

theorem readDigits_eq_some_iff {text : List Char} {value : Nat} :
    readDigits text = some value ↔ Spells text value := by
  rw [readDigits]
  by_cases isRun : text ≠ [] ∧ text.all Char.isDigit = true
  · rw [if_pos isRun, Option.some.injEq]
    exact ⟨fun isValue => ⟨isRun.1, List.all_eq_true.mp isRun.2, isValue⟩,
      fun spells => spells.value⟩
  · rw [if_neg isRun]
    refine ⟨nofun, fun spells => ?_⟩
    exact absurd ⟨spells.nonEmpty, List.all_eq_true.mpr spells.allDigits⟩ isRun

theorem Spells.toDigits (value : Nat) : Spells (Nat.toDigits 10 value) value where
  nonEmpty := Nat.toDigits_ne_nil
  allDigits := fun _ member => Nat.isDigit_of_mem_toDigits (by decide) (by decide) member
  value := Nat.ofDigitChars_ten_toDigits

theorem not_isDigit_plus : '+'.isDigit = false := by decide

theorem not_isDigit_minus : '-'.isDigit = false := by decide

/-- A run of digits begins with no sign. -/
theorem Spells.head {character : Char} {rest : List Char} {value : Nat}
    (spells : Spells (character :: rest) value) : character ≠ '+' ∧ character ≠ '-' := by
  have isDigit := spells.allDigits character List.mem_cons_self
  refine ⟨fun isPlus => ?_, fun isMinus => ?_⟩
  · rw [isPlus, not_isDigit_plus] at isDigit
    cases isDigit
  · rw [isMinus, not_isDigit_minus] at isDigit
    cases isDigit

theorem filter_readDigits_iff {most : Nat} {text : List Char} {value : Nat} :
    (readDigits text).filter (· ≤ most) = some value ↔ Spells text value ∧ value ≤ most := by
  rw [Option.filter_eq_some_iff, readDigits_eq_some_iff, decide_eq_true_eq]

/-- What an unsigned reader accepts: digits within its bound, after a plus or
not. -/
theorem readUnsigned_eq_some_iff {most : Nat} {text : List Char} {value : Nat} :
    readUnsigned most text = some value ↔
      ∃ digits, (text = digits ∨ text = '+' :: digits) ∧ Spells digits value ∧ value ≤ most := by
  constructor
  · intro reads
    unfold readUnsigned at reads
    split at reads
    · exact ⟨_, Or.inr rfl, filter_readDigits_iff.mp reads⟩
    · exact ⟨_, Or.inl rfl, filter_readDigits_iff.mp reads⟩
  · rintro ⟨digits, isText, spells, fits⟩
    have reads : (readDigits digits).filter (· ≤ most) = some value :=
      filter_readDigits_iff.mpr ⟨spells, fits⟩
    rcases isText with rfl | rfl
    · cases text with
      | nil =>
          exact reads
      | cons character rest =>
          rw [readUnsigned]
          · exact reads
          · rintro digits ⟨⟩
            exact spells.head.1 rfl
    · exact reads

/-- What a signed reader accepts. -/
theorem readSigned_eq_some_iff {least most : Nat} {text : List Char} {value : Int} :
    readSigned least most text = some value ↔
      (∃ digits magnitude, text = '-' :: digits ∧ Spells digits magnitude ∧
        magnitude ≤ least ∧ value = -(magnitude : Int)) ∨
      (∃ digits magnitude, (text = digits ∨ text = '+' :: digits) ∧ Spells digits magnitude ∧
        magnitude ≤ most ∧ value = (magnitude : Int)) := by
  constructor
  · intro reads
    unfold readSigned at reads
    split at reads
    · obtain ⟨magnitude, isRun, isValue⟩ := Option.map_eq_some_iff.mp reads
      obtain ⟨spells, fits⟩ := filter_readDigits_iff.mp isRun
      exact Or.inl ⟨_, magnitude, rfl, spells, fits, isValue.symm⟩
    · obtain ⟨magnitude, isRun, isValue⟩ := Option.map_eq_some_iff.mp reads
      obtain ⟨spells, fits⟩ := filter_readDigits_iff.mp isRun
      exact Or.inr ⟨_, magnitude, Or.inr rfl, spells, fits, isValue.symm⟩
    · obtain ⟨magnitude, isRun, isValue⟩ := Option.map_eq_some_iff.mp reads
      obtain ⟨spells, fits⟩ := filter_readDigits_iff.mp isRun
      exact Or.inr ⟨_, magnitude, Or.inl rfl, spells, fits, isValue.symm⟩
  · rintro (⟨digits, magnitude, rfl, spells, fits, rfl⟩ |
      ⟨digits, magnitude, isText, spells, fits, rfl⟩)
    · rw [readSigned, filter_readDigits_iff.mpr ⟨spells, fits⟩]
      rfl
    · have reads : (readDigits digits).filter (· ≤ most) = some magnitude :=
        filter_readDigits_iff.mpr ⟨spells, fits⟩
      rcases isText with rfl | rfl
      · cases text with
        | nil =>
            exact absurd rfl spells.nonEmpty
        | cons character rest =>
            rw [readSigned, reads]
            · rfl
            · rintro digits ⟨⟩
              exact spells.head.2 rfl
            · rintro digits ⟨⟩
              exact spells.head.1 rfl
      · rw [readSigned, reads]
        rfl

/-- An integer within the bounds reads back from its text. -/
theorem readSigned_render {least most : Nat} {value : Int}
    (above : -(least : Int) ≤ value) (below : value ≤ (most : Int)) :
    readSigned least most (render value) = some value := by
  cases value with
  | ofNat magnitude =>
      have fits : magnitude ≤ most := Int.ofNat_le.mp below
      exact readSigned_eq_some_iff.mpr <| Or.inr
        ⟨_, magnitude, Or.inl rfl, Spells.toDigits magnitude, fits, rfl⟩
  | negSucc less =>
      have fits : less + 1 ≤ least := by omega
      exact readSigned_eq_some_iff.mpr <| Or.inl
        ⟨_, less + 1, rfl, Spells.toDigits (less + 1), fits, rfl⟩

/-- A rendered integer is digits after at most a minus. -/
theorem mem_render {value : Int} {character : Char} (member : character ∈ render value) :
    character.isDigit = true ∨ character = '-' := by
  cases value with
  | ofNat magnitude =>
      exact Or.inl ((Spells.toDigits magnitude).allDigits character member)
  | negSucc less =>
      rcases List.mem_cons.mp member with isMinus | isDigit
      · exact Or.inr isMinus
      · exact Or.inl ((Spells.toDigits (less + 1)).allDigits character isDigit)

section Trimming

variable {Item : Type} {strips : Item → Bool}

/-- A list without what it begins and ends with. -/
def trim (strips : Item → Bool) (items : List Item) : List Item :=
  (items.dropWhile strips).rdropWhile strips

/-- There is nothing to strip from what holds none of it. -/
theorem trim_of_none {items : List Item} (none : ∀ item ∈ items, strips item = false) :
    trim strips items = items := by
  have front : items.dropWhile strips = items := by
    cases items with
    | nil =>
        rfl
    | cons item rest =>
        rw [List.dropWhile_cons_of_neg]
        rw [none item List.mem_cons_self]
        exact Bool.false_ne_true
  rw [trim, front, List.rdropWhile]
  have back : items.reverse.dropWhile strips = items.reverse := by
    cases isBack : items.reverse with
    | nil =>
        rfl
    | cons item rest =>
        have member : item ∈ items := by
          rw [← List.mem_reverse, isBack]
          exact List.mem_cons_self
        rw [List.dropWhile_cons_of_neg]
        rw [none item member]
        exact Bool.false_ne_true
  rw [back, List.reverse_reverse]

end Trimming

end Decimal
