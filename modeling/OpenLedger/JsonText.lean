import OpenLedger.Json
import OpenLedger.Lib.Decimal
import OpenLedger.Lib.PrefixCode

/-!
# What a JSON text says

The compact rendering determines the value it is of, numbers by the text they
print as.  An object's members are held in key order, so two values that differ
in the order of their keys are one value and have one text.
-/

namespace OpenLedger

/-- The characters a printed number is made of. -/
def isNumberChar (character : Char) : Bool :=
  character.isDigit || character = '-' || character = '+' || character = '.' ||
    character = 'e' || character = 'E'

/-- A float is known by a number's text. -/
def JsonNumber.Prints : JsonNumber → Prop
  | .integer _ => True
  | .float printed => printed.toList ≠ [] ∧ ∀ c ∈ printed.toList, isNumberChar c = true

namespace Json

mutual

/-- What a parser builds: every number in it prints as one. -/
def Parsed : Json → Prop
  | null => True
  | bool _ => True
  | number value => value.Prints
  | string _ => True
  | array items => ItemsParsed items
  | object members => MembersParsed members

def ItemsParsed : List Json → Prop
  | [] => True
  | item :: items => Parsed item ∧ ItemsParsed items

def MembersParsed : List (String × Json) → Prop
  | [] => True
  | (_, value) :: members => Parsed value ∧ MembersParsed members

end

mutual

/-- The value with each number known by the text it prints as. -/
def printed : Json → Json
  | null => null
  | bool value => bool value
  | number value => number (.float (String.ofList (renderNumber value)))
  | string value => string value
  | array items => array (printedItems items)
  | object members => object (printedMembers members)

def printedItems : List Json → List Json
  | [] => []
  | item :: items => printed item :: printedItems items

def printedMembers : List (String × Json) → List (String × Json)
  | [] => []
  | (key, value) :: members => (key, printed value) :: printedMembers members

end

/-- A value renders as its numbers print. -/
theorem render_printed (value : Json) : value.printed.render = value.render := by
  refine @Json.rec (fun value => value.printed.render = value.render)
    (fun items => renderItems (printedItems items) = renderItems items ∧
      (array (printedItems items)).render = (array items).render)
    (fun members => renderMembers (printedMembers members) = renderMembers members ∧
      (object (printedMembers members)).render = (object members).render)
    (fun member => member.2.printed.render = member.2.render)
    ?_ ?_ ?_ ?_ ?_ ?_ ?_ ?_ ?_ ?_ ?_ value
  · rfl
  · intro value
    rfl
  · intro value
    simp [printed, render, renderNumber]
  · intro value
    rfl
  · intro items rendered
    exact rendered.2
  · intro members rendered
    exact rendered.2
  · exact ⟨rfl, rfl⟩
  · intro item items same rest
    simp only [printedItems, renderItems, render, same, rest.1, and_self]
  · exact ⟨rfl, rfl⟩
  · intro member members same rest
    obtain ⟨key, value⟩ := member
    simp only [printedMembers, renderMembers, render, same, rest.1, and_self]
  · intro key value same
    exact same

/-- What may follow a value: nothing a number could go on with. -/
def Stops (text : List Char) : Prop :=
  ∀ character rest, text = character :: rest → isNumberChar character = false

theorem stops_nil : Stops [] := by
  intro character rest equal
  cases equal

theorem stops_cons {character : Char} {rest : List Char}
    (stop : isNumberChar character = false) : Stops (character :: rest) := by
  intro other more equal
  rw [← (List.cons.inj equal).1]
  exact stop

/-- A number's text ends where its characters do. -/
theorem numberText_inj {left right leftRest rightRest : List Char}
    (leftNumber : ∀ c ∈ left, isNumberChar c = true)
    (rightNumber : ∀ c ∈ right, isNumberChar c = true)
    (leftStops : Stops leftRest) (rightStops : Stops rightRest)
    (equal : left ++ leftRest = right ++ rightRest) : left = right ∧ leftRest = rightRest := by
  induction left generalizing right with
  | nil =>
      cases right with
      | nil =>
          exact ⟨rfl, equal⟩
      | cons character more =>
          have stopped := leftStops character _ equal
          rw [rightNumber character List.mem_cons_self] at stopped
          cases stopped
  | cons head tail inductionHypothesis =>
      cases right with
      | nil =>
          have stopped := rightStops head _ equal.symm
          rw [leftNumber head List.mem_cons_self] at stopped
          cases stopped
      | cons character more =>
          obtain ⟨sameHead, rest⟩ := List.cons.inj equal
          obtain ⟨sameTail, sameRest⟩ := inductionHypothesis
            (fun c member => leftNumber c (List.mem_cons_of_mem _ member))
            (fun c member => rightNumber c (List.mem_cons_of_mem _ member)) rest
          exact ⟨by rw [sameHead, sameTail], sameRest⟩

theorem renderNumber_integer (value : Int) :
    renderNumber (.integer value) = Decimal.render value := by
  cases value with
  | ofNat magnitude =>
      exact String.toList_ofList
  | negSucc less =>
      change ("-" ++ (less + 1).repr).toList = _
      rw [String.toList_append, Nat.repr, String.toList_ofList, String.toList_ofList]
      rfl

theorem renderNumber_chars {number : JsonNumber} (prints : number.Prints) :
    ∀ c ∈ renderNumber number, isNumberChar c = true := by
  intro c member
  cases number with
  | integer value =>
      rw [renderNumber_integer] at member
      rcases Decimal.mem_render member with isDigit | rfl
      · simp [isNumberChar, isDigit]
      · decide
  | float printed =>
      exact prints.2 c member

theorem renderNumber_ne_nil {number : JsonNumber} (prints : number.Prints) :
    renderNumber number ≠ [] := by
  cases number with
  | integer value =>
      rw [renderNumber_integer]
      cases value with
      | ofNat magnitude =>
          exact (Decimal.Spells.toDigits magnitude).nonEmpty
      | negSucc less =>
          exact List.cons_ne_nil _ _
  | float printed =>
      exact prints.1

/-- The character an escape after a backslash stands for, the four hex digits of
a `u` apart. -/
def unescaped : Char → Char
  | 'n' => '\n'
  | 'r' => '\r'
  | 't' => '\t'
  | 'b' => Char.ofNat 8
  | 'f' => Char.ofNat 12
  | character => character

def hexValue (digit : Char) : Nat :=
  if digit.toNat < 58 then digit.toNat - 48 else digit.toNat - 87

/-- One character off the front of a string literal. -/
def unescape : List Char → Option (Char × List Char)
  | '\\' :: 'u' :: _ :: _ :: high :: low :: rest =>
      some (Char.ofNat (16 * hexValue high + hexValue low), rest)
  | '\\' :: character :: rest => some (unescaped character, rest)
  | character :: rest => some (character, rest)
  | [] => none

theorem unescape_escape (character : Char) (rest : List Char) :
    unescape (escape character ++ rest) = some (character, rest) := by
  have ofCode : ∀ code, character.toNat = code → Char.ofNat code = character := by
    intro code isCode
    rw [← isCode, Char.ofNat_toNat]
  have hex : ∀ value < 32, Char.ofNat (16 * hexValue (hexDigit (value / 16)) +
      hexValue (hexDigit (value % 16))) = Char.ofNat value := by
    decide
  unfold escape
  by_cases quote : character = '"'
  · rw [if_pos quote, quote]
    rfl
  rw [if_neg quote]
  by_cases slash : character = '\\'
  · rw [if_pos slash, slash]
    rfl
  rw [if_neg slash]
  by_cases newline : character = '\n'
  · rw [if_pos newline, newline]
    rfl
  rw [if_neg newline]
  by_cases feed : character = '\r'
  · rw [if_pos feed, feed]
    rfl
  rw [if_neg feed]
  by_cases tab : character = '\t'
  · rw [if_pos tab, tab]
    rfl
  rw [if_neg tab]
  by_cases backspace : character.toNat = 8
  · rw [if_pos backspace, ← ofCode 8 backspace]
    rfl
  rw [if_neg backspace]
  by_cases page : character.toNat = 12
  · rw [if_pos page, ← ofCode 12 page]
    rfl
  rw [if_neg page]
  by_cases control : character.toNat < 32
  · rw [if_pos control]
    change some (Char.ofNat (16 * hexValue (hexDigit (character.toNat / 16)) +
      hexValue (hexDigit (character.toNat % 16))), rest) = _
    rw [hex _ control, ofCode _ rfl]
  · rw [if_neg control, List.singleton_append, unescape.eq_def]
    split <;> simp_all

theorem escape_separates : PrefixCode.Separates escape :=
  PrefixCode.separates_of_decode unescape unescape_escape

/-- No escaped character begins with a bare quote. -/
theorem escape_unquoted (character : Char) (rest other : List Char) :
    escape character ++ rest ≠ '"' :: other := by
  intro equal
  have decoded := unescape_escape character rest
  rw [equal] at decoded
  have isQuote : '"' = character := (Prod.mk.inj (Option.some.inj decoded)).1
  rw [← isQuote] at equal
  cases (List.cons.inj equal).1

theorem renderString_separates : PrefixCode.Separates renderString := by
  intro left right leftRest rightRest equal
  have stopped := PrefixCode.Separates.stopped escape_separates escape_unquoted
  obtain ⟨same, rest⟩ := stopped left.toList right.toList leftRest rightRest
    (List.cons.inj equal).2
  exact ⟨String.toList_injective same, rest⟩

/-- Which kind of value a text is of. -/
def kind : Json → Nat
  | null => 1
  | bool _ => 2
  | number _ => 3
  | string _ => 4
  | array _ => 5
  | object _ => 6

/-- The kind of value a first character opens. -/
def opening (character : Char) : Nat :=
  if character = 'n' then 1
  else if character = 't' ∨ character = 'f' then 2
  else if isNumberChar character then 3
  else if character = '"' then 4
  else if character = '[' then 5
  else if character = '\x7b' then 6
  else 0

theorem render_opening {value : Json} (parsed : value.Parsed) :
    ∃ character rest, value.render = character :: rest ∧ opening character = value.kind := by
  cases value with
  | null =>
      exact ⟨_, _, rfl, rfl⟩
  | bool value =>
      cases value with
      | false => exact ⟨_, _, rfl, rfl⟩
      | true => exact ⟨_, _, rfl, rfl⟩
  | number value =>
      cases isText : renderNumber value with
      | nil =>
          exact absurd isText (renderNumber_ne_nil parsed)
      | cons character rest =>
          have isChar := renderNumber_chars parsed character (isText ▸ List.mem_cons_self)
          refine ⟨character, rest, isText, ?_⟩
          have notN : character ≠ 'n' := by
            rintro rfl
            cases isChar
          have notT : ¬ (character = 't' ∨ character = 'f') := by
            rintro (rfl | rfl) <;> cases isChar
          rw [opening, if_neg notN, if_neg notT, if_pos isChar]
          rfl
  | string value =>
      exact ⟨_, _, rfl, rfl⟩
  | array items =>
      cases items with
      | nil => exact ⟨_, _, rfl, rfl⟩
      | cons item items => exact ⟨_, _, rfl, rfl⟩
  | object members =>
      cases members with
      | nil => exact ⟨_, _, rfl, rfl⟩
      | cons member members => exact ⟨_, _, rfl, rfl⟩

/-- Two texts that begin alike are of one kind of value. -/
theorem kind_eq_of_render {left right : Json} {leftRest rightRest : List Char}
    (leftParsed : left.Parsed) (rightParsed : right.Parsed)
    (equal : left.render ++ leftRest = right.render ++ rightRest) : left.kind = right.kind := by
  obtain ⟨leftHead, leftTail, leftText, leftKind⟩ := render_opening leftParsed
  obtain ⟨rightHead, rightTail, rightText, rightKind⟩ := render_opening rightParsed
  rw [leftText, rightText] at equal
  rw [← leftKind, ← rightKind, (List.cons.inj equal).1]

/-- No value's text begins with a character that opens none. -/
theorem render_ne {value : Json} (parsed : value.Parsed) {mark : Char} (closes : opening mark = 0)
    {rest other : List Char} : value.render ++ rest ≠ mark :: other := by
  intro equal
  obtain ⟨head, tail, isText, isKind⟩ := render_opening parsed
  rw [isText] at equal
  rw [(List.cons.inj equal).1, closes] at isKind
  cases value <;> cases isKind

/-- What one value's text determines, whatever stops it. -/
def Determined (left : Json) : Prop :=
  left.Parsed → ∀ (right : Json) (leftRest rightRest : List Char), right.Parsed →
    Stops leftRest → Stops rightRest →
    left.render ++ leftRest = right.render ++ rightRest →
      left.printed = right.printed ∧ leftRest = rightRest

/-- What the text of an array's remaining items determines. -/
def ItemsDetermined (left : List Json) : Prop :=
  ItemsParsed left → ∀ right leftRest rightRest, ItemsParsed right →
    renderItems left ++ ']' :: leftRest = renderItems right ++ ']' :: rightRest →
      printedItems left = printedItems right ∧ leftRest = rightRest

/-- What the text of an object's remaining members determines. -/
def MembersDetermined (left : List (String × Json)) : Prop :=
  MembersParsed left → ∀ right leftRest rightRest, MembersParsed right →
    renderMembers left ++ '\x7d' :: leftRest = renderMembers right ++ '\x7d' :: rightRest →
      printedMembers left = printedMembers right ∧ leftRest = rightRest

theorem stops_items (items : List Json) (rest : List Char) :
    Stops (renderItems items ++ ']' :: rest) := by
  cases items with
  | nil => exact stops_cons rfl
  | cons item items => exact stops_cons rfl

theorem stops_members (members : List (String × Json)) (rest : List Char) :
    Stops (renderMembers members ++ '\x7d' :: rest) := by
  cases members with
  | nil => exact stops_cons rfl
  | cons member members => exact stops_cons rfl

theorem itemsDetermined_cons {item : Json} {items : List Json} (first : item.Determined)
    (rest : ItemsDetermined items) : ItemsDetermined (item :: items) := by
  intro parsed right leftRest rightRest rightParsed equal
  cases right with
  | nil =>
      cases (List.cons.inj equal).1
  | cons other others =>
      simp only [renderItems, List.cons_append, List.append_assoc] at equal
      obtain ⟨same, more⟩ := first parsed.1 other _ _ rightParsed.1 (stops_items _ _)
        (stops_items _ _) (List.cons.inj equal).2
      obtain ⟨sameItems, sameRest⟩ := rest parsed.2 others _ _ rightParsed.2 more
      exact ⟨by rw [printedItems, printedItems, same, sameItems], sameRest⟩

theorem member_inj {key other : String} {value held : Json} {leftRest rightRest : List Char}
    (determined : value.Determined) (parsed : value.Parsed) (heldParsed : held.Parsed)
    (leftStops : Stops leftRest) (rightStops : Stops rightRest)
    (equal : renderString key ++ (':' :: (value.render ++ leftRest)) =
      renderString other ++ (':' :: (held.render ++ rightRest))) :
    (key, value.printed) = (other, held.printed) ∧ leftRest = rightRest := by
  obtain ⟨sameKey, more⟩ := renderString_separates _ _ _ _ equal
  obtain ⟨same, rest⟩ := determined parsed held _ _ heldParsed leftStops rightStops
    (List.cons.inj more).2
  exact ⟨by rw [sameKey, same], rest⟩

theorem membersDetermined_cons {key : String} {value : Json} {members : List (String × Json)}
    (first : value.Determined) (rest : MembersDetermined members) :
    MembersDetermined ((key, value) :: members) := by
  intro parsed right leftRest rightRest rightParsed equal
  cases right with
  | nil =>
      cases (List.cons.inj equal).1
  | cons member others =>
      obtain ⟨other, held⟩ := member
      simp only [renderMembers, List.cons_append, List.append_assoc] at equal
      obtain ⟨same, more⟩ := member_inj first parsed.1 rightParsed.1 (stops_members _ _)
        (stops_members _ _) (List.cons.inj equal).2
      obtain ⟨sameMembers, sameRest⟩ := rest parsed.2 others _ _ rightParsed.2 more
      obtain ⟨sameKey, sameValue⟩ := Prod.mk.inj same
      exact ⟨by rw [printedMembers, printedMembers, sameKey, sameValue, sameMembers], sameRest⟩

/-- A whole array, its first item without a comma. -/
theorem array_determined {items : List Json}
    (parts : ∀ item rest, items = item :: rest → item.Determined ∧ ItemsDetermined rest) :
    (array items).Determined := by
  intro parsed right leftRest rightRest rightParsed _ _ equal
  have sameKind := kind_eq_of_render parsed rightParsed equal
  cases right <;> cases sameKind
  rename_i others
  cases items with
  | nil =>
      cases others with
      | nil =>
          exact ⟨rfl, (List.cons.inj (List.cons.inj equal).2).2⟩
      | cons other others =>
          simp only [render, List.cons_append, List.nil_append, List.append_assoc] at equal
          exact absurd (List.cons.inj equal).2.symm (render_ne rightParsed.1 rfl)
  | cons item items =>
      cases others with
      | nil =>
          simp only [render, List.cons_append, List.nil_append, List.append_assoc] at equal
          exact absurd (List.cons.inj equal).2 (render_ne parsed.1 rfl)
      | cons other others =>
          obtain ⟨first, rest⟩ := parts item items rfl
          simp only [render, List.cons_append, List.nil_append, List.append_assoc] at equal
          obtain ⟨same, more⟩ := first parsed.1 other _ _ rightParsed.1 (stops_items _ _)
            (stops_items _ _) (List.cons.inj equal).2
          obtain ⟨sameItems, sameRest⟩ := rest parsed.2 others _ _ rightParsed.2 more
          exact ⟨by simp only [printed, printedItems, same, sameItems], sameRest⟩

theorem object_determined {members : List (String × Json)}
    (parts : ∀ member rest, members = member :: rest →
      member.2.Determined ∧ MembersDetermined rest) :
    (object members).Determined := by
  intro parsed right leftRest rightRest rightParsed _ _ equal
  have sameKind := kind_eq_of_render parsed rightParsed equal
  cases right <;> cases sameKind
  rename_i others
  cases members with
  | nil =>
      cases others with
      | nil =>
          exact ⟨rfl, (List.cons.inj (List.cons.inj equal).2).2⟩
      | cons other others =>
          cases (List.cons.inj (List.cons.inj equal).2).1
  | cons member members =>
      cases others with
      | nil =>
          cases (List.cons.inj (List.cons.inj equal).2).1
      | cons other others =>
          obtain ⟨first, rest⟩ := parts member members rfl
          obtain ⟨key, value⟩ := member
          obtain ⟨otherKey, held⟩ := other
          simp only [render, List.cons_append, List.nil_append, List.append_assoc] at equal
          obtain ⟨same, more⟩ := member_inj first parsed.1 rightParsed.1 (stops_members _ _)
            (stops_members _ _) (List.cons.inj equal).2
          obtain ⟨sameMembers, sameRest⟩ := rest parsed.2 others _ _ rightParsed.2 more
          obtain ⟨sameKey, sameValue⟩ := Prod.mk.inj same
          exact ⟨by simp only [printed, printedMembers, sameKey, sameValue, sameMembers], sameRest⟩

/-- Every value's text determines it. -/
theorem determined (value : Json) : value.Determined := by
  refine @Json.rec Determined
    (fun items => ItemsDetermined items ∧
      ∀ item rest, items = item :: rest → item.Determined ∧ ItemsDetermined rest)
    (fun members => MembersDetermined members ∧
      ∀ member rest, members = member :: rest → member.2.Determined ∧ MembersDetermined rest)
    (fun member => member.2.Determined)
    ?_ ?_ ?_ ?_ ?_ ?_ ?_ ?_ ?_ ?_ ?_ value
  · intro parsed right leftRest rightRest rightParsed _ _ equal
    have sameKind := kind_eq_of_render parsed rightParsed equal
    cases right <;> cases sameKind
    exact ⟨rfl, List.append_cancel_left equal⟩
  · intro value parsed right leftRest rightRest rightParsed _ _ equal
    have sameKind := kind_eq_of_render parsed rightParsed equal
    cases right <;> cases sameKind
    rename_i other
    cases value <;> cases other
    · exact ⟨rfl, List.append_cancel_left equal⟩
    · cases (List.cons.inj equal).1
    · cases (List.cons.inj equal).1
    · exact ⟨rfl, List.append_cancel_left equal⟩
  · intro value parsed right leftRest rightRest rightParsed leftStops rightStops equal
    have sameKind := kind_eq_of_render parsed rightParsed equal
    cases right <;> cases sameKind
    rename_i other
    obtain ⟨same, rest⟩ := numberText_inj (renderNumber_chars parsed)
      (renderNumber_chars rightParsed) leftStops rightStops equal
    exact ⟨by rw [printed, printed, same], rest⟩
  · intro value parsed right leftRest rightRest rightParsed _ _ equal
    have sameKind := kind_eq_of_render parsed rightParsed equal
    cases right <;> cases sameKind
    rename_i other
    obtain ⟨same, rest⟩ := renderString_separates _ _ _ _ equal
    exact ⟨by rw [same], rest⟩
  · intro items parts
    exact array_determined parts.2
  · intro members parts
    exact object_determined parts.2
  · refine ⟨fun _ right leftRest rightRest _ equal => ?_, fun item rest equal => by cases equal⟩
    cases right with
    | nil => exact ⟨rfl, (List.cons.inj equal).2⟩
    | cons other others => cases (List.cons.inj equal).1
  · intro item items first rest
    refine ⟨itemsDetermined_cons first rest.1, fun other others equal => ?_⟩
    obtain ⟨rfl, rfl⟩ := List.cons.inj equal
    exact ⟨first, rest.1⟩
  · refine ⟨fun _ right leftRest rightRest _ equal => ?_, fun item rest equal => by cases equal⟩
    cases right with
    | nil => exact ⟨rfl, (List.cons.inj equal).2⟩
    | cons other others => cases (List.cons.inj equal).1
  · intro member members first rest
    refine ⟨membersDetermined_cons first rest.1, fun other others equal => ?_⟩
    obtain ⟨rfl, rfl⟩ := List.cons.inj equal
    exact ⟨first, rest.1⟩
  · intro key value same
    exact same

/-- Two parsed values have one text exactly when they are one value, numbers by
what they print as. -/
theorem render_eq_iff {left right : Json} (leftParsed : left.Parsed)
    (rightParsed : right.Parsed) :
    left.render = right.render ↔ left.printed = right.printed := by
  constructor
  · intro equal
    have same : left.render ++ [] = right.render ++ [] := by rw [equal]
    exact (determined left leftParsed right _ _ rightParsed stops_nil stops_nil same).1
  · intro equal
    rw [← render_printed left, equal, render_printed]

end Json

end OpenLedger
