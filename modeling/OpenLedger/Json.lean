import Mathlib.Data.List.Basic
import Mathlib.Data.String.Basic

/-!
# JSON values

The payloads the event log stores and the metadata an account carries.  An
object's members are kept in key order, which is the order they render in.
-/

namespace OpenLedger

/-- A JSON number: an integer, or a finite float known by the text it prints
as. -/
inductive JsonNumber where
  | integer (value : Int)
  | float (printed : String)
deriving DecidableEq, Repr

inductive Json where
  | null
  | bool (value : Bool)
  | number (value : JsonNumber)
  | string (value : String)
  | array (items : List Json)
  | object (members : List (String × Json))

namespace Json

/-- Insert a member where the key order wants it; a repeated key keeps the
later value. -/
def insertMember (key : String) (value : Json) :
    List (String × Json) → List (String × Json)
  | [] => [(key, value)]
  | (other, held) :: rest =>
      if key < other then (key, value) :: (other, held) :: rest
      else if key = other then (key, value) :: rest
      else (other, held) :: insertMember key value rest

/-- An object of the members given, in any order. -/
def objectOf (members : List (String × Json)) : Json :=
  object <| members.foldl (fun sorted member =>
    insertMember member.1 member.2 sorted) []

def isObject : Json → Bool
  | object _ => true
  | _ => false

def integer (value : Int) : Json := number (.integer value)

/-- An absent value renders as an explicit null. -/
def ofOption {α : Type} (render : α → Json) : Option α → Json
  | none => null
  | some value => render value

def hexDigit (value : Nat) : Char :=
  if value < 10 then Char.ofNat (48 + value) else Char.ofNat (87 + value)

/-- One character of a string literal, escaped where JSON asks for it. -/
def escape (character : Char) : List Char :=
  if character = '"' then ['\\', '"']
  else if character = '\\' then ['\\', '\\']
  else if character = '\n' then ['\\', 'n']
  else if character = '\r' then ['\\', 'r']
  else if character = '\t' then ['\\', 't']
  else if character.toNat = 8 then ['\\', 'b']
  else if character.toNat = 12 then ['\\', 'f']
  else if character.toNat < 32 then
    ['\\', 'u', '0', '0', hexDigit (character.toNat / 16),
      hexDigit (character.toNat % 16)]
  else [character]

def renderString (value : String) : List Char :=
  '"' :: value.toList.flatMap escape ++ ['"']

def renderNumber : JsonNumber → List Char
  | .integer value => (toString value).toList
  | .float printed => printed.toList

mutual

/-- The compact rendering, as `Value::to_string` prints it. -/
def render : Json → List Char
  | null => "null".toList
  | bool true => "true".toList
  | bool false => "false".toList
  | number value => renderNumber value
  | string value => renderString value
  | array [] => ['[', ']']
  | array (item :: items) => '[' :: render item ++ renderItems items ++ [']']
  | object [] => ['\x7b', '\x7d']
  | object ((key, value) :: members) =>
      '\x7b' :: renderString key ++ ':' :: render value ++
        renderMembers members ++ ['\x7d']

/-- The remaining items of an array, each after its comma. -/
def renderItems : List Json → List Char
  | [] => []
  | item :: items => ',' :: render item ++ renderItems items

/-- The remaining members of an object, each after its comma. -/
def renderMembers : List (String × Json) → List Char
  | [] => []
  | (key, value) :: members =>
      ',' :: renderString key ++ ':' :: render value ++ renderMembers members

end

end Json

end OpenLedger
