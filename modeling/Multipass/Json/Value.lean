import Multipass.Decimal.Text

/-!
# Values and their text

A value is written over several lines, two spaces deeper for each list and object around
it. A number that is not finite has no text and is written as null.
-/

namespace Multipass.Json

/-- The values that are written. An object keeps the order of its members. -/
inductive Value where
  | null
  | boolean (value : Bool)
  | natural (value : Nat)
  | single (value : Float32)
  | text (value : String)
  | list (items : List Value)
  | object (members : List (String × Value))

/-- The escape of a character inside a text. -/
def escapeChar (c : Char) : List Char :=
  match c with
  | '"' => ['\\', '"']
  | '\\' => ['\\', '\\']
  | '\x08' => ['\\', 'b']
  | '\x0C' => ['\\', 'f']
  | '\n' => ['\\', 'n']
  | '\r' => ['\\', 'r']
  | '\t' => ['\\', 't']
  | c =>
    if c.toNat < 0x20 then
      '\\' :: 'u' :: '0' :: '0' :: Nat.digitChar (c.toNat / 16) :: [Nat.digitChar (c.toNat % 16)]
    else [c]

/-- A text between quotes. -/
def textLiteral (text : String) : List Char :=
  '"' :: text.toList.flatMap escapeChar ++ ['"']

/-- A line break with the indentation of a depth. -/
def newLine (depth : Nat) : List Char :=
  '\n' :: List.replicate (2 * depth) ' '

namespace Value

mutual

/-- The text of a value inside `depth` lists and objects. -/
def render (depth : Nat) : Value → List Char
  | null => "null".toList
  | boolean true => "true".toList
  | boolean false => "false".toList
  | natural value => Nat.toDigits 10 value
  | single value => (Decimal.singleText? value).getD "null".toList
  | text value => textLiteral value
  | list [] => ['[', ']']
  | list (first :: rest) =>
    '[' :: newLine (depth + 1) ++ render (depth + 1) first ++ renderItems (depth + 1) rest ++
      newLine depth ++ [']']
  | object [] => ['{', '}']
  | object ((name, first) :: rest) =>
    '{' :: newLine (depth + 1) ++ textLiteral name ++ ':' :: ' ' :: render (depth + 1) first ++
      renderMembers (depth + 1) rest ++ newLine depth ++ ['}']

/-- The items after the first one. -/
def renderItems (depth : Nat) : List Value → List Char
  | [] => []
  | item :: rest => ',' :: newLine depth ++ render depth item ++ renderItems depth rest

/-- The members after the first one. -/
def renderMembers (depth : Nat) : List (String × Value) → List Char
  | [] => []
  | (name, value) :: rest =>
    ',' :: newLine depth ++ textLiteral name ++ ':' :: ' ' :: render depth value ++
      renderMembers depth rest

end

/-- The whole text of a value. -/
def pretty (value : Value) : String :=
  String.ofList (value.render 0)

end Value

end Multipass.Json
