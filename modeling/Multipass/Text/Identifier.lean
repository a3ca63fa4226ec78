import Multipass.Text.Blank

/-!
# Identifiers

Names of macros, parameters and types are ASCII: a letter or underscore, then
letters, digits and underscores. A number starts with a digit and swallows
letters, digits, underscores and points, so `1.0f` and `0x1F` are one piece.
-/

namespace Multipass.Text

/-- The characters that a name can start with. -/
def isNameStart (c : Char) : Bool :=
  c.isAlpha || c == '_'

/-- The characters of a name. -/
def isNameChar (c : Char) : Bool :=
  c.isAlphanum || c == '_'

/-- The characters of a number, with those of its suffixes and exponents. -/
def isNumberChar (c : Char) : Bool :=
  isNameChar c || c == '.'

/-- The identifier a text begins with, and what follows it. -/
def leadingName? : List Char → Option (List Char × List Char)
  | [] => none
  | c :: rest =>
    if isNameStart c then some (c :: rest.takeWhile isNameChar, rest.dropWhile isNameChar)
    else none

/-- A text that is one identifier and nothing else. -/
def isName (text : List Char) : Bool :=
  match leadingName? text with
  | some (_, []) => true
  | _ => false

/-- What precedes the longest end of a text made of identifier characters, and
    that end. -/
def trailingNameChars (text : List Char) : List Char × List Char :=
  (dropTrailing isNameChar text, (text.reverse.takeWhile isNameChar).reverse)

end Multipass.Text
