import Multipass.Text.Blank
import Multipass.Text.Search
import Multipass.Text.Uppercase
import Multipass.Text.Word

/-!
# Phrasings of compiler messages

Compilers word the same mistake in different ways. A list of known phrasings turns
each into a short sentence; the first phrasing that occurs anywhere in a message
decides. Other messages keep their words. Either way the sentence has single blanks
and a capital at its beginning.
-/

namespace Multipass.Log

/-- A reader takes something off the beginning of a text. -/
abbrev Reader (α : Type) := List Char → Option (α × List Char)

/-- The beginning of a text between single quotes, and the text after them. -/
def quoted? : List Char → Option (List Char × List Char)
  | '\'' :: rest => Text.breakAt? ['\''] rest
  | _ => none

/-- A quoted subject and a colon, with blanks around the colon. -/
def subject? (text : List Char) : Option (List Char × List Char) := do
  let (subject, rest) ← quoted? text
  let rest ← Text.after? [':'] (Text.trimStart rest)
  return (subject, Text.trimStart rest)

/-- A word, possibly inside single quotes, with blanks in front of it. -/
def word? (text : List Char) : Option (List Char) :=
  let text := Text.trimStart text
  let text := (Text.after? ['\''] text).getD text
  match text.takeWhile Text.isWordChar with
  | [] => none
  | word => some word

/-- The rest of the line a text begins with. -/
def restOfLine (text : List Char) : List Char :=
  text.takeWhile (· != '\n')

/-- A known phrasing: the sentence for it, if a text begins with it. -/
abbrev Phrasing := List Char → Option (List Char)

/-- A complaint about a quoted subject. -/
def about (complaint : List Char → Bool) (sentence : String) : Phrasing := fun text => do
  let (subject, rest) ← subject? text
  if complaint rest then some (sentence.toList ++ subject) else none

/-- A complaint that begins with fixed words. -/
def aboutWords (words : String) (sentence : String) : Phrasing :=
  about (Text.startsWith words.toList) sentence

/-- A variable that was not declared, in the words of some compilers. -/
def unknownVariable : Phrasing := fun text => do
  let rest ← Text.afterAnyCase? "unknown variable".toList text
  let word ← word? ((Text.after? [':'] rest).getD rest)
  return "Undeclared identifier: ".toList ++ word

/-- A function that was not declared. -/
def unknownFunction : Phrasing := fun text => do
  let rest ← Text.afterAnyCase? "unknown function".toList text
  let word ← word? rest
  return "Unknown function: ".toList ++ word

/-- A conversion between two quoted types. -/
def conversion : Phrasing := fun text => do
  let (_, rest) ← subject? text
  let rest ← Text.after? "cannot convert from".toList rest
  let (source, rest) ← quoted? (Text.trimStart rest)
  let rest ← Text.after? "to".toList (Text.trimStart rest)
  let (target, _) ← quoted? (Text.trimStart rest)
  return "Cannot convert from ".toList ++ source ++ " to ".toList ++ target

/-- An index, possibly said to be that of an array. -/
def indexOutOfRange (text : List Char) : Bool :=
  let direct := Text.startsWith "index out of range".toList
  direct text ||
    (Text.after? "array".toList text).any fun rest =>
      rest.head?.any Text.isBlank && direct (Text.trimStart rest)

/-- A syntax error where, on the same line, a semicolon is said to be expected. -/
def semicolonExpected (text : List Char) : Bool :=
  (Text.after? "syntax error".toList text).any fun rest =>
    (Text.breakAt? "expecting".toList (restOfLine rest)).any fun (_, expected) =>
      Text.contains "';'".toList expected

/-- The word `qualifier` on the line where the complaint begins, or on the line where
    it goes on after one of three known words. -/
def mentionsQualifier (text : List Char) : Bool :=
  let onLine := fun text => Text.contains "qualifier".toList (restOfLine text)
  onLine text ||
    ["cannot be used with", "illegal use of", "invalid"].any fun words =>
      (Text.after? words.toList text).any fun rest => onLine (Text.trimStart rest)

/-- A text that ends too early. -/
def endOfFile : Phrasing := fun text => do
  let _ ← Text.afterAnyCase? "unexpected end of file".toList text
  return "Unexpected end of file (missing closing brace?)".toList

/-- The known phrasings, the more specific ones first. -/
def phrasings : List Phrasing := [
  aboutWords "undeclared identifier" "Undeclared identifier: ",
  unknownVariable,
  unknownFunction,
  conversion,
  aboutWords "wrong operand types" "Operand types do not match for operator ",
  aboutWords "no matching overloaded function found" "No matching overload for function ",
  aboutWords "l-value required" "Invalid assignment target: ",
  aboutWords "vector field selection out of range" "Vector component out of range: ",
  about indexOutOfRange "Index out of range: ",
  about semicolonExpected "Missing semicolon near ",
  aboutWords "syntax error" "Syntax error near ",
  endOfFile,
  aboutWords "redefinition" "Redefinition of ",
  about mentionsQualifier "Invalid use of qualifier "]

/-- The sentence of a phrasing where it first occurs in a text. -/
def firstOccurrence (phrasing : Phrasing) : List Char → Option (List Char)
  | [] => phrasing []
  | c :: rest => (phrasing (c :: rest)).orElse fun _ => firstOccurrence phrasing rest

/-- The message without a leading severity and its colon. -/
def dropSeverity (message : List Char) : List Char :=
  let text := Text.trimStart message
  let found := ["error", "warning"].findSome? fun word => do
    let rest ← Text.afterAnyCase? word.toList text
    Text.after? [':'] (Text.trimStart rest)
  match found with
  | some rest => Text.trimStart rest
  | none => message

/-- Every run of blanks as one space. -/
def collapseBlanks : Bool → List Char → List Char
  | _, [] => []
  | afterBlank, c :: rest =>
    if Text.isBlank c then
      if afterBlank then collapseBlanks true rest else ' ' :: collapseBlanks true rest
    else c :: collapseBlanks false rest

/-- The text with its first letter in upper case. -/
def capitalize : List Char → List Char
  | [] => []
  | c :: rest => Text.uppercase c ++ rest

/-- A text as a sentence. -/
def toSentence (text : List Char) : List Char :=
  capitalize (collapseBlanks false (Text.trim text))

/-- The short sentence for a message. Quotes are left out where a phrasing was
    found. -/
def sentenceFor (message : List Char) : List Char :=
  let stripped := dropSeverity (Text.trim message)
  match phrasings.findSome? (firstOccurrence · stripped) with
  | some sentence => toSentence (Text.without ['\'', '"'] sentence)
  | none => toSentence stripped

end Multipass.Log

namespace Multipass

/-- Turn a compiler message into a short sentence for the user. -/
def normalizeMessage (message : String) : String :=
  String.ofList (Log.sentenceFor message.toList)

end Multipass
