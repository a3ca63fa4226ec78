import Multipass.Decimal.Text
import Multipass.Text.Quoted

/-!
# Problems of a document

A document can be malformed, or well-formed and of the wrong shape. The first problem
that a reader meets ends the reading. Each problem remembers the text that was not yet
read, which gives its line and column.
-/

namespace Multipass.Json

/-- What makes a text no document at all. -/
inductive SyntaxFault where
  | endInList
  | endInObject
  | endInText
  | endInValue
  | expectedColon
  | expectedCommaOrListEnd
  | expectedCommaOrObjectEnd
  | expectedWord
  | expectedValue
  | invalidEscape
  | invalidNumber
  | numberOutOfRange
  | loneSurrogate
  | unfinishedSurrogate
  | controlCharacter
  | keyNotText
  | trailingComma
  | trailingCharacters
  deriving DecidableEq, Repr

/-- A value by its kind, as a message names it. -/
inductive Kind where
  | null
  | boolean (value : Bool)
  | integer (value : Int)
  | decimal (bits : Nat)
  | text (value : List Char)
  | sequence
  | map
  deriving DecidableEq, Repr

/-- What makes a document one of the wrong shape. -/
inductive ShapeFault where
  | wrongType (found : Kind) (expected : String)
  | wrongValue (found : Int) (expected : String)
  | missingField (name : String)
  | duplicateField (name : String)
  | wrongLength (found : Nat) (expected : String)
  | unknownVariant (name : List Char) (expected : String)
  deriving DecidableEq, Repr

/-- What is wrong with a text: it is no JSON, or it is none of the expected shape. -/
inductive Fault where
  | malformed (fault : SyntaxFault)
  | misshapen (fault : ShapeFault)
  deriving DecidableEq, Repr

/-- Where a problem is: so many bytes into the unread text, or in front of a text of which
    the rest of the enclosing record still has to be passed over. -/
inductive Mark where
  | after (bytes : Nat)
  | unsettled
  deriving DecidableEq, Repr

namespace Mark

/-- In front of the unread text. -/
def here : Mark := after 0

/-- One byte into the unread text, which may be inside its first character. -/
def next : Mark := after 1

/-- How far into the unread text a problem is. -/
def bytes : Mark → Nat
  | after bytes => bytes
  | unsettled => 0

end Mark

/-- A fault, with the text that was not read and where in it the fault is marked. -/
structure Problem where
  fault : Fault
  unread : List Char
  mark : Mark
  deriving DecidableEq, Repr

/-- What the user is told about a text that is no JSON. -/
def SyntaxFault.message : SyntaxFault → String
  | endInList => "EOF while parsing a list"
  | endInObject => "EOF while parsing an object"
  | endInText => "EOF while parsing a string"
  | endInValue => "EOF while parsing a value"
  | expectedColon => "expected `:`"
  | expectedCommaOrListEnd => "expected `,` or `]`"
  | expectedCommaOrObjectEnd => "expected `,` or `\x7d`"
  | expectedWord => "expected ident"
  | expectedValue => "expected value"
  | invalidEscape => "invalid escape"
  | invalidNumber => "invalid number"
  | numberOutOfRange => "number out of range"
  | loneSurrogate => "lone leading surrogate in hex escape"
  | unfinishedSurrogate => "unexpected end of hex escape"
  | controlCharacter => "control character (\\u0000-\\u001F) found while parsing a string"
  | keyNotText => "key must be a string"
  | trailingComma => "trailing comma"
  | trailingCharacters => "trailing characters"

/-- How a value of the wrong type is described. -/
def Kind.message : Kind → String
  | null => "null"
  | boolean value => s!"boolean `{value}`"
  | integer value => s!"integer `{value}`"
  | decimal bits =>
    s!"floating point `{String.ofList ((Decimal.Layout.double.text? bits).getD [])}`"
  | text value => s!"string {String.ofList (Text.quoted value)}"
  | sequence => "sequence"
  | map => "map"

/-- What the user is told about a value of the wrong shape. -/
def ShapeFault.message : ShapeFault → String
  | wrongType found expected => s!"invalid type: {found.message}, expected {expected}"
  | wrongValue found expected => s!"invalid value: integer `{found}`, expected {expected}"
  | missingField name => s!"missing field `{name}`"
  | duplicateField name => s!"duplicate field `{name}`"
  | wrongLength found expected => s!"invalid length {found}, expected {expected}"
  | unknownVariant name expected =>
    s!"unknown variant `{String.ofList name}`, expected {expected}"

/-- What the user is told about a fault. -/
def Fault.message : Fault → String
  | malformed fault => fault.message
  | misshapen fault => fault.message

/-- The bytes of a text. -/
def bytesOf (text : List Char) : List UInt8 :=
  text.flatMap String.utf8EncodeChar

/-- The number of bytes of a text. -/
def byteCount (text : List Char) : Nat :=
  (bytesOf text).length

/-- The bytes of a document in front of a problem. -/
def Problem.bytesRead (problem : Problem) (document : List Char) : List UInt8 :=
  (bytesOf document).take
    (byteCount document - byteCount problem.unread + problem.mark.bytes)

/-- The byte that ends a line. -/
def lineFeed : UInt8 := 10

/-- The line and column of a problem in a document. The column counts the bytes between
    the beginning of the line and the problem. -/
def Problem.location (problem : Problem) (document : List Char) : Nat × Nat :=
  let read := problem.bytesRead document
  (read.count lineFeed + 1, (read.reverse.takeWhile (· != lineFeed)).length)

/-- The whole message for a problem of a document. -/
def Problem.message (problem : Problem) (document : List Char) : String :=
  let (line, column) := problem.location document
  s!"{problem.fault.message} at line {line} column {column}"

end Multipass.Json
