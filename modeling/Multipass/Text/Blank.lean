/-!
# Blank characters

The White_Space property of Unicode, and trimming by it. The directive reader,
the entry-point check and the log reader all agree on this one class.
-/

namespace Multipass.Text

/-- The White_Space property: twenty-five characters, six of them ASCII. -/
def isBlank (c : Char) : Bool :=
  let code := c.toNat
  (9 ≤ code && code ≤ 13) || code == 0x20 || code == 0x85 || code == 0xA0 ||
    code == 0x1680 || (0x2000 ≤ code && code ≤ 0x200A) || code == 0x2028 ||
    code == 0x2029 || code == 0x202F || code == 0x205F || code == 0x3000

/-- The five characters that separate tokens of a condition: space, tab, line
    feed, form feed and carriage return. The vertical tab is not one of them. -/
def isAsciiBlank (c : Char) : Bool :=
  c == ' ' || c == '\t' || c == '\n' || c == '\x0C' || c == '\r'

/-- A space or a tab. -/
def isSpaceOrTab (c : Char) : Bool :=
  c == ' ' || c == '\t'

/-- The text without the characters at its end that satisfy `p`. -/
def dropTrailing (p : Char → Bool) (text : List Char) : List Char :=
  (text.reverse.dropWhile p).reverse

/-- The text without the blanks in front. -/
def trimStart (text : List Char) : List Char :=
  text.dropWhile isBlank

/-- The text without the blanks at its end. -/
def trimEnd (text : List Char) : List Char :=
  dropTrailing isBlank text

/-- The text without blanks at either end. -/
def trim (text : List Char) : List Char :=
  trimEnd (trimStart text)

/-- The text after one or more blanks. -/
def afterBlanks? (text : List Char) : Option (List Char) :=
  if text.head?.any isBlank then some (trimStart text) else none

theorem trimStart_length_le (text : List Char) : (trimStart text).length ≤ text.length :=
  (List.dropWhile_sublist _).length_le

theorem afterBlanks?_length_le {text rest : List Char} (found : afterBlanks? text = some rest) :
    rest.length ≤ text.length := by
  unfold afterBlanks? at found
  split at found
  · simp only [Option.some.injEq] at found
    exact found ▸ trimStart_length_le text
  · simp at found

/-- A text that holds blanks only, the empty text included. -/
def isAllBlank (text : List Char) : Bool :=
  text.all isBlank

end Multipass.Text
