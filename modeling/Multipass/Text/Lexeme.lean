import Multipass.Text.Identifier

/-!
# Lexemes of a line

A line falls apart into numbers, names and gaps, a gap being a longest run of
characters that belong to neither. Nothing is lost: the lexemes of a text, put
together, are the text.
-/

namespace Multipass.Text

/-- A piece of a line: a number, a name, or what stands between them. -/
inductive Lexeme where
  | number (text : List Char)
  | name (text : List Char)
  | gap (text : List Char)
  deriving DecidableEq, Repr

/-- The text of a piece. -/
def Lexeme.text : Lexeme → List Char
  | .number text | .name text | .gap text => text

/-- The lexeme a text begins with, and what follows it. -/
def leadingLexeme (c : Char) (rest : List Char) : Lexeme × List Char :=
  if c.isDigit then
    (.number (c :: rest.takeWhile isNumberChar), rest.dropWhile isNumberChar)
  else if isNameStart c then
    (.name (c :: rest.takeWhile isNameChar), rest.dropWhile isNameChar)
  else
    (.gap (c :: rest.takeWhile (!isNameChar ·)), rest.dropWhile (!isNameChar ·))

theorem leadingLexeme_length_le (c : Char) (rest : List Char) :
    (leadingLexeme c rest).2.length ≤ rest.length := by
  unfold leadingLexeme
  split
  · exact (List.dropWhile_sublist _).length_le
  · split <;> exact (List.dropWhile_sublist _).length_le

theorem leadingLexeme_append (c : Char) (rest : List Char) :
    (leadingLexeme c rest).1.text ++ (leadingLexeme c rest).2 = c :: rest := by
  unfold leadingLexeme
  split
  · simp [Lexeme.text]
  · split <;> simp [Lexeme.text]

/-- The pieces of a line. Joined, they are the line again. -/
def lexemes : List Char → List Lexeme
  | [] => []
  | c :: rest => (leadingLexeme c rest).1 :: lexemes (leadingLexeme c rest).2
  termination_by text => text.length
  decreasing_by exact Nat.lt_succ_of_le (leadingLexeme_length_le c rest)

/-- The lexemes of a text, put together, are the text. -/
theorem flatMap_text_lexemes (text : List Char) : (lexemes text).flatMap Lexeme.text = text := by
  fun_induction lexemes text with
  | case1 => rfl
  | case2 c rest ih => rw [List.flatMap_cons, ih, leadingLexeme_append]

end Multipass.Text
