import Multipass.Text.Blank
import Multipass.Text.Identifier
import Multipass.Text.Search

/-!
# Tokens of a condition

The text of an `#if` or `#elif`, after macro expansion, is a row of integer
literals, identifiers, operators and parentheses. The longest operator that fits
is taken first.
-/

namespace Multipass.Condition

/-- Operators with two operands. -/
inductive BinaryOp where
  | or | and | bitOr | bitXor | bitAnd | equal | notEqual
  | less | greater | lessEqual | greaterEqual
  | shiftLeft | shiftRight | add | subtract | multiply | divide | remainder
  deriving DecidableEq, Repr

/-- Operators as they are spelled. Two of them, `+` and `-`, also stand before a
    single operand, and two stand nowhere else. -/
inductive Operator where
  | binary (op : BinaryOp)
  | not
  | complement
  deriving DecidableEq, Repr

/-- A token of a condition. Every name that is left counts as zero, so its spelling is not kept. -/
inductive Token where
  | number (value : Int64)
  | name
  | operator (op : Operator)
  | opening
  | closing
  deriving DecidableEq, Repr

/-- Why a condition has no value. -/
inductive Problem where
  | empty
  | unexpectedCharacter (c : Char)
  | invalidLiteral (text : String)
  | missingClosing
  | unexpectedClosing
  | unexpectedOperator (op : Operator)
  | unexpectedEnd
  | divisionByZero
  | trailingTokens
  deriving DecidableEq, Repr

/-- How an operator between two operands is written. -/
def BinaryOp.spelling : BinaryOp → String
  | .or => "||"
  | .and => "&&"
  | .bitOr => "|"
  | .bitXor => "^"
  | .bitAnd => "&"
  | .equal => "=="
  | .notEqual => "!="
  | .less => "<"
  | .greater => ">"
  | .lessEqual => "<="
  | .greaterEqual => ">="
  | .shiftLeft => "<<"
  | .shiftRight => ">>"
  | .add => "+"
  | .subtract => "-"
  | .multiply => "*"
  | .divide => "/"
  | .remainder => "%"

/-- How an operator is written. -/
def Operator.spelling : Operator → String
  | .binary op => op.spelling
  | .not => "!"
  | .complement => "~"

/-- What the user is told about a condition that cannot be evaluated. -/
def Problem.message : Problem → String
  | .empty => "Empty expression"
  | .unexpectedCharacter c => s!"Unexpected character '{c}' in expression"
  | .invalidLiteral text => s!"Invalid integer literal '{text}'"
  | .missingClosing => "Missing ')' in expression"
  | .unexpectedClosing => "Unexpected ')' in expression"
  | .unexpectedOperator op => s!"Unexpected operator '{op.spelling}' in expression"
  | .unexpectedEnd => "Unexpected end of expression"
  | .divisionByZero => "Division by zero in expression"
  | .trailingTokens => "Unexpected trailing tokens in expression"

/-- The value of a digit, letters counting from ten. -/
def digitValue? (c : Char) : Option Nat :=
  if c.isDigit then some (c.toNat - '0'.toNat)
  else if 'a' ≤ c && c ≤ 'z' then some (c.toNat - 'a'.toNat + 10)
  else if 'A' ≤ c && c ≤ 'Z' then some (c.toNat - 'A'.toNat + 10)
  else none

/-- The value of a row of digits in a base; a row without digits has none. -/
def digitsValue? (base : Nat) (digits : List Char) : Option Nat :=
  if digits.isEmpty then none
  else digits.foldlM (fun value c => do
    let digit ← digitValue? c
    if digit < base then some (value * base + digit) else none) 0

/-- The value of a literal: decimal, hexadecimal after `0x`, octal after `0`,
    with any number of `u` or `U` at the end, and below 2^63. -/
def literalValue? (literal : List Char) : Option Int64 :=
  let digits := Text.dropTrailing (fun c => c == 'u' || c == 'U') literal
  let magnitude :=
    match digits with
    | '0' :: 'x' :: rest => digitsValue? 16 rest
    | '0' :: 'X' :: rest => digitsValue? 16 rest
    | '0' :: c :: rest => digitsValue? 8 (c :: rest)
    | _ => digitsValue? 10 digits
  magnitude.bind fun value => if value < 0x8000000000000000 then some (Int64.ofNat value) else none

/-- Every operator, the longer spellings before the shorter ones. -/
def operators : List Operator := [
  .binary .or, .binary .and, .binary .equal, .binary .notEqual, .binary .lessEqual,
  .binary .greaterEqual, .binary .shiftLeft, .binary .shiftRight, .binary .bitOr,
  .binary .bitXor, .binary .bitAnd, .binary .less, .binary .greater, .binary .add,
  .binary .subtract, .binary .multiply, .binary .divide, .binary .remainder, .not, .complement]

/-- The longest operator a text begins with, and what follows. -/
def leadingOperator? (text : List Char) : Option (Operator × List Char) :=
  operators.findSome? fun op => (Text.after? op.spelling.toList text).map (op, ·)

theorem Operator.spelling_ne_nil (op : Operator) : op.spelling.toList ≠ [] := by
  cases op with
  | binary op => cases op <;> decide
  | not => decide
  | complement => decide

theorem leadingOperator?_shorter {text rest : List Char} {op : Operator}
    (found : leadingOperator? text = some (op, rest)) : rest.length < text.length := by
  obtain ⟨candidate, _, taken⟩ := List.exists_of_findSome?_eq_some found
  obtain ⟨after, begins, same⟩ := Option.map_eq_some_iff.mp taken
  simp only [Prod.mk.injEq] at same
  obtain ⟨rfl, rfl⟩ := same
  rw [Text.after?_eq_some_iff.mp begins, List.length_append]
  have := List.length_pos_iff.mpr candidate.spelling_ne_nil
  omega

/-- The tokens of a condition, up to the first piece that is none. -/
def tokenize (text : List Char) : Except Problem (List Token) :=
  match text with
  | [] => .ok []
  | c :: rest =>
    if Text.isAsciiBlank c then tokenize rest
    else if c.isDigit then
      let literal := (c :: rest).takeWhile Char.isAlphanum
      match literalValue? literal with
      | none => .error (.invalidLiteral (String.ofList literal))
      | some value => (.number value :: ·) <$> tokenize (rest.dropWhile Char.isAlphanum)
    else if Text.isNameStart c then
      (.name :: ·) <$> tokenize (rest.dropWhile Text.isNameChar)
    else if c = '(' then (.opening :: ·) <$> tokenize rest
    else if c = ')' then (.closing :: ·) <$> tokenize rest
    else
      match found : leadingOperator? (c :: rest) with
      | none => .error (.unexpectedCharacter c)
      | some (op, after) =>
        have : after.length < (c :: rest).length := leadingOperator?_shorter found
        (.operator op :: ·) <$> tokenize after
  termination_by text.length
  decreasing_by
    · simp
    · exact Nat.lt_succ_of_le (List.dropWhile_sublist _).length_le
    · exact Nat.lt_succ_of_le (List.dropWhile_sublist _).length_le
    · simp
    · simp
    · exact this

end Multipass.Condition
