import Multipass.Condition.Token

/-!
# The value of a condition

Conditions are evaluated in 64-bit two's-complement arithmetic while they are
read. Operators with one operand bind tightest; the ten levels of operators with
two operands associate to the left. Both operands of `&&` and `||` are evaluated,
so a division by zero on either side is an error. Identifiers count as zero.
-/

namespace Multipass.Condition

/-- How tightly an operator binds, from 1 for `||` to 10 for `*`. -/
def BinaryOp.precedence : BinaryOp → Nat
  | .or => 1
  | .and => 2
  | .bitOr => 3
  | .bitXor => 4
  | .bitAnd => 5
  | .equal | .notEqual => 6
  | .less | .greater | .lessEqual | .greaterEqual => 7
  | .shiftLeft | .shiftRight => 8
  | .add | .subtract => 9
  | .multiply | .divide | .remainder => 10

/-- One for a condition that holds, zero for one that does not. -/
def truth (holds : Bool) : Int64 :=
  if holds then 1 else 0

/-- Arithmetic wraps around, division truncates, and a shift takes its count
    modulo 64. -/
def BinaryOp.apply (op : BinaryOp) (left right : Int64) : Except Problem Int64 :=
  match op with
  | .or => .ok (truth (left != 0 || right != 0))
  | .and => .ok (truth (left != 0 && right != 0))
  | .bitOr => .ok (left ||| right)
  | .bitXor => .ok (left ^^^ right)
  | .bitAnd => .ok (left &&& right)
  | .equal => .ok (truth (left == right))
  | .notEqual => .ok (truth (left != right))
  | .less => .ok (truth (left < right))
  | .greater => .ok (truth (right < left))
  | .lessEqual => .ok (truth (left ≤ right))
  | .greaterEqual => .ok (truth (right ≤ left))
  | .shiftLeft => .ok (left <<< right)
  | .shiftRight => .ok (left >>> right)
  | .add => .ok (left + right)
  | .subtract => .ok (left - right)
  | .multiply => .ok (left * right)
  | .divide => if right = 0 then .error .divisionByZero else .ok (left / right)
  | .remainder => if right = 0 then .error .divisionByZero else .ok (left % right)

/-- An operator in front of its only operand. -/
def Operator.applyFront? : Operator → Option (Int64 → Int64)
  | .not => some fun value => truth (value == 0)
  | .complement => some fun value => ~~~value
  | .binary .subtract => some fun value => -value
  | .binary .add => some fun value => value
  | .binary _ => none

/-- A value and the tokens after it, fewer than there were. -/
abbrev Read (tokens : List Token) :=
  Int64 × { rest : List Token // rest.length < tokens.length }

mutual

/-- An operand: a literal, an identifier, a condition in parentheses, or an
    operator in front of an operand. -/
def operand (tokens : List Token) : Except Problem (Read tokens) :=
  match tokens with
  | [] => .error .unexpectedEnd
  | .number value :: rest => .ok (value, ⟨rest, by simp⟩)
  | .name :: rest => .ok (0, ⟨rest, by simp⟩)
  | .closing :: _ => .error .unexpectedClosing
  | .opening :: rest => do
    let (value, ⟨after, shorter⟩) ← expression 1 rest
    match after, shorter with
    | .closing :: last, shorter => .ok (value, ⟨last, by simp at *; omega⟩)
    | _, _ => .error .missingClosing
  | .operator op :: rest =>
    match op.applyFront? with
    | none => .error (.unexpectedOperator op)
    | some apply => do
      let (value, ⟨after, shorter⟩) ← operand rest
      .ok (apply value, ⟨after, by simp at *; omega⟩)
  termination_by (tokens.length, 0)

/-- A row of operands joined by operators of at least the given precedence. -/
def expression (level : Nat) (tokens : List Token) : Except Problem (Read tokens) := do
  let (left, ⟨rest, shorter⟩) ← operand tokens
  let (value, ⟨after, bound⟩) ← climb level left rest
  .ok (value, ⟨after, Nat.lt_of_le_of_lt bound shorter⟩)
  termination_by (tokens.length, 1)

/-- The row goes on while the next operator has at least the given precedence. -/
def climb (level : Nat) (left : Int64) (tokens : List Token) :
    Except Problem (Int64 × { rest : List Token // rest.length ≤ tokens.length }) :=
  match tokens with
  | .operator (.binary op) :: rest =>
    if level ≤ op.precedence then do
      let (right, ⟨after, shorter⟩) ← expression (op.precedence + 1) rest
      let value ← op.apply left right
      let (result, ⟨last, bound⟩) ← climb level value after
      .ok (result, ⟨last, by simp at *; omega⟩)
    else .ok (left, ⟨.operator (.binary op) :: rest, Nat.le_refl _⟩)
  | tokens => .ok (left, ⟨tokens, Nat.le_refl _⟩)
  termination_by (tokens.length, 0)

end

/-- The value of a row of tokens that is one whole condition. -/
def tokensValue (tokens : List Token) : Except Problem Int64 :=
  if tokens.isEmpty then .error .empty
  else do
    let (value, ⟨rest, _⟩) ← expression 1 tokens
    if rest.isEmpty then .ok value else .error .trailingTokens

/-- The value of the text of a condition. -/
def valueOf (text : List Char) : Except Problem Int64 :=
  tokenize text >>= tokensValue

/-- Evaluate a condition whose macros have been expanded. -/
def evaluate (text : String) : Except Problem Int64 :=
  valueOf text.toList

end Multipass.Condition
