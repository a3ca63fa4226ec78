import Multipass.Panic

/-!
# Overflow

Numbers are kept in words of a fixed size. A result that does not fit its word is an
overflow, which is never passed over in silence: it is a panic.
-/

namespace Multipass

/-- The operation whose result did not fit. -/
inductive Overflow where
  | subtraction
  | multiplication
  deriving DecidableEq, Repr

/-- A value, unless an overflow came before it. -/
abbrev Checked (α : Type) := Except Overflow α

namespace Overflow

/-- What is told about an overflow. -/
def message : Overflow → String
  | subtraction => "attempt to subtract with overflow"
  | multiplication => "attempt to multiply with overflow"

/-- An overflow as the panic that it is. -/
def panic {α : Type} (overflow : Overflow) : Foreign α :=
  .panicked (.text overflow.message)

end Overflow

namespace Checked

/-- A 64-bit word, read as a signed one. -/
def signed (word : Nat) : Int :=
  (word : Int).bmod UInt64.size

/-- The difference of two signed words of 64 bits. -/
def sub (left right : Int) : Checked Int :=
  if Int64.minValue.toInt ≤ left - right ∧ left - right ≤ Int64.maxValue.toInt then
    .ok (left - right)
  else .error .subtraction

/-- The product of two words that are below a size. -/
def mul (size left right : Nat) : Checked Nat :=
  if left * right < size then .ok (left * right) else .error .multiplication

end Checked

end Multipass
