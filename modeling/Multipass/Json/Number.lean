import Multipass.Json.Text

/-!
# Numbers in documents

A numeral has a whole part, and may have a fraction and an exponent. Without those it
is an integer as far as 64 bits go. Every other numeral is a double: up to 64 bits of
its digits are kept, the power of ten is applied to them in double precision, and a
numeral too large for that is malformed.
-/

namespace Multipass.Json

/-- A numeral as it is written. -/
structure Numeral where
  negative : Bool
  whole : List Char
  fraction : Option (List Char)
  exponent : Option (Bool × List Char)
  deriving DecidableEq, Repr

/-- The digits of a whole part, which has no superfluous zero in front. `atEnd` is the fault
    of a text that ends where a digit is due. -/
def wholePart (atEnd : SyntaxFault) : List Char → Result (List Char)
  | [] => faultAt atEnd []
  | c :: rest =>
    if c = '0' then
      if rest.head?.any Char.isDigit then faultAfter .invalidNumber rest else .ok (['0'], rest)
    else if c.isDigit then .ok (c :: rest.takeWhile Char.isDigit, rest.dropWhile Char.isDigit)
    else faultAfter .invalidNumber (c :: rest)

/-- The digits after a point, if there is one. -/
def fractionPart (atEnd : SyntaxFault) (text : List Char) : Result (Option (List Char)) :=
  match text with
  | '.' :: rest =>
    match rest.takeWhile Char.isDigit with
    | [] => faultAfter (if rest.isEmpty then atEnd else .invalidNumber) rest
    | digits => .ok (some digits, rest.dropWhile Char.isDigit)
  | text => .ok (none, text)

/-- The sign of an exponent, negative or not. -/
def exponentSign : List Char → Bool × List Char
  | '+' :: rest => (false, rest)
  | '-' :: rest => (true, rest)
  | text => (false, text)

/-- The exponent, if there is one. -/
def exponentPart (atEnd : SyntaxFault) (text : List Char) : Result (Option (Bool × List Char)) :=
  match text with
  | [] => .ok (none, [])
  | c :: rest =>
    if c = 'e' || c = 'E' then
      let (negative, digits) := exponentSign rest
      match digits with
      | [] => faultAt atEnd []
      | first :: later =>
        if first.isDigit then
          .ok (some (negative, first :: later.takeWhile Char.isDigit),
            later.dropWhile Char.isDigit)
        else faultAfter .invalidNumber (first :: later)
    else .ok (none, c :: rest)

/-- The sign of a numeral, negative or not. -/
def numeralSign : List Char → Bool × List Char
  | '-' :: rest => (true, rest)
  | text => (false, text)

/-- Read a numeral. -/
def numeral (atEnd : SyntaxFault) (text : List Char) : Result Numeral :=
  let (negative, text) := numeralSign text
  match wholePart atEnd text with
  | .error problem => .error problem
  | .ok (whole, text) =>
    match fractionPart atEnd text with
    | .error problem => .error problem
    | .ok (fraction, text) =>
      match exponentPart atEnd text with
      | .error problem => .error problem
      | .ok (exponent, text) => .ok (⟨negative, whole, fraction, exponent⟩, text)

theorem wholePart_shorter {atEnd : SyntaxFault} {text rest digits : List Char}
    (read : wholePart atEnd text = .ok (digits, rest)) : rest.length < text.length := by
  unfold wholePart faultAt faultAfter at read
  split at read
  · simp at read
  · split at read
    · split at read
      · simp at read
      · simp only [Except.ok.injEq, Prod.mk.injEq] at read
        rw [← read.2]; simp
    · split at read
      · simp only [Except.ok.injEq, Prod.mk.injEq] at read
        rw [← read.2]
        exact Nat.lt_succ_of_le (List.dropWhile_sublist _).length_le
      · simp at read

theorem fractionPart_length_le {atEnd : SyntaxFault} {text rest : List Char}
    {digits : Option (List Char)} (read : fractionPart atEnd text = .ok (digits, rest)) :
    rest.length ≤ text.length := by
  unfold fractionPart faultAfter at read
  split at read
  · split at read
    · simp at read
    · simp only [Except.ok.injEq, Prod.mk.injEq] at read
      rw [← read.2]
      exact Nat.le_succ_of_le (List.dropWhile_sublist _).length_le
  · simp only [Except.ok.injEq, Prod.mk.injEq] at read
    exact Nat.le_of_eq (congrArg List.length read.2.symm)

theorem exponentSign_length_le (text : List Char) :
    (exponentSign text).2.length ≤ text.length := by
  unfold exponentSign
  split <;> simp

theorem exponentPart_length_le {atEnd : SyntaxFault} {text rest : List Char}
    {exponent : Option (Bool × List Char)}
    (read : exponentPart atEnd text = .ok (exponent, rest)) : rest.length ≤ text.length := by
  unfold exponentPart faultAt faultAfter at read
  split at read
  · simp only [Except.ok.injEq, Prod.mk.injEq] at read
    exact Nat.le_of_eq (congrArg List.length read.2.symm)
  · rename_i c later
    split at read
    · have bound := exponentSign_length_le later
      split at read
      rename_i negative digits sign
      rw [sign] at bound
      split at read
      · simp at read
      · rename_i first more
        split at read
        · simp only [Except.ok.injEq, Prod.mk.injEq] at read
          have := (List.dropWhile_sublist Char.isDigit (l := more)).length_le
          simp only [List.length_cons] at bound ⊢
          rw [← read.2]; omega
        · simp at read
    · simp only [Except.ok.injEq, Prod.mk.injEq] at read
      exact Nat.le_of_eq (congrArg List.length read.2.symm)

theorem numeralSign_length_le (text : List Char) :
    (numeralSign text).2.length ≤ text.length := by
  unfold numeralSign
  split <;> simp

theorem numeral_shorter {atEnd : SyntaxFault} {text rest : List Char} {written : Numeral}
    (read : numeral atEnd text = .ok (written, rest)) : rest.length < text.length := by
  have start := numeralSign_length_le text
  unfold numeral at read
  split at read
  rename_i negative digits sign
  rw [sign] at start
  split at read
  · simp at read
  · rename_i whole
    have first := wholePart_shorter whole
    split at read
    · simp at read
    · rename_i fraction
      have second := fractionPart_length_le fraction
      split at read
      · simp at read
      · rename_i exponent
        have third := exponentPart_length_le exponent
        simp only [Except.ok.injEq, Prod.mk.injEq] at read
        simp only at start
        rw [← read.2]; omega

/-- The value of a numeral. -/
inductive Number where
  | integer (value : Int)
  | decimal (value : Float)

/-- Append digits to a number as long as it stays below a bound: the number, and the
    digits that are left. -/
def absorb (bound number : Nat) : List Char → Nat × List Char
  | [] => (number, [])
  | digit :: rest =>
    let longer := number * 10 + (digit.toNat - '0'.toNat)
    if longer < bound then absorb bound longer rest else (number, digit :: rest)

/-- The bound of the digits that are kept. -/
def digitsBound : Nat := UInt64.size

/-- The bound of exponents. -/
def exponentBound : Nat := 0x80000000

/-- A power of ten that a double can hold. -/
def powerOfTen (exponent : Nat) : Float :=
  Float.ofScientific 1 false exponent

/-- Divide by a power of ten, at most `10 ^ 308` at a time. -/
def scaleDown (value : Float) (places : Nat) : Float :=
  if places ≤ 308 then value / powerOfTen places
  else if value == 0 then value
  else scaleDown (value / powerOfTen 308) (places - 308)
  termination_by places

/-- Multiply by a power of ten, unless the product is too large. -/
def scaleUp? (value : Float) (places : Nat) : Option Float :=
  if places ≤ 308 then
    let product := value * powerOfTen places
    if product.isInf then none else some product
  else if value == 0 then some value
  else none

/-- Digits times a power of ten, in double precision. -/
def scaled? (digits : Nat) (exponent : Int) : Option Float :=
  let value := digits.toUInt64.toFloat
  if exponent < 0 then some (scaleDown value (-exponent).toNat)
  else scaleUp? value exponent.toNat

/-- The magnitude of a numeral that is a double. An exponent out of bounds makes a
    number zero or too large. -/
def Numeral.magnitude? (numeral : Numeral) : Option Float :=
  let (digits, dropped) := absorb digitsBound 0 numeral.whole
  let fraction := numeral.fraction.getD []
  let (digits, unused) := absorb digitsBound digits fraction
  let places : Int := dropped.length - ((fraction.length - unused.length : Nat) : Int)
  match numeral.exponent with
  | none => scaled? digits places
  | some (negative, written) =>
    match absorb exponentBound 0 written with
    | (exponent, []) => scaled? digits (if negative then places - exponent else places + exponent)
    | _ => if digits ≠ 0 ∧ ¬negative then none else some 0

/-- The digits of an exponent that come after the one that takes it out of bounds. -/
def Numeral.exponentTail (numeral : Numeral) : List Char :=
  match numeral.exponent with
  | none => []
  | some (_, written) => (absorb exponentBound 0 written).2.drop 1

/-- The value of a numeral, unless it is too large. Minus zero is a double. -/
def Numeral.value? (numeral : Numeral) : Option Number :=
  let decimal := numeral.magnitude?.map fun magnitude =>
    .decimal (if numeral.negative then -magnitude else magnitude)
  match numeral.fraction, numeral.exponent, absorb digitsBound 0 numeral.whole with
  | none, none, (value, []) =>
    if !numeral.negative then some (.integer value)
    else if 0 < value ∧ value ≤ 0x8000000000000000 then some (.integer (-value))
    else decimal
  | _, _, _ => decimal

/-- Read a number. One that is too large is found out before the rest of its exponent is
    read. -/
def number (text : List Char) : Result Number :=
  match numeral .endInValue text with
  | .error problem => .error problem
  | .ok (written, rest) =>
    match written.value? with
    | some value => .ok (value, rest)
    | none => faultAt .numberOutOfRange (written.exponentTail ++ rest)

theorem number_shorter {text rest : List Char} {value : Number}
    (read : number text = .ok (value, rest)) : rest.length < text.length := by
  unfold number faultAt at read
  split at read
  · simp at read
  · rename_i written
    split at read
    · simp only [Except.ok.injEq, Prod.mk.injEq] at read
      rw [← read.2]; exact numeral_shorter written
    · simp at read

end Multipass.Json
