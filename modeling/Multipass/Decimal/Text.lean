import Multipass.Decimal.Shortest

/-!
# Texts of floating-point numbers

A number is written with its shortest digits, positionally when its leading digit has
a moderate power of ten and with an exponent otherwise. A positional text always has a
point, and an exponent always has a sign.
-/

namespace Multipass.Decimal

/-- The powers of ten of the leading digit for which a text is positional. -/
structure Style where
  least : Int
  greatest : Int

/-- Numbers of single precision. -/
def Style.single : Style := ⟨-6, 12⟩

/-- Numbers of double precision. -/
def Style.double : Style := ⟨-5, 15⟩

/-- Zeros that fill up the places between the digits and the point. -/
def zeros (count : Nat) : List Char :=
  List.replicate count '0'

/-- The text of a positive numeral. -/
def Numeral.text (style : Style) (numeral : Numeral) : List Char :=
  let digits := Nat.toDigits 10 numeral.digits
  let power := numeral.exponent + digits.length - 1
  if style.least ≤ power ∧ power ≤ style.greatest then
    if power < 0 then '0' :: '.' :: zeros (-power - 1).toNat ++ digits
    else if digits.length ≤ power.toNat + 1 then
      digits ++ zeros (power.toNat + 1 - digits.length) ++ ['.', '0']
    else digits.take (power.toNat + 1) ++ '.' :: digits.drop (power.toNat + 1)
  else
    let mantissa :=
      match digits with
      | first :: second :: rest => first :: '.' :: second :: rest
      | digits => digits
    mantissa ++ 'e' :: (if power < 0 then '-' else '+') :: Nat.toDigits 10 power.natAbs

/-- The parts of a floating-point number that are stored in its bits. -/
structure Parts where
  negative : Bool
  mantissa : Nat
  exponent : Nat

/-- The layout of a floating-point format. -/
structure Layout where
  mantissaBits : Nat
  exponentBits : Nat
  style : Style

/-- Numbers of 32 bits. -/
def Layout.single : Layout := ⟨23, 8, .single⟩

/-- Numbers of 64 bits. -/
def Layout.double : Layout := ⟨52, 11, .double⟩

/-- The parts of the number with the given bits. -/
def Layout.parts (layout : Layout) (bits : Nat) : Parts :=
  ⟨bits / Nat.pow 2 (layout.mantissaBits + layout.exponentBits) % 2 = 1,
    bits % Nat.pow 2 layout.mantissaBits,
    bits / Nat.pow 2 layout.mantissaBits % Nat.pow 2 layout.exponentBits⟩

/-- The text of the finite number with the given bits; infinities and what is not a
    number have none. -/
def Layout.text? (layout : Layout) (bits : Nat) : Option (List Char) :=
  let parts := layout.parts bits
  let sign := if parts.negative then ['-'] else []
  let least : Int := 2 - Nat.pow 2 (layout.exponentBits - 1) - layout.mantissaBits
  if parts.exponent = Nat.pow 2 layout.exponentBits - 1 then none
  else if parts.exponent = 0 then
    if parts.mantissa = 0 then some (sign ++ ['0', '.', '0'])
    else
      let fraction : BinaryFraction := ⟨parts.mantissa, least, true⟩
      some (sign ++ fraction.shortest.text layout.style)
  else
    let fraction : BinaryFraction :=
      ⟨Nat.pow 2 layout.mantissaBits + parts.mantissa, least + (parts.exponent - 1),
        parts.mantissa != 0 || parts.exponent == 1⟩
    some (sign ++ fraction.shortest.text layout.style)

/-- The text of a number of single precision, if it is a finite one. -/
def singleText? (number : Float32) : Option (List Char) :=
  Layout.single.text? number.toBits.toNat

end Multipass.Decimal
