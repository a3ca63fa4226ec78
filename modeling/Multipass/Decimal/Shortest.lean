/-!
# Shortest decimals of binary fractions

A floating-point number stands for every real number that rounds to it. Its shortest
decimal is the one with the fewest digits among those reals, and of several the one
nearest to the number. The search goes through the decimal grids from one digit on and
tests the two neighbours of the number on each, in exact arithmetic.
-/

namespace Multipass.Decimal

/-- The number `mantissa * 2 ^ exponent`. `evenGap` says that its lower neighbour is as
    far away as its upper one, which fails only for powers of two. -/
structure BinaryFraction where
  mantissa : Nat
  exponent : Int
  evenGap : Bool
  deriving DecidableEq, Repr

/-- The number `digits * 10 ^ exponent`. -/
structure Numeral where
  digits : Nat
  exponent : Int
  deriving DecidableEq, Repr

/-- Ten on one grid is one on the next. Neighbours have no other zeros at their end. -/
def Numeral.carry (numeral : Numeral) : Numeral :=
  if numeral.digits % 10 = 0 then ⟨numeral.digits / 10, numeral.exponent + 1⟩ else numeral

/-- A quotient of natural numbers. -/
structure Ratio where
  numerator : Nat
  denominator : Nat

/-- A multiple of a power of a base. -/
def Ratio.power (factor base : Nat) (exponent : Int) : Ratio :=
  if exponent < 0 then ⟨factor, base.pow (-exponent).toNat⟩
  else ⟨factor * base.pow exponent.toNat, 1⟩

/-- Is one quotient below another? -/
def Ratio.lt (left right : Ratio) : Bool :=
  left.numerator * right.denominator < right.numerator * left.denominator

/-- Is one quotient at most another? -/
def Ratio.le (left right : Ratio) : Bool :=
  left.numerator * right.denominator ≤ right.numerator * left.denominator

/-- The distance between two quotients. -/
def Ratio.distance (left right : Ratio) : Ratio :=
  let a := left.numerator * right.denominator
  let b := right.numerator * left.denominator
  ⟨max a b - min a b, left.denominator * right.denominator⟩

namespace BinaryFraction

/-- The number in quarters of its last place, moved by a number of quarters. -/
def moved (fraction : BinaryFraction) (quarters : Int) : Ratio :=
  .power (4 * (fraction.mantissa : Int) + quarters).toNat 2 (fraction.exponent - 2)

/-- The number itself. -/
def value (fraction : BinaryFraction) : Ratio :=
  fraction.moved 0

/-- Does a real number round to this one? The ends of the interval do when the mantissa
    is even. -/
def rounds (fraction : BinaryFraction) (real : Ratio) : Bool :=
  let low := fraction.moved (if fraction.evenGap then -2 else -1)
  let high := fraction.moved 2
  if fraction.mantissa % 2 = 0 then low.le real && real.le high
  else low.lt real && real.lt high

/-- The power of ten of the leading digit of a positive number. -/
def leadingPower (fraction : BinaryFraction) : Int :=
  let value := fraction.value
  if value.denominator ≤ value.numerator then
    ((Nat.toDigits 10 (value.numerator / value.denominator)).length : Int) - 1
  else
    -((Nat.toDigits 10 ((value.denominator - 1) / value.numerator)).length : Int)

/-- The number that a numeral stands for. -/
def toRatio (numeral : Numeral) : Ratio :=
  .power numeral.digits 10 numeral.exponent

/-- The neighbour on a grid that stands for the number, the nearer one of two; at equal
    distance the even one. -/
def neighbour? (fraction : BinaryFraction) (exponent : Int) : Option Numeral :=
  let value := fraction.value
  let scale := Ratio.power 1 10 exponent
  let below := (value.numerator * scale.denominator) / (value.denominator * scale.numerator)
  let low : Numeral := ⟨below, exponent⟩
  let high : Numeral := ⟨below + 1, exponent⟩
  let lowFits := fraction.rounds (toRatio low)
  let highFits := fraction.rounds (toRatio high)
  if lowFits && highFits then
    let lowDistance := value.distance (toRatio low)
    let highDistance := value.distance (toRatio high)
    if lowDistance.lt highDistance then some low
    else if highDistance.lt lowDistance then some high
    else some (if below % 2 = 0 then low else high)
  else if lowFits then some low
  else if highFits then some high
  else none

/-- The first grid that has a neighbour, from `count` digits on. -/
def search (fraction : BinaryFraction) (power : Int) : Nat → Nat → Numeral
  | 0, count => ⟨fraction.mantissa, power - count⟩
  | grids + 1, count =>
    match fraction.neighbour? (power - (count - 1)) with
    | some numeral => numeral.carry
    | none => search fraction power grids (count + 1)

/-- The shortest decimal of a positive number; seventeen digits are always enough. -/
def shortest (fraction : BinaryFraction) : Numeral :=
  search fraction fraction.leadingPower 17 1

end BinaryFraction

end Multipass.Decimal
