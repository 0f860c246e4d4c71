/-!
# Decimal and binary numbers

A decimal number is a natural number times a power of ten. A binary number of 64 bits is a natural
number below 2⁵³ times a power of two between 2⁻¹⁰⁷⁴ and 2⁹⁷¹. A decimal number stands for the nearest
binary number, and of two that are equally near for the one with the even mantissa. A binary number
is shown by the fewest digits that stand for it, and of several such decimals by the nearest one.

* `Decimal.magnitude`, `Decimal.text`: the place of the highest digit, and positional notation.
* `roundHalfEven`: a quotient rounded to the nearest natural number.
* `Binary.ofDecimal?`, `Binary.toDecimal`: the binary number that a decimal number stands for, and the
  same number in decimal.
* `Binary.shortest`: the decimal with the fewest digits.
-/

namespace HouseStyle

/-! ## Decimal numbers -/

/-- The number `coefficient · 10 ^ exponent`. -/
structure Decimal where
  coefficient : Nat
  exponent : Int
  deriving DecidableEq, Repr

namespace Decimal

/-- The digits of the coefficient. -/
def digits (d : Decimal) : List Char := Nat.toDigits 10 d.coefficient

/-- How many digits stand in front of the decimal point, negative if zeros follow the point. -/
def magnitude (d : Decimal) : Int := d.digits.length + d.exponent

/-- The number in positional notation, without zeros at the end of its decimals. -/
def text (d : Decimal) : String :=
  let significant := (d.digits.reverse.dropWhile (· == '0')).reverse
  let point := d.magnitude
  String.ofList <|
    if significant.isEmpty then ['0']
    else if point ≤ 0 then
      "0.".toList ++ List.replicate (-point).toNat '0' ++ significant
    else if significant.length ≤ point.toNat then
      significant ++ List.replicate (point.toNat - significant.length) '0'
    else significant.take point.toNat ++ '.' :: significant.drop point.toNat

/-- Ten to the power of an exponent that is not negative, and otherwise one. -/
def powerOfTen (exponent : Int) : Nat := Nat.pow 10 exponent.toNat

end Decimal

/-! ## Binary numbers -/

/-- The natural number nearest to a quotient, the even one of two that are equally near. -/
def roundHalfEven (numerator denominator : Nat) : Nat :=
  let below := numerator / denominator
  let remainder := numerator % denominator
  if 2 * remainder < denominator || (2 * remainder == denominator && below % 2 == 0) then below
  else below + 1

/-- The number `mantissa · 2 ^ exponent`. -/
structure Binary where
  mantissa : Nat
  exponent : Int
  deriving DecidableEq, Repr

namespace Binary

/-- The bound of the mantissas, 2⁵³. -/
def mantissaBound : Nat := 9007199254740992

/-- The least mantissa with as many bits as a mantissa can have, 2⁵². -/
def fullMantissa : Nat := 4503599627370496

/-- The least exponent; mantissas with fewer bits are for this exponent only. -/
def leastExponent : Int := -1074

/-- The greatest exponent. -/
def greatestExponent : Int := 971

/-- The exponent of the greatest power of two that is no greater than a positive quotient. -/
def floorLog2 (numerator denominator : Nat) : Int :=
  let exponent := (numerator.log2 : Int) - denominator.log2
  if denominator <<< exponent.toNat ≤ numerator <<< (-exponent).toNat then exponent
  else exponent - 1

/-- The binary number nearest to a positive quotient; `none` if that would be too great. -/
def nearest? (numerator denominator : Nat) : Option Binary :=
  let exponent := max (floorLog2 numerator denominator - 52) leastExponent
  let mantissa :=
    roundHalfEven (numerator <<< (-exponent).toNat) (denominator <<< exponent.toNat)
  let rounded : Binary :=
    if mantissa = mantissaBound then ⟨fullMantissa, exponent + 1⟩ else ⟨mantissa, exponent⟩
  if rounded.exponent ≤ greatestExponent then some rounded else none

/-- The binary number that a decimal number stands for; `none` if that would be too great. Numbers
far beyond the greatest or below the least binary number are settled by their magnitude. -/
def ofDecimal? (d : Decimal) : Option Binary :=
  if d.coefficient = 0 || d.magnitude < -330 then some ⟨0, leastExponent⟩
  else if 310 < d.magnitude then none
  else
    nearest? (d.coefficient * Decimal.powerOfTen d.exponent) (Decimal.powerOfTen (-d.exponent))

/-- A binary number in decimal. -/
def toDecimal (b : Binary) : Decimal :=
  if 0 ≤ b.exponent then ⟨b.mantissa <<< b.exponent.toNat, 0⟩
  else ⟨b.mantissa * Nat.pow 5 (-b.exponent).toNat, b.exponent⟩

/-! ## The fewest digits -/

/-- The bounds of the numbers that are rounded to a binary number, in quarters of its last bit. The
numbers below a full mantissa lie closer together. -/
def bounds (b : Binary) : Nat × Nat :=
  let isFull := b.mantissa = fullMantissa && leastExponent < b.exponent
  (4 * b.mantissa - (if isFull then 1 else 2), 4 * b.mantissa + 2)

/-- Of the two multiples of a power of ten around a binary number the one that stands for the binary
number; of two the nearer one, and of two that are equally near the greater one. -/
def onGrid? (b : Binary) (exponent : Int) : Option Decimal :=
  let unit := Decimal.powerOfTen (-exponent) <<< (b.exponent - 2).toNat
  let step := Decimal.powerOfTen exponent <<< (2 - b.exponent).toNat
  let value := 4 * b.mantissa * unit
  let below := value / step
  let above := below + 1
  let (least, greatest) := b.bounds
  let stands (n : Nat) : Bool :=
    if b.mantissa % 2 = 0 then least * unit ≤ n * step && n * step ≤ greatest * unit
    else least * unit < n * step && n * step < greatest * unit
  let isBelowNearer := value - below * step < above * step - value
  if stands below && (isBelowNearer || !stands above) then some ⟨below, exponent⟩
  else if stands above then some ⟨above, exponent⟩
  else none

/-- The decimal with the fewest digits that stands for a binary number. Seventeen digits are always
enough. -/
def shortest (b : Binary) : Decimal :=
  let exact := b.toDecimal
  ((List.range 17).findSome? fun k => b.onGrid? (exact.magnitude - (k + 1 : Nat))).getD exact

end Binary

end HouseStyle
