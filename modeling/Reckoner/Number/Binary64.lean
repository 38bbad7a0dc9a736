/-!
Binary floating-point numbers as exact values. A finite number is a whole multiple of a power of
two; `Parts` reads these off the bits, and `nearest?` goes back: it finds the number closest to a
fraction, the one with the even multiple where two are equally close.
-/
namespace Reckoner.Number

/-- What the bits of a number stand for. -/
inductive Parts where
  | nan
  | infinite (negative : Bool)
  /-- The value `mantissa * 2 ^ exponent`, negated where `negative` holds. -/
  | finite (negative : Bool) (mantissa : Nat) (exponent : Int)
  deriving DecidableEq, Repr

/-- Mantissas of normal numbers lie between this power of two and its double. -/
def hiddenBit : Nat := Nat.pow 2 52

/-- The exponent of the least positive number. -/
def leastExponent : Int := -1074

/-- The parts of a number. -/
def parts (x : Float) : Parts :=
  let bits := x.toBits.toNat
  let negative := bits ≥ Nat.pow 2 63
  let field := bits / hiddenBit % 2048
  let fraction := bits % hiddenBit
  if field = 2047 then if fraction = 0 then .infinite negative else .nan
  else if field = 0 then .finite negative fraction leastExponent
  else .finite negative (hiddenBit + fraction) ((field : Int) - 1075)

/-- Positive infinity. -/
def infinity : Float := Float.ofBits 0x7ff0000000000000

/-- The number that is not a number. -/
def notNumber : Float := Float.ofBits 0x7ff8000000000000

/-- The quotient rounded to the nearest whole number, a half going to the even neighbour. -/
def roundDiv (dividend divisor : Nat) : Nat :=
  let quotient := dividend / divisor
  let twice := 2 * (dividend % divisor)
  if twice > divisor ∨ (twice = divisor ∧ quotient % 2 = 1) then quotient + 1 else quotient

/-- The exponent at which a positive fraction has a mantissa of 53 binary digits, but never below
    the exponent of the least positive number. -/
def scaleOf (top bottom : Nat) : Int :=
  let guess : Int := (top.log2 : Int) - bottom.log2
  let below :=
    if guess ≥ 0 then top < bottom * Nat.pow 2 guess.toNat
    else top * Nat.pow 2 (-guess).toNat < bottom
  max leastExponent ((if below then guess - 1 else guess) - 52)

/-- The bits of the non-negative number nearest to a positive fraction, without a bound above. -/
def nearestBits (top bottom : Nat) : Nat :=
  let scale := scaleOf top bottom
  let mantissa :=
    if scale ≥ 0 then roundDiv top (bottom * Nat.pow 2 scale.toNat)
    else roundDiv (top * Nat.pow 2 (-scale).toNat) bottom
  (scale - leastExponent).toNat * hiddenBit + mantissa

/-- The number nearest to a fraction, and nothing where that lies beyond every finite number. -/
def nearest? (negative : Bool) (top bottom : Nat) : Option Float :=
  let bits := if top = 0 then 0 else nearestBits top bottom
  if bits < 2047 * hiddenBit then
    some (Float.ofBits (UInt64.ofNat (if negative then Nat.pow 2 63 + bits else bits)))
  else none

/-- The number nearest to a whole number, and nothing where it is too large. -/
def ofInt? (i : Int) : Option Float := nearest? (i < 0) i.natAbs 1

/-- Positive or negative infinity. -/
def signedInfinity (negative : Bool) : Float := if negative then -infinity else infinity

/-- The number nearest to `digits * 10 ^ exponent`, where `digits` is written with `size` decimal
    digits; an infinity where it is too large. Exponents far outside the range of the format are
    settled without computing the power. -/
def ofDecimal (negative : Bool) (digits size : Nat) (exponent : Int) : Float :=
  if digits = 0 ∨ exponent + size < -400 then if negative then -0.0 else 0.0
  else if exponent > 400 then signedInfinity negative
  else
    let found :=
      if exponent ≥ 0 then nearest? negative (digits * Nat.pow 10 exponent.toNat) 1
      else nearest? negative digits (Nat.pow 10 (-exponent).toNat)
    found.getD (signedInfinity negative)

/-- The whole number that a number is, if it is one. -/
def toInt? (x : Float) : Option Int :=
  match parts x with
  | .finite negative mantissa exponent =>
    let size : Option Nat :=
      if exponent ≥ 0 then some (mantissa * Nat.pow 2 exponent.toNat)
      else
        let unit := Nat.pow 2 (-exponent).toNat
        if mantissa % unit = 0 then some (mantissa / unit) else none
    size.map fun n => if negative then -(n : Int) else n
  | _ => none

end Reckoner.Number
