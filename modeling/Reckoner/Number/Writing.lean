import Reckoner.Number.Shortest

/-!
How numbers are written: with the fewest digits that read back, positionally for moderate sizes and
with an exponent otherwise.
-/
namespace Reckoner.Number

/-- The decisions of a written form. -/
structure Style where
  /-- The least and the greatest decimal exponent that is written positionally. -/
  least : Int := -4
  greatest : Int := 15
  /-- The least number of digits of an exponent. -/
  exponentDigits : Nat := 2
  infinity : String := "inf"
  nan : String := "nan"

/-- Numbers in messages and results. -/
def Style.plain : Style := {}

/-- Numbers in documents. -/
def Style.document : Style := { infinity := "Infinity", nan := "NaN" }

/-- The decimal digits of a number without trailing zeros. -/
def significant (digits : Nat) : List Char :=
  ((Nat.toDigits 10 digits).reverse.dropWhile (· = '0')).reverse

/-- An exponent with its sign and at least `width` digits. -/
def exponentText (width : Nat) (exponent : Int) : List Char :=
  let digits := Nat.toDigits 10 exponent.natAbs
  (if exponent < 0 then '-' else '+') :: (List.replicate (width - digits.length) '0' ++ digits)

/-- Digits of which the first has the place value `10 ^ exponent`. -/
def Style.digitsText (style : Style) (digits : List Char) (exponent : Int) : List Char :=
  if style.least ≤ exponent ∧ exponent ≤ style.greatest then
    if exponent < 0 then '0' :: '.' :: (List.replicate (-exponent - 1).toNat '0' ++ digits)
    else
      let whole := exponent.toNat + 1
      let fraction := digits.drop whole
      digits.take whole ++ List.replicate (whole - digits.length) '0' ++
        '.' :: (if fraction.isEmpty then ['0'] else fraction)
  else
    let point := if digits.length ≤ 1 then digits else digits.take 1 ++ '.' :: digits.drop 1
    point ++ 'e' :: exponentText style.exponentDigits exponent

/-- A number in a style. -/
def Style.write (style : Style) (x : Float) : String :=
  let signed (negative : Bool) (text : String) := if negative then "-" ++ text else text
  match parts x with
  | .nan => style.nan
  | .infinite negative => signed negative style.infinity
  | .finite negative 0 _ => signed negative "0.0"
  | .finite negative mantissa exponent =>
    let decimal := shortest mantissa exponent
    let digits := Nat.toDigits 10 decimal.digits
    let leading := (digits.length : Int) - 1 + decimal.exponent
    signed negative (String.ofList (style.digitsText (significant decimal.digits) leading))

/-- A number as messages show it. -/
def text (x : Float) : String := Style.plain.write x

end Reckoner.Number
