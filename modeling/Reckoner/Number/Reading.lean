import Reckoner.Number.Binary64
import Reckoner.Text.Blank
import Reckoner.Text.Digit

/-!
Reading a number from text: blanks around it, an optional sign, and either a decimal with an
optional point and exponent or the name of an infinity or of the number that is not one. Digits of
every script count, and a single underscore may stand between two digits. The decimal is rounded to
the nearest number.
-/
namespace Reckoner.Number
open Reckoner.Text

/-- A text without the blanks around it. -/
def trimMargins (chars : List Char) : List Char :=
  ((chars.dropWhile isMargin).reverse.dropWhile isMargin).reverse

/-- The run of digits that follows a digit, read after the digits that make up `value`: a digit may
    come at once or behind one underscore. The result is the value, the number of digits and the
    characters behind the run. -/
def digitRun (value size : Nat) : List Char → Nat × Nat × List Char
  | [] => (value, size, [])
  | '_' :: c :: rest =>
    match digitValue? c with
    | some d => digitRun (value * 10 + d) (size + 1) rest
    | none => (value, size, '_' :: c :: rest)
  | c :: rest =>
    match digitValue? c with
    | some d => digitRun (value * 10 + d) (size + 1) rest
    | none => (value, size, c :: rest)

/-- A run of digits, read after `value`; it may not begin with an underscore. -/
def digitsFrom (value size : Nat) : List Char → Nat × Nat × List Char
  | [] => (value, size, [])
  | c :: rest =>
    match digitValue? c with
    | some d => digitRun (value * 10 + d) (size + 1) rest
    | none => (value, size, c :: rest)

/-- The sign in front of a text: whether it is a minus, and what follows. -/
def takeSign : List Char → Bool × List Char
  | '-' :: rest => (true, rest)
  | '+' :: rest => (false, rest)
  | chars => (false, chars)

/-- The exponent that must fill the rest of a decimal; an absent one is zero. -/
def exponent? : List Char → Option Int
  | [] => some 0
  | mark :: rest =>
    if mark = 'e' ∨ mark = 'E' then
      let (negative, digits) := takeSign rest
      let (value, size, after) := digitsFrom 0 0 digits
      if size = 0 ∨ after ≠ [] then none else some (if negative then -(value : Int) else value)
    else none

/-- The digits behind the point, read after `value`. -/
def fractionFrom (value size : Nat) : List Char → Nat × Nat × List Char
  | '.' :: rest => digitsFrom value size rest
  | chars => (value, size, chars)

/-- A decimal without its sign. -/
def decimal? (negative : Bool) (chars : List Char) : Option Float :=
  let (whole, wholeSize, afterWhole) := digitsFrom 0 0 chars
  let (value, size, after) := fractionFrom whole wholeSize afterWhole
  if size = 0 then none
  else (exponent? after).map fun e => ofDecimal negative value size (e - (size - wholeSize : Nat))

/-- A number by name: an infinity or the number that is not one. -/
def named? (negative : Bool) (chars : List Char) : Option Float :=
  let name := String.ofList (chars.map Char.toLower)
  if name = "inf" ∨ name = "infinity" then some (signedInfinity negative)
  else if name = "nan" then some notNumber
  else none

/-- The number that a text stands for. -/
def read? (text : String) : Option Float :=
  let (negative, body) := takeSign (trimMargins text.toList)
  (decimal? negative body).or (named? negative body)

end Reckoner.Number
