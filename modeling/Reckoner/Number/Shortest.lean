import Reckoner.Number.Binary64

/-!
The shortest decimal of a number. The decimals that read back as a number fill the interval between
the midpoints to its two neighbours, ends included where its mantissa is even. Going from coarse to
fine grids of decimals, the first grid with a point in that interval gives the fewest digits, and of
its points the one nearest to the number is taken.
-/
namespace Reckoner.Number

/-- A decimal `digits * 10 ^ exponent`. -/
structure Decimal where
  digits : Nat
  exponent : Int
  deriving DecidableEq, Repr

/-- The interval that reads back as `mantissa * 2 ^ exponent`, in quarters of `2 ^ exponent`. -/
structure Interval where
  low : Nat
  value : Nat
  high : Nat
  /-- The ends read back too. -/
  closed : Bool

/-- The interval around a positive number; below a power of two the neighbour is half as far. -/
def interval (mantissa : Nat) (exponent : Int) : Interval :=
  let near := mantissa = hiddenBit ∧ exponent > leastExponent
  { low := 4 * mantissa - (if near then 1 else 2)
    value := 4 * mantissa
    high := 4 * mantissa + 2
    closed := mantissa % 2 = 0 }

/-- `point * grid` lies in the interval, whose unit is `unit`. -/
def Interval.holds (i : Interval) (unit grid point : Nat) : Bool :=
  let p := point * grid
  if i.closed then i.low * unit ≤ p && p ≤ i.high * unit
  else i.low * unit < p && p < i.high * unit

/-- The point of a grid nearest to the number, among those that read back; of two equally near
    points the even one. -/
def gridPoint? (i : Interval) (unit grid : Nat) : Option Nat :=
  let below := i.value * unit / grid
  let above := below + 1
  let belowGap := i.value * unit - below * grid
  let aboveGap := above * grid - i.value * unit
  match i.holds unit grid below, i.holds unit grid above with
  | true, true =>
    if belowGap < aboveGap ∨ (belowGap = aboveGap ∧ below % 2 = 0) then some below else some above
  | true, false => some below
  | false, true => some above
  | false, false => none

/-- The first grid from `10 ^ exponent` downwards that has a point in the interval. -/
def searchGrid (i : Interval) (binary : Int) : (steps : Nat) → (exponent : Int) → Decimal
  | 0, exponent => ⟨0, exponent⟩
  | steps + 1, exponent =>
    let unit := Nat.pow 2 (binary - 2).toNat * Nat.pow 10 (-exponent).toNat
    let grid := Nat.pow 2 (2 - binary).toNat * Nat.pow 10 exponent.toNat
    match gridPoint? i unit grid with
    | some point => ⟨point, exponent⟩
    | none => searchGrid i binary steps (exponent - 1)

/-- The shortest decimal of the positive number `mantissa * 2 ^ exponent`. The search starts above
    the leading digit, whose place is about `log2 * 1233 / 4096`. -/
def shortest (mantissa : Nat) (exponent : Int) : Decimal :=
  let place := ((mantissa.log2 : Int) + exponent) * 1233 / 4096
  searchGrid (interval mantissa exponent) exponent 24 (place + 2)

end Reckoner.Number
