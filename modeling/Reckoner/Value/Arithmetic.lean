import Reckoner.Value

/-!
The four operators. On numbers they are those of floating-point arithmetic, with division by zero as
an error. They also work on foreign values: whole numbers stay whole except under division and mix
with floating-point numbers, texts and lists can be joined and repeated, and every other pair is
refused by the types of both.
-/
namespace Reckoner

namespace Operator

/-- The result of an operator. Division by either zero is an error. -/
def apply (operator : Operator) (a b : Float) : Except Error Float :=
  match operator with
  | add => .ok (a + b)
  | subtract => .ok (a - b)
  | multiply => .ok (a * b)
  | divide =>
    if b == 0.0 then .error (.divisionByZero (Number.text a) (Number.text b)) else .ok (a / b)

/-- The result of an operator on whole numbers, the second of which is no zero under division. -/
def applyWhole (operator : Operator) (a b : Int) : Except Fault Value :=
  match operator with
  | add => .ok (.foreign (.integer (a + b)))
  | subtract => .ok (.foreign (.integer (a - b)))
  | multiply => .ok (.foreign (.integer (a * b)))
  | divide =>
    match Number.nearest? ((a < 0) != (b < 0)) a.natAbs b.natAbs with
    | some x => .ok (.number x)
    | none => .error .quotientTooLarge

end Operator

namespace Value

/-- What a value is to an operator. -/
inductive Operand where
  | whole (value : Int)
  | real (value : Float)
  | text (codes : List Nat)
  | list (items : List Datum)
  | other

/-- What a value is to an operator; truth values count as zero and one. -/
def operand : Value → Operand
  | number x => .real x
  | foreign (.integer i) => .whole i
  | foreign (.bool b) => .whole (if b then 1 else 0)
  | foreign (.spelling value) => .text value.codes
  | foreign (.list items) => .list items
  | _ => .other

/-- A value equal to zero. -/
def isZero (value : Value) : Bool :=
  match value.operand with
  | .whole i => i == 0
  | .real x => x == 0.0
  | _ => false

/-- The floating-point number nearest to a whole one. -/
def realOf (i : Int) : Except Fault Float :=
  match Number.ofInt? i with
  | some x => .ok x
  | none => .error .tooLarge

/-- How often something is repeated; less than once is never. -/
def countOf (value : Value) : Except Fault Nat :=
  match value.operand with
  | .whole i => if -0x8000000000000000 ≤ i ∧ i < 0x8000000000000000 then .ok i.toNat else .error .countTooLarge
  | _ => .error (.notCount value.sort)

/-- The text or list `value`, repeated. -/
def repeated (count : Nat) (value : Operand) : Value :=
  match value with
  | .text codes => foreign (.spelling <| .ofCodes (List.replicate count codes).flatten)
  | .list items => foreign (.list (List.replicate count items).flatten)
  | _ => foreign .null

/-- The second value joined to the first, which is a text or a list. -/
def joined (a b : Value) : Except Fault Value :=
  match a.operand, b.operand with
  | .text x, .text y => .ok (foreign (.spelling (.ofCodes (x ++ y))))
  | .list x, .list y => .ok (foreign (.list (x ++ y)))
  | _, _ => .error (.notJoinable a.sort b.sort)

/-- A text or a list. -/
def isSequence (value : Value) : Bool :=
  match value.operand with
  | .text _ => true
  | .list _ => true
  | _ => false

/-- The result of an operator on values that are not both numbers. -/
def combined (operator : Operator) (a b : Value) : Except Fault Value :=
  match operator, a.isSequence, b.isSequence with
  | .add, true, _ => joined a b
  | .multiply, true, _ => do return repeated (← countOf b) a.operand
  | .multiply, false, true => do return repeated (← countOf a) b.operand
  | _, _, _ => .error (.unsupported operator.symbol a.sort b.sort)

/-- The result of an operator on floating-point numbers. -/
def ofReals (operator : Operator) (a b : Float) : Except Fault Value :=
  match operator.apply a b with
  | .ok x => .ok (number x)
  | .error error => .error (.error error)

end Value

open Value in
/-- The result of an operator on any values. -/
def Operator.applyValues (operator : Operator) (a b : Value) : Except Fault Value :=
  if operator = .divide ∧ b.isZero then do
    throw (.error (.divisionByZero (← a.shown) (← b.shown)))
  else
    match a.operand, b.operand with
    | .whole m, .whole n => operator.applyWhole m n
    | .real x, .real y => ofReals operator x y
    | .whole m, .real y => do ofReals operator (← realOf m) y
    | .real x, .whole n => do ofReals operator x (← realOf n)
    | _, _ => combined operator a b

/-- The result of the operator that a datum is the symbol of. -/
def Operator.applySymbol (symbol : Datum) (a b : Value) : Except Fault Value :=
  let operator? :=
    match symbol with
    | .text word => Operator.ofSymbol? word
    | _ => none
  match operator? with
  | some operator => operator.applyValues a b
  | none => .error (.error (.typeMismatch (.unknownOperator symbol.plain)))

end Reckoner
