import Reckoner.Fault
import Reckoner.Node

/-!
What names stand for: numbers and functions. Someone who hands a program its names may put any other
datum there; such a foreign value can be passed on, and is refused where a number is needed.
-/
namespace Reckoner

/-- A function. Its body sees the names of whoever calls it. -/
structure Function where
  name : Datum
  parameters : List Datum
  body : Node
  deriving Inhabited

/-- The node that defines a function. -/
def Function.node (function : Function) : Node :=
  .function function.name function.parameters function.body

/-- A function's name with its parameters, all of which have to be texts, in pieces. -/
def Function.heading (function : Function) : Except Fault (List Datum) := do
  Datum.checkTexts 0 function.parameters
  let names := function.parameters.intersperse (.text ", ")
  return function.name :: .text "(" :: names ++ [.text ")"]

/-- What a name stands for. -/
inductive Value where
  | number (value : Float)
  | function (value : Function)
  /-- A datum other than a number. -/
  | foreign (value : Datum)
  deriving Inhabited

namespace Value

/-- The value of a datum. -/
def ofDatum : Datum → Value
  | .number x => number x
  | other => foreign other

/-- Whether a value is a number. -/
def isNumber : Value → Bool
  | number _ => true
  | _ => false

/-- Whether a value is a function. -/
def isFunction : Value → Bool
  | function _ => true
  | _ => false

/-- The name of a value's type. -/
def typeName : Value → String
  | number _ => "Number"
  | function _ => "Function"
  | foreign datum => datum.typeName

/-- The sort of a value: that of its datum or node. -/
def sort : Value → String
  | number x => (Datum.number x).typeName
  | function f => f.node.tag
  | foreign datum => datum.typeName

/-- The tree that a value is; only a function is one. -/
def tree : Value → Except Fault Node
  | function f => .ok f.node
  | other => .error (.notTree other.sort)

/-- A value as output shows it: a number by its digits, a function by its heading, and a foreign
    value by the number that it stands for. -/
def shown : Value → Except Fault String
  | number x => .ok (Number.text x)
  | function f => do
    let heading := String.join ((← f.heading).map Datum.plain)
    return s!"<func {heading}>"
  | foreign datum => do return Number.text (← datum.toFloat)

/-- The number that a value is, or the mismatch in `context`. -/
def expectNumber (context : String) : Value → Except Fault Float
  | number x => .ok x
  | other => do
    throw (.error (.typeMismatch (.notNumber context other.typeName (← other.shown))))

@[simp] theorem expectNumber_number (context : String) (x : Float) :
    expectNumber context (number x) = .ok x := rfl

@[simp] theorem shown_number (x : Float) : shown (number x) = .ok (Number.text x) := rfl

end Value

end Reckoner
