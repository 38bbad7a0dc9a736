import Reckoner.Datum

/-!
Program trees. Reading a source makes programs of statements over expressions, with text for names;
a tree from a document may put any node anywhere and any datum in the place of a name.
-/
namespace Reckoner

/-- An arithmetic operator. -/
inductive Operator where
  | add
  | subtract
  | multiply
  | divide
  deriving DecidableEq, Repr

/-- The symbol of an operator. -/
def Operator.symbol : Operator → String
  | .add => "+"
  | .subtract => "-"
  | .multiply => "*"
  | .divide => "/"

/-- The operator with a symbol. -/
def Operator.ofSymbol? (symbol : String) : Option Operator :=
  [add, subtract, multiply, divide].find? fun operator => operator.symbol = symbol

theorem Operator.ofSymbol?_symbol (operator : Operator) :
    Operator.ofSymbol? operator.symbol = some operator := by
  cases operator <;> decide

/-- A program tree. -/
inductive Node where
  | program (body : List Node)
  | number (value : Float)
  /-- The use of a name. -/
  | reference (name : Datum)
  | binary (operator : Operator) (left right : Node)
  | call (name : Datum) (arguments : List Node)
  | definition (name : Datum) (value : Node)
  | function (name : Datum) (parameters : List Datum) (body : Node)
  deriving Inhabited

/-- The type of a node in documents and messages. -/
def Node.tag : Node → String
  | .program _ => "Program"
  | .number _ => "NumberLiteral"
  | .reference _ => "VariableRef"
  | .binary .. => "BinaryOp"
  | .call .. => "FunctionCall"
  | .definition .. => "Definition"
  | .function .. => "FunctionDef"

end Reckoner
