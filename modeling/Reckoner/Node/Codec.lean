import Reckoner.Fault
import Reckoner.Node

/-!
Program trees as data. A node becomes a record whose field `type` names it. Reading takes any record
with the fields of its type, ignores other fields, and asks for the fields in a fixed order, so that
the first thing that is wrong decides the fault.
-/
namespace Reckoner.Node

/-- The fields that a node adds to its type. -/
def tagged (tag : String) (fields : Datum.Fields) : Datum :=
  .record (("type", .text tag) :: fields)

mutual

/-- The datum of a node. -/
def encode : Node → Datum
  | program body => tagged "Program" [("body", .list (encodeList body))]
  | number value => tagged "NumberLiteral" [("value", .number value)]
  | reference name => tagged "VariableRef" [("name", name)]
  | binary operator left right =>
    tagged "BinaryOp"
      [("op", .text operator.symbol), ("left", left.encode), ("right", right.encode)]
  | call name arguments =>
    tagged "FunctionCall" [("name", name), ("args", .list (encodeList arguments))]
  | definition name value => tagged "Definition" [("name", name), ("value", value.encode)]
  | function name parameters body =>
    tagged "FunctionDef" [("name", name), ("params", .list parameters), ("body", body.encode)]

/-- The data of nodes. -/
def encodeList : List Node → List Datum
  | [] => []
  | node :: rest => node.encode :: encodeList rest

end

mutual

/-- A node is nested at most `depth` deep. -/
def fits : (depth : Nat) → Node → Bool
  | 0, _ => false
  | depth + 1, program body => fitsList depth body
  | depth + 1, binary _ left right => left.fits depth && right.fits depth
  | depth + 1, call _ arguments => fitsList depth arguments
  | depth + 1, definition _ value => value.fits depth
  | depth + 1, function _ _ body => body.fits depth
  | _ + 1, number _ => true
  | _ + 1, reference _ => true

/-- Nodes are nested at most `depth` deep. -/
def fitsList : (depth : Nat) → List Node → Bool
  | _, [] => true
  | depth, node :: rest => node.fits depth && fitsList depth rest

end

/-- The datum of a node that is nested at most `depth` deep. -/
def encodeWithin (depth : Nat) (node : Node) : Except Fault Datum :=
  if node.fits depth then .ok node.encode else .error .depth

/-- A field that has to be there. -/
def need (fields : Datum.Fields) (key : String) : Except Fault Datum :=
  match Datum.field? fields key with
  | some value => .ok value
  | none => .error (.missingKey (.text key))

/-- The operator that a datum is the symbol of. -/
def decodeOperator : Datum → Except Fault Operator
  | .text symbol => match Operator.ofSymbol? symbol with
    | some operator => .ok operator
    | none => .error (.unknownOperator (.text symbol))
  | other => .error (.unknownOperator other)

/-- The type that a record names. -/
def typeField (fields : Datum.Fields) : Datum := (Datum.field? fields "type").getD .null

mutual

/-- The node of a datum. -/
def decode : Datum → Except Fault Node
  | .record fields =>
    match typeField fields with
    | .text "Program" => program <$> decodeListField fields "body"
    | .text "NumberLiteral" => do return number (← (← need fields "value").toFloat)
    | .text "VariableRef" => reference <$> need fields "name"
    | .text "BinaryOp" => do
      let operator ← decodeOperator (← need fields "op")
      let left ← decodeField fields "left"
      let right ← decodeField fields "right"
      return binary operator left right
    | .text "FunctionCall" => do
      let name ← need fields "name"
      return call name (← decodeListField fields "args")
    | .text "Definition" => do
      let name ← need fields "name"
      return definition name (← decodeField fields "value")
    | .text "FunctionDef" => do
      let name ← need fields "name"
      let parameters ← (← need fields "params").elements
      return function name parameters (← decodeField fields "body")
    | type => .error (.unknownNode type)
  | _ => .error .notRecord

/-- The node of a field. -/
def decodeField : List (Spelling × Datum) → String → Except Fault Node
  | [], key => .error (.missingKey (.text key))
  | (k, value) :: rest, key => if k = key then decode value else decodeField rest key

/-- The nodes of a field. -/
def decodeListField : List (Spelling × Datum) → String → Except Fault (List Node)
  | [], key => .error (.missingKey (.text key))
  | (k, value) :: rest, key => if k = key then decodeElements value else decodeListField rest key

/-- The nodes of the elements of a datum; characters and keys are no nodes. -/
def decodeElements : Datum → Except Fault (List Node)
  | .list items => decodeList items
  | .spelling value => if value = "" then .ok [] else .error .notRecord
  | .record fields => if fields.isEmpty then .ok [] else .error .notRecord
  | other => .error (.notIterable other.typeName)

/-- The nodes of data. -/
def decodeList : List Datum → Except Fault (List Node)
  | [] => .ok []
  | item :: rest => do
    let node ← decode item
    return node :: (← decodeList rest)

end

end Reckoner.Node
