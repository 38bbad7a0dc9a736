import Reckoner.Log
import Reckoner.Scope
import Reckoner.Value.Arithmetic

/-!
Evaluation. A node is evaluated in a chain of scopes: definitions go to the innermost scope, names
are looked up from there outwards, and a call puts one new scope in front of the chain of its
caller, in which the function's body is evaluated and which is dropped afterwards. So a body sees
all names of its callers. The outer scopes never change and are an argument; the innermost one and
the log are state, which a fault leaves as they are.
-/
namespace Reckoner

/-- What evaluation changes. -/
structure Frame where
  /-- The innermost scope. -/
  scope : Scope := []
  /-- The entries of the log, latest first. -/
  entries : List Entry := []
  deriving Inhabited

/-- A step of evaluation. -/
abbrev Evaluation := EStateM Fault Frame

namespace Evaluation

/-- The result of an evaluation from a frame, and the frame that it leaves. -/
def outcome {α : Type} (evaluation : Evaluation α) (frame : Frame) : Except Fault α × Frame :=
  match evaluation.run frame with
  | .ok value after => (.ok value, after)
  | .error fault after => (.error fault, after)

/-- The value of a computation that may fail. -/
def lift {α : Type} : Except Fault α → Evaluation α
  | .ok value => pure value
  | .error fault => throw fault

/-- The value of a computation that may fail with an error of the language. -/
def liftError {α : Type} : Except Error α → Evaluation α
  | .ok value => pure value
  | .error error => throw (.error error)

/-- Writes an entry where the level asks for it. Only then are its pieces composed, and only where
    the log is written is a sentence made of them; both may fail. -/
def record (logging : Logging) (detail : Detail) (pieces : Unit → Except Fault (List Datum)) :
    Evaluation Unit := do
  if logging.includes detail then
    let composed ← lift (pieces ())
    if logging.writing then
      let text ← lift (Datum.sentence 0 composed)
      modify fun frame => { frame with entries := ⟨detail, text⟩ :: frame.entries }

/-- The value of a name. -/
def resolve (outer : List Scope) (name : Datum) : Evaluation Value := do
  lift (Scope.resolve ((← get).scope :: outer) name)

/-- Gives a name a value in the innermost scope. -/
def define (name : Datum) (value : Value) : Evaluation Unit := do
  let key ← lift name.asKey
  modify fun frame => { frame with scope := frame.scope.set key value }

/-- Evaluates in a new innermost scope, which is dropped afterwards, whatever the outcome. -/
def inScope {α : Type} (scope : Scope) (body : Evaluation α) : Evaluation α := fun frame =>
  match body { frame with scope } with
  | .ok value after => .ok value { after with scope := frame.scope }
  | .error fault after => .error fault { after with scope := frame.scope }

/-- The value of the use of a name; a function has to be called. -/
def reference (outer : List Scope) (name : Datum) : Evaluation Value := do
  match ← resolve outer name with
  | .function _ => throw (.error (.typeMismatch (.functionAsValue name)))
  | value => return value

/-- The number that an operand is. -/
def operand (operator : Operator) (value : Value) : Evaluation Float :=
  lift (value.expectNumber s!"operator {operator.symbol}")

/-- The function that a name stands for. -/
def callee (outer : List Scope) (name : Datum) : Evaluation Function := do
  match ← resolve outer name with
  | .function f => return f
  | other => throw (.error (.typeMismatch (.notCallable name other.typeName)))

/-- The scope of a function's parameters, one for each argument. -/
def parameterScope (f : Function) (arguments : List Value) : Except Fault Scope :=
  if arguments.length = f.parameters.length then
    Scope.ofBindings (f.parameters.zip arguments)
  else .error (.error (.arity f.name f.parameters.length arguments.length))

/-- The entry for a definition. -/
def definitionEntry (name : Datum) (value : Value) : Except Fault (List Datum) := do
  return [.text "let ", name, .text " = ", .text (← value.shown)]

/-- The entry for a definition of a function. -/
def functionEntry (f : Function) : Except Fault (List Datum) := do
  return .text "define function " :: (← f.heading)

/-- The entry for a call in a chain of `size` scopes. -/
def callEntry (f : Function) (arguments : List Value) (size : Nat) :
    Except Fault (List Datum) := do
  let shown := ", ".intercalate (← arguments.mapM Value.shown)
  return [.text "call ", f.name, .text s!"({shown}) depth={size}"]

/-- The entry for the value of a statement, by its number. -/
def statementEntry (index : Nat) (value : Value) : Except Fault (List Datum) := do
  return [.text s!"statement {index}: ", .text (← value.shown)]

end Evaluation

open Evaluation in
/-- The value of a node, reached in at most `depth` levels. -/
def Node.evaluate (logging : Logging) :
    (depth : Nat) → (outer : List Scope) → Node → Evaluation Value
  | 0, _, _ => throw .depth
  | _ + 1, _, .number x => return .number x
  | _ + 1, outer, .reference name => Evaluation.reference outer name
  | depth + 1, outer, .binary operator left right => do
    let a ← operand operator (← evaluate logging depth outer left)
    let b ← operand operator (← evaluate logging depth outer right)
    return .number (← liftError (operator.apply a b))
  | depth + 1, outer, .definition name value => do
    let result ← evaluate logging depth outer value
    define name result
    record logging .definition fun _ => definitionEntry name result
    return result
  | _ + 1, _, .function name parameters body => do
    let f : Function := ⟨name, parameters, body⟩
    define name (.function f)
    record logging .definition fun _ => functionEntry f
    return .number 0.0
  | depth + 1, outer, .call name arguments => do
    let f ← callee outer name
    let values ← arguments.mapM (evaluate logging depth outer)
    let scope ← lift (parameterScope f values)
    record logging .call fun _ => callEntry f values (outer.length + 2)
    let caller := (← get).scope
    inScope scope (evaluate logging depth (caller :: outer) f.body)
  | _ + 1, _, .program _ => throw .innerProgram

namespace Node

/-- The statements of a program. -/
def statements : Node → Except Fault (List Node)
  | program body => .ok body
  | function _ _ body => .error (.notIterable body.tag)
  | other => .error (.noBody other.tag)

/-- Evaluates statements in order and gives the last value, or `result` where there is none; `index`
    is the number of the first of them. -/
def evaluateAll (logging : Logging) (depth : Nat) (outer : List Scope) :
    (index : Nat) → (result : Value) → List Node → Evaluation Value
  | _, result, [] => return result
  | index, _, statement :: rest => do
    let value ← statement.evaluate logging depth outer
    Evaluation.record logging .statement fun _ => Evaluation.statementEntry index value
    evaluateAll logging depth outer (index + 1) value rest

/-- Runs a program: the value of its last statement, which has to be a number, and zero where there
    is no statement. -/
def run (logging : Logging) (depth : Nat) (outer : List Scope) (node : Node) :
    Evaluation Float := do
  let body ← Evaluation.lift node.statements
  let result ← tryCatch (evaluateAll logging depth outer 1 (.number 0.0) body) fun
    | .depth => throw (.error (.recursionLimit .calls none))
    | fault => throw fault
  Evaluation.lift (result.expectNumber "program result")

end Node

end Reckoner
