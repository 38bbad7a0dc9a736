import Mathlib.Logic.Relation
import Reckoner.Evaluate
import Reckoner.Proofs.Scope

/-!
The tasks of an evaluation. To evaluate a node is a task, and it leads to further tasks: those of
the parts of the node and of the body of a function that is called. Where names stand for numbers
and functions only, every task gives a number, and its fault is that of a task it led to.
-/
namespace Reckoner

namespace Evaluation
variable {α : Type} {work : Evaluation α} {frame after : Frame}

theorem outcome_of_ok {value : α} (ended : work frame = .ok value after) :
    outcome work frame = (.ok value, after) := by
  rw [outcome, EStateM.run, ended]

theorem outcome_of_error {fault : Fault} (ended : work frame = .error fault after) :
    outcome work frame = (.error fault, after) := by
  rw [outcome, EStateM.run, ended]

/-- The scope of a function's parameters has only the values of the arguments. -/
theorem parameterScope_holds {P : Value → Prop} {f : Function} {values : List Value}
    (each : ∀ value ∈ values, P value) {scope : Scope} (made : parameterScope f values = .ok scope) :
    scope.Holds P := by
  unfold parameterScope at made
  split at made
  · refine Scope.holds_ofBindings (fun binding inside => ?_) made
    exact each binding.2 (List.of_mem_zip inside).2
  · cases made

end Evaluation

/-- A node to be evaluated, with all that its evaluation starts from. -/
structure Task where
  depth : Nat
  outer : List Scope
  node : Node
  frame : Frame

namespace Task
open Evaluation

/-- One task leads to another one: to the parts of a node in order, each from the frame that those
    before it left, and to the body of a function once its parameters have their values. -/
inductive Spawns (logging : Logging) : Task → Task → Prop
  | left {depth : Nat} {outer : List Scope} {operator : Operator} {left right : Node} {frame : Frame} :
      Spawns logging ⟨depth + 1, outer, .binary operator left right, frame⟩ ⟨depth, outer, left, frame⟩
  | right {depth : Nat} {outer : List Scope} {operator : Operator} {left right : Node}
      {frame after : Frame} {value : Value}
      (first : left.evaluate logging depth outer frame = .ok value after) :
      Spawns logging ⟨depth + 1, outer, .binary operator left right, frame⟩ ⟨depth, outer, right, after⟩
  | value {depth : Nat} {outer : List Scope} {name : Datum} {value : Node} {frame : Frame} :
      Spawns logging ⟨depth + 1, outer, .definition name value, frame⟩ ⟨depth, outer, value, frame⟩
  | argument {depth : Nat} {outer : List Scope} {name : Datum} {before rest : List Node}
      {argument : Node} {frame after : Frame} {function : Function} {values : List Value}
      (found : Scope.resolve (frame.scope :: outer) name = .ok (.function function))
      (earlier : before.mapM (Node.evaluate logging depth outer) frame = .ok values after) :
      Spawns logging ⟨depth + 1, outer, .call name (before ++ argument :: rest), frame⟩
        ⟨depth, outer, argument, after⟩
  | body {depth : Nat} {outer : List Scope} {name : Datum} {arguments : List Node}
      {frame after logged : Frame} {function : Function} {values : List Value} {scope : Scope}
      (found : Scope.resolve (frame.scope :: outer) name = .ok (.function function))
      (evaluated : arguments.mapM (Node.evaluate logging depth outer) frame = .ok values after)
      (bound : parameterScope function values = .ok scope)
      (recorded : record logging .call (fun _ => callEntry function values (outer.length + 2)) after =
        .ok ⟨⟩ logged) :
      Spawns logging ⟨depth + 1, outer, .call name arguments, frame⟩
        ⟨depth, logged.scope :: outer, function.body, { logged with scope }⟩

/-- The tasks that a task leads to, itself included. -/
def Reaches (logging : Logging) : Task → Task → Prop := Relation.ReflTransGen (Spawns logging)

/-- An entry of the log that fails: its pieces cannot be composed, or no sentence be made of them. -/
def Unwritten (logging : Logging) (detail : Detail) (pieces : Except Fault (List Datum))
    (fault : Fault) : Prop :=
  logging.includes detail = true ∧ (pieces = .error fault ∨
    ∃ composed, pieces = .ok composed ∧ logging.writing = true ∧
      Datum.sentence 0 composed = .error fault)

/-- What can go wrong at a task itself, with its parts left aside. -/
inductive Fails (logging : Logging) : Task → Fault → Prop
  | depth {outer : List Scope} {node : Node} {frame : Frame} :
      Fails logging ⟨0, outer, node, frame⟩ .depth
  | innerProgram {depth : Nat} {outer : List Scope} {body : List Node} {frame : Frame} :
      Fails logging ⟨depth + 1, outer, .program body, frame⟩ .innerProgram
  | unresolved {depth : Nat} {outer : List Scope} {name : Datum} {frame : Frame} {fault : Fault}
      (unknown : Scope.resolve (frame.scope :: outer) name = .error fault) :
      Fails logging ⟨depth + 1, outer, .reference name, frame⟩ fault
  | functionAsValue {depth : Nat} {outer : List Scope} {name : Datum} {frame : Frame}
      {function : Function}
      (found : Scope.resolve (frame.scope :: outer) name = .ok (.function function)) :
      Fails logging ⟨depth + 1, outer, .reference name, frame⟩
        (.error (.typeMismatch (.functionAsValue name)))
  | operator {depth : Nat} {outer : List Scope} {operator : Operator} {left right : Node}
      {frame : Frame} {a b : Float} {error : Error} (fails : operator.apply a b = .error error) :
      Fails logging ⟨depth + 1, outer, .binary operator left right, frame⟩ (.error error)
  | definitionKey {depth : Nat} {outer : List Scope} {name : Datum} {value : Node} {frame : Frame}
      {fault : Fault} (noKey : name.asKey = .error fault) :
      Fails logging ⟨depth + 1, outer, .definition name value, frame⟩ fault
  | definitionEntry {depth : Nat} {outer : List Scope} {name : Datum} {value : Node} {frame : Frame}
      {result : Float} {fault : Fault}
      (unwritten : Unwritten logging .definition (definitionEntry name (.number result)) fault) :
      Fails logging ⟨depth + 1, outer, .definition name value, frame⟩ fault
  | functionKey {depth : Nat} {outer : List Scope} {name : Datum} {parameters : List Datum}
      {body : Node} {frame : Frame} {fault : Fault} (noKey : name.asKey = .error fault) :
      Fails logging ⟨depth + 1, outer, .function name parameters body, frame⟩ fault
  | functionEntry {depth : Nat} {outer : List Scope} {name : Datum} {parameters : List Datum}
      {body : Node} {frame : Frame} {fault : Fault}
      (unwritten : Unwritten logging .definition (functionEntry ⟨name, parameters, body⟩) fault) :
      Fails logging ⟨depth + 1, outer, .function name parameters body, frame⟩ fault
  | unresolvedCall {depth : Nat} {outer : List Scope} {name : Datum} {arguments : List Node}
      {frame : Frame} {fault : Fault}
      (unknown : Scope.resolve (frame.scope :: outer) name = .error fault) :
      Fails logging ⟨depth + 1, outer, .call name arguments, frame⟩ fault
  | notCallable {depth : Nat} {outer : List Scope} {name : Datum} {arguments : List Node}
      {frame : Frame} {x : Float}
      (found : Scope.resolve (frame.scope :: outer) name = .ok (.number x)) :
      Fails logging ⟨depth + 1, outer, .call name arguments, frame⟩
        (.error (.typeMismatch (.notCallable name "Number")))
  | parameters {depth : Nat} {outer : List Scope} {name : Datum} {arguments : List Node}
      {frame : Frame} {function : Function} {values : List Float} {fault : Fault}
      (found : Scope.resolve (frame.scope :: outer) name = .ok (.function function))
      (unbound : parameterScope function (values.map .number) = .error fault) :
      Fails logging ⟨depth + 1, outer, .call name arguments, frame⟩ fault
  | callEntry {depth : Nat} {outer : List Scope} {name : Datum} {arguments : List Node}
      {frame : Frame} {function : Function} {values : List Float} {fault : Fault}
      (found : Scope.resolve (frame.scope :: outer) name = .ok (.function function))
      (unwritten : Unwritten logging .call
        (callEntry function (values.map .number) (outer.length + 2)) fault) :
      Fails logging ⟨depth + 1, outer, .call name arguments, frame⟩ fault

/-- A fault comes from a task that was reached. -/
def Blames (logging : Logging) (task : Task) (fault : Fault) : Prop :=
  ∃ culprit, Reaches logging task culprit ∧ Fails logging culprit fault

theorem Fails.blames {logging : Logging} {task : Task} {fault : Fault}
    (fails : Fails logging task fault) : Blames logging task fault := ⟨task, .refl, fails⟩

theorem Spawns.blames {logging : Logging} {task inner : Task} {fault : Fault}
    (spawns : Spawns logging task inner) (blames : Blames logging inner fault) :
    Blames logging task fault := by
  obtain ⟨culprit, reaches, fails⟩ := blames
  exact ⟨culprit, .head spawns reaches, fails⟩

end Task

end Reckoner
