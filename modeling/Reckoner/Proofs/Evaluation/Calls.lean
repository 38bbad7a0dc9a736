import Reckoner.Proofs.Evaluation.Frames

/-!
Calls inside an expression. While an expression is evaluated, every scope in front of the global one
holds the arguments of a call, which are numbers. So a name that is called stands for the function
that it is globally, or for no function at all. An evaluation that gives a value also has a value for
the body of each function that it calls, at a smaller depth; and one whose calls are nested less than
its depth does not exceed it.
-/
namespace Reckoner

namespace Node

/-- A name is called somewhere in an expression. -/
inductive Calls : Node → String → Prop
  | here (name : String) (arguments : List Node) : Calls (.call (.text name) arguments) name
  | argument (name : Datum) {arguments : List Node} {argument : Node} {called : String}
      (inside : argument ∈ arguments) (calls : Calls argument called) :
      Calls (.call name arguments) called
  | left (operator : Operator) {left : Node} (right : Node) {called : String}
      (calls : Calls left called) : Calls (.binary operator left right) called
  | right (operator : Operator) (left : Node) {right : Node} {called : String}
      (calls : Calls right called) : Calls (.binary operator left right) called

/-- An expression whose parts and the bodies of whose functions are nested less than `depth` deep. -/
inductive Fits (globals : Scope) : (depth : Nat) → Node → Prop
  | number (depth : Nat) (value : Float) : Fits globals (depth + 1) (.number value)
  | reference (depth : Nat) (name : Datum) : Fits globals (depth + 1) (.reference name)
  | binary {depth : Nat} (operator : Operator) {left right : Node} (first : Fits globals depth left)
      (second : Fits globals depth right) : Fits globals (depth + 1) (.binary operator left right)
  | call {depth : Nat} {name : String} {arguments : List Node}
      (each : ∀ argument ∈ arguments, Fits globals depth argument)
      (bodies : ∀ function : Function, globals.get? (.text name) = some (.function function) →
        Fits globals depth function.body) :
      Fits globals (depth + 1) (.call (.text name) arguments)

theorem Fits.mono {globals : Scope} {depth greater : Nat} {node : Node}
    (fits : Fits globals depth node) (le : depth ≤ greater) : Fits globals greater node := by
  induction fits generalizing greater with
  | number depth value =>
    cases greater with
    | zero => omega
    | succ greater => exact .number greater value
  | reference depth name =>
    cases greater with
    | zero => omega
    | succ greater => exact .reference greater name
  | binary operator _ _ ihFirst ihSecond =>
    cases greater with
    | zero => omega
    | succ greater => exact .binary operator (ihFirst (by omega)) (ihSecond (by omega))
  | call _ _ ihEach ihBodies =>
    cases greater with
    | zero => omega
    | succ greater =>
      exact .call (fun argument inside => ihEach argument inside (by omega))
        (fun function bound => ihBodies function bound (by omega))

end Node

namespace Scope

/-- A chain of scopes of which all but the last one, that of the global names, hold numbers only. -/
inductive Shadows (globals : Scope) : List Scope → Prop
  | bottom : Shadows globals [globals]
  | push {scope : Scope} {chain : List Scope} (numbers : scope.Holds (Value.Within fun _ => False))
      (rest : Shadows globals chain) : Shadows globals (scope :: chain)

/-- A name that is found to be a function in such a chain is that function globally. -/
theorem Shadows.get? {globals : Scope} {chain : List Scope} (shadows : Shadows globals chain)
    {name : Datum} {function : Function} (found : find? chain name = some (.function function)) :
    globals.get? name = some (.function function) := by
  induction shadows with
  | bottom =>
    rw [find?, List.findSome?_singleton] at found
    exact found
  | @push scope chain numbers _ ih =>
    rw [find?, List.findSome?_cons] at found
    cases held : scope.get? name with
    | none =>
      rw [held] at found
      exact ih found
    | some value =>
      rw [held] at found
      cases found
      exact (numbers.get? held).elim

theorem Shadows.resolve {globals : Scope} {chain : List Scope} (shadows : Shadows globals chain)
    {name : String} {function : Function}
    (found : Scope.resolve chain (.text name) = .ok (.function function)) :
    globals.get? (.text name) = some (.function function) := by
  obtain ⟨key, keyed, searched⟩ := bind_eq_ok_iff.1 found
  cases keyed
  split at searched
  · rename_i value located
    cases searched
    exact shadows.get? located
  · cases searched

theorem Shadows.holds {globals : Scope} {chain : List Scope} (shadows : Shadows globals chain)
    {K : Node → Prop} (within : globals.Holds (Value.Within K)) :
    ∀ scope ∈ chain, scope.Holds (Value.Within K) := by
  induction shadows with
  | bottom => simpa using within
  | push numbers _ ih =>
    refine List.forall_mem_cons.2 ⟨fun binding inside => ?_, ih⟩
    have number := numbers binding inside
    cases held : binding.2 with
    | number x => trivial
    | function f =>
      rw [held] at number
      exact number.elim
    | foreign datum =>
      rw [held] at number
      exact number.elim

end Scope

namespace Task
open Evaluation Node
variable {logging : Logging}

/-- A task that gives a value. -/
def Completes (logging : Logging) (task : Task) : Prop :=
  ∃ value after, task.node.evaluate logging task.depth task.outer task.frame = .ok value after

theorem Spawns.depth {task inner : Task} (spawns : Spawns logging task inner) :
    inner.depth < task.depth := by
  cases spawns with | _ => exact Nat.lt_succ_self _

section
variable {depth : Nat} {outer : List Scope} {frame : Frame}

/-- Where an operation completes, its left side does. -/
theorem Completes.left {operator : Operator} {left right : Node}
    (completes : Completes logging ⟨depth, outer, .binary operator left right, frame⟩) :
    ∃ inner, Spawns logging ⟨depth, outer, .binary operator left right, frame⟩ inner ∧
      inner.node = left ∧ Completes logging inner := by
  obtain ⟨_, _, ended⟩ := completes
  cases depth with
  | zero => cases ended
  | succ depth =>
    obtain ⟨value, middle, first, _⟩ := bind_eq_ok ended
    exact ⟨_, .left, rfl, value, middle, first⟩

/-- Where an operation completes, its right side does. -/
theorem Completes.right {operator : Operator} {left right : Node}
    (completes : Completes logging ⟨depth, outer, .binary operator left right, frame⟩) :
    ∃ inner, Spawns logging ⟨depth, outer, .binary operator left right, frame⟩ inner ∧
      inner.node = right ∧ Completes logging inner := by
  obtain ⟨_, _, ended⟩ := completes
  cases depth with
  | zero => cases ended
  | succ depth =>
    obtain ⟨value, middle, first, more⟩ := bind_eq_ok ended
    obtain ⟨a, same, operand, more⟩ := bind_eq_ok more
    obtain ⟨other, after, second, _⟩ := bind_eq_ok more
    have kept : same = middle := by
      unfold Evaluation.operand at operand
      cases number : value.expectNumber s!"operator {operator.symbol}" with
      | ok x =>
        rw [number] at operand
        cases operand
        rfl
      | error fault =>
        rw [number] at operand
        cases operand
    rw [kept] at second
    exact ⟨_, .right first, rfl, other, after, second⟩

theorem resolve_eq_ok {name : Datum} {value : Value} {after : Frame}
    (found : resolve outer name frame = .ok value after) :
    Scope.resolve (frame.scope :: outer) name = .ok value ∧ after = frame := by
  change lift (Scope.resolve (frame.scope :: outer) name) frame = _ at found
  cases located : Scope.resolve (frame.scope :: outer) name with
  | ok other =>
    rw [located] at found
    cases found
    exact ⟨rfl, rfl⟩
  | error fault =>
    rw [located] at found
    cases found

theorem callee_eq_ok {name : Datum} {function : Function} {after : Frame}
    (found : callee outer name frame = .ok function after) :
    Scope.resolve (frame.scope :: outer) name = .ok (.function function) ∧ after = frame := by
  obtain ⟨value, middle, resolved, checked⟩ := bind_eq_ok found
  obtain ⟨located, rfl⟩ := resolve_eq_ok resolved
  cases value with
  | function f =>
    cases checked
    exact ⟨located, rfl⟩
  | number x => cases checked
  | foreign datum => cases checked

/-- Where a call completes, each of its arguments does. -/
theorem Completes.argument {name : Datum} {arguments : List Node}
    (completes : Completes logging ⟨depth, outer, .call name arguments, frame⟩) {argument : Node}
    (inside : argument ∈ arguments) :
    ∃ inner, Spawns logging ⟨depth, outer, .call name arguments, frame⟩ inner ∧
      inner.node = argument ∧ Completes logging inner := by
  obtain ⟨_, _, ended⟩ := completes
  cases depth with
  | zero => cases ended
  | succ depth =>
    obtain ⟨function, _, found, more⟩ := bind_eq_ok ended
    obtain ⟨found, rfl⟩ := callee_eq_ok found
    obtain ⟨values, after, evaluated, _⟩ := bind_eq_ok more
    obtain ⟨before, rest, rfl⟩ := List.append_of_mem inside
    rw [List.mapM_append] at evaluated
    obtain ⟨first, middle, earlier, others⟩ := bind_eq_ok evaluated
    rw [List.mapM_cons] at others
    obtain ⟨_, _, later, _⟩ := bind_eq_ok others
    obtain ⟨value, last, one, _⟩ := bind_eq_ok later
    exact ⟨_, .argument found earlier, rfl, value, last, one⟩

/-- Where a call completes, the body of the function does. -/
theorem Completes.body {name : Datum} {arguments : List Node}
    (completes : Completes logging ⟨depth, outer, .call name arguments, frame⟩) :
    ∃ function inner, Scope.resolve (frame.scope :: outer) name = .ok (.function function) ∧
      Spawns logging ⟨depth, outer, .call name arguments, frame⟩ inner ∧
      inner.node = function.body ∧ Completes logging inner := by
  obtain ⟨_, _, ended⟩ := completes
  cases depth with
  | zero => cases ended
  | succ depth =>
    obtain ⟨function, _, found, more⟩ := bind_eq_ok ended
    obtain ⟨found, rfl⟩ := callee_eq_ok found
    obtain ⟨values, after, evaluated, more⟩ := bind_eq_ok more
    obtain ⟨scope, same, lifted, more⟩ := bind_eq_ok more
    obtain ⟨_, logged, recorded, called⟩ := bind_eq_ok more
    cases bound : parameterScope function values with
    | error fault =>
      rw [bound] at lifted
      cases lifted
    | ok parameters =>
      rw [bound] at lifted
      cases lifted
      change inScope scope (function.body.evaluate logging depth (logged.scope :: outer)) logged = _ at called
      unfold inScope at called
      split at called
      · rename_i value last ended
        exact ⟨function, _, found, .body found evaluated bound recorded, rfl, value, last, ended⟩
      · cases called

end

/-- A task on an expression in a chain of calls over the global names. -/
structure Plain (globals : Scope) (task : Task) : Prop where
  node : task.node.Arithmetic
  chain : Scope.Shadows globals (task.frame.scope :: task.outer)

/-- A task below a depth completes, which is on the body of the function that a name is globally. -/
def CompletesBelow (globals : Scope) (logging : Logging) (depth : Nat) (name : String) : Prop :=
  ∃ function task, globals.get? (.text name) = some (.function function) ∧ task.Plain globals ∧
    Completes logging task ∧ task.node = function.body ∧ task.depth < depth

theorem CompletesBelow.mono {globals : Scope} {depth greater : Nat} {name : String}
    (below : CompletesBelow globals logging depth name) (less : depth < greater) :
    CompletesBelow globals logging greater name := by
  obtain ⟨function, task, bound, plain, completes, same, smaller⟩ := below
  exact ⟨function, task, bound, plain, completes, same, Nat.lt_trans smaller less⟩

section
variable {globals : Scope} (within : globals.Holds (Value.Within Ordinary)) {task inner : Task}
include within

theorem Plain.typed (plain : task.Plain globals) : task.Typed Ordinary := by
  obtain ⟨scope, outer⟩ := List.forall_mem_cons.1 (plain.chain.holds within)
  exact ⟨.expression plain.node, scope, outer⟩

/-- The body of a function is an expression. -/
theorem arithmetic_body {name : Datum} {function : Function}
    (bound : globals.get? name = some (.function function)) : function.body.Arithmetic := by
  have ordinary : function.node.Ordinary := within.get? bound
  unfold Function.node at ordinary
  generalize function.name = label at ordinary
  generalize function.parameters = parameters at ordinary
  cases ordinary with
  | expression arithmetic => cases arithmetic
  | function _ _ arithmetic => exact arithmetic

/-- What a task on an expression leads to is such a task. -/
theorem Plain.spawns (plain : task.Plain globals) (spawns : Spawns logging task inner) :
    inner.Plain globals := by
  have typed := plain.typed within
  obtain ⟨node, chain⟩ := plain
  cases spawns with
  | left =>
    cases node with
    | binary _ first second => exact ⟨first, chain⟩
  | @right depth outer _ _ _ _ _ _ evaluated =>
    cases node with
    | binary _ first second =>
      have kept := (first.preserves depth outer _).of_ok evaluated
      exact ⟨second, by rw [kept]; exact chain⟩
  | value => cases node
  | @argument depth outer name before rest argument _ _ _ _ _ earlier =>
    cases node with
    | call label each =>
      have kept := (Preserves.mapM fun argument inside =>
        (each argument (by simp [inside])).preserves depth outer) _ |>.of_ok earlier
      exact ⟨each argument (by simp), by rw [kept]; exact chain⟩
  | @body depth outer name arguments frame after logged function values scope found evaluated bound recorded =>
    cases node with
    | call label each =>
      have kept := (Preserves.mapM fun argument inside =>
        (each argument inside).preserves depth outer) _ |>.of_ok evaluated
      have logs := ends_record.of_ok recorded
      have arguments := (ends_arguments (sound hereditary_ordinary depth)
        (fun argument inside => .expression (each argument inside)) typed.scope typed.outer).of_ok evaluated
      obtain ⟨⟨numbers, rfl⟩, _⟩ := arguments
      refine ⟨arithmetic_body within (chain.resolve found), .push (holds_parameterScope bound) ?_⟩
      rw [logs, kept]
      exact chain

/-- Where a task on an expression completes, so does the body of each function that is called in
    it. -/
theorem Plain.completesBelow (plain : task.Plain globals) (completes : Completes logging task)
    {called : String} (calls : task.node.Calls called) :
    CompletesBelow globals logging task.depth called := by
  generalize same : task.node = node at calls
  induction calls generalizing task with
  | here name arguments =>
    obtain ⟨depth, outer, _, frame⟩ := task
    cases same
    obtain ⟨function, inner, found, spawns, same, done⟩ := completes.body
    exact ⟨function, inner, plain.chain.resolve found, plain.spawns within spawns, done, same,
      spawns.depth⟩
  | argument name inside _ ih =>
    obtain ⟨depth, outer, _, frame⟩ := task
    cases same
    obtain ⟨inner, spawns, same, done⟩ := completes.argument inside
    exact (ih (plain.spawns within spawns) done same).mono spawns.depth
  | left operator right _ ih =>
    obtain ⟨depth, outer, _, frame⟩ := task
    cases same
    obtain ⟨inner, spawns, same, done⟩ := completes.left
    exact (ih (plain.spawns within spawns) done same).mono spawns.depth
  | right operator left _ ih =>
    obtain ⟨depth, outer, _, frame⟩ := task
    cases same
    obtain ⟨inner, spawns, same, done⟩ := completes.right
    exact (ih (plain.spawns within spawns) done same).mono spawns.depth

omit within in
/-- What a task leads to fits its depth where the task does. -/
theorem Plain.fits_spawns (plain : task.Plain globals) (fits : task.node.Fits globals task.depth)
    (spawns : Spawns logging task inner) : inner.node.Fits globals inner.depth := by
  cases spawns with
  | left => cases fits with | binary _ first second => exact first
  | right _ => cases fits with | binary _ first second => exact second
  | value => cases fits
  | argument _ _ => cases fits with | call each bodies => exact each _ (by simp)
  | body found _ _ _ => cases fits with | call each bodies => exact bodies _ (plain.chain.resolve found)

omit within in
/-- Only at the depth zero is it the depth that goes wrong at a task on an expression. -/
theorem Fails.eq_zero (fails : Fails logging task .depth) (node : task.node.Arithmetic) :
    task.depth = 0 := by
  have noKey {name : Datum} : name.asKey ≠ .error .depth := by
    intro fails
    obtain ⟨_, other⟩ := Datum.asKey_eq_error fails
    cases other
  have unresolved {chain : List Scope} {name : Datum} :
      Scope.resolve chain name ≠ .error .depth := by
    intro fails
    rcases Scope.resolve_eq_error fails with keyless | other
    · exact noKey keyless
    · cases other
  cases fails with
  | depth => rfl
  | unresolved unknown => exact (unresolved unknown).elim
  | unresolvedCall unknown => exact (unresolved unknown).elim
  | parameters _ unbound =>
    rcases parameterScope_eq_error unbound with ⟨_, _, other⟩ | ⟨_, _, keyless⟩
    · cases other
    · exact (noKey keyless).elim
  | callEntry _ unwritten =>
    rw [Evaluation.callEntry, Value.mapM_shown_numbers] at unwritten
    obtain ⟨_, _, _, other⟩ := unwritten.cause
    cases other
  | definitionKey _ => cases node
  | definitionEntry _ => cases node
  | functionKey _ => cases node
  | functionEntry _ => cases node

/-- A task that fits its depth does not exceed it. -/
theorem Plain.not_blames_depth (plain : task.Plain globals)
    (fits : task.node.Fits globals task.depth) : ¬ Blames logging task .depth := by
  rintro ⟨culprit, reaches, fails⟩
  have reached : culprit.Plain globals ∧ culprit.node.Fits globals culprit.depth := by
    clear fails
    induction reaches with
    | refl => exact ⟨plain, fits⟩
    | tail _ spawns ih => exact ⟨ih.1.spawns within spawns, ih.1.fits_spawns ih.2 spawns⟩
  obtain ⟨plain, fits⟩ := reached
  rw [fails.eq_zero plain.node] at fits
  cases fits

end

end Task

end Reckoner
