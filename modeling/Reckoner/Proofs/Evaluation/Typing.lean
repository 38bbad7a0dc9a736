import Reckoner.Proofs.Evaluation.Tasks

/-!
Evaluation keeps numbers and functions apart. Functions live in scopes but are never the value of a
node: from scopes of numbers and functions every task gives a number and leaves such scopes, whether
it succeeds or not, and a fault is that of a task it led to. The functions may be held to a class of
nodes that has the parts of each of its members.
-/
namespace Reckoner

namespace Evaluation
variable {α : Type} {frame : Frame}

theorem ends_lift {outcome : Except Fault α} {good : α → Frame → Prop} {bad : Fault → Frame → Prop} :
    Ends (lift outcome) frame good bad ↔
      (∀ value, outcome = .ok value → good value frame) ∧
        ∀ fault, outcome = .error fault → bad fault frame := by
  cases outcome <;> simp [lift]

theorem ends_resolve {outer : List Scope} {name : Datum} {good : Value → Frame → Prop}
    {bad : Fault → Frame → Prop} :
    Ends (resolve outer name) frame good bad ↔
      (∀ value, Scope.resolve (frame.scope :: outer) name = .ok value → good value frame) ∧
        ∀ fault, Scope.resolve (frame.scope :: outer) name = .error fault → bad fault frame := by
  rw [resolve, ends_bind, ends_get, ends_lift]

theorem ends_define {name : Datum} {value : Value} {good : Unit → Frame → Prop}
    {bad : Fault → Frame → Prop} :
    Ends (define name value) frame good bad ↔
      (∀ key, name.asKey = .ok key → good ⟨⟩ { frame with scope := frame.scope.set key value }) ∧
        ∀ fault, name.asKey = .error fault → bad fault frame := by
  simp only [define, ends_bind, ends_lift, ends_modify]

theorem ends_inScope {scope : Scope} {body : Evaluation α} {good : α → Frame → Prop}
    {bad : Fault → Frame → Prop} :
    Ends (inScope scope body) frame good bad ↔
      Ends body { frame with scope } (fun value after => good value { after with scope := frame.scope })
        (fun fault after => bad fault { after with scope := frame.scope }) := by
  simp only [Ends, inScope]
  cases body { frame with scope } <;> rfl

/-- An entry changes no scope, and only one that is not written fails. -/
theorem ends_record {logging : Logging} {detail : Detail} {pieces : Unit → Except Fault (List Datum)} :
    Ends (record logging detail pieces) frame (fun _ after => after.scope = frame.scope)
      (fun fault after => after = frame ∧ Task.Unwritten logging detail (pieces ()) fault) := by
  unfold record
  split
  · rename_i included
    rw [ends_bind, ends_lift]
    refine ⟨fun composed made => ?_, fun fault fails => ⟨rfl, included, .inl fails⟩⟩
    split
    · rename_i writing
      rw [ends_bind, ends_lift]
      refine ⟨fun text _ => by simp, fun fault fails => ?_⟩
      exact ⟨rfl, included, .inr ⟨composed, made, writing, fails⟩⟩
    · simp
  · simp

end Evaluation

/-- A class of nodes that has the parts of each of its members. -/
structure Node.Hereditary (K : Node → Prop) : Prop where
  left {operator : Operator} {left right : Node} : K (.binary operator left right) → K left
  right {operator : Operator} {left right : Node} : K (.binary operator left right) → K right
  value {name : Datum} {value : Node} : K (.definition name value) → K value
  argument {name : Datum} {arguments : List Node} :
    K (.call name arguments) → ∀ argument ∈ arguments, K argument
  body {name : Datum} {parameters : List Datum} {body : Node} :
    K (.function name parameters body) → K body

/-- A number, or a function of a class. -/
def Value.Within (K : Node → Prop) : Value → Prop
  | number _ => True
  | function f => K f.node
  | foreign _ => False

namespace Task
open Evaluation Node
variable {K : Node → Prop} {logging : Logging}

/-- A task on a node of a class, whose scopes hold only numbers and functions of that class. -/
structure Typed (K : Node → Prop) (task : Task) : Prop where
  node : K task.node
  scope : task.frame.scope.Holds (Value.Within K)
  outer : ∀ scope ∈ task.outer, scope.Holds (Value.Within K)

theorem Typed.chain {task : Task} (typed : task.Typed K) :
    ∀ scope ∈ task.frame.scope :: task.outer, scope.Holds (Value.Within K) :=
  List.forall_mem_cons.2 ⟨typed.scope, typed.outer⟩

/-- A part of a task's work from a frame gives results of a sort and leaves a typed scope, and its
    faults are blamed on the task. -/
def Keeps (K : Node → Prop) (logging : Logging) (task : Task) {α : Type} (work : Evaluation α)
    (frame : Frame) (Result : α → Prop) : Prop :=
  Ends work frame (fun value after => Result value ∧ after.scope.Holds (Value.Within K))
    (fun fault after => Blames logging task fault ∧ after.scope.Holds (Value.Within K))

/-- Every typed task of a depth gives a number. -/
def Sound (K : Node → Prop) (logging : Logging) (depth : Nat) : Prop :=
  ∀ {outer : List Scope} {node : Node} {frame : Frame}, Typed K ⟨depth, outer, node, frame⟩ →
    Keeps K logging ⟨depth, outer, node, frame⟩ (node.evaluate logging depth outer) frame
      (fun value => ∃ x, value = .number x)

section
variable {depth : Nat} {outer : List Scope} {frame : Frame}

theorem keeps_reference {name : Datum} (typed : Typed K ⟨depth + 1, outer, .reference name, frame⟩) :
    Keeps K logging ⟨depth + 1, outer, .reference name, frame⟩ (Evaluation.reference outer name) frame
      (fun value => ∃ x, value = .number x) := by
  unfold Evaluation.reference
  rw [Keeps, ends_bind, ends_resolve]
  refine ⟨fun value found => ?_, fun fault unknown => ⟨(Fails.unresolved unknown).blames, typed.scope⟩⟩
  have within := Scope.holds_resolve typed.chain found
  cases value with
  | number x => exact ⟨⟨x, rfl⟩, typed.scope⟩
  | function f => exact ⟨(Fails.functionAsValue found).blames, typed.scope⟩
  | foreign datum => exact within.elim

theorem keeps_binary (hereditary : Hereditary K) (sound : Sound K logging depth) {operator : Operator}
    {left right : Node} (typed : Typed K ⟨depth + 1, outer, .binary operator left right, frame⟩) :
    Keeps K logging ⟨depth + 1, outer, .binary operator left right, frame⟩
      ((Node.binary operator left right).evaluate logging (depth + 1) outer) frame
      (fun value => ∃ x, value = .number x) := by
  have typedLeft : Typed K ⟨depth, outer, left, frame⟩ :=
    ⟨hereditary.left typed.node, typed.scope, typed.outer⟩
  rw [Node.evaluate]
  refine (sound typedLeft).reached.bind ?_ ?_
  · rintro _ middle ⟨first, ⟨a, rfl⟩, scope⟩
    have typedRight : Typed K ⟨depth, outer, right, middle⟩ :=
      ⟨hereditary.right typed.node, scope, typed.outer⟩
    refine (sound typedRight).bind ?_ ?_
    · rintro _ after ⟨⟨b, rfl⟩, scope⟩
      simp only [operand, Value.expectNumber_number, lift, pure_bind]
      cases applied : operator.apply a b with
      | ok result => exact ⟨⟨result, rfl⟩, scope⟩
      | error error => exact ⟨(Fails.operator applied).blames, scope⟩
    · rintro fault after ⟨blames, scope⟩
      exact ⟨(Spawns.right first).blames blames, scope⟩
  · rintro fault after ⟨_, blames, scope⟩
    exact ⟨Spawns.left.blames blames, scope⟩

theorem keeps_definition (hereditary : Hereditary K) (sound : Sound K logging depth) {name : Datum}
    {value : Node} (typed : Typed K ⟨depth + 1, outer, .definition name value, frame⟩) :
    Keeps K logging ⟨depth + 1, outer, .definition name value, frame⟩
      ((Node.definition name value).evaluate logging (depth + 1) outer) frame
      (fun value => ∃ x, value = .number x) := by
  have typedValue : Typed K ⟨depth, outer, value, frame⟩ :=
    ⟨hereditary.value typed.node, typed.scope, typed.outer⟩
  rw [Node.evaluate]
  refine (sound typedValue).bind ?_ ?_
  · rintro _ after ⟨⟨x, rfl⟩, scope⟩
    rw [ends_bind, ends_define]
    refine ⟨fun key _ => ?_, fun fault noKey => ⟨(Fails.definitionKey noKey).blames, scope⟩⟩
    have defined : (after.scope.set key (.number x)).Holds (Value.Within K) := scope.set key trivial
    refine ends_record.bind ?_ ?_
    · rintro _ logged same
      refine ⟨⟨x, rfl⟩, ?_⟩
      rw [same]
      exact defined
    · rintro fault _ ⟨rfl, unwritten⟩
      exact ⟨(Fails.definitionEntry unwritten).blames, defined⟩
  · rintro fault after ⟨blames, scope⟩
    exact ⟨Spawns.value.blames blames, scope⟩

theorem keeps_function {name : Datum} {parameters : List Datum} {body : Node}
    (typed : Typed K ⟨depth + 1, outer, .function name parameters body, frame⟩) :
    Keeps K logging ⟨depth + 1, outer, .function name parameters body, frame⟩
      ((Node.function name parameters body).evaluate logging (depth + 1) outer) frame
      (fun value => ∃ x, value = .number x) := by
  rw [Node.evaluate, Keeps, ends_bind, ends_define]
  refine ⟨fun key _ => ?_, fun fault noKey => ⟨(Fails.functionKey noKey).blames, typed.scope⟩⟩
  have defined : (frame.scope.set key (.function ⟨name, parameters, body⟩)).Holds (Value.Within K) :=
    typed.scope.set key typed.node
  refine ends_record.bind ?_ ?_
  · rintro _ logged same
    refine ⟨⟨0.0, rfl⟩, ?_⟩
    rw [same]
    exact defined
  · rintro fault _ ⟨rfl, unwritten⟩
    exact ⟨(Fails.functionEntry unwritten).blames, defined⟩

/-- Arguments are numbers; a fault is that of one of them, from the frame that those before it
    left. -/
theorem ends_arguments (sound : Sound K logging depth) {arguments : List Node}
    (each : ∀ argument ∈ arguments, K argument) (scope : frame.scope.Holds (Value.Within K))
    (chain : ∀ scope ∈ outer, scope.Holds (Value.Within K)) :
    Ends (arguments.mapM (Node.evaluate logging depth outer)) frame
      (fun values after => (∃ numbers : List Float, values = numbers.map .number) ∧
        after.scope.Holds (Value.Within K))
      (fun fault after => (∃ before argument rest values middle,
        arguments = before ++ argument :: rest ∧
          before.mapM (Node.evaluate logging depth outer) frame = .ok values middle ∧
          Blames logging ⟨depth, outer, argument, middle⟩ fault) ∧
        after.scope.Holds (Value.Within K)) := by
  induction arguments generalizing frame with
  | nil => exact ⟨⟨[], rfl⟩, scope⟩
  | cons argument rest ih =>
    obtain ⟨first, others⟩ := List.forall_mem_cons.1 each
    rw [List.mapM_cons]
    refine (sound ⟨first, scope, chain⟩).reached.bind ?_ ?_
    · rintro _ middle ⟨evaluated, ⟨x, rfl⟩, scope⟩
      refine (ih others scope).bind ?_ ?_
      · rintro _ after ⟨⟨numbers, rfl⟩, scope⟩
        exact ⟨⟨x :: numbers, rfl⟩, scope⟩
      · rintro fault after ⟨⟨before, culprit, behind, values, last, rfl, earlier, blames⟩, scope⟩
        exact ⟨⟨argument :: before, culprit, behind, .number x :: values, last, rfl,
          mapM_cons_eq_ok evaluated earlier, blames⟩, scope⟩
    · rintro fault after ⟨_, blames, scope⟩
      exact ⟨⟨[], argument, rest, [], frame, rfl, rfl, blames⟩, scope⟩

/-- The scope of a call holds the arguments. -/
theorem holds_parameterScope {function : Function} {numbers : List Float} {scope : Scope}
    (bound : parameterScope function (numbers.map .number) = .ok scope) :
    scope.Holds (Value.Within K) := by
  refine parameterScope_holds (fun value inside => ?_) bound
  obtain ⟨x, _, rfl⟩ := List.mem_map.1 inside
  trivial

theorem keeps_call (hereditary : Hereditary K) (sound : Sound K logging depth) {name : Datum}
    {arguments : List Node} (typed : Typed K ⟨depth + 1, outer, .call name arguments, frame⟩) :
    Keeps K logging ⟨depth + 1, outer, .call name arguments, frame⟩
      ((Node.call name arguments).evaluate logging (depth + 1) outer) frame
      (fun value => ∃ x, value = .number x) := by
  rw [Node.evaluate, Keeps]
  unfold callee
  rw [ends_bind, ends_bind, ends_resolve]
  refine ⟨fun value found => ?_, fun fault unknown => ⟨(Fails.unresolvedCall unknown).blames, typed.scope⟩⟩
  have within := Scope.holds_resolve typed.chain found
  cases value with
  | number x => exact ⟨(Fails.notCallable found).blames, typed.scope⟩
  | foreign datum => exact within.elim
  | function f =>
    refine (ends_pure f).2 ?_
    have each := hereditary.argument typed.node
    refine (ends_arguments sound each typed.scope typed.outer).reached.bind ?_ ?_
    · rintro _ after ⟨evaluated, ⟨numbers, rfl⟩, kept⟩
      rw [ends_bind, ends_lift]
      refine ⟨fun scope bound => ?_, fun fault unbound => ⟨(Fails.parameters found unbound).blames, kept⟩⟩
      refine ends_record.reached.bind ?_ ?_
      · rintro _ logged ⟨recorded, same⟩
        have caller : logged.scope.Holds (Value.Within K) := same ▸ kept
        have inner : Typed K ⟨depth, logged.scope :: outer, f.body, { logged with scope }⟩ :=
          ⟨hereditary.body within, holds_parameterScope bound,
            List.forall_mem_cons.2 ⟨caller, typed.outer⟩⟩
        rw [ends_bind, ends_get, ends_inScope]
        refine (sound inner).imp ?_ ?_
        · rintro value _ ⟨number, _⟩
          exact ⟨number, caller⟩
        · rintro fault _ ⟨blames, _⟩
          exact ⟨(Spawns.body found evaluated bound recorded).blames blames, caller⟩
      · rintro fault _ ⟨_, rfl, unwritten⟩
        exact ⟨(Fails.callEntry found unwritten).blames, kept⟩
    · rintro fault after ⟨_, ⟨before, culprit, rest, values, middle, rfl, earlier, blames⟩, kept⟩
      exact ⟨(Spawns.argument found earlier).blames blames, kept⟩

end

/-- Every typed task gives a number. -/
theorem sound (hereditary : Hereditary K) (depth : Nat) : Sound K logging depth := by
  induction depth with
  | zero =>
    intro outer node frame typed
    rw [Node.evaluate]
    exact ⟨Fails.depth.blames, typed.scope⟩
  | succ depth ih =>
    intro outer node frame typed
    cases node with
    | program body =>
      rw [Node.evaluate]
      exact ⟨Fails.innerProgram.blames, typed.scope⟩
    | number x =>
      rw [Node.evaluate]
      exact ⟨⟨x, rfl⟩, typed.scope⟩
    | reference name =>
      rw [Node.evaluate]
      exact keeps_reference typed
    | binary operator left right => exact keeps_binary hereditary ih typed
    | call name arguments => exact keeps_call hereditary ih typed
    | definition name value => exact keeps_definition hereditary ih typed
    | function name parameters body => exact keeps_function typed

/-- What a typed task leads to is typed. -/
theorem Typed.spawns (hereditary : Hereditary K) {task inner : Task} (typed : task.Typed K)
    (spawns : Spawns logging task inner) : inner.Typed K := by
  cases spawns with
  | left => exact ⟨hereditary.left typed.node, typed.scope, typed.outer⟩
  | value => exact ⟨hereditary.value typed.node, typed.scope, typed.outer⟩
  | @right depth outer operator left right frame after value first =>
    have typedLeft : Typed K ⟨depth, outer, left, frame⟩ :=
      ⟨hereditary.left typed.node, typed.scope, typed.outer⟩
    have kept := (sound hereditary depth typedLeft).of_ok first
    exact ⟨hereditary.right typed.node, kept.2, typed.outer⟩
  | @argument depth _ _ before rest argument _ _ _ _ found earlier =>
    have each := hereditary.argument typed.node
    have eachBefore : ∀ node ∈ before, K node := fun node inside => each node (by simp [inside])
    have kept :=
      (ends_arguments (sound hereditary depth) eachBefore typed.scope typed.outer).of_ok earlier
    exact ⟨each argument (by simp), kept.2, typed.outer⟩
  | @body depth _ _ _ _ _ _ _ _ _ found evaluated bound recorded =>
    have within := Scope.holds_resolve typed.chain found
    have kept := (ends_arguments (sound hereditary depth) (hereditary.argument typed.node)
      typed.scope typed.outer).of_ok evaluated
    obtain ⟨⟨numbers, rfl⟩, scope⟩ := kept
    have same := ends_record.of_ok recorded
    exact ⟨hereditary.body within, holds_parameterScope bound,
      List.forall_mem_cons.2 ⟨same ▸ scope, typed.outer⟩⟩

theorem Typed.reaches (hereditary : Hereditary K) {task inner : Task} (typed : task.Typed K)
    (reaches : Reaches logging task inner) : inner.Typed K := by
  induction reaches with
  | refl => exact typed
  | tail _ spawns ih => exact ih.spawns hereditary spawns

end Task

end Reckoner
