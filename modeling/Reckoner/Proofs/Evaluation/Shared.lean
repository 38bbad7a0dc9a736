import Reckoner.Evaluate
import Reckoner.Proofs.Sharing

/-!
Evaluation with shared scopes. All scopes are in one store, every definition writes to it, and a call
evaluates the body of its function in an environment that shares the scopes of its caller; nothing is put
back when it returns. So that a scope is left alone is no matter of how the state is laid out, and it is
proved of every step: names are bound in the innermost scope of an environment and in no other one that
was there before, and these are the names that the node itself defines, one after another.
-/
namespace Reckoner

/-- A name that is a key is that key. -/
theorem Datum.asKey_eq_ok {name key : Datum} (found : name.asKey = .ok key) : key = name := by
  unfold asKey at found
  split at found
  · cases found
    rfl
  · cases found

/-- A scope after names were given some values, one after another. -/
inductive Scope.Gains : List Datum → Scope → Scope → Prop
  | none (scope : Scope) : Gains [] scope scope
  | more {name : Datum} {names : List Datum} {value : Value} {scope after : Scope}
      (others : Gains names (scope.set name value) after) : Gains (name :: names) scope after

namespace Scope

/-- The names that a scope has values for, in the order in which they first were given one. -/
def names (scope : Scope) : List Datum := scope.map Prod.fst

theorem Gains.append {first second : List Datum} {scope middle after : Scope}
    (one : Gains first scope middle) (two : Gains second middle after) :
    Gains (first ++ second) scope after := by
  induction one with
  | none => exact two
  | more _ ih => exact .more (ih two)

/-- A name that is given a value leaves those that were there in their places. -/
theorem names_set (scope : Scope) (name : Datum) (value : Value) :
    scope.names <+: (scope.set name value).names := by
  induction scope with
  | nil => exact List.nil_prefix
  | cons binding rest ih =>
    obtain ⟨key, old⟩ := binding
    rw [set]
    split
    · exact List.prefix_refl _
    · exact (List.prefix_cons_inj key).2 ih

/-- No name is removed, nor does one lose its place. -/
theorem Gains.names {names : List Datum} {scope after : Scope} (gains : Gains names scope after) :
    scope.names <+: after.names := by
  induction gains with
  | none => exact List.prefix_refl _
  | more _ ih => exact (names_set _ _ _).trans ih

/-- A name that is not among those that are given values keeps its own. -/
theorem Gains.get? {names : List Datum} {scope after : Scope} (gains : Gains names scope after)
    {other : Spelling} (free : .spelling other ∉ names) :
    after.get? (.spelling other) = scope.get? (.spelling other) := by
  induction gains with
  | none => rfl
  | more _ ih =>
    obtain ⟨differ, absent⟩ := not_or.1 (mt List.mem_cons.2 free)
    rw [ih absent]
    exact get?_set_of_ne_spelling differ _ _

end Scope

/-- A name that is given a value in an environment has it in the innermost scope. -/
theorem Store.scope_of_define {store after : Store} {environment : Environment} {name : Datum}
    {value : Value} (houses : store.Houses environment)
    (defined : store.define environment name value = .ok after) :
    after.scope environment.innermost = (store.scope environment.innermost).set name value := by
  obtain ⟨key, found, changed⟩ := bind_eq_ok_iff.1 defined
  cases changed
  have inside := houses environment.innermost List.mem_cons_self
  simp [scope, inside, Datum.asKey_eq_ok found]

/-- What is written for an entry of some pieces, which may fail to be composed or to be a sentence. -/
def Evaluation.recorded (logging : Logging) (detail : Detail) (pieces : Except Fault (List Datum)) :
    Except Fault (List Entry) := do
  if logging.includes detail then
    let composed ← pieces
    if logging.writing then return [⟨detail, ← Datum.sentence 0 composed⟩]
    else return []
  else return []

/-- What evaluation with shared scopes changes. -/
structure Workspace where
  store : Store
  /-- The entries of the log, latest first. -/
  entries : List Entry := []

/-- A step of evaluation with shared scopes. -/
abbrev Working := EStateM Fault Workspace

namespace Working
open Evaluation

/-- The result of a step from a workspace, and the workspace that it leaves. -/
def outcome {α : Type} (work : Working α) (workspace : Workspace) : Except Fault α × Workspace :=
  match work.run workspace with
  | .ok value after => (.ok value, after)
  | .error fault after => (.error fault, after)

/-- The value of a computation that may fail. -/
def lift {α : Type} : Except Fault α → Working α
  | .ok value => pure value
  | .error fault => throw fault

/-- The value of a computation that may fail with an error of the language. -/
def liftError {α : Type} : Except Error α → Working α
  | .ok value => pure value
  | .error error => throw (.error error)

/-- Writes an entry where the level asks for it. -/
def record (logging : Logging) (detail : Detail) (pieces : Unit → Except Fault (List Datum)) :
    Working Unit := do
  if logging.includes detail then
    let composed ← lift (pieces ())
    if logging.writing then
      let text ← lift (Datum.sentence 0 composed)
      modify fun workspace => { workspace with entries := ⟨detail, text⟩ :: workspace.entries }

/-- The value that an environment has for a name. -/
def resolve (environment : Environment) (name : Datum) : Working Value := do
  lift ((← get).store.lookup environment name)

/-- Gives a name a value in the innermost scope of an environment. -/
def define (environment : Environment) (name : Datum) (value : Value) : Working Unit := do
  let store ← lift ((← get).store.define environment name value)
  modify fun workspace => { workspace with store }

/-- An environment with a new scope in front of another environment. -/
def push (environment : Environment) (bindings : Scope) : Working Environment := do
  let (inner, store) := (← get).store.push environment bindings
  modify fun workspace => { workspace with store }
  return inner

/-- The value of the use of a name; a function has to be called. -/
def reference (environment : Environment) (name : Datum) : Working Value := do
  match ← resolve environment name with
  | .function _ => throw (.error (.typeMismatch (.functionAsValue name)))
  | value => return value

/-- The number that an operand is. -/
def operand (operator : Operator) (value : Value) : Working Float :=
  lift (value.expectNumber s!"operator {operator.symbol}")

/-- The function that a name stands for. -/
def callee (environment : Environment) (name : Datum) : Working Function := do
  match ← resolve environment name with
  | .function f => return f
  | other => throw (.error (.typeMismatch (.notCallable name other.typeName)))

end Working

open Evaluation Working in
/-- The value of a node in an environment, reached in at most `depth` levels. -/
def Node.evaluateIn (logging : Logging) : (depth : Nat) → Environment → Node → Working Value
  | 0, _, _ => throw .depth
  | _ + 1, _, .number x => return .number x
  | _ + 1, environment, .reference name => Working.reference environment name
  | depth + 1, environment, .binary operator left right => do
    let a ← Working.operand operator (← evaluateIn logging depth environment left)
    let b ← Working.operand operator (← evaluateIn logging depth environment right)
    return .number (← Working.liftError (operator.apply a b))
  | depth + 1, environment, .definition name value => do
    let result ← evaluateIn logging depth environment value
    Working.define environment name result
    Working.record logging .definition fun _ => definitionEntry name result
    return result
  | _ + 1, environment, .function name parameters body => do
    let f : Function := ⟨name, parameters, body⟩
    Working.define environment name (.function f)
    Working.record logging .definition fun _ => functionEntry f
    return .number 0.0
  | depth + 1, environment, .call name arguments => do
    let f ← Working.callee environment name
    let values ← arguments.mapM (evaluateIn logging depth environment)
    let bindings ← Working.lift (parameterScope f values)
    let inner ← push environment bindings
    Working.record logging .call fun _ => callEntry f values inner.depth
    evaluateIn logging depth inner f.body
  | _ + 1, _, .program _ => throw .innerProgram

mutual

/-- The names that a node defines itself, in the order in which it does: those of the definitions in it,
    except for the bodies of its functions. -/
def Node.bound : Node → List Datum
  | .program _ => []
  | .number _ => []
  | .reference _ => []
  | .binary _ left right => left.bound ++ right.bound
  | .call _ arguments => Node.boundAll arguments
  | .definition name value => value.bound ++ [name]
  | .function name _ _ => [name]

/-- The names that nodes define, one node after the other. -/
def Node.boundAll : List Node → List Datum
  | [] => []
  | node :: rest => node.bound ++ Node.boundAll rest

end

namespace Working
open Evaluation

section
variable {α : Type} {work : Working α} {workspace after : Workspace}

theorem outcome_of_ok {value : α} (ended : work workspace = .ok value after) :
    work.outcome workspace = (.ok value, after) := by
  rw [outcome, EStateM.run, ended]

theorem outcome_of_error {fault : Fault} (ended : work workspace = .error fault after) :
    work.outcome workspace = (.error fault, after) := by
  rw [outcome, EStateM.run, ended]

end

theorem record_eq (logging : Logging) (detail : Detail) (pieces : Unit → Except Fault (List Datum))
    (workspace : Workspace) :
    record logging detail pieces workspace = match recorded logging detail (pieces ()) with
      | .ok more => .ok ⟨⟩ { workspace with entries := more ++ workspace.entries }
      | .error fault => .error fault workspace := by
  unfold record recorded
  by_cases included : logging.includes detail
  · simp only [included, if_true]
    cases pieces () with
    | error fault => rfl
    | ok composed =>
      by_cases writing : logging.writing
      · have lifted : lift (.ok composed) workspace = .ok composed workspace := rfl
        have continued (next : List Datum → Except Fault (List Entry)) :
            Except.ok composed >>= next = next composed := rfl
        simp only [writing, if_true]
        rw [bind_of_ok lifted, continued]
        cases Datum.sentence 0 composed with
        | error fault => rfl
        | ok text => rfl
      · simp only [writing]
        rfl
  · simp only [included]
    rfl

theorem define_eq (environment : Environment) (name : Datum) (value : Value) (workspace : Workspace) :
    define environment name value workspace =
      match workspace.store.define environment name value with
      | .ok store => .ok ⟨⟩ { workspace with store }
      | .error fault => .error fault workspace := by
  change (lift (workspace.store.define environment name value) >>= fun store =>
    modify fun workspace => { workspace with store }) workspace = _
  cases workspace.store.define environment name value <;> rfl

/-- From one workspace to another one, an environment's innermost scope gains names, every other scope
    stays as it was, and there may be further scopes. -/
structure Touches (environment : Environment) (names : List Datum) (before after : Workspace) : Prop where
  grows : before.store.scopes.length ≤ after.store.scopes.length
  others : ∀ number < before.store.scopes.length, number ≠ environment.innermost →
    after.store.scope number = before.store.scope number
  gains : Scope.Gains names (before.store.scope environment.innermost)
    (after.store.scope environment.innermost)

section
variable {environment : Environment} {names more : List Datum} {before middle after : Workspace}

theorem touches_of_store_eq (same : after.store = before.store) : Touches environment [] before after := by
  constructor
  · exact Nat.le_of_eq (by rw [same])
  · intro number _ _
    rw [same]
  · rw [same]
    exact .none _

theorem Touches.trans (first : Touches environment names before middle)
    (second : Touches environment more middle after) :
    Touches environment (names ++ more) before after := by
  constructor
  · exact Nat.le_trans first.grows second.grows
  · intro number inside other
    rw [second.others number (Nat.lt_of_lt_of_le inside first.grows) other,
      first.others number inside other]
  · exact first.gains.append second.gains

theorem Touches.houses (touches : Touches environment names before after) {other : Environment}
    (houses : before.store.Houses other) : after.store.Houses other := houses.mono touches.grows

end

/-- In an environment a step binds the names, or some of the first of them before it fails. -/
def Binds {α : Type} (environment : Environment) (names : List Datum) (work : Working α) : Prop :=
  ∀ workspace, workspace.store.Houses environment →
    Ends work workspace (fun _ after => Touches environment names workspace after)
      fun _ after => ∃ first, first <+: names ∧ Touches environment first workspace after

section
variable {α β : Type} {environment : Environment} {names more : List Datum}

theorem binds_throw (fault : Fault) : Binds environment names (throw fault : Working α) :=
  fun _ _ => ⟨[], List.nil_prefix, touches_of_store_eq rfl⟩

theorem binds_pure (value : α) : Binds environment [] (pure value) := fun _ _ => touches_of_store_eq rfl

theorem binds_lift (outcome : Except Fault α) : Binds environment [] (lift outcome) := by
  cases outcome with
  | ok value => exact binds_pure value
  | error fault => exact binds_throw fault

theorem binds_liftError (outcome : Except Error α) : Binds environment [] (liftError outcome) := by
  cases outcome with
  | ok value => exact binds_pure value
  | error error => exact binds_throw _

theorem Binds.bind {work : Working α} {next : α → Working β} (first : Binds environment names work)
    (second : ∀ value, Binds environment more (next value)) :
    Binds environment (names ++ more) (work >>= next) := by
  intro workspace houses
  refine (first workspace houses).bind ?_ ?_
  · intro value middle touches
    refine (second value middle (touches.houses houses)).imp ?_ ?_
    · exact fun _ _ further => touches.trans further
    · rintro fault after ⟨some, starts, further⟩
      exact ⟨names ++ some, (List.prefix_append_right_inj names).2 starts, touches.trans further⟩
  · rintro fault after ⟨some, starts, touches⟩
    exact ⟨some, starts.trans (List.prefix_append names more), touches⟩

/-- A first step that binds nothing. -/
theorem Binds.behind {work : Working α} {next : α → Working β} (first : Binds environment [] work)
    (second : ∀ value, Binds environment more (next value)) : Binds environment more (work >>= next) :=
  first.bind second

/-- A last step that binds nothing. -/
theorem Binds.before {work : Working α} {next : α → Working β} (first : Binds environment names work)
    (second : ∀ value, Binds environment [] (next value)) : Binds environment names (work >>= next) := by
  have both := first.bind second
  rwa [List.append_nil] at both

theorem binds_resolve (name : Datum) : Binds environment [] (resolve environment name) :=
  fun workspace => binds_lift (workspace.store.lookup environment name) workspace

theorem binds_reference (name : Datum) : Binds environment [] (reference environment name) := by
  refine (binds_resolve name).behind fun value => ?_
  cases value with
  | function f => exact binds_throw _
  | _ => exact binds_pure _

theorem binds_callee (name : Datum) : Binds environment [] (callee environment name) := by
  refine (binds_resolve name).behind fun value => ?_
  cases value with
  | function f => exact binds_pure _
  | _ => exact binds_throw _

theorem binds_record (logging : Logging) (detail : Detail) (pieces : Unit → Except Fault (List Datum)) :
    Binds environment [] (record logging detail pieces) := by
  intro workspace _
  rw [Ends, record_eq]
  cases recorded logging detail (pieces ()) with
  | ok more => exact touches_of_store_eq rfl
  | error fault => exact ⟨[], List.nil_prefix, touches_of_store_eq rfl⟩

theorem binds_define (name : Datum) (value : Value) :
    Binds environment [name] (define environment name value) := by
  intro workspace houses
  rw [Ends, define_eq]
  cases defined : workspace.store.define environment name value with
  | error fault => exact ⟨[], List.nil_prefix, touches_of_store_eq rfl⟩
  | ok store =>
    obtain ⟨size, others⟩ := Store.define_eq_ok defined
    have gains : Scope.Gains [name] (workspace.store.scope environment.innermost)
        (store.scope environment.innermost) := by
      rw [Store.scope_of_define houses defined]
      exact .more (.none _)
    exact ⟨Nat.le_of_eq size.symm, fun number _ => others number, gains⟩

theorem Binds.mapM {act : Node → Working α} (each : ∀ node, Binds environment node.bound (act node))
    (list : List Node) : Binds environment (Node.boundAll list) (list.mapM act) := by
  induction list with
  | nil => exact binds_pure _
  | cons node rest ih =>
    rw [List.mapM_cons]
    exact (each node).bind fun _ => ih.before fun _ => binds_pure _

/-- What is bound in front of an environment reaches none of its scopes. -/
theorem binds_push (bindings : Scope) {next : Environment → Working α}
    (inner : ∀ number, ∃ names, Binds ⟨number, environment.chain⟩ names
      (next ⟨number, environment.chain⟩)) :
    Binds environment [] (push environment bindings >>= next) := by
  intro workspace houses
  obtain ⟨names, binds⟩ := inner workspace.store.scopes.length
  have untouched {names : List Datum} {after : Workspace}
      (touches : Touches ⟨workspace.store.scopes.length, environment.chain⟩ names
        { workspace with store := (workspace.store.push environment bindings).2 } after) :
      Touches environment [] workspace after := by
    have kept : ∀ number < workspace.store.scopes.length,
        after.store.scope number = workspace.store.scope number := by
      intro number inside
      have grown : number < (workspace.store.push environment bindings).2.scopes.length := by
        simp only [Store.push, List.length_append]
        omega
      rw [touches.others number grown (Nat.ne_of_lt inside)]
      exact Store.scope_append [bindings] inside
    have grows := touches.grows
    simp only [Store.push, List.length_append] at grows
    refine ⟨by omega, fun number inside _ => kept number inside, ?_⟩
    rw [kept environment.innermost (houses environment.innermost List.mem_cons_self)]
    exact .none _
  refine Ends.imp (binds _ (Store.houses_push houses bindings)) (fun _ _ => untouched) ?_
  rintro fault after ⟨first, _, touches⟩
  exact ⟨[], List.nil_prefix, untouched touches⟩

end

end Working

open Working in
/-- Evaluating a node binds in an environment the names that the node defines itself. -/
theorem Node.evaluateIn_binds (logging : Logging) (depth : Nat) (environment : Environment) (node : Node) :
    Binds environment node.bound (node.evaluateIn logging depth environment) := by
  induction depth generalizing environment node with
  | zero => exact binds_throw _
  | succ depth ih =>
    cases node with
    | program body => exact binds_throw _
    | number x => exact binds_pure _
    | reference name => exact binds_reference name
    | binary operator left right =>
      refine (ih environment left).bind fun a => (binds_lift _).behind fun a => ?_
      refine (ih environment right).before fun b => (binds_lift _).behind fun b => ?_
      exact (binds_liftError _).behind fun _ => binds_pure _
    | definition name value =>
      refine (ih environment value).bind fun result => (binds_define name result).before fun _ => ?_
      exact (binds_record _ _ _).behind fun _ => binds_pure _
    | function name parameters body =>
      refine (binds_define name _).before fun _ => ?_
      exact (binds_record _ _ _).behind fun _ => binds_pure _
    | call name arguments =>
      refine (binds_callee name).behind fun f => ?_
      refine (Binds.mapM (ih environment) arguments).before fun values => ?_
      refine (binds_lift _).behind fun bindings => binds_push bindings fun number => ?_
      exact ⟨f.body.bound, (binds_record _ _ _).behind fun _ => ih _ f.body⟩

end Reckoner
