import Reckoner.Proofs.Evaluation.Shared
import Reckoner.Proofs.Evaluation.Tasks

/-!
What evaluation changes. Where an environment has its innermost scope once only, evaluation with shared
scopes and the one that keeps the outer scopes as an argument come to the same, also where they fail: so
what the one leaves alone because of how its state is laid out, the other leaves alone because of what it
does. Both change the innermost scope only, and there bind names of the node itself.
-/
namespace Reckoner

/-- What evaluation in an environment sees of a workspace as its frame. -/
def Workspace.frame (workspace : Workspace) (environment : Environment) : Frame :=
  ⟨workspace.store.scope environment.innermost, workspace.entries⟩

/-- The scopes of an environment without the innermost one. -/
def Workspace.outer (workspace : Workspace) (environment : Environment) : List Scope :=
  environment.outer.map workspace.store.scope

theorem Evaluation.record_eq (logging : Logging) (detail : Detail)
    (pieces : Unit → Except Fault (List Datum)) (frame : Frame) :
    record logging detail pieces frame = match recorded logging detail (pieces ()) with
      | .ok more => .ok ⟨⟩ { frame with entries := more ++ frame.entries }
      | .error fault => .error fault frame := by
  unfold record recorded
  by_cases included : logging.includes detail
  · simp only [included, if_true]
    cases pieces () with
    | error fault => rfl
    | ok composed =>
      by_cases writing : logging.writing
      · have lifted : lift (.ok composed) frame = .ok composed frame := rfl
        have continued (next : List Datum → Except Fault (List Entry)) :
            Except.ok composed >>= next = next composed := rfl
        simp only [writing, if_true]
        rw [bind_of_ok lifted, continued]
        cases Datum.sentence 0 composed with
        | error fault => rfl
        | ok text => rfl
      · simp only [writing]
        rfl
  · simp only [included]
    rfl

namespace Working
variable {α β : Type} {environment : Environment} {outer : List Scope}

/-- A workspace in which an environment has its innermost scope once only, in front of the scopes
    `outer`. -/
structure Fronts (workspace : Workspace) (environment : Environment) (outer : List Scope) : Prop where
  houses : workspace.store.Houses environment
  apart : environment.innermost ∉ environment.outer
  shows : workspace.outer environment = outer

/-- From a workspace and from its frame, two steps end alike, and the outer scopes are as they were. -/
inductive Mirrors (environment : Environment) (outer : List Scope) (own : Evaluation α)
    (shared : Working α) (workspace : Workspace) : Prop
  | ok {value : α} {after : Workspace} (first : shared workspace = .ok value after)
      (second : own (workspace.frame environment) = .ok value (after.frame environment))
      (fronts : Fronts after environment outer)
  | error {fault : Fault} {after : Workspace} (first : shared workspace = .error fault after)
      (second : own (workspace.frame environment) = .error fault (after.frame environment))
      (fronts : Fronts after environment outer)

theorem Mirrors.of_ok {own : Evaluation α} {shared : Working α} {workspace after : Workspace} {value : α}
    (mirrors : Mirrors environment outer own shared workspace)
    (ended : shared workspace = .ok value after) :
    own (workspace.frame environment) = .ok value (after.frame environment) ∧
      Fronts after environment outer := by
  cases mirrors with
  | ok first second fronts =>
    cases first.symm.trans ended
    exact ⟨second, fronts⟩
  | error first _ _ => cases first.symm.trans ended

theorem Mirrors.of_error {own : Evaluation α} {shared : Working α} {workspace after : Workspace}
    {fault : Fault} (mirrors : Mirrors environment outer own shared workspace)
    (ended : shared workspace = .error fault after) :
    own (workspace.frame environment) = .error fault (after.frame environment) ∧
      Fronts after environment outer := by
  cases mirrors with
  | ok first _ _ => cases first.symm.trans ended
  | error first second fronts =>
    cases first.symm.trans ended
    exact ⟨second, fronts⟩

/-- A step with shared scopes that does what another one does with the outer scopes as they are. -/
def Reflects (environment : Environment) (outer : List Scope) (own : Evaluation α)
    (shared : Working α) : Prop :=
  ∀ workspace, Fronts workspace environment outer → Mirrors environment outer own shared workspace

theorem reflects_pure (value : α) : Reflects environment outer (pure value) (pure value) :=
  fun _ fronts => .ok rfl rfl fronts

theorem reflects_throw (fault : Fault) :
    Reflects environment outer (throw fault : Evaluation α) (throw fault) :=
  fun _ fronts => .error rfl rfl fronts

theorem reflects_lift (outcome : Except Fault α) :
    Reflects environment outer (Evaluation.lift outcome) (lift outcome) := by
  cases outcome with
  | ok value => exact reflects_pure value
  | error fault => exact reflects_throw fault

theorem reflects_liftError (outcome : Except Error α) :
    Reflects environment outer (Evaluation.liftError outcome) (liftError outcome) := by
  cases outcome with
  | ok value => exact reflects_pure value
  | error error => exact reflects_throw _

theorem Reflects.bind {own : Evaluation α} {shared : Working α} {next : α → Evaluation β}
    {further : α → Working β} (first : Reflects environment outer own shared)
    (more : ∀ value, Reflects environment outer (next value) (further value)) :
    Reflects environment outer (own >>= next) (shared >>= further) := by
  intro workspace fronts
  cases first workspace fronts with
  | @ok value middle one two fronts =>
    cases more value middle fronts with
    | ok first' second' fronts' =>
      exact .ok ((bind_of_ok one).trans first') ((bind_of_ok two).trans second') fronts'
    | error first' second' fronts' =>
      exact .error ((bind_of_ok one).trans first') ((bind_of_ok two).trans second') fronts'
  | error one two fronts => exact .error (bind_of_error one) (bind_of_error two) fronts

theorem Reflects.mapM {act : Node → Evaluation α} {shared : Node → Working α}
    (each : ∀ node, Reflects environment outer (act node) (shared node)) (list : List Node) :
    Reflects environment outer (list.mapM act) (list.mapM shared) := by
  induction list with
  | nil => exact reflects_pure _
  | cons node rest ih =>
    simp only [List.mapM_cons]
    exact (each node).bind fun _ => ih.bind fun _ => reflects_pure _

theorem reflects_resolve (name : Datum) :
    Reflects environment outer (Evaluation.resolve outer name) (resolve environment name) := by
  intro workspace fronts
  have same : workspace.store.lookup environment name =
      Scope.resolve ((workspace.frame environment).scope :: outer) name := by
    rw [← fronts.shows]
    rfl
  have shared : resolve environment name workspace =
      lift (workspace.store.lookup environment name) workspace := rfl
  have own : Evaluation.resolve outer name (workspace.frame environment) =
      Evaluation.lift (workspace.store.lookup environment name) (workspace.frame environment) := by
    rw [same]
    rfl
  cases reflects_lift (workspace.store.lookup environment name) workspace fronts with
  | ok first second fronts => exact .ok (shared.trans first) (own.trans second) fronts
  | error first second fronts => exact .error (shared.trans first) (own.trans second) fronts

theorem reflects_reference (name : Datum) :
    Reflects environment outer (Evaluation.reference outer name) (reference environment name) := by
  refine (reflects_resolve name).bind fun value => ?_
  cases value with
  | function f => exact reflects_throw _
  | _ => exact reflects_pure _

theorem reflects_callee (name : Datum) :
    Reflects environment outer (Evaluation.callee outer name) (callee environment name) := by
  refine (reflects_resolve name).bind fun value => ?_
  cases value with
  | function f => exact reflects_pure _
  | _ => exact reflects_throw _

theorem reflects_record (logging : Logging) (detail : Detail)
    (pieces : Unit → Except Fault (List Datum)) :
    Reflects environment outer (Evaluation.record logging detail pieces)
      (record logging detail pieces) := by
  intro workspace fronts
  have shared := record_eq logging detail pieces workspace
  have own := Evaluation.record_eq logging detail pieces (workspace.frame environment)
  cases written : Evaluation.recorded logging detail (pieces ()) with
  | ok more =>
    rw [written] at shared own
    exact .ok shared own ⟨fronts.houses, fronts.apart, fronts.shows⟩
  | error fault =>
    rw [written] at shared own
    exact .error shared own fronts

/-- Giving a name a value changes the innermost scope, and no outer one. -/
theorem fronts_define {workspace : Workspace} (fronts : Fronts workspace environment outer)
    {name : Datum} {value : Value} {store : Store}
    (defined : workspace.store.define environment name value = .ok store) :
    Fronts { workspace with store } environment outer := by
  obtain ⟨size, others⟩ := Store.define_eq_ok defined
  refine ⟨fronts.houses.mono (Nat.le_of_eq size.symm), fronts.apart, ?_⟩
  rw [← fronts.shows]
  refine List.map_congr_left fun number inside => others number ?_
  rintro rfl
  exact fronts.apart inside

theorem reflects_define (name : Datum) (value : Value) :
    Reflects environment outer (Evaluation.define name value) (define environment name value) := by
  intro workspace fronts
  have shared := define_eq environment name value workspace
  cases key : name.asKey with
  | error fault =>
    have undefined : workspace.store.define environment name value = .error fault := by
      rw [Store.define, key]
      rfl
    have own : Evaluation.define name value (workspace.frame environment) =
        .error fault (workspace.frame environment) := by
      rw [Evaluation.define, key]
      rfl
    rw [undefined] at shared
    exact .error shared own fronts
  | ok found =>
    obtain ⟨store, defined⟩ : ∃ store, workspace.store.define environment name value = .ok store := by
      rw [Store.define, key]
      exact ⟨_, rfl⟩
    have changed := Store.scope_of_define fronts.houses defined
    have own : Evaluation.define name value (workspace.frame environment) =
        .ok ⟨⟩ (Workspace.frame { workspace with store } environment) := by
      rw [Evaluation.define, key, Workspace.frame, Workspace.frame, changed, Datum.asKey_eq_ok key]
      rfl
    rw [defined] at shared
    exact .ok shared own (fronts_define fronts defined)

/-- An entry can as well be written once a new scope is there. -/
theorem record_inScope (logging : Logging) (detail : Detail) (pieces : Unit → Except Fault (List Datum))
    (scope : Scope) (body : Scope → Evaluation α) :
    (do
      Evaluation.record logging detail pieces
      let caller := (← get).scope
      Evaluation.inScope scope (body caller)) =
    (do
      let caller := (← get).scope
      Evaluation.inScope scope do
        Evaluation.record logging detail pieces
        body caller) := by
  funext frame
  change _ = Evaluation.inScope scope (do
    Evaluation.record logging detail pieces
    body frame.scope) frame
  have here := Evaluation.record_eq logging detail pieces frame
  have inside := Evaluation.record_eq logging detail pieces { frame with scope }
  cases written : Evaluation.recorded logging detail (pieces ()) with
  | ok more =>
    rw [written] at here inside
    rw [bind_of_ok here, Evaluation.inScope, bind_of_ok inside]
    rfl
  | error fault =>
    rw [written] at here inside
    rw [bind_of_error here, Evaluation.inScope, bind_of_error inside]

/-- A new scope in front of an environment is the innermost one of a workspace, behind which stand all
    scopes of that environment. -/
theorem fronts_push {workspace : Workspace} (fronts : Fronts workspace environment outer)
    (bindings : Scope) :
    Fronts { workspace with store := (workspace.store.push environment bindings).2 }
      ⟨workspace.store.scopes.length, environment.chain⟩
      (workspace.store.scope environment.innermost :: outer) := by
  refine ⟨Store.houses_push fronts.houses bindings, fun inside => ?_, ?_⟩
  · exact Nat.lt_irrefl _ (fronts.houses _ inside)
  · have shows := Store.view_append [bindings] fronts.houses
    rw [← fronts.shows]
    exact shows

/-- A body that is evaluated in a new scope is evaluated in an environment with that scope in front. -/
theorem reflects_push (bindings : Scope) (body : Scope → Evaluation α) (next : Environment → Working α)
    (inner : ∀ caller number, Reflects ⟨number, environment.chain⟩ (caller :: outer) (body caller)
      (next ⟨number, environment.chain⟩)) :
    Reflects environment outer
      (do
        let caller := (← get).scope
        Evaluation.inScope bindings (body caller))
      (push environment bindings >>= next) := by
  intro workspace fronts
  have fronted := fronts_push fronts bindings
  have entered : ({ workspace.frame environment with scope := bindings } : Frame) =
      Workspace.frame { workspace with store := (workspace.store.push environment bindings).2 }
        ⟨workspace.store.scopes.length, environment.chain⟩ := by
    have first := Store.view_push fronts.houses bindings
    simp only [Store.view, Store.push, Environment.chain, List.map_cons, List.cons.injEq] at first
    simp only [Workspace.frame, Store.push, first.1]
  -- When the body has ended, the scopes of the caller are as they were.
  have left {after : Workspace} (frontsAfter : Fronts after
      ⟨workspace.store.scopes.length, environment.chain⟩
      (workspace.store.scope environment.innermost :: outer)) :
      Fronts after environment outer ∧
        after.store.scope environment.innermost = workspace.store.scope environment.innermost := by
    obtain ⟨innermost, others⟩ := List.cons.inj frontsAfter.shows
    exact ⟨⟨fun number inside => frontsAfter.houses number (List.mem_cons_of_mem _ inside),
      fronts.apart, others⟩, innermost⟩
  have own : (do
      let caller := (← get).scope
      Evaluation.inScope bindings (body caller) : Evaluation α) (workspace.frame environment) =
      Evaluation.inScope bindings (body (workspace.store.scope environment.innermost))
        (workspace.frame environment) := rfl
  rw [Evaluation.inScope, entered] at own
  cases inner (workspace.store.scope environment.innermost) _ _ fronted with
  | ok first second frontsAfter =>
    obtain ⟨frontsLeft, same⟩ := left frontsAfter
    rw [second] at own
    exact .ok first (own.trans (by simp only [Workspace.frame, same])) frontsLeft
  | error first second frontsAfter =>
    obtain ⟨frontsLeft, same⟩ := left frontsAfter
    rw [second] at own
    exact .error first (own.trans (by simp only [Workspace.frame, same])) frontsLeft

end Working

open Working in
/-- Evaluation with shared scopes and the one that keeps the outer scopes apart come to the same. -/
theorem Node.evaluateIn_reflects (logging : Logging) (depth : Nat) (environment : Environment)
    (outer : List Scope) (sizes : outer.length = environment.outer.length) (node : Node) :
    Reflects environment outer (node.evaluate logging depth outer)
      (node.evaluateIn logging depth environment) := by
  induction depth generalizing environment outer node with
  | zero => exact reflects_throw _
  | succ depth ih =>
    cases node with
    | program body => exact reflects_throw _
    | number x => exact reflects_pure _
    | reference name => exact reflects_reference name
    | binary operator left right =>
      refine (ih environment outer sizes left).bind fun a => (reflects_lift _).bind fun a => ?_
      refine (ih environment outer sizes right).bind fun b => (reflects_lift _).bind fun b => ?_
      exact (reflects_liftError _).bind fun _ => reflects_pure _
    | definition name value =>
      refine (ih environment outer sizes value).bind fun result => ?_
      refine (reflects_define name result).bind fun _ => ?_
      exact (reflects_record _ _ _).bind fun _ => reflects_pure _
    | function name parameters body =>
      refine (reflects_define name _).bind fun _ => ?_
      exact (reflects_record _ _ _).bind fun _ => reflects_pure _
    | call name arguments =>
      refine (reflects_callee name).bind fun f => ?_
      refine (Reflects.mapM (ih environment outer sizes) arguments).bind fun values => ?_
      refine (reflects_lift _).bind fun bindings => ?_
      rw [record_inScope logging .call _ bindings fun caller =>
        f.body.evaluate logging depth (caller :: outer)]
      refine reflects_push bindings (fun caller => do
        Evaluation.record logging .call fun _ => Evaluation.callEntry f values (outer.length + 2)
        f.body.evaluate logging depth (caller :: outer)) _ fun caller number => ?_
      have depths : outer.length + 2 = Environment.depth ⟨number, environment.chain⟩ := by
        simp [Environment.depth, Environment.chain, sizes]
      rw [← depths]
      exact (reflects_record _ _ _).bind fun _ => ih _ _ (by simp [Environment.chain, sizes]) f.body

open Working in
/-- Evaluating a node in an environment, however it ends, leaves every scope but the innermost one as it
    was. In that one no name is removed, and the names that are given values are those that the node
    defines itself, in order; if the evaluation fails, they are some of the first of these. -/
theorem Node.evaluate_touches (logging : Logging) (depth : Nat) (node : Node) {environment : Environment}
    {before : Workspace} (houses : before.store.Houses environment)
    (apart : environment.innermost ∉ environment.outer) :
    ∃ result after names, (node.evaluateIn logging depth environment).outcome before = (result, after) ∧
      (node.evaluate logging depth (before.outer environment)).outcome (before.frame environment) =
        (result, after.frame environment) ∧
      (∀ number < before.store.scopes.length, number ≠ environment.innermost →
        after.store.scope number = before.store.scope number) ∧
      names <+: node.bound ∧ (∀ value, result = .ok value → names = node.bound) ∧
      Scope.Gains names (before.frame environment).scope (after.frame environment).scope ∧
      (before.frame environment).scope.names <+: (after.frame environment).scope.names ∧
      ∀ text : Spelling, .spelling text ∉ node.bound →
        (after.frame environment).scope.get? (.spelling text) =
          (before.frame environment).scope.get? (.spelling text) := by
  have fronts : Fronts before environment (before.outer environment) := ⟨houses, apart, rfl⟩
  have binds := node.evaluateIn_binds logging depth environment before houses
  have mirrors : Mirrors environment (before.outer environment)
      (node.evaluate logging depth (before.outer environment))
      (node.evaluateIn logging depth environment) before :=
    node.evaluateIn_reflects logging depth environment _ (List.length_map _) before fronts
  cases ended : node.evaluateIn logging depth environment before with
  | ok value after =>
    have touches := binds.of_ok ended
    exact ⟨.ok value, after, node.bound, outcome_of_ok ended, Evaluation.outcome_of_ok (mirrors.of_ok ended).1,
      touches.others, List.prefix_refl _, fun _ _ => rfl, touches.gains, touches.gains.names,
      fun text free => touches.gains.get? free⟩
  | error fault after =>
    obtain ⟨names, starts, touches⟩ := binds.of_error ended
    exact ⟨.error fault, after, names, outcome_of_error ended,
      Evaluation.outcome_of_error (mirrors.of_error ended).1, touches.others, starts, nofun,
      touches.gains, touches.gains.names,
      fun text free => touches.gains.get? fun inside => free (starts.subset inside)⟩

/-- A definition in an argument reaches the scope of the caller, one in the body of the function and its
    parameter reach none. -/
theorem Node.evaluate_touches_call :
    let f : Function := ⟨.text "f", [.text "y"], .definition (.text "z") (.reference (.text "y"))⟩
    let before : Workspace := ⟨⟨[[(.text "f", .function f)], [(.text "x", .number 5)]]⟩, []⟩
    let node : Node := .call (.text "f") [.definition (.text "b") (.reference (.text "x"))]
    ∃ after, (node.evaluateIn {} 9 ⟨1, [0]⟩).outcome before = (.ok (.number 5), after) ∧
      after.store.scope 0 = [(.text "f", .function f)] ∧
      (after.store.scope 1).get? (.text "b") = some (.number 5) ∧
      (after.store.scope 1).get? (.text "y") = none ∧ (after.store.scope 1).get? (.text "z") = none := by
  intro f before node
  have houses : before.store.Houses ⟨1, [0]⟩ := by
    simp [Store.Houses, Environment.chain, before]
  obtain ⟨result, after, names, outcome, _, others, _, whole, gains, _, free⟩ :=
    node.evaluate_touches {} 9 houses (by decide)
  cases outcome
  refine ⟨_, rfl, others 0 (by decide) (by decide), rfl, ?_, ?_⟩
  · exact free "y" (by simp [node, bound, boundAll])
  · exact free "z" (by simp [node, bound, boundAll])

end Reckoner
