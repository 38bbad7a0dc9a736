import Mathlib.Data.Set.Finite.Basic
import Reckoner.Proofs.Evaluation.Calls
import Reckoner.Proofs.Sources

/-!
Recursion. An expression leads to the functions that it calls and on to those that their bodies call.
Nothing in a function decides whether a call in it is made, so a cycle among them is never left: an
expression that leads to one has no value at any depth. Where there is no cycle, the calls are nested
to a limited depth, and beyond that depth it is no more exceeded.
-/
namespace Reckoner

namespace Scope

/-- The body of the function that a name is globally calls another name. -/
def Invokes (globals : Scope) (name called : String) : Prop :=
  ∃ function : Function, globals.get? (.text name) = some (.function function) ∧
    function.body.Calls called

/-- An expression leads to a cycle of calls. -/
def Cyclic (globals : Scope) (node : Node) : Prop :=
  ∃ first name, node.Calls first ∧ Relation.ReflTransGen globals.Invokes first name ∧
    Relation.TransGen globals.Invokes name name

end Scope

namespace Task
variable {globals : Scope} {logging : Logging} {depth : Nat}

section
variable (within : globals.Holds (Value.Within Node.Ordinary))
include within

/-- Along a call in a body the depth at which bodies complete gets smaller. -/
theorem CompletesBelow.invokes {name called : String}
    (below : CompletesBelow globals logging depth name) (invokes : globals.Invokes name called) :
    ∃ smaller < depth, CompletesBelow globals logging smaller called := by
  obtain ⟨function, task, bound, plain, completes, same, less⟩ := below
  obtain ⟨other, also, calls⟩ := invokes
  cases bound.symm.trans also
  exact ⟨task.depth, less, plain.completesBelow within completes (same ▸ calls)⟩

theorem CompletesBelow.reaches {name called : String}
    (below : CompletesBelow globals logging depth name)
    (reaches : Relation.ReflTransGen globals.Invokes name called) :
    ∃ smaller, CompletesBelow globals logging smaller called := by
  induction reaches with
  | refl => exact ⟨depth, below⟩
  | tail _ invokes ih =>
    obtain ⟨smaller, below⟩ := ih
    obtain ⟨least, _, below⟩ := below.invokes within invokes
    exact ⟨least, below⟩

/-- No body on a cycle completes, at whatever depth: it would have to do so at a smaller one. -/
theorem not_completesBelow {name : String} (cycle : Relation.TransGen globals.Invokes name name)
    (depth : Nat) : ¬ CompletesBelow globals logging depth name := by
  have descends {called : String} (leads : Relation.TransGen globals.Invokes name called)
      {depth : Nat} (below : CompletesBelow globals logging depth name) :
      ∃ smaller < depth, CompletesBelow globals logging smaller called := by
    induction leads with
    | single invokes => exact below.invokes within invokes
    | tail _ invokes ih =>
      obtain ⟨smaller, less, below⟩ := ih
      obtain ⟨least, lesser, below⟩ := below.invokes within invokes
      exact ⟨least, lesser.trans less, below⟩
  induction depth using Nat.strong_induction_on with
  | _ depth ih =>
    intro below
    obtain ⟨smaller, less, again⟩ := descends cycle below
    exact ih smaller less again

/-- A task on an expression that leads to a cycle does not complete. -/
theorem Plain.not_completes {task : Task} (plain : task.Plain globals)
    (cyclic : globals.Cyclic task.node) : ¬ Completes logging task := by
  intro completes
  obtain ⟨first, name, calls, reaches, cycle⟩ := cyclic
  obtain ⟨depth, below⟩ := (plain.completesBelow within completes calls).reaches within reaches
  exact not_completesBelow within cycle depth below

end

end Task

namespace Node
variable {globals : Scope}

theorem exists_fits_all {nodes : List Node} (each : ∀ node ∈ nodes, ∃ depth, Fits globals depth node) :
    ∃ depth, ∀ node ∈ nodes, Fits globals depth node := by
  induction nodes with
  | nil => exact ⟨0, nofun⟩
  | cons node rest ih =>
    obtain ⟨⟨first, one⟩, others⟩ := List.forall_mem_cons.1 each
    obtain ⟨second, more⟩ := ih others
    refine ⟨max first second, List.forall_mem_cons.2 ⟨one.mono (le_max_left ..), ?_⟩⟩
    exact fun node inside => (more node inside).mono (le_max_right ..)

/-- The bodies of a name fit a depth. -/
def BodyFits (globals : Scope) (name : String) : Prop :=
  ∃ depth, ∀ function : Function, globals.get? (.text name) = some (.function function) →
    Fits globals depth function.body

/-- An expression fits some depth if the functions that are called in it do. -/
theorem Arithmetic.exists_fits {node : Node} (arithmetic : node.Arithmetic)
    (bodies : ∀ called, node.Calls called → BodyFits globals called) :
    ∃ depth, Fits globals depth node := by
  induction arithmetic with
  | number value => exact ⟨1, .number 0 value⟩
  | reference name => exact ⟨1, .reference 0 _⟩
  | @binary operator left right _ _ ihFirst ihSecond =>
    obtain ⟨first, one⟩ := ihFirst fun called calls => bodies called (.left operator right calls)
    obtain ⟨second, other⟩ := ihSecond fun called calls => bodies called (.right operator left calls)
    exact ⟨max first second + 1,
      .binary operator (one.mono (le_max_left ..)) (other.mono (le_max_right ..))⟩
  | @call name arguments _ ih =>
    obtain ⟨first, each⟩ := exists_fits_all fun argument inside =>
      ih argument inside fun called calls => bodies called (.argument _ inside calls)
    obtain ⟨second, body⟩ := bodies name (.here name arguments)
    exact ⟨max first second + 1, .call (fun argument inside => (each argument inside).mono (le_max_left ..))
      (fun function bound => (body function bound).mono (le_max_right ..))⟩

end Node

namespace Scope

/-- Only finitely many names have a value. -/
theorem finite_names (scope : Scope) : {name : String | (scope.get? (.text name)).isSome}.Finite := by
  induction scope with
  | nil => simp [get?]
  | cons binding rest ih =>
    obtain ⟨key, value⟩ := binding
    have single : {name : String | key.sameKey (.text name)}.Finite := by
      refine Set.Subsingleton.finite fun name same other also => ?_
      have twice := (Datum.eq_of_sameKey_spelling same).symm.trans (Datum.eq_of_sameKey_spelling also)
      simpa using twice
    refine (single.union ih).subset fun name found => ?_
    by_cases same : key.sameKey (.text name)
    · exact .inl same
    · simp only [Set.mem_ofPred_eq, get?, same] at found
      exact .inr found

/-- The names that a name leads to and that have a value. -/
def Led (globals : Scope) (first : String) : Type :=
  {name : String // (globals.get? (.text name)).isSome ∧ Relation.ReflTransGen globals.Invokes first name}

instance (globals : Scope) (first : String) : Finite (globals.Led first) :=
  (globals.finite_names.subset fun _ led => led.1).to_subtype

/-- Where a name does not lead to a cycle, the calls from it come to an end. -/
theorem wellFounded_led {globals : Scope} {first : String}
    (acyclic : ∀ name, Relation.ReflTransGen globals.Invokes first name →
      ¬ Relation.TransGen globals.Invokes name name) :
    WellFounded fun called name : globals.Led first => Relation.TransGen globals.Invokes name.1 called.1 := by
  have transitive : IsTrans (globals.Led first) fun called name =>
      Relation.TransGen globals.Invokes name.1 called.1 := ⟨fun _ _ _ one two => two.trans one⟩
  have irreflexive : Std.Irrefl fun called name : globals.Led first =>
      Relation.TransGen globals.Invokes name.1 called.1 := ⟨fun name => acyclic name.1 name.2.2⟩
  exact Finite.wellFounded_of_trans_of_irrefl _

/-- A name that does not lead to a cycle has a body of limited depth. -/
theorem bodyFits {globals : Scope} (within : globals.Holds (Value.Within Node.Ordinary))
    {first : String} (acyclic : ∀ name, Relation.ReflTransGen globals.Invokes first name →
      ¬ Relation.TransGen globals.Invokes name name) : Node.BodyFits globals first := by
  have led (name : globals.Led first) : Node.BodyFits globals name.1 := by
    induction name using (wellFounded_led acyclic).induction with
    | _ name ih =>
      obtain ⟨name, valued, reaches⟩ := name
      by_cases function : ∃ function, globals.get? (.text name) = some (.function function)
      · obtain ⟨function, bound⟩ := function
        have bodies (called : String) (calls : function.body.Calls called) :
            Node.BodyFits globals called := by
          have invokes : globals.Invokes name called := ⟨function, bound, calls⟩
          by_cases valued : (globals.get? (.text called)).isSome
          · exact ih ⟨called, valued, reaches.tail invokes⟩ (.single invokes)
          · exact ⟨0, fun function bound => absurd (by rw [bound]; rfl) valued⟩
        obtain ⟨depth, fits⟩ := (Task.arithmetic_body within bound).exists_fits bodies
        refine ⟨depth, fun other also => ?_⟩
        cases bound.symm.trans also
        exact fits
      · exact ⟨0, fun other bound => absurd ⟨other, bound⟩ function⟩
  by_cases valued : (globals.get? (.text first)).isSome
  · exact led ⟨first, valued, .refl⟩
  · exact ⟨0, fun function bound => absurd (by rw [bound]; rfl) valued⟩

/-- An expression that does not lead to a cycle fits some depth. -/
theorem exists_fits {globals : Scope} (within : globals.Holds (Value.Within Node.Ordinary))
    {node : Node} (arithmetic : node.Arithmetic) (acyclic : ¬ globals.Cyclic node) :
    ∃ depth, node.Fits globals depth := by
  refine arithmetic.exists_fits fun called calls => bodyFits within fun name reaches cycle => ?_
  exact acyclic ⟨called, name, calls, reaches, cycle⟩

end Scope

/-- An error at a task of an ordinary program does not report a limit. -/
theorem Task.Fails.kind_ne {logging : Logging} {task : Task} {error : Error}
    (fails : Fails logging task (.error error)) : error.kind ≠ .recursionLimit := by
  cases fails.cause with
  | mismatch misuses => simp [Error.kind]
  | _ => simp [Error.kind]

namespace Session

/-- A session that runs of sources lead to. -/
inductive Sourced : Session → Prop
  | start (level : Int) : Sourced (start level)
  | run {session : Session} (sourced : Sourced session) {frontend : Frontend} {reading : Limits}
      {source : Spelling} {program : Node} (read : frontend.parse reading source = .ok program)
      (limits : Limits) : Sourced (session.run limits [] program).session

/-- The global names of such a session are numbers and ordinary functions. -/
theorem Sourced.within {session : Session} (sourced : session.Sourced) :
    session.globals.Holds (Value.Within Node.Ordinary) := by
  induction sourced with
  | start level => exact Scope.holds_nil
  | @run session _ frontend reading source program read limits ih =>
    have readable := frontend.parse_readable reading source
    rw [read] at readable
    cases readable with
    | @program body ordinary =>
      have each : ∀ found, (Node.program body).statements = .ok found →
          ∀ statement ∈ found, statement.Ordinary := by
        intro found same
        cases same
        exact ordinary
      obtain ⟨after, scopes, ended⟩ := perform_ends session []
        (fun outer => (Node.program body).run session.logging limits.calls outer)
        (Task.ends_run Node.hereditary_ordinary each ih nofun)
      have kept : after.scope.Holds (Value.Within Node.Ordinary) := by
        rcases ended with ⟨_, _, kept⟩ | ⟨_, _, _, kept⟩
        · exact kept
        · exact kept
      have last : (session.run limits [] (.program body)).session.globals = after.scope := by
        simpa [Report.scopes, outer, Session.scopes, Session.run] using congrArg List.getLast? scopes
      rw [last]
      exact kept

section
variable {session : Session} (within : session.globals.Holds (Value.Within Node.Ordinary))
  {node : Node} (arithmetic : node.Arithmetic)
include arithmetic

theorem plain_task (limits : Limits) :
    Task.Plain session.globals ⟨limits.calls, [], node, ⟨session.globals, []⟩⟩ :=
  ⟨arithmetic, .bottom⟩

include within

/-- An expression that leads to a cycle has no value. -/
theorem evaluate_of_cyclic (cyclic : session.globals.Cyclic node) (limits : Limits) :
    ∃ fault, (session.evaluate limits [] node).result = .error fault := by
  have stuck : ¬ Task.Completes session.logging ⟨limits.calls, [], node, ⟨session.globals, []⟩⟩ :=
    (plain_task arithmetic limits).not_completes within cyclic
  unfold evaluate perform Evaluation.outcome EStateM.run
  dsimp only [List.nil_append, List.tail_cons, List.headD_cons]
  cases ended : node.evaluate session.logging limits.calls [] ⟨session.globals, []⟩ with
  | ok value after => exact absurd ⟨value, after, ended⟩ stuck
  | error fault after => exact ⟨fault, rfl⟩

/-- An expression that fits the depth has a value or fails with an error that reports no limit. -/
theorem evaluate_of_fits {limits : Limits} (fits : node.Fits session.globals limits.calls) :
    (∃ x, (session.evaluate limits [] node).result = .ok (.number x)) ∨
      ∃ error, (session.evaluate limits [] node).result = .error (.error error) ∧
        error.kind ≠ .recursionLimit := by
  have plain := @plain_task session node arithmetic limits
  have typed := plain.typed within
  obtain ⟨_, _, ⟨_, result, ⟨x, rfl⟩, _⟩ | ⟨fault, result, blames, _⟩⟩ := perform_ends session []
    (fun outer => node.evaluate session.logging limits.calls outer)
    (Task.sound Node.hereditary_ordinary limits.calls typed)
  · exact .inl ⟨x, result⟩
  · obtain ⟨culprit, reaches, fails⟩ := blames
    rcases fails.ordinary (typed.reaches Node.hereditary_ordinary reaches) with rfl | ⟨error, rfl⟩
    · exact absurd ⟨culprit, reaches, fails⟩ (plain.not_blames_depth within fits)
    · exact .inr ⟨error, result, fails.kind_ne⟩

end

/-- In a session that sources lead to, an expression that leads to a cycle of calls has a value under
    no limits. Any other expression has, from some depth on, a value or an error that is not about a
    limit. -/
theorem Sourced.evaluate_recursion {session : Session} (sourced : session.Sourced) {node : Node}
    (arithmetic : node.Arithmetic) :
    (session.globals.Cyclic node →
        ∀ limits, ∃ fault, (session.evaluate limits [] node).result = .error fault) ∧
      (¬ session.globals.Cyclic node → ∃ depth, ∀ limits : Limits, depth ≤ limits.calls →
        (∃ x, (session.evaluate limits [] node).result = .ok (.number x)) ∨
          ∃ error, (session.evaluate limits [] node).result = .error (.error error) ∧
            error.kind ≠ .recursionLimit) := by
  have within := sourced.within
  refine ⟨evaluate_of_cyclic within arithmetic, fun acyclic => ?_⟩
  obtain ⟨depth, fits⟩ := Scope.exists_fits within arithmetic acyclic
  exact ⟨depth, fun limits enough => evaluate_of_fits within arithmetic (fits.mono enough)⟩

/-- After two sources, of which the first one has a function that calls itself, a call of that
    function fails under all limits and a call of the other one does not reach them. -/
theorem Sourced.evaluate_recursion_loop :
    let reading : Limits := { nesting := 9, phrases := 9, calls := 9 }
    let first : Node := .program [.function (.text "f") [] (.call (.text "f") [])]
    let second : Node := .program [.function (.text "h") [.text "x"] (.reference (.text "x"))]
    let session :=
      (((Session.start 0).run .standard [] first).session.run .standard [] second).session
    let looping : Node := .call (.text "f") []
    let passing : Node := .call (.text "h") [.number 2]
    Frontend.descent.parse reading "func f() = f();" = .ok first ∧
      Frontend.descent.parse reading "func h(x) = x;" = .ok second ∧
      (∀ limits, ∃ fault, (session.evaluate limits [] looping).result = .error fault) ∧
      ∃ depth, ∀ limits : Limits, depth ≤ limits.calls →
        (∃ x, (session.evaluate limits [] passing).result = .ok (.number x)) ∨
          ∃ error, (session.evaluate limits [] passing).result = .error (.error error) ∧
            error.kind ≠ .recursionLimit := by
  intro reading first second session looping passing
  have one : Frontend.descent.parse reading "func f() = f();" = .ok first := by
    have tokens : Token.tokenize "func f() = f();" = .ok [⟨.funcWord, "func", some 1⟩,
        ⟨.name, "f", some 1⟩, ⟨.opening, "(", some 1⟩, ⟨.closing, ")", some 1⟩, ⟨.equals, "=", some 1⟩,
        ⟨.name, "f", some 1⟩, ⟨.opening, "(", some 1⟩, ⟨.closing, ")", some 1⟩,
        ⟨.semicolon, ";", some 1⟩, Token.finish 1] := by cbv
    rw [Frontend.parse, Descent.parse, tokens]
    rfl
  have two : Frontend.descent.parse reading "func h(x) = x;" = .ok second := by
    have tokens : Token.tokenize "func h(x) = x;" = .ok [⟨.funcWord, "func", some 1⟩,
        ⟨.name, "h", some 1⟩, ⟨.opening, "(", some 1⟩, ⟨.name, "x", some 1⟩, ⟨.closing, ")", some 1⟩,
        ⟨.equals, "=", some 1⟩, ⟨.name, "x", some 1⟩, ⟨.semicolon, ";", some 1⟩, Token.finish 1] := by cbv
    rw [Frontend.parse, Descent.parse, tokens]
    rfl
  have sourced : session.Sourced := ((Sourced.start 0).run one .standard).run two .standard
  have cyclic : session.globals.Cyclic looping :=
    ⟨"f", "f", .here "f" [], .refl, .single ⟨_, rfl, .here "f" []⟩⟩
  have alone (called : String) : ¬ session.globals.Invokes "h" called := by
    rintro ⟨_, bound, calls⟩
    cases bound
    cases calls
  have acyclic : ¬ session.globals.Cyclic passing := by
    rintro ⟨called, name, calls, reaches, cycle⟩
    have only : called = "h" := by
      unfold passing at calls
      cases calls with
      | here => rfl
      | argument _ inside calls =>
        cases List.mem_singleton.1 inside
        cases calls
    subst only
    obtain ⟨_, invokes, _⟩ := Relation.TransGen.head'_iff.1 (Relation.TransGen.trans_right reaches cycle)
    exact alone _ invokes
  have numeral : ∀ argument ∈ [Node.number 2], argument.Arithmetic := by
    simpa using Node.Arithmetic.number 2
  exact ⟨one, two, (sourced.evaluate_recursion (.call "f" (List.forall_mem_nil _))).1 cyclic,
    (sourced.evaluate_recursion (.call "h" numeral)).2 acyclic⟩

end Session

end Reckoner
