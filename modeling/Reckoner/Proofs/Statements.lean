import Reckoner.Proofs.Depth.Evaluation
import Reckoner.Proofs.Evaluation.Frames
import Reckoner.Proofs.Sources

/-!
Statements are done whole or not at all. A statement of an ordinary program gives one global name a
value once that value is known, or leaves the global names as they are. So a run that fails leaves
what the statements before the failing one left, and running two programs one after the other is the
same as running all their statements in one program.
-/
namespace Reckoner

namespace Node

/-- The global names after a statement that has the value `x`. A definition gives its name that
    value, a function its name the function; an expression changes nothing. -/
def effect (x : Float) (globals : Scope) : Node → Scope
  | definition name _ => globals.set name (.number x)
  | function name parameters body => globals.set name (.function ⟨name, parameters, body⟩)
  | _ => globals

theorem Arithmetic.effect_eq {node : Node} (arithmetic : node.Arithmetic) (x : Float)
    (globals : Scope) : node.effect x globals = globals := by
  cases arithmetic with | _ => rfl

end Node

namespace Session

/-- The session after statements with their values: their effects on its global names, in order. -/
def after (session : Session) (done : List (Node × Float)) : Session :=
  { session with
    globals := done.foldl (fun globals (statement, x) => statement.effect x globals) session.globals }

/-- In a session a statement has a value: an expression by itself, a definition by its right side,
    and a function has the value zero. -/
def Yields (limits : Limits) (session : Session) (x : Float) : Node → Prop
  | .definition _ value => (session.evaluate limits [] value).result = .ok (.number x)
  | .function .. => x = 0.0
  | expression => (session.evaluate limits [] expression).result = .ok (.number x)

/-- Each of the statements has its value in the session that those before it left. -/
def Done (limits : Limits) : Session → List (Node × Float) → Prop
  | _, [] => True
  | session, (statement, x) :: rest =>
    session.Yields limits x statement ∧ Done limits (session.after [(statement, x)]) rest

/-- A report on a run in which every statement was done whole or not at all: all of them were done,
    or one of them fails and exactly those before it were done. -/
inductive Atomic (limits : Limits) (session : Session) (body : List Node) (report : Report Float) :
    Prop
  | finished {done : List (Node × Float)} (all : body = done.map Prod.fst)
      (each : session.Done limits done) (left : report.session = session.after done)
      (last : report.result = .ok ((done.map Prod.snd).getLastD 0.0))
  | failed {done : List (Node × Float)} {statement : Node} {rest : List Node} {fault : Fault}
      {error : Error} (split : body = done.map Prod.fst ++ statement :: rest)
      (each : session.Done limits done) (left : report.session = session.after done)
      (fails : ((session.after done).evaluate limits [] statement).result = .error fault)
      (reported : Task.reported fault = .error error) (result : report.result = .error (.error error))

/-- The result of a program and the session that it leaves. -/
def ending (limits : Limits) (session : Session) (program : Node) : Except Fault Float × Session :=
  let report := session.run limits [] program
  (report.result, report.session)

/-- The result of two programs one after the other and the session that they leave. The second one
    is run only if the first one succeeds. -/
def endingBoth (limits : Limits) (session : Session) (first second : Node) :
    Except Fault Float × Session :=
  match session.ending limits first with
  | (.ok _, after) => after.ending limits second
  | (.error fault, after) => (.error fault, after)

open Evaluation Node
variable {limits : Limits} {session : Session} {frame : Frame}

theorem yields_arithmetic {node : Node} (arithmetic : node.Arithmetic) {x : Float}
    (result : (session.evaluate limits [] node).result = .ok (.number x)) :
    session.Yields limits x node := by
  cases arithmetic with | _ => exact result

/-- A node comes to the same from every frame with the global names of a session. -/
theorem ends_evaluate (same : frame.scope = session.globals) (node : Node) :
    Ends (node.evaluate session.logging limits.calls []) frame
      (fun value _ => (session.evaluate limits [] node).result = .ok value)
      (fun fault _ => (session.evaluate limits [] node).result = .error fault) := by
  have unfolded : (session.evaluate limits [] node).result =
      (outcome (node.evaluate session.logging limits.calls []) ⟨session.globals, []⟩).1 := rfl
  rw [unfolded]
  unfold Ends outcome EStateM.run
  cases node.evaluate_alike limits.calls [] frame ⟨session.globals, []⟩ same with
  | ok first second _ => rw [first, second]
  | error first second _ => rw [first, second]

section
variable (within : session.globals.Holds (Value.Within Ordinary)) (same : frame.scope = session.globals)
include within same

theorem typed_statement {statement : Node} (ordinary : statement.Ordinary) (depth : Nat) :
    Task.Typed Ordinary ⟨depth, [], statement, frame⟩ :=
  ⟨ordinary, same ▸ within, nofun⟩

/-- An expression has a number for its value and leaves the global names as they are. -/
theorem ends_expression {node : Node} (arithmetic : node.Arithmetic) (depth : Nat) :
    Ends (node.evaluate session.logging depth []) frame
      (fun value after => (∃ x, value = .number x) ∧ after.scope = session.globals)
      (fun _ after => after.scope = session.globals) := by
  have typed := typed_statement within same (.expression arithmetic) depth
  refine ((Task.sound hereditary_ordinary depth typed).and (arithmetic.preserves depth [] frame)).imp ?_ ?_
  · rintro value after ⟨⟨number, _⟩, kept⟩
    exact ⟨number, kept.trans same⟩
  · rintro fault after ⟨_, kept⟩
    exact kept.trans same

/-- A definition gives its name the value of its right side, after that is known. -/
theorem ends_definition (name : String) {value : Node} (arithmetic : value.Arithmetic) :
    Ends ((Node.definition (.text name) value).evaluate session.logging limits.calls []) frame
      (fun result after => ∃ x, result = .number x ∧
        (session.evaluate limits [] value).result = .ok (.number x) ∧
        after.scope = session.globals.set (.text name) (.number x))
      (fun _ after => after.scope = session.globals) := by
  have whole := @ends_evaluate limits session frame same value
  cases calls : limits.calls with
  | zero => exact same
  | succ depth =>
    rw [calls] at whole
    rw [Node.evaluate]
    refine (ends_expression within same arithmetic depth).reached.bind ?_ ?_
    · rintro _ middle ⟨evaluated, ⟨x, rfl⟩, kept⟩
      -- The right side is evaluated one level down, where it comes to what it does by itself.
      have alone : (session.evaluate limits [] value).result = .ok (.number x) := by
        rcases value.evaluate_approaches_succ depth [] frame with deeper | ⟨after, gaveUp⟩
        · exact whole.of_ok (deeper.symm.trans evaluated)
        · rw [gaveUp] at evaluated
          cases evaluated
      rw [ends_bind, ends_define]
      refine ⟨fun key found => ?_, fun fault noKey => by cases noKey⟩
      cases found
      have entry : definitionEntry (.text name) (.number x) =
          .ok (["let ", name, " = ", Number.text x].map .text) := rfl
      simp only [entry]
      refine (ends_record_texts session.logging .definition _ _).bind ?_ fun _ _ => False.elim
      rintro _ after logged
      refine ⟨x, rfl, alone, logged.trans ?_⟩
      rw [kept]
    · rintro fault after ⟨_, kept⟩
      exact kept

omit within in
/-- A function is given to its name. -/
theorem ends_function (name : String) (parameters : List String) (body : Node) :
    Ends ((Node.function (.text name) (parameters.map .text) body).evaluate session.logging
        limits.calls []) frame
      (fun result after => result = .number 0.0 ∧ after.scope =
        session.globals.set (.text name) (.function ⟨.text name, parameters.map .text, body⟩))
      (fun _ after => after.scope = session.globals) := by
  cases limits.calls with
  | zero => exact same
  | succ depth =>
    rw [Node.evaluate, ends_bind, ends_define]
    refine ⟨fun key found => ?_, fun fault noKey => by cases noKey⟩
    cases found
    obtain ⟨texts, heading⟩ := Task.heading_texts name parameters body
    have entry : functionEntry ⟨.text name, parameters.map .text, body⟩ =
        .ok (("define function " :: texts).map .text) := by
      rw [functionEntry, heading]
      rfl
    simp only [entry]
    refine (ends_record_texts session.logging .definition _ _).bind ?_ fun _ _ => False.elim
    rintro _ after logged
    refine ⟨rfl, logged.trans ?_⟩
    rw [same]

/-- A statement has a value and its effect on the global names, or it fails and changes nothing. -/
theorem ends_statement {statement : Node} (ordinary : statement.Ordinary) :
    Ends (statement.evaluate session.logging limits.calls []) frame
      (fun value after => ∃ x, value = .number x ∧ session.Yields limits x statement ∧
        after.scope = statement.effect x session.globals)
      (fun _ after => after.scope = session.globals) := by
  cases ordinary with
  | expression arithmetic =>
    refine ((ends_expression within same arithmetic limits.calls).and (ends_evaluate same statement)).imp
      ?_ fun _ _ failed => failed.1
    rintro _ after ⟨⟨⟨x, rfl⟩, kept⟩, result⟩
    exact ⟨x, rfl, yields_arithmetic arithmetic result, by rw [arithmetic.effect_eq, kept]⟩
  | definition name arithmetic => exact ends_definition within same name arithmetic
  | @function name parameters body _ =>
    refine (ends_function same name parameters body).imp ?_ fun _ _ kept => kept
    rintro _ after ⟨rfl, bound⟩
    exact ⟨0.0, rfl, rfl, bound⟩

end

/-- The statements of a body are done in order up to the first one that fails. -/
theorem ends_statements {body : List Node} (within : session.globals.Holds (Value.Within Ordinary))
    (same : frame.scope = session.globals) (ordinary : ∀ statement ∈ body, statement.Ordinary)
    (index : Nat) (r : Float) :
    Ends (evaluateAll session.logging limits.calls [] index (.number r) body) frame
      (fun value last => ∃ done, body = done.map Prod.fst ∧ session.Done limits done ∧
        last.scope = (session.after done).globals ∧
        value = .number ((done.map Prod.snd).getLastD r))
      (fun fault last => ∃ done statement rest, body = done.map Prod.fst ++ statement :: rest ∧
        session.Done limits done ∧ last.scope = (session.after done).globals ∧
        ((session.after done).evaluate limits [] statement).result = .error fault ∧
        ∃ error, Task.reported fault = .error error) := by
  induction body generalizing session frame index r with
  | nil => exact ⟨[], rfl, trivial, same, rfl⟩
  | cons statement rest ih =>
    obtain ⟨first, others⟩ := List.forall_mem_cons.1 ordinary
    have typed := typed_statement within same first limits.calls
    have ends := (ends_statement within same first).and
      ((ends_evaluate same statement).and (Task.sound hereditary_ordinary limits.calls typed))
    rw [evaluateAll]
    refine ends.bind ?_ ?_
    · rintro _ middle ⟨⟨x, rfl, yields, left⟩, _, _, kept⟩
      have entry : statementEntry index (.number x) =
          .ok ([s!"statement {index}: ", Number.text x].map .text) := rfl
      simp only [entry]
      refine (ends_record_texts session.logging .statement _ _).bind ?_ fun _ _ => False.elim
      rintro _ logged scope
      -- From here on it is the session after this statement that goes on.
      have within' : (session.after [(statement, x)]).globals.Holds (Value.Within Ordinary) := by
        rw [left] at kept
        exact kept
      refine (ih within' (scope.trans left) others (index + 1) x).imp ?_ ?_
      · rintro value last ⟨done, rfl, each, ended, rfl⟩
        exact ⟨(statement, x) :: done, rfl, ⟨yields, each⟩, ended,
          by rw [List.map_cons, List.getLastD_cons]⟩
      · rintro fault last ⟨done, culprit, later, rfl, each, ended, fails⟩
        exact ⟨(statement, x) :: done, culprit, later, rfl, ⟨yields, each⟩, ended, fails⟩
    · rintro fault after ⟨kept, result, ⟨culprit, reaches, fails⟩, _⟩
      obtain ⟨error, reported, _⟩ := fails.reported (typed.reaches hereditary_ordinary reaches)
      exact ⟨[], statement, rest, rfl, trivial, kept, result, error, reported⟩

/-- Statements that end with a number end the run of their program with it. -/
theorem ending_of_ok {body : List Node} {x : Float} {last : Frame}
    (ended : evaluateAll session.logging limits.calls [] 1 (.number 0.0) body ⟨session.globals, []⟩ =
      .ok (.number x) last) :
    session.ending limits (.program body) = (.ok x, { session with globals := last.scope }) := by
  have ran : (Node.program body).run session.logging limits.calls [] ⟨session.globals, []⟩ =
      .ok x last := by
    change EStateM.bind (EStateM.tryCatch _ _) _ _ = _
    unfold EStateM.bind EStateM.tryCatch
    rw [ended]
    rfl
  unfold ending Session.run perform outcome EStateM.run
  dsimp only [List.nil_append, List.tail_cons, List.headD_cons]
  rw [ran]
  rfl

/-- A fault of the statements is reported by the run of their program. -/
theorem ending_of_error {body : List Node} {fault : Fault} {last : Frame}
    (ended : evaluateAll session.logging limits.calls [] 1 (.number 0.0) body ⟨session.globals, []⟩ =
      .error fault last) :
    session.ending limits (.program body) =
      (.error (Task.reported fault), { session with globals := last.scope }) := by
  have ran : (Node.program body).run session.logging limits.calls [] ⟨session.globals, []⟩ =
      .error (Task.reported fault) last := by
    change EStateM.bind (EStateM.tryCatch _ _) _ _ = _
    unfold EStateM.bind EStateM.tryCatch
    rw [ended]
    cases fault with | _ => rfl
  unfold ending Session.run perform outcome EStateM.run
  dsimp only [List.nil_append, List.tail_cons, List.headD_cons]
  rw [ran]
  rfl

/-- Every statement of an ordinary program is done whole or not at all. -/
theorem atomic_run {body : List Node} (within : session.globals.Holds (Value.Within Ordinary))
    (ordinary : ∀ statement ∈ body, statement.Ordinary) :
    session.Atomic limits body (session.run limits [] (.program body)) := by
  have ends := @ends_statements limits session ⟨session.globals, []⟩ body within rfl ordinary 1 0.0
  cases ended : evaluateAll session.logging limits.calls [] 1 (.number 0.0) body
      ⟨session.globals, []⟩ with
  | ok value last =>
    obtain ⟨done, all, each, scope, rfl⟩ := ends.of_ok ended
    obtain ⟨result, left⟩ := Prod.mk.inj (ending_of_ok ended)
    exact .finished all each (left.trans (by rw [scope]; rfl)) result
  | error fault last =>
    obtain ⟨done, statement, rest, split, each, scope, fails, error, reported⟩ := ends.of_error ended
    obtain ⟨result, left⟩ := Prod.mk.inj (ending_of_error ended)
    exact .failed split each (left.trans (by rw [scope]; rfl)) fails reported (result.trans (by rw [reported]))

/-- Statements that follow others go on from what those leave. -/
theorem evaluateAll_append (logging : Logging) (depth : Nat) (index : Nat) (result : Value)
    (first second : List Node) :
    evaluateAll logging depth [] index result (first ++ second) =
      evaluateAll logging depth [] index result first >>= fun value =>
        evaluateAll logging depth [] (index + first.length) value second := by
  induction first generalizing index result with
  | nil => rfl
  | cons statement rest ih =>
    simp only [List.cons_append, evaluateAll, bind_assoc, ih, List.length_cons, Nat.add_assoc,
      Nat.add_comm 1]

/-- Statements of an ordinary program, of which there are some, come to the same after others as by
    themselves in the session that those leave. -/
theorem ending_append {first second : List Node}
    (within : session.globals.Holds (Value.Within Ordinary))
    (ordinary : ∀ statement ∈ first ++ second, statement.Ordinary) (some : second ≠ []) :
    session.ending limits (.program (first ++ second)) =
      session.endingBoth limits (.program first) (.program second) := by
  have ends := @ends_statements limits session ⟨session.globals, []⟩ _ within rfl
    (fun statement inside => ordinary statement (List.mem_append_left _ inside)) 1 0.0
  have whole := @ends_statements limits session ⟨session.globals, []⟩ _ within rfl ordinary 1 0.0
  have joined := evaluateAll_append session.logging limits.calls 1 (.number 0.0) first second
  unfold endingBoth
  cases ended : evaluateAll session.logging limits.calls [] 1 (.number 0.0) first
      ⟨session.globals, []⟩ with
  | error fault middle =>
    rw [ending_of_error ended]
    exact ending_of_error (by rw [joined, bind_of_error ended])
  | ok value middle =>
    obtain ⟨done, _, _, _, rfl⟩ := ends.of_ok ended
    rw [ending_of_ok ended]
    obtain ⟨statement, rest, rfl⟩ := List.exists_cons_of_ne_nil some
    -- Of what was before, the second part sees the scope only: not the value, the number or the log.
    have alike := @evaluateAll_alike session.logging limits.calls [] (1 + first.length) 1
      (.number 0.0) (statement :: rest) middle ⟨middle.scope, []⟩ rfl
    have goesOn : evaluateAll session.logging limits.calls [] 1 (.number 0.0)
        (first ++ statement :: rest) ⟨session.globals, []⟩ =
          evaluateAll session.logging limits.calls [] (1 + first.length) (.number 0.0)
            (statement :: rest) middle := by
      rw [joined, bind_of_ok ended]
      rfl
    cases alike with
    | ok one two same =>
      obtain ⟨done, _, _, _, rfl⟩ := whole.of_ok (goesOn.trans one)
      rw [ending_of_ok (goesOn.trans one), same]
      exact (@ending_of_ok limits { session with globals := middle.scope } _ _ _ two).symm
    | error one two same =>
      rw [ending_of_error (goesOn.trans one), same]
      exact (@ending_of_error limits { session with globals := middle.scope } _ _ _ two).symm

/-- A session of numbers and ordinary functions runs ordinary programs statement by statement: each
    statement is done whole or not at all, those after one that fails are not begun, and a program
    split in two, with something left for the second part, ends as it does undivided. -/
theorem run_atomic (within : session.globals.Holds (Value.Within Ordinary)) (limits : Limits) :
    (∀ body, (∀ statement ∈ body, statement.Ordinary) →
        session.Atomic limits body (session.run limits [] (.program body))) ∧
      ∀ first second, (∀ statement ∈ first ++ second, statement.Ordinary) → second ≠ [] →
        session.ending limits (.program (first ++ second)) =
          session.endingBoth limits (.program first) (.program second) :=
  ⟨fun _ ordinary => atomic_run within ordinary,
    fun _ _ ordinary some => ending_append within ordinary some⟩

/-- Of three statements the last one fails. The first one is a new name, and the second one gives
    another value to a name that keeps its place. -/
theorem run_atomic_undefined :
    let session : Session := ⟨[(.text "x", .number 1)], .start 3⟩
    let body : List Node := [.definition (.text "y") (.reference (.text "x")),
      .definition (.text "x") (.number 2), .reference (.text "z")]
    session.Atomic .standard body (session.run .standard [] (.program body)) ∧
      session.ending .standard (.program body) =
        session.endingBoth .standard (.program (body.take 1)) (.program (body.drop 1)) ∧
      session.ending .standard (.program body) =
        (.error (.error (.undefinedName (.text "z"))),
          ⟨[(.text "x", .number 2), (.text "y", .number 1)], .start 3⟩) := by
  intro session body
  have within : session.globals.Holds (Value.Within Ordinary) := by
    simp [session, Scope.Holds, Value.Within]
  have ordinary : ∀ statement ∈ body, statement.Ordinary := by
    simp only [body, List.forall_mem_cons]
    exact ⟨.definition _ (.reference _), .definition _ (.number _), .expression (.reference _), by simp⟩
  obtain ⟨atomic, split⟩ := run_atomic within .standard
  exact ⟨atomic body ordinary, split (body.take 1) (body.drop 1) ordinary (by simp [body]), rfl⟩

end Session

end Reckoner
