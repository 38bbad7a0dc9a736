import Reckoner.Proofs.Evaluation.Causes
import Reckoner.Proofs.Evaluation.Runs
import Reckoner.Session

/-!
Sessions keep numbers and functions apart. However a session was reached, its global names stand for
numbers and functions, and so do all names that a task of a further run or evaluation sees. The only
mismatches of types are a function that is used as a value and a number that is called.
-/
namespace Reckoner

/-- A number or a function. -/
def Value.Native (value : Value) : Prop := value.isNumber = true ∨ value.isFunction = true

theorem Value.within_iff_native (value : Value) : value.Within (fun _ => True) ↔ value.Native := by
  cases value <;> simp [Within, Native, isNumber, isFunction]

theorem Scope.holds_within_iff (scope : Scope) :
    scope.Holds (Value.Within fun _ => True) ↔ scope.Holds Value.Native := by
  simp only [Scope.Holds, Value.within_iff_native]

/-- All nodes make a class. -/
theorem Node.hereditary_all : Node.Hereditary fun _ => True :=
  ⟨fun _ => trivial, fun _ => trivial, fun _ => trivial, fun _ _ _ => trivial, fun _ => trivial⟩

/-- The scopes after a run, innermost first. -/
def Report.scopes {α : Type} (report : Report α) : List Scope :=
  report.extras ++ [report.session.globals]

namespace Session

/-- The scopes of a run, innermost first. -/
def scopes (session : Session) (extras : List Scope) : List Scope := extras ++ [session.globals]

/-- The frame that a run starts from. -/
def frame (session : Session) (extras : List Scope) : Frame := ⟨(session.scopes extras).headD [], []⟩

/-- The scopes that a run leaves as they are. -/
def outer (session : Session) (extras : List Scope) : List Scope := (session.scopes extras).tail

theorem scopes_eq (session : Session) (extras : List Scope) :
    session.scopes extras = (session.frame extras).scope :: session.outer extras := by
  cases extras <;> rfl

theorem result_perform {α : Type} (session : Session) (extras : List Scope)
    (activity : List Scope → Evaluation α) :
    (session.perform extras activity).result =
      ((activity (session.outer extras)).outcome (session.frame extras)).1 := rfl

/-- Afterwards only the innermost scope can be another one. -/
theorem scopes_perform {α : Type} (session : Session) (extras : List Scope)
    (activity : List Scope → Evaluation α) :
    (session.perform extras activity).scopes =
      ((activity (session.outer extras)).outcome (session.frame extras)).2.scope ::
        session.outer extras := by
  have split (scope : Scope) (others : List Scope) :
      (scope :: others).dropLast ++ [(scope :: others).getLastD []] = scope :: others := by
    rw [List.getLastD_eq_getLast?, List.getLast?_eq_some_getLast (by simp), Option.getD_some,
      List.dropLast_concat_getLast]
  exact split _ _

/-- What is performed in a session ends as it does from the frame of the session. -/
theorem perform_ends {α : Type} (session : Session) (extras : List Scope)
    (activity : List Scope → Evaluation α) {good : α → Frame → Prop} {bad : Fault → Frame → Prop}
    (ends : Ends (activity (session.outer extras)) (session.frame extras) good bad) :
    ∃ after, (session.perform extras activity).scopes = after.scope :: session.outer extras ∧
      ((∃ value, (session.perform extras activity).result = .ok value ∧ good value after) ∨
        ∃ fault, (session.perform extras activity).result = .error fault ∧ bad fault after) := by
  rw [scopes_perform, result_perform, Evaluation.outcome, EStateM.run]
  cases outcome : activity (session.outer extras) (session.frame extras) with
  | ok value after => exact ⟨after, rfl, .inl ⟨value, rfl, ends.of_ok outcome⟩⟩
  | error fault after => exact ⟨after, rfl, .inr ⟨fault, rfl, ends.of_error outcome⟩⟩

/-- A session that runs and evaluations of any nodes lead to, in any order and with any outcomes;
    the further scopes that they are given hold numbers and functions. -/
inductive Reachable : Session → Prop
  | start (level : Int) : Reachable (start level)
  | run {session : Session} (reachable : Reachable session) (limits : Limits) {extras : List Scope}
      (native : ∀ scope ∈ extras, scope.Holds Value.Native) (program : Node) :
      Reachable (session.run limits extras program).session
  | evaluate {session : Session} (reachable : Reachable session) (limits : Limits)
      {extras : List Scope} (native : ∀ scope ∈ extras, scope.Holds Value.Native) (node : Node) :
      Reachable (session.evaluate limits extras node).session
  | close {session : Session} (reachable : Reachable session) : Reachable session.close

/-- A task of a run of a program. -/
def RunVisits (limits : Limits) (session : Session) (extras : List Scope) (program : Node)
    (task : Task) : Prop :=
  ∃ body start, program.statements = .ok body ∧
    Task.Begins session.logging limits.calls (session.outer extras) 1 body (session.frame extras) start ∧
    Task.Reaches session.logging start task

/-- A task of an evaluation of a node. -/
def EvaluationVisits (limits : Limits) (session : Session) (extras : List Scope) (node : Node)
    (task : Task) : Prop :=
  Task.Reaches session.logging ⟨limits.calls, session.outer extras, node, session.frame extras⟩ task

end Session

/-- All names that a task sees stand for numbers and functions, it gives a number, and what it leaves
    in its scope are numbers and functions, whether it succeeds or not. -/
structure Task.Safe (logging : Logging) (task : Task) : Prop where
  before : ∀ scope ∈ task.frame.scope :: task.outer, scope.Holds Value.Native
  after : Ends (task.node.evaluate logging task.depth task.outer) task.frame
    (fun value after => value.isNumber = true ∧ after.scope.Holds Value.Native)
    (fun _ after => after.scope.Holds Value.Native)

/-- A report on tasks that were safe: its scopes hold numbers and functions, and a mismatch of types
    is a misuse of a name by one of the tasks. -/
structure Report.Safe {α : Type} (report : Report α) (logging : Logging) (Visited : Task → Prop) :
    Prop where
  scopes : ∀ scope ∈ report.scopes, scope.Holds Value.Native
  tasks : ∀ task, Visited task → task.Safe logging
  mismatch : ∀ mismatch, report.result = .error (.error (.typeMismatch mismatch)) →
    ∃ task, Visited task ∧ task.Misuses mismatch

namespace Task
open Node (hereditary_all)
variable {logging : Logging}

theorem typed_iff (task : Task) :
    task.Typed (fun _ => True) ↔ ∀ scope ∈ task.frame.scope :: task.outer, scope.Holds Value.Native := by
  simp only [← Scope.holds_within_iff]
  exact ⟨Typed.chain, fun chain => ⟨trivial, (List.forall_mem_cons.1 chain).1, (List.forall_mem_cons.1 chain).2⟩⟩

theorem Typed.safe {task : Task} (typed : task.Typed fun _ => True) : task.Safe logging := by
  refine ⟨(typed_iff task).1 typed, ?_⟩
  refine (sound hereditary_all task.depth typed).imp ?_ ?_
  · rintro _ after ⟨⟨x, rfl⟩, kept⟩
    exact ⟨rfl, (Scope.holds_within_iff _).1 kept⟩
  · rintro _ after ⟨_, kept⟩
    exact (Scope.holds_within_iff _).1 kept

/-- A mismatch of types is blamed on the misuse of a name. -/
theorem Blames.misuses {task : Task} {mismatch : Mismatch}
    (blames : Blames logging task (.error (.typeMismatch mismatch))) :
    ∃ culprit, Reaches logging task culprit ∧ culprit.Misuses mismatch := by
  obtain ⟨culprit, reaches, fails⟩ := blames
  cases fails.cause with
  | mismatch misuses => exact ⟨culprit, reaches, misuses⟩

end Task

/-- No operand and no result of a program turns out to be no number. -/
theorem Report.Safe.ne_notNumber {α : Type} {report : Report α} {logging : Logging}
    {Visited : Task → Prop} (safe : report.Safe logging Visited) (context type shown : String) :
    report.result ≠ .error (.error (.typeMismatch (.notNumber context type shown))) := by
  intro fails
  obtain ⟨task, _, misuses⟩ := safe.mismatch _ fails
  cases misuses

namespace Session
open Reckoner.Task
open Reckoner.Node (hereditary_all)

/-- What keeps the innermost of native scopes native is safe if the tasks it visits are and its
    mismatches of types are misuses by them. -/
theorem safe_perform {α : Type} {session : Session} {extras : List Scope}
    {activity : List Scope → Evaluation α} {Visited : Task → Prop}
    (native : ∀ scope ∈ session.outer extras, scope.Holds Value.Native)
    (tasks : ∀ task, Visited task → task.Safe session.logging)
    (ends : Ends (activity (session.outer extras)) (session.frame extras)
      (fun _ after => after.scope.Holds Value.Native)
      (fun fault after => (∀ mismatch, fault = .error (.typeMismatch mismatch) →
        ∃ task, Visited task ∧ task.Misuses mismatch) ∧ after.scope.Holds Value.Native)) :
    (session.perform extras activity).Safe session.logging Visited := by
  obtain ⟨after, scopes, ⟨value, result, kept⟩ | ⟨fault, result, misuses, kept⟩⟩ :=
    perform_ends session extras activity ends
  · refine ⟨?_, tasks, fun mismatch fails => ?_⟩
    · rw [scopes]
      exact List.forall_mem_cons.2 ⟨kept, native⟩
    · rw [result] at fails
      cases fails
  · refine ⟨?_, tasks, fun mismatch fails => ?_⟩
    · rw [scopes]
      exact List.forall_mem_cons.2 ⟨kept, native⟩
    · rw [result] at fails
      cases fails
      exact misuses mismatch rfl

section
variable {session : Session} {extras : List Scope}

/-- A run in scopes of numbers and functions is safe. -/
theorem run_safe (limits : Limits) (native : ∀ scope ∈ session.scopes extras, scope.Holds Value.Native)
    (program : Node) :
    (session.run limits extras program).Safe session.logging
      (session.RunVisits limits extras program) := by
  rw [scopes_eq] at native
  obtain ⟨_, nativeOuter⟩ := List.forall_mem_cons.1 native
  simp only [← Scope.holds_within_iff] at native
  obtain ⟨first, others⟩ := List.forall_mem_cons.1 native
  have anything (body : List Node) : ∀ statement ∈ body, True := fun _ _ => trivial
  refine safe_perform nativeOuter ?_ ?_
  · rintro task ⟨body, start, found, begins, reaches⟩
    have typed := begins.typed hereditary_all (anything body) first others
    exact (typed.reaches hereditary_all reaches).safe
  · refine (ends_run hereditary_all (fun body _ => anything body) first others).imp ?_ ?_
    · intro _ after kept
      exact (Scope.holds_within_iff _).1 kept
    · rintro fault after ⟨why, kept⟩
      refine ⟨?_, (Scope.holds_within_iff _).1 kept⟩
      rintro mismatch rfl
      rcases why with noBody | ⟨body, start, cause, found, begins, blames, same⟩
      · cases program <;> cases noBody
      · cases cause with
        | error error =>
          cases same
          obtain ⟨task, reaches, misuses⟩ := blames.misuses
          exact ⟨task, ⟨body, start, found, begins, reaches⟩, misuses⟩
        | _ => cases same

/-- An evaluation in scopes of numbers and functions is safe and gives a number. -/
theorem evaluate_safe (limits : Limits)
    (native : ∀ scope ∈ session.scopes extras, scope.Holds Value.Native) (node : Node) :
    (session.evaluate limits extras node).Safe session.logging
        (session.EvaluationVisits limits extras node) ∧
      ∀ value, (session.evaluate limits extras node).result = .ok value → value.isNumber = true := by
  rw [scopes_eq] at native
  obtain ⟨_, nativeOuter⟩ := List.forall_mem_cons.1 native
  have typed : Typed (fun _ => True) ⟨limits.calls, session.outer extras, node, session.frame extras⟩ :=
    (typed_iff _).2 native
  have ends := @sound _ session.logging hereditary_all limits.calls _ _ _ typed
  refine ⟨safe_perform nativeOuter ?_ ?_, ?_⟩
  · intro task reaches
    exact (typed.reaches hereditary_all reaches).safe
  · refine ends.imp ?_ ?_
    · rintro _ after ⟨_, kept⟩
      exact (Scope.holds_within_iff _).1 kept
    · rintro fault after ⟨blames, kept⟩
      refine ⟨?_, (Scope.holds_within_iff _).1 kept⟩
      rintro mismatch rfl
      exact blames.misuses
  · intro value result
    obtain ⟨after, _, ⟨_, same, ⟨x, rfl⟩, _⟩ | ⟨fault, other, _⟩⟩ :=
      perform_ends session extras (fun outer => node.evaluate session.logging limits.calls outer) ends
    · cases same.symm.trans result
      rfl
    · cases other.symm.trans result

end

theorem native_scopes {session : Session} {extras : List Scope}
    (globals : session.globals.Holds Value.Native)
    (native : ∀ scope ∈ extras, scope.Holds Value.Native) :
    ∀ scope ∈ session.scopes extras, scope.Holds Value.Native := by
  simpa [scopes, or_imp, forall_and] using ⟨native, globals⟩

/-- The global names of every session that can be reached stand for numbers and functions. -/
theorem Reachable.native {session : Session} (reachable : session.Reachable) :
    session.globals.Holds Value.Native := by
  induction reachable with
  | start level => exact Scope.holds_nil
  | run _ limits native program ih =>
    exact (run_safe limits (native_scopes ih native) program).scopes _ (by simp [Report.scopes])
  | evaluate _ limits native node ih =>
    exact (evaluate_safe limits (native_scopes ih native) node).1.scopes _ (by simp [Report.scopes])
  | close _ ih => exact ih

/-- However a session was reached, its names stand for numbers and functions, a further run and a
    further evaluation of any node are safe, an evaluation gives a number, and nothing that has to be
    a number turns out to be none. -/
theorem Reachable.type_safe {session : Session} (reachable : session.Reachable) (limits : Limits)
    {extras : List Scope} (native : ∀ scope ∈ extras, scope.Holds Value.Native) (node : Node) :
    session.globals.Holds Value.Native ∧
      (session.run limits extras node).Safe session.logging (session.RunVisits limits extras node) ∧
      (session.evaluate limits extras node).Safe session.logging
        (session.EvaluationVisits limits extras node) ∧
      (∀ value, (session.evaluate limits extras node).result = .ok value → value.isNumber = true) ∧
      ∀ context type shown,
        (session.run limits extras node).result ≠
            .error (.error (.typeMismatch (.notNumber context type shown))) ∧
          (session.evaluate limits extras node).result ≠
            .error (.error (.typeMismatch (.notNumber context type shown))) := by
  have globals := reachable.native
  have run := run_safe limits (native_scopes globals native) node
  obtain ⟨evaluation, number⟩ := evaluate_safe limits (native_scopes globals native) node
  exact ⟨globals, run, evaluation, number, fun context type shown =>
    ⟨run.ne_notNumber context type shown, evaluation.ne_notNumber context type shown⟩⟩

theorem Reachable.type_safe_reference :
    ∃ task, RunVisits .standard (Session.run .standard (Session.start 0) []
          (.program [.function (.text "f") [] (.number 1)])).session []
        (.program [.reference (.text "f")]) task ∧
      task.Misuses (.functionAsValue (.text "f")) := by
  have none : ∀ scope ∈ ([] : List Scope), scope.Holds Value.Native := by simp
  have reachable := (Reachable.start 0).run .standard none
    (.program [.function (.text "f") [] (.number 1)])
  have safe := reachable.type_safe .standard none (.program [.reference (.text "f")])
  exact safe.2.1.mismatch _ rfl

end Session

end Reckoner
