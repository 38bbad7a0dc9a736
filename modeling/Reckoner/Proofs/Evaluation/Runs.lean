import Reckoner.Proofs.Evaluation.Typing

/-!
The tasks of a run. Each statement of a program is a task from the frame that the statements before
it left. A run of statements of a class gives a number and leaves typed scopes, and its fault is that
of a task that one of the statements led to; an exceeded depth becomes an error of the language.
-/
namespace Reckoner

/-- Texts make a sentence. -/
theorem Datum.sentence_texts (pieces : List String) (position : Nat) :
    ∃ text, Datum.sentence position (pieces.map .text) = .ok text := by
  induction pieces generalizing position with
  | nil => exact ⟨"", rfl⟩
  | cons piece rest ih =>
    obtain ⟨text, made⟩ := ih (position + piece.length)
    refine ⟨piece ++ text, ?_⟩
    change (piece ++ ·) <$> Datum.sentence (position + piece.length) (rest.map .text) = _
    rw [made]
    rfl

theorem Task.not_unwritten {logging : Logging} {detail : Detail} (pieces : List String)
    {fault : Fault} : ¬ Task.Unwritten logging detail (.ok (pieces.map .text)) fault := by
  rintro ⟨_, fails | ⟨_, made, _, fails⟩⟩
  · cases fails
  · cases made
    obtain ⟨text, sentence⟩ := Datum.sentence_texts pieces 0
    rw [sentence] at fails
    cases fails

namespace Task
open Evaluation Node
variable {K : Node → Prop} {logging : Logging} {depth : Nat} {outer : List Scope}

/-- A task that begins a statement, each from the frame that those before it left. -/
inductive Begins (logging : Logging) (depth : Nat) (outer : List Scope) :
    (index : Nat) → List Node → Frame → Task → Prop
  | first {index : Nat} {statement : Node} {rest : List Node} {frame : Frame} :
      Begins logging depth outer index (statement :: rest) frame ⟨depth, outer, statement, frame⟩
  | later {index : Nat} {statement : Node} {rest : List Node} {frame middle after : Frame}
      {value : Value} {task : Task}
      (evaluated : statement.evaluate logging depth outer frame = .ok value middle)
      (recorded : record logging .statement (fun _ => statementEntry index value) middle = .ok ⟨⟩ after)
      (begins : Begins logging depth outer (index + 1) rest after task) :
      Begins logging depth outer index (statement :: rest) frame task

/-- The statements of a class that follow a number end with a number. -/
theorem ends_evaluateAll (hereditary : Hereditary K) {statements : List Node} {index : Nat}
    {result : Value} {frame : Frame} (each : ∀ statement ∈ statements, K statement)
    (number : ∃ x, result = .number x) (scope : frame.scope.Holds (Value.Within K))
    (chain : ∀ scope ∈ outer, scope.Holds (Value.Within K)) :
    Ends (evaluateAll logging depth outer index result statements) frame
      (fun value after => (∃ x, value = .number x) ∧ after.scope.Holds (Value.Within K))
      (fun fault after => (∃ task, Begins logging depth outer index statements frame task ∧
        Blames logging task fault) ∧ after.scope.Holds (Value.Within K)) := by
  induction statements generalizing index result frame with
  | nil => exact ⟨number, scope⟩
  | cons statement rest ih =>
    obtain ⟨first, others⟩ := List.forall_mem_cons.1 each
    rw [evaluateAll]
    refine (sound hereditary depth ⟨first, scope, chain⟩).reached.bind ?_ ?_
    · rintro _ middle ⟨evaluated, ⟨x, rfl⟩, kept⟩
      refine ends_record.reached.bind ?_ ?_
      · rintro _ after ⟨recorded, same⟩
        refine (ih others ⟨x, rfl⟩ (same ▸ kept)).imp (fun _ _ ended => ended) ?_
        rintro fault last ⟨⟨task, begins, blames⟩, kept⟩
        exact ⟨⟨task, .later evaluated recorded begins, blames⟩, kept⟩
      · rintro fault _ ⟨_, _, unwritten⟩
        exact absurd unwritten (not_unwritten [_, _])
    · rintro fault after ⟨_, blames, kept⟩
      exact ⟨⟨_, .first, blames⟩, kept⟩

/-- What a statement of a class begins is typed. -/
theorem Begins.typed (hereditary : Hereditary K) {statements : List Node} {index : Nat}
    {frame : Frame} {task : Task} (begins : Begins logging depth outer index statements frame task)
    (each : ∀ statement ∈ statements, K statement) (scope : frame.scope.Holds (Value.Within K))
    (chain : ∀ scope ∈ outer, scope.Holds (Value.Within K)) : task.Typed K := by
  induction begins with
  | first => exact ⟨each _ (by simp), scope, chain⟩
  | later evaluated recorded _ ih =>
    obtain ⟨first, others⟩ := List.forall_mem_cons.1 each
    have kept := (sound hereditary depth ⟨first, scope, chain⟩).of_ok evaluated
    have same := ends_record.of_ok recorded
    exact ih others (same ▸ kept.2)

/-- A fault as a run reports it. -/
def reported : Fault → Fault
  | .depth => .error (.recursionLimit .calls none)
  | fault => fault

/-- A run of a program whose statements are of a class leaves typed scopes. It fails if there are no
    statements to run, or with the fault of a task that one of them led to. -/
theorem ends_run (hereditary : Hereditary K) {node : Node} {frame : Frame}
    (each : ∀ body, node.statements = .ok body → ∀ statement ∈ body, K statement)
    (scope : frame.scope.Holds (Value.Within K))
    (chain : ∀ scope ∈ outer, scope.Holds (Value.Within K)) :
    Ends (node.run logging depth outer) frame (fun _ after => after.scope.Holds (Value.Within K))
      (fun fault after => (node.statements = .error fault ∨ ∃ body task cause,
        node.statements = .ok body ∧ Begins logging depth outer 1 body frame task ∧
          Blames logging task cause ∧ fault = reported cause) ∧
        after.scope.Holds (Value.Within K)) := by
  rw [Node.run, ends_bind, ends_lift]
  refine ⟨fun body found => ?_, fun fault none => ⟨.inl none, scope⟩⟩
  rw [ends_bind, ends_tryCatch]
  refine (ends_evaluateAll hereditary (each body found) ⟨0.0, rfl⟩ scope chain).imp ?_ ?_
  · rintro _ after ⟨⟨x, rfl⟩, kept⟩
    exact kept
  · rintro cause after ⟨⟨task, begins, blames⟩, kept⟩
    have blamed : ∀ fault, fault = reported cause → node.statements = .error fault ∨
        ∃ body task cause, node.statements = .ok body ∧ Begins logging depth outer 1 body frame task ∧
          Blames logging task cause ∧ fault = reported cause :=
      fun fault same => .inr ⟨body, task, cause, found, begins, blames, same⟩
    cases cause with
    | depth => exact ⟨blamed _ rfl, kept⟩
    | _ => exact ⟨blamed _ rfl, kept⟩

end Task

end Reckoner
