import Reckoner.Proofs.Depth.Reading
import Reckoner.Session

/-!
Evaluation at a greater depth. A node that is evaluated within some levels is evaluated alike within
more, down to the entries of the log. So a limit can be observed only where it is reported:
`Limits.outcome_stable` says this of reading tokens, of reading sources and of runs.
-/
namespace Reckoner

namespace Evaluation

theorem approaches_inScope {α : Type} {shallow deep : Evaluation α} (scope : Scope)
    (inside : Approaches shallow deep) : Approaches (inScope scope shallow) (inScope scope deep) := by
  intro frame
  unfold inScope
  rcases inside { frame with scope } with same | ⟨after, gaveUp⟩
  · rw [same]
    exact .inl rfl
  · rw [gaveUp]
    exact .inr ⟨_, rfl⟩

end Evaluation

namespace Node
variable {logging : Logging}

theorem evaluate_approaches_succ (depth : Nat) (outer : List Scope) (node : Node) :
    Approaches (node.evaluate logging depth outer) (node.evaluate logging (depth + 1) outer) := by
  induction depth generalizing outer node with
  | zero => exact .giveUp _
  | succ depth ih =>
    cases node with
    | binary operator left right =>
      exact (ih outer left).bind fun _ => .after _ fun _ => (ih outer right).bind fun _ => .refl _
    | definition name value => exact (ih outer value).bind fun _ => .refl _
    | call name arguments =>
      refine .after _ fun f => (Approaches.mapM (ih outer) arguments).bind fun values => ?_
      refine .after _ fun scope => .after _ fun _ => .after _ fun caller => ?_
      exact Evaluation.approaches_inScope scope (ih _ f.body)
    | _ => exact .refl _

theorem evaluate_approaches {depth greater : Nat} (le : depth ≤ greater) (outer : List Scope)
    (node : Node) :
    Approaches (node.evaluate logging depth outer) (node.evaluate logging greater outer) :=
  .of_le (fun depth => node.evaluate_approaches_succ depth outer) le

theorem evaluateAll_approaches {depth greater : Nat} (le : depth ≤ greater) (outer : List Scope)
    (index : Nat) (result : Value) (statements : List Node) :
    Approaches (evaluateAll logging depth outer index result statements)
      (evaluateAll logging greater outer index result statements) := by
  induction statements generalizing index result with
  | nil => exact .refl _
  | cons statement rest ih =>
    exact (evaluate_approaches le outer statement).bind fun value => .after _ fun _ => ih _ value

/-- What a run makes of a fault: levels that are used up are reported as a limit. -/
def limited : Fault → Evaluation Value
  | .depth => throw (.error (.recursionLimit .calls none))
  | fault => throw fault

/-- A run ends in the same way within more levels, or it reports its limit. -/
theorem run_cases {depth greater : Nat} (le : depth ≤ greater) (outer : List Scope) (node : Node)
    (frame : Frame) :
    node.run logging greater outer frame = node.run logging depth outer frame ∨
      ∃ after, node.run logging depth outer frame =
        .error (.error (.recursionLimit .calls none)) after := by
  cases found : node.statements with
  | error fault =>
    unfold run
    rw [found]
    exact .inl rfl
  | ok body =>
    have unfolded (levels : Nat) : node.run logging levels outer frame =
        EStateM.bind (EStateM.tryCatch (evaluateAll logging levels outer 1 (.number 0.0) body) limited)
          (fun result => Evaluation.lift (result.expectNumber "program result")) frame := by
      rw [run, found]
      rfl
    rw [unfolded, unfolded]
    unfold EStateM.bind EStateM.tryCatch
    rcases evaluateAll_approaches le outer 1 (.number 0.0) body frame with same | ⟨after, gaveUp⟩
    · rw [same]
      exact .inl rfl
    · rw [gaveUp]
      exact .inr ⟨_, rfl⟩

end Node

/-- Limits that are at most others, for reading and for evaluation. -/
structure Limits.AtMost (limits greater : Limits) : Prop where
  nesting : limits.nesting ≤ greater.nesting
  phrases : limits.phrases ≤ greater.phrases
  calls : limits.calls ≤ greater.calls

section
variable {limits greater : Limits} (atMost : limits.AtMost greater)
include atMost

theorem Frontend.parse_stable (frontend : Frontend) {source : Spelling}
    (unlimited : ¬ LimitReported (frontend.parse limits source)) :
    frontend.parse greater source = frontend.parse limits source := by
  cases frontend with
  | descent => exact Descent.parse_stable atMost.nesting unlimited
  | machine => exact Machine.parse_stable atMost.nesting atMost.phrases unlimited

theorem Session.run_stable {session : Session} {extras : List Scope} {program : Node}
    (unlimited : ¬ LimitReported (session.run limits extras program).result) :
    session.run greater extras program = session.run limits extras program := by
  unfold Session.run Session.perform Evaluation.outcome EStateM.run at unlimited ⊢
  dsimp only at unlimited ⊢
  rcases Node.run_cases atMost.calls (extras ++ [session.globals]).tail program
    { scope := (extras ++ [session.globals]).headD [] } with same | ⟨after, gaveUp⟩
  · rw [same]
  · rw [gaveUp] at unlimited
    exact absurd ⟨.calls, none, rfl⟩ unlimited

/-- A limit is observed only as the error that reports it. What is read of a list of tokens or of a
    source and what a run leaves, with its result, its scopes and its log, is the same under all
    greater limits, unless an exceeded limit is reported. -/
theorem Limits.outcome_stable :
    (∀ tokens, ¬ LimitReported (Descent.parseTokens limits.nesting tokens) →
        Descent.parseTokens greater.nesting tokens = Descent.parseTokens limits.nesting tokens) ∧
      (∀ (frontend : Frontend) source, ¬ LimitReported (frontend.parse limits source) →
        frontend.parse greater source = frontend.parse limits source) ∧
      ∀ (session : Session) extras program,
        ¬ LimitReported (session.run limits extras program).result →
        session.run greater extras program = session.run limits extras program :=
  ⟨fun _ => Descent.parseTokens_stable atMost.nesting, fun frontend _ => frontend.parse_stable atMost,
    fun _ _ _ => Session.run_stable atMost⟩

end

/-- A definition and a call that divides by zero, in three levels. -/
def Node.dividing : Node :=
  .program [.function (.text "f") [.text "x"] (.binary .divide (.reference (.text "x")) (.number 0)),
    .call (.text "f") [.number 1]]

/-- Under narrow limits and under the standard ones a call is left open, in tokens and in a source
    that the machine refuses, and a division by zero is reported, with the same log. -/
theorem Limits.outcome_stable_narrow :
    Descent.parseTokens 300 [⟨.name, "f", some 1⟩, ⟨.opening, "(", some 1⟩, Token.finish 2] =
        .error (.error (.parse (.operand .finish) (some 2))) ∧
      Frontend.machine.parse .standard "f(x" =
        .error (.error (.parse (.unmatchedCall "f") (some 1))) ∧
      (Session.start 3).run .standard [] Node.dividing =
        (Session.start 3).run { nesting := 2, phrases := 1, calls := 3 } [] Node.dividing := by
  have atMost : Limits.AtMost { nesting := 2, phrases := 1, calls := 3 } .standard :=
    ⟨by decide, by decide, by decide⟩
  obtain ⟨tokens, sources, runs⟩ := Limits.outcome_stable atMost
  have read : Descent.parseTokens 2
      [⟨.name, "f", some 1⟩, ⟨.opening, "(", some 1⟩, Token.finish 2] =
        .error (.error (.parse (.operand .finish) (some 2))) := rfl
  have refused : Frontend.machine.parse { nesting := 2, phrases := 1, calls := 3 } "f(x" =
      .error (.error (.parse (.unmatchedCall "f") (some 1))) := by
    have tokens : Token.tokenize "f(x" = .ok [⟨.name, "f", some 1⟩, ⟨.opening, "(", some 1⟩,
        ⟨.name, "x", some 1⟩, Token.finish 1] := by cbv
    have verdict : Machine.judge (Token.scan Text.isPlainBlank "f(x") = .refused .finish (some 1) := by
      cbv
    rw [Frontend.parse, Machine.parse, verdict]
    simp only [Machine.diagnose, Descent.parse, tokens]
    rfl
  have result : ((Session.start 3).run { nesting := 2, phrases := 1, calls := 3 } []
      Node.dividing).result = .error (.error (.divisionByZero (Number.text 1) (Number.text 0))) := rfl
  refine ⟨(tokens _ ?_).trans read, (sources .machine _ ?_).trans refused, runs _ _ _ ?_⟩
  · rw [read]
    rintro ⟨_, _, reported⟩
    cases reported
  · rw [refused]
    rintro ⟨_, _, reported⟩
    cases reported
  · rw [result]
    rintro ⟨_, _, reported⟩
    cases reported

end Reckoner
