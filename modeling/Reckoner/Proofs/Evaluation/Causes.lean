import Reckoner.Proofs.Evaluation.Tasks

/-!
Why tasks fail. Each part of a task has few faults of its own, so a task that fails exceeds its
depth, is an error of the language, of which a mismatch of types is the use of a name that does not
fit what it stands for, or has something from outside the language in it: a program inside a
program, a name that is no key, a parameter that is no text or a name that no file can hold.
-/
namespace Reckoner

theorem Datum.asKey_eq_error {name : Datum} {fault : Fault} (fails : name.asKey = .error fault) :
    ∃ type, fault = .notKey type := by
  unfold Datum.asKey at fails
  split at fails
  · cases fails
  · cases fails
    exact ⟨_, rfl⟩

theorem Scope.resolve_eq_error {chain : List Scope} {name : Datum} {fault : Fault}
    (fails : Scope.resolve chain name = .error fault) :
    name.asKey = .error fault ∨ fault = .error (.undefinedName name) := by
  rcases bind_eq_error_iff.1 fails with noKey | ⟨key, _, searched⟩
  · exact .inl noKey
  · split at searched
    · cases searched
    · cases searched
      exact .inr rfl

theorem Operator.apply_eq_error {operator : Operator} {a b : Float} {error : Error}
    (fails : operator.apply a b = .error error) :
    ∃ dividend divisor, error = .divisionByZero dividend divisor := by
  cases operator with
  | divide =>
    simp only [Operator.apply] at fails
    split at fails
    · cases fails
      exact ⟨_, _, rfl⟩
    · cases fails
  | _ => cases fails

theorem Datum.checkTexts_eq_error {index : Nat} {data : List Datum} {fault : Fault}
    (fails : Datum.checkTexts index data = .error fault) : ∃ place type, fault = .notText place type := by
  induction data generalizing index with
  | nil => cases fails
  | cons datum rest ih =>
    cases datum with
    | spelling _ => exact ih fails
    | _ =>
      cases fails
      exact ⟨_, _, rfl⟩

theorem Datum.sentence_eq_error {position : Nat} {pieces : List Datum} {fault : Fault}
    (fails : Datum.sentence position pieces = .error fault) :
    ∃ first last code, fault = .notEncodable first last code := by
  fun_induction Datum.sentence position pieces with
  | case1 => cases fails
  | case2 position codes half rest =>
    cases fails
    exact ⟨_, _, _, rfl⟩
  | case3 position piece rest _ ih => exact ih (map_eq_error_iff.1 fails)

theorem Function.heading_eq_error {function : Function} {fault : Fault}
    (fails : function.heading = .error fault) : ∃ place type, fault = .notText place type := by
  rcases bind_eq_error_iff.1 fails with noText | ⟨_, _, made⟩
  · exact Datum.checkTexts_eq_error noText
  · cases made

theorem Scope.ofBindings_eq_error {bindings : List (Datum × Value)} {fault : Fault}
    (fails : Scope.ofBindings bindings = .error fault) :
    ∃ binding ∈ bindings, binding.1.asKey = .error fault := by
  unfold Scope.ofBindings at fails
  generalize ([] : Scope) = start at fails
  induction bindings generalizing start with
  | nil => cases fails
  | cons binding rest ih =>
    rw [List.foldlM_cons] at fails
    rcases bind_eq_error_iff.1 fails with first | ⟨scope, _, others⟩
    · rcases bind_eq_error_iff.1 first with noKey | ⟨_, _, set⟩
      · exact ⟨binding, by simp, noKey⟩
      · cases set
    · obtain ⟨other, inside, noKey⟩ := ih scope others
      exact ⟨other, by simp [inside], noKey⟩

theorem Value.mapM_shown_numbers (numbers : List Float) :
    (numbers.map Value.number).mapM Value.shown = .ok (numbers.map Number.text) := by
  induction numbers with
  | nil => rfl
  | cons x rest ih =>
    rw [List.map_cons, List.mapM_cons, ih]
    rfl

namespace Evaluation

theorem parameterScope_eq_error {function : Function} {values : List Value} {fault : Fault}
    (fails : parameterScope function values = .error fault) :
    (∃ expected got, fault = .error (.arity function.name expected got)) ∨
      ∃ parameter ∈ function.parameters, parameter.asKey = .error fault := by
  unfold parameterScope at fails
  split at fails
  · obtain ⟨⟨parameter, value⟩, inside, noKey⟩ := Scope.ofBindings_eq_error fails
    exact .inr ⟨parameter, (List.of_mem_zip inside).1, noKey⟩
  · cases fails
    exact .inl ⟨_, _, rfl⟩

end Evaluation

namespace Task
open Evaluation
variable {logging : Logging}

/-- Pieces that are composed fail only as a sentence. -/
theorem Unwritten.cause {detail : Detail} {pieces : List Datum} {fault : Fault}
    (unwritten : Unwritten logging detail (.ok pieces) fault) :
    ∃ first last code, fault = .notEncodable first last code := by
  obtain ⟨_, fails | ⟨composed, _, _, fails⟩⟩ := unwritten
  · cases fails
  · exact Datum.sentence_eq_error fails

/-- A use of a name that does not fit what it stands for. -/
inductive Misuses : Task → Mismatch → Prop
  | functionAsValue {depth : Nat} {outer : List Scope} {name : Datum} {frame : Frame}
      {function : Function}
      (found : Scope.resolve (frame.scope :: outer) name = .ok (.function function)) :
      Misuses ⟨depth, outer, .reference name, frame⟩ (.functionAsValue name)
  | notCallable {depth : Nat} {outer : List Scope} {name : Datum} {arguments : List Node}
      {frame : Frame} {x : Float}
      (found : Scope.resolve (frame.scope :: outer) name = .ok (.number x)) :
      Misuses ⟨depth, outer, .call name arguments, frame⟩ (.notCallable name "Number")

/-- Why a task fails. -/
inductive Cause (task : Task) : Fault → Prop
  | depth : Cause task .depth
  | undefinedName (name : Datum) : Cause task (.error (.undefinedName name))
  | divisionByZero (dividend divisor : String) : Cause task (.error (.divisionByZero dividend divisor))
  | arity (name : Datum) (expected got : Int) : Cause task (.error (.arity name expected got))
  | mismatch {mismatch : Mismatch} (misuses : Misuses task mismatch) :
      Cause task (.error (.typeMismatch mismatch))
  | innerProgram : Cause task .innerProgram
  | notKey (type : String) : Cause task (.notKey type)
  | notText (index : Nat) (type : String) : Cause task (.notText index type)
  | notEncodable (first last code : Nat) : Cause task (.notEncodable first last code)

theorem Cause.of_noKey {task : Task} {name : Datum} {fault : Fault} (noKey : name.asKey = .error fault) :
    Cause task fault := by
  obtain ⟨type, rfl⟩ := Datum.asKey_eq_error noKey
  exact .notKey type

theorem Cause.of_unresolved {task : Task} {chain : List Scope} {name : Datum} {fault : Fault}
    (unknown : Scope.resolve chain name = .error fault) : Cause task fault := by
  rcases Scope.resolve_eq_error unknown with noKey | rfl
  · exact .of_noKey noKey
  · exact .undefinedName name

theorem Cause.of_unwritten {task : Task} {detail : Detail} {pieces : List Datum} {fault : Fault}
    (unwritten : Unwritten logging detail (.ok pieces) fault) : Cause task fault := by
  obtain ⟨first, last, code, rfl⟩ := unwritten.cause
  exact .notEncodable first last code

theorem Fails.cause {task : Task} {fault : Fault} (fails : Fails logging task fault) :
    Cause task fault := by
  cases fails with
  | depth => exact .depth
  | innerProgram => exact .innerProgram
  | unresolved unknown => exact .of_unresolved unknown
  | functionAsValue found => exact .mismatch (.functionAsValue found)
  | operator divides =>
    obtain ⟨dividend, divisor, rfl⟩ := Operator.apply_eq_error divides
    exact .divisionByZero dividend divisor
  | definitionKey noKey => exact .of_noKey noKey
  | definitionEntry unwritten => exact .of_unwritten unwritten
  | functionKey noKey => exact .of_noKey noKey
  | @functionEntry _ _ name parameters body _ _ unwritten =>
    cases heading : Function.heading ⟨name, parameters, body⟩ with
    | ok pieces =>
      rw [Evaluation.functionEntry, heading] at unwritten
      exact .of_unwritten unwritten
    | error other =>
      obtain ⟨place, type, rfl⟩ := Function.heading_eq_error heading
      rw [Evaluation.functionEntry, heading] at unwritten
      obtain ⟨_, fails | ⟨_, made, _⟩⟩ := unwritten
      · cases fails
        exact .notText place type
      · cases made
  | unresolvedCall unknown => exact .of_unresolved unknown
  | notCallable found => exact .mismatch (.notCallable found)
  | parameters found unbound =>
    rcases parameterScope_eq_error unbound with ⟨expected, got, rfl⟩ | ⟨parameter, _, noKey⟩
    · exact .arity _ expected got
    · exact .of_noKey noKey
  | callEntry found unwritten =>
    rw [Evaluation.callEntry, Value.mapM_shown_numbers] at unwritten
    exact .of_unwritten unwritten

end Task

end Reckoner
