import Reckoner.Proofs.Evaluation.Levels
import Reckoner.Proofs.Evaluation.Runs

/-!
What stops a run from outside the language. A tree that was not read from a source may hold a program
inside a program, a name that is no key, a parameter that is no text or half of a surrogate pair in a
name. A fault that is no error of the language comes from such a node among the statements.
-/
namespace Reckoner

namespace Node

/-- A part of one of the statements. -/
inductive Inside (body : List Node) : Node → Prop
  | statement {node : Node} (among : node ∈ body) : Inside body node
  | left {operator : Operator} {left right : Node} (whole : Inside body (.binary operator left right)) :
      Inside body left
  | right {operator : Operator} {left right : Node} (whole : Inside body (.binary operator left right)) :
      Inside body right
  | value {name : Datum} {value : Node} (whole : Inside body (.definition name value)) : Inside body value
  | argument {name : Datum} {arguments : List Node} {argument : Node}
      (whole : Inside body (.call name arguments)) (among : argument ∈ arguments) : Inside body argument
  | body {name : Datum} {parameters : List Datum} {inner : Node}
      (whole : Inside body (.function name parameters inner)) : Inside body inner

theorem hereditary_inside (body : List Node) : Hereditary (Inside body) where
  left := .left
  right := .right
  value := .value
  argument whole _ among := .argument whole among
  body := .body

/-- The names that a node brings in itself. -/
def names : Node → List Datum
  | reference name => [name]
  | call name _ => [name]
  | definition name _ => [name]
  | function name parameters _ => name :: parameters
  | _ => []

/-- What is wrong with a node, by the fault that it makes. Only a level that logs definitions minds
    names that are no texts. -/
inductive Defect (level : Int) : Node → Fault → Prop
  | innerProgram (body : List Node) : Defect level (.program body) .innerProgram
  | notKey {node : Node} {name : Datum} {fault : Fault} (named : name ∈ node.names)
      (noKey : name.asKey = .error fault) : Defect level node fault
  | notText {name : Datum} {parameters : List Datum} {body : Node} {fault : Fault} (logged : 2 ≤ level)
      (noTexts : Datum.checkTexts 0 parameters = .error fault) :
      Defect level (.function name parameters body) fault
  | notEncodable {node : Node} {codes : List Nat} {half : ¬ ∀ code ∈ codes, code.isValidChar}
      (logged : 2 ≤ level) (named : .spelling (.broken codes half) ∈ node.names) (position : Nat) :
      Defect level node (Datum.unencodable position codes)

end Node

/-- A sentence fails at a piece with half of a surrogate pair. -/
theorem Datum.exists_broken_of_sentence {position : Nat} {pieces : List Datum} {fault : Fault}
    (fails : Datum.sentence position pieces = .error fault) :
    ∃ codes half place, .spelling (.broken codes half) ∈ pieces ∧
      fault = Datum.unencodable place codes := by
  fun_induction Datum.sentence position pieces with
  | case1 => cases fails
  | case2 position codes half rest =>
    cases fails
    exact ⟨codes, half, position, by simp, rfl⟩
  | case3 position piece rest _ ih =>
    obtain ⟨codes, half, place, among, same⟩ := ih (map_eq_error_iff.1 fails)
    exact ⟨codes, half, place, List.mem_cons_of_mem _ among, same⟩

theorem mem_of_mem_intersperse {α : Type} {mark item : α} {items : List α}
    (inside : item ∈ items.intersperse mark) : item = mark ∨ item ∈ items := by
  cases items with
  | nil => cases inside
  | cons first rest =>
    induction rest generalizing first with
    | nil => exact .inr inside
    | cons second rest ih =>
      rw [List.intersperse_cons_cons, List.mem_cons, List.mem_cons] at inside
      rcases inside with rfl | rfl | later
      · exact .inr (List.mem_cons_self ..)
      · exact .inl rfl
      · exact (ih second later).imp_right (List.mem_cons_of_mem _)

namespace Task
open Evaluation Node
variable {logging : Logging} {task : Task} {fault : Fault} {body : List Node}

/-- An entry of composed pieces is not written because of one of its names. -/
theorem Unwritten.defect {detail : Detail} {pieces : List Datum} {node : Node}
    (unwritten : Unwritten logging detail (.ok pieces) fault) (fine : 2 ≤ detail.level)
    (named : ∀ piece ∈ pieces, piece ∈ node.names ∨ ∃ text : String, piece = .text text) :
    node.Defect logging.level fault := by
  obtain ⟨included, fails | ⟨_, made, _, fails⟩⟩ := unwritten
  · cases fails
  · cases made
    obtain ⟨codes, half, place, among, rfl⟩ := Datum.exists_broken_of_sentence fails
    have asked : detail.level ≤ logging.level := of_decide_eq_true included
    rcases named _ among with here | ⟨text, same⟩
    · exact .notEncodable (by omega) here place
    · cases same

/-- A name is not resolved because it is no key, or the fault is an error. -/
theorem noKey_of_unresolved {chain : List Scope} {name : Datum}
    (unknown : Scope.resolve chain name = .error fault) (outside : fault.Outside) :
    name.asKey = .error fault := by
  rcases Scope.resolve_eq_error unknown with noKey | same
  · exact noKey
  · exact absurd same (outside.2 _)

/-- A definition of a function is not logged because of its names or its parameters. -/
theorem defect_of_functionEntry {name : Datum} {parameters : List Datum} {inner : Node}
    (unwritten : Unwritten logging .definition (functionEntry ⟨name, parameters, inner⟩) fault) :
    (Node.function name parameters inner).Defect logging.level fault := by
  cases texts : Datum.checkTexts 0 parameters with
  | error other =>
    have entry : functionEntry ⟨name, parameters, inner⟩ = .error other := by
      rw [functionEntry, Function.heading, texts]
      rfl
    obtain ⟨included, fails | ⟨_, made, _⟩⟩ := unwritten
    · rw [entry] at fails
      cases fails
      exact .notText (of_decide_eq_true included) texts
    · rw [entry] at made
      cases made
  | ok =>
    have entry : functionEntry ⟨name, parameters, inner⟩ =
        .ok (.text "define function " :: name :: .text "(" :: parameters.intersperse (.text ", ") ++
          [.text ")"]) := by
      rw [functionEntry, Function.heading, texts]
      rfl
    rw [entry] at unwritten
    refine unwritten.defect (by decide) fun piece among => ?_
    simp only [List.cons_append, List.mem_cons, List.mem_append, List.not_mem_nil, or_false] at among
    rcases among with rfl | rfl | rfl | listed | rfl
    · exact .inr ⟨_, rfl⟩
    · exact .inl (List.mem_cons_self ..)
    · exact .inr ⟨_, rfl⟩
    · rcases mem_of_mem_intersperse listed with comma | parameter
      · exact .inr ⟨_, comma⟩
      · exact .inl (List.mem_cons_of_mem _ parameter)
    · exact .inr ⟨_, rfl⟩

/-- A fault from outside the language comes from a defect of one of the statements. -/
theorem Fails.defect (fails : Fails logging task fault) (typed : task.Typed (Inside body))
    (outside : fault.Outside) : ∃ node, Inside body node ∧ node.Defect logging.level fault := by
  have node := typed.node
  cases fails with
  | depth => exact absurd rfl outside.1
  | innerProgram => exact ⟨_, node, .innerProgram _⟩
  | unresolved unknown => exact ⟨_, node, .notKey (by simp [names]) (noKey_of_unresolved unknown outside)⟩
  | functionAsValue found => exact absurd rfl (outside.2 _)
  | operator divides => exact absurd rfl (outside.2 _)
  | definitionKey noKey => exact ⟨_, node, .notKey (by simp [names]) noKey⟩
  | definitionEntry unwritten =>
    exact ⟨_, node, unwritten.defect (by decide) (by simp [names])⟩
  | functionKey noKey => exact ⟨_, node, .notKey (by simp [names]) noKey⟩
  | functionEntry unwritten => exact ⟨_, node, defect_of_functionEntry unwritten⟩
  | unresolvedCall unknown =>
    exact ⟨_, node, .notKey (by simp [names]) (noKey_of_unresolved unknown outside)⟩
  | notCallable found => exact absurd rfl (outside.2 _)
  | parameters found unbound =>
    have within : Inside body _ := Scope.holds_resolve typed.chain found
    rcases parameterScope_eq_error unbound with ⟨expected, got, rfl⟩ | ⟨parameter, among, noKey⟩
    · exact absurd rfl (outside.2 _)
    · exact ⟨_, within, .notKey (List.mem_cons_of_mem _ among) noKey⟩
  | callEntry found unwritten =>
    have within : Inside body _ := Scope.holds_resolve typed.chain found
    rw [Evaluation.callEntry, Value.mapM_shown_numbers] at unwritten
    exact ⟨_, within, unwritten.defect (by decide) (by simp [names, Function.node])⟩

end Task

end Reckoner
