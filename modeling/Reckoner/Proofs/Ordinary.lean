import Reckoner.Proofs.Evaluation.Causes
import Reckoner.Proofs.Evaluation.Runs
import Reckoner.Proofs.Tree

/-!
Ordinary trees, those of sources: statements over expressions, with texts for names. Every program
that the grammar derives from spelled words is ordinary, and what is evaluated in an ordinary program
fails with an error of the language or at its depth, with nothing from outside the language.
-/
namespace Reckoner

namespace Node

/-- An expression. -/
inductive Arithmetic : Node → Prop
  | number (value : Float) : Arithmetic (.number value)
  | reference (name : String) : Arithmetic (.reference (.text name))
  | binary (operator : Operator) {left right : Node} (first : Arithmetic left)
      (second : Arithmetic right) : Arithmetic (.binary operator left right)
  | call (name : String) {arguments : List Node} (each : ∀ argument ∈ arguments, Arithmetic argument) :
      Arithmetic (.call (.text name) arguments)

/-- A statement: an expression, or a definition of a number or a function by one. -/
inductive Ordinary : Node → Prop
  | expression {node : Node} (arithmetic : Arithmetic node) : Ordinary node
  | definition (name : String) {value : Node} (arithmetic : Arithmetic value) :
      Ordinary (.definition (.text name) value)
  | function (name : String) (parameters : List String) {body : Node} (arithmetic : Arithmetic body) :
      Ordinary (.function (.text name) (parameters.map .text) body)

theorem hereditary_ordinary : Hereditary Ordinary where
  left ordinary := by
    obtain ⟨arithmetic⟩ := ordinary
    cases arithmetic with
    | binary _ first second => exact .expression first
  right ordinary := by
    obtain ⟨arithmetic⟩ := ordinary
    cases arithmetic with
    | binary _ first second => exact .expression second
  value ordinary := by
    cases ordinary with
    | expression arithmetic => cases arithmetic
    | definition name arithmetic => exact .expression arithmetic
  argument ordinary argument inside := by
    obtain ⟨arithmetic⟩ := ordinary
    cases arithmetic with
    | call _ each => exact .expression (each argument inside)
  body ordinary := by
    cases ordinary with
    | expression arithmetic => cases arithmetic
    | function name parameters arithmetic => exact .expression arithmetic

end Node

/-- A token whose lexeme is a text. -/
def Token.Spelled (token : Token) : Prop := ∃ text : String, token.lexeme = text

namespace Grammar
open Reckoner.Node

/-- Spelled words make arithmetic. -/
theorem compositional_arithmetic : Compositional Token.Spelled fun phrase => phrase.node.Arithmetic where
  joined first others := by
    rw [Phrase.node_joined]
    exact Phrase.grouped_of (fun operator _ _ => .binary operator) others first
  reference spelled _ := by
    obtain ⟨text, lexeme⟩ := spelled
    rw [Phrase.node, lexeme]
    exact .reference text
  numeral _ _ := .number _
  call spelled _ each := by
    obtain ⟨text, lexeme⟩ := spelled
    rw [Phrase.node, lexeme, Phrase.nodes_eq_map]
    exact .call text (by simpa using each)

/-- Parameters are among the words. -/
theorem Parameters.mem {words parameters : List Token} (listed : Parameters words parameters) :
    ∀ token ∈ parameters, token ∈ words := by
  cases listed with
  | empty => simp
  | full names =>
    induction names with
    | last item =>
      cases item
      exact fun _ inside => inside
    | more item comma others ih =>
      cases item
      intro token inside
      rcases List.mem_cons.1 inside with rfl | later
      · simp
      · simp [ih token later]

private theorem exists_texts {tokens : List Token} (spelled : ∀ token ∈ tokens, token.Spelled) :
    ∃ texts : List String,
      tokens.map (fun token => Datum.spelling token.lexeme) = texts.map Datum.text := by
  induction tokens with
  | nil => exact ⟨[], rfl⟩
  | cons token rest ih =>
    obtain ⟨⟨text, lexeme⟩, others⟩ := List.forall_mem_cons.1 spelled
    obtain ⟨texts, same⟩ := ih others
    exact ⟨text :: texts, by rw [List.map_cons, List.map_cons, lexeme, same]⟩

/-- Spelled words make an ordinary statement. -/
theorem Body.ordinary {words : List Token} {clause : Clause} (derived : Body words clause)
    (spelled : ∀ word ∈ words, word.Spelled) : clause.node.Ordinary := by
  cases derived with
  | @definition _ name _ _ _ _ _ _ inner =>
    obtain ⟨text, lexeme⟩ := spelled name (by simp)
    have value := compositional_arithmetic.expression inner fun word inside => spelled word (by simp [inside])
    rw [Clause.node, lexeme]
    exact .definition text value
  | @function _ name _ _ _ _ _ _ _ _ _ _ listed _ _ inner =>
    obtain ⟨text, lexeme⟩ := spelled name (by simp)
    obtain ⟨texts, same⟩ := exists_texts fun token inside =>
      spelled token (by simp [listed.mem token inside])
    have body := compositional_arithmetic.expression inner fun word inside => spelled word (by simp [inside])
    rw [Clause.node, lexeme, same]
    exact .function text texts body
  | expression inner => exact .expression (compositional_arithmetic.expression inner spelled)

theorem Program.ordinary {words : List Token} {clauses : List Clause} (derived : Program words clauses)
    (spelled : ∀ word ∈ words, word.Spelled) : ∀ clause ∈ clauses, clause.node.Ordinary := by
  intro clause inside
  obtain ⟨part, within, body⟩ := derived.body_of_mem inside
  exact body.ordinary fun word here => spelled word (within word here)

end Grammar

namespace Task
open Evaluation Node
variable {logging : Logging}

/-- A text that is not resolved has no value. -/
theorem resolve_text_eq_error {chain : List Scope} {name : String} {fault : Fault}
    (unknown : Scope.resolve chain (.text name) = .error fault) :
    fault = .error (.undefinedName (.text name)) := by
  rcases Scope.resolve_eq_error unknown with noKey | same
  · cases noKey
  · exact same

/-- A function that an ordinary name stands for has texts for its name and its parameters. -/
theorem Typed.function {task : Task} (typed : task.Typed Ordinary) {name : Datum}
    {function : Function}
    (found : Scope.resolve (task.frame.scope :: task.outer) name = .ok (.function function)) :
    ∃ (label : String) (parameters : List String), function.name = .text label ∧
      function.parameters = parameters.map .text := by
  have ordinary : function.node.Ordinary := Scope.holds_resolve typed.chain found
  unfold Function.node at ordinary
  generalize named : function.name = label at ordinary
  generalize listed : function.parameters = parameters at ordinary
  cases ordinary with
  | expression arithmetic => cases arithmetic
  | function label parameters => exact ⟨label, parameters, rfl, rfl⟩

theorem checkTexts_texts (index : Nat) (texts : List String) :
    Datum.checkTexts index (texts.map .text) = .ok () := by
  induction texts generalizing index with
  | nil => rfl
  | cons text rest ih => exact ih (index + 1)

theorem intersperse_texts (mark : String) (texts : List String) :
    (texts.map Datum.text).intersperse (.text mark) = (texts.intersperse mark).map .text := by
  cases texts with
  | nil => rfl
  | cons first rest =>
    induction rest generalizing first with
    | nil => rfl
    | cons second rest ih =>
      have later := ih second
      simp only [List.map_cons, List.intersperse_cons_cons] at later ⊢
      rw [later]

/-- The heading of a function is made of texts if its name and its parameters are. -/
theorem heading_texts (label : String) (parameters : List String) (body : Node) :
    ∃ texts : List String, Function.heading ⟨.text label, parameters.map .text, body⟩ =
      .ok (texts.map .text) := by
  refine ⟨label :: "(" :: parameters.intersperse ", " ++ [")"], ?_⟩
  rw [Function.heading, checkTexts_texts, intersperse_texts]
  simp [bind, Except.bind, pure, Except.pure]

/-- What goes wrong at a task of an ordinary program is its depth or an error of the language. -/
theorem Fails.ordinary {task : Task} {fault : Fault} (fails : Fails logging task fault)
    (typed : task.Typed Ordinary) : fault = .depth ∨ ∃ error, fault = .error error := by
  have node := typed.node
  cases fails with
  | depth => exact .inl rfl
  | innerProgram =>
    obtain ⟨arithmetic⟩ := node
    cases arithmetic
  | unresolved unknown =>
    obtain ⟨arithmetic⟩ := node
    cases arithmetic
    exact .inr ⟨_, resolve_text_eq_error unknown⟩
  | functionAsValue found => exact .inr ⟨_, rfl⟩
  | operator divides => exact .inr ⟨_, rfl⟩
  | definitionKey noKey =>
    cases node with
    | expression arithmetic => cases arithmetic
    | definition name _ => cases noKey
  | definitionEntry unwritten =>
    cases node with
    | expression arithmetic => cases arithmetic
    | definition name _ => exact absurd unwritten (not_unwritten ["let ", name, " = ", _])
  | functionKey noKey =>
    cases node with
    | expression arithmetic => cases arithmetic
    | function name parameters _ => cases noKey
  | functionEntry unwritten =>
    cases node with
    | expression arithmetic => cases arithmetic
    | function name parameters _ =>
      obtain ⟨texts, heading⟩ := heading_texts name parameters _
      rw [Evaluation.functionEntry, heading] at unwritten
      exact absurd unwritten (not_unwritten ("define function " :: texts))
  | unresolvedCall unknown =>
    obtain ⟨arithmetic⟩ := node
    cases arithmetic
    exact .inr ⟨_, resolve_text_eq_error unknown⟩
  | notCallable found => exact .inr ⟨_, rfl⟩
  | parameters found unbound =>
    obtain ⟨label, parameters, _, listed⟩ := typed.function found
    rcases parameterScope_eq_error unbound with ⟨expected, got, rfl⟩ | ⟨parameter, inside, noKey⟩
    · exact .inr ⟨_, rfl⟩
    · rw [listed] at inside
      obtain ⟨text, _, rfl⟩ := List.mem_map.1 inside
      cases noKey
  | callEntry found unwritten =>
    obtain ⟨label, parameters, named, _⟩ := typed.function found
    rw [Evaluation.callEntry, Value.mapM_shown_numbers, named] at unwritten
    exact absurd unwritten (not_unwritten ["call ", label, _])

end Task

end Reckoner
