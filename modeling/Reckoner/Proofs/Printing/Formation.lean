import Mathlib.Data.List.Nodup
import Reckoner.Proofs.Agreement
import Reckoner.Proofs.Ordinary

/-!
Well-formed programs: the trees that sources stand for. Statements are expressions or define a number or
a function by one; names are those of the scan, parameters are different, and every number is one that
a numeral stands for. Whatever the reader by descent accepts is well-formed.
-/
namespace Reckoner

namespace Node
open Reckoner.Token (Identifier)

/-- A number that some numeral stands for. -/
def Literal (value : Float) : Prop :=
  ∃ span, Number.Numeral span ∧ Number.read? (String.ofList span) = some value

/-- A well-formed expression. -/
inductive Formula : Node → Prop
  | number {value : Float} (literal : Literal value) : Formula (.number value)
  | reference {name : String} (named : Identifier name.toList) : Formula (.reference (.text name))
  | binary (operator : Operator) {left right : Node} (first : Formula left) (second : Formula right) :
      Formula (.binary operator left right)
  | call {name : String} {arguments : List Node} (named : Identifier name.toList)
      (each : ∀ argument ∈ arguments, Formula argument) : Formula (.call (.text name) arguments)

/-- A well-formed statement. -/
inductive Sentence : Node → Prop
  | expression {node : Node} (formula : Formula node) : Sentence node
  | definition {name : String} {value : Node} (named : Identifier name.toList)
      (formula : Formula value) : Sentence (.definition (.text name) value)
  | function {name : String} {parameters : List String} {body : Node}
      (named : Identifier name.toList) (each : ∀ parameter ∈ parameters, Identifier parameter.toList)
      (distinct : parameters.Nodup) (formula : Formula body) :
      Sentence (.function (.text name) (parameters.map .text) body)

/-- The parts of a well-formed function. -/
theorem Sentence.of_function {name : String} {parameters : List String} {body : Node}
    (sentence : Sentence (.function (.text name) (parameters.map .text) body)) :
    Identifier name.toList ∧ (∀ parameter ∈ parameters, Identifier parameter.toList) ∧
      parameters.Nodup ∧ Formula body := by
  generalize texts : parameters.map Datum.text = names at sentence
  cases sentence with
  | expression formula => cases formula
  | function named each distinct formula =>
    have injective : Function.Injective Datum.text := by
      rintro a b same
      cases same
      rfl
    cases injective.list_map texts
    exact ⟨named, each, distinct, formula⟩

/-- A well-formed program. -/
inductive WellFormed : Node → Prop
  | program {body : List Node} (each : ∀ statement ∈ body, Sentence statement) :
      WellFormed (.program body)

end Node

theorem Spelling.worth_of_read {span : List Char} {value : Float}
    (read : Number.read? (String.ofList span) = some value) :
    (String.ofList span : Spelling).worth = value := by
  simp [worth, toFloat, plain, read]

namespace Token
open Reckoner.Node

/-- A token whose text is a numeral or a name where its kind says so. -/
structure Apt (token : Token) : Prop where
  number : token.kind = .number → Literal token.lexeme.worth
  name : token.kind = .name → ∃ text : String, token.lexeme = text ∧ Identifier text.toList

/-- A lexeme is apt as a token in any line. -/
theorem Lexical.apt {blank : Char → Bool} {kind : Kind} {span : List Char}
    (lexical : Lexical blank (some kind) span) (line : Option Int) :
    Apt ⟨kind, String.ofList span, line⟩ := by
  constructor
  · rintro number
    dsimp only at number
    subst number
    cases lexical with
    | numeral numeral =>
      obtain ⟨value, read⟩ := numeral.read
      exact ⟨span, numeral, by rw [read, Spelling.worth_of_read read]⟩
    | mark known =>
      unfold punctuation? at known
      split at known <;> cases known
  · rintro name
    dsimp only at name
    subst name
    cases lexical with
    | name identifier => exact ⟨_, rfl, by simpa using identifier⟩
    | mark known =>
      unfold punctuation? at known
      split at known <;> cases known

theorem apt_of_scan {blank : Char → Bool} {source : Spelling} {tokens : List Token} {ending : Ending}
    (scanned : scan blank source = ⟨tokens, ending⟩) : ∀ token ∈ tokens, token.Apt := by
  have words : (scan blank source).tokens = tokens := by rw [scanned]
  intro token inside
  rw [← words] at inside
  obtain ⟨kind, span, start, lexical, rfl⟩ := lexical_of_mem_scanFrom _ _ token inside
  exact lexical.apt _

end Token

namespace Grammar
open Reckoner.Node

/-- Apt words make formulas. -/
theorem compositional_formula : Compositional Token.Apt fun phrase => phrase.node.Formula where
  joined first others := by
    rw [Phrase.node_joined]
    exact Phrase.grouped_of (fun operator _ _ => .binary operator) others first
  reference apt named := by
    obtain ⟨text, lexeme, identifier⟩ := apt.name named
    rw [Phrase.node, lexeme]
    exact .reference identifier
  numeral apt number := by
    rw [Phrase.node]
    exact .number (apt.number number)
  call apt named each := by
    obtain ⟨text, lexeme, identifier⟩ := apt.name named
    rw [Phrase.node, lexeme, Phrase.nodes_eq_map]
    exact .call identifier (by simpa using each)

theorem Parameters.named {words parameters : List Token} (listed : Parameters words parameters) :
    ∀ token ∈ parameters, token.kind = .name := by
  cases listed with
  | empty => simp
  | full names =>
    induction names with
    | last item =>
      obtain ⟨named⟩ := item
      simpa using named
    | more item comma others ih =>
      obtain ⟨named⟩ := item
      exact List.forall_mem_cons.2 ⟨named, ih⟩

/-- The texts of tokens that are names. -/
theorem exists_identifiers {tokens : List Token} (apt : ∀ token ∈ tokens, token.Apt)
    (named : ∀ token ∈ tokens, token.kind = .name) :
    ∃ names : List String, tokens.map Token.lexeme = names.map Spelling.whole ∧
      ∀ name ∈ names, Token.Identifier name.toList := by
  induction tokens with
  | nil => exact ⟨[], rfl, by simp⟩
  | cons token rest ih =>
    obtain ⟨first, others⟩ := List.forall_mem_cons.1 apt
    obtain ⟨isName, areNames⟩ := List.forall_mem_cons.1 named
    obtain ⟨text, lexeme, identifier⟩ := first.name isName
    obtain ⟨names, same, each⟩ := ih others areNames
    refine ⟨text :: names, ?_, List.forall_mem_cons.2 ⟨identifier, each⟩⟩
    rw [List.map_cons, List.map_cons, lexeme, same]

/-- Apt words make a well-formed statement, if no parameter is repeated. -/
theorem Body.sentence {words : List Token} {clause : Clause} (derived : Body words clause)
    (apt : ∀ word ∈ words, word.Apt) (distinct : clause.Distinct) : clause.node.Sentence := by
  cases derived with
  | @definition _ name _ _ _ _ named _ inner =>
    obtain ⟨text, lexeme, identifier⟩ := (apt name (by simp)).name named
    have value := compositional_formula.expression inner fun word inside => apt word (by simp [inside])
    rw [Clause.node, lexeme]
    exact .definition identifier value
  | @function _ name _ _ _ _ _ parameters _ _ named _ listed _ _ inner =>
    obtain ⟨text, lexeme, identifier⟩ := (apt name (by simp)).name named
    obtain ⟨names, same, each⟩ := exists_identifiers
      (fun token inside => apt token (by simp [listed.mem token inside])) listed.named
    have body := compositional_formula.expression inner fun word inside => apt word (by simp [inside])
    rw [Clause.Distinct, same] at distinct
    have texts : (parameters.map fun token => Datum.spelling token.lexeme) = names.map Datum.text := by
      have mapped := congrArg (List.map Datum.spelling) same
      simpa [Function.comp_def] using mapped
    rw [Clause.node, lexeme, texts]
    exact .function identifier each distinct.of_map body
  | expression inner => exact .expression (compositional_formula.expression inner apt)

end Grammar

/-- What is read by descent is a well-formed program. -/
theorem Descent.wellFormed_of_parse {depth : Nat} {source : Spelling} {node : Node}
    (read : Descent.parse depth source = .ok node) : node.WellFormed := by
  obtain ⟨tokens, line, scanned, clauses, derived, distinct, rfl⟩ := Descent.describes_of_parse read
  have apt := Token.apt_of_scan scanned
  refine .program fun statement inside => ?_
  obtain ⟨clause, member, rfl⟩ := List.mem_map.1 inside
  obtain ⟨part, within, body⟩ := derived.body_of_mem member
  exact body.sentence (fun word here => apt word (within word here)) (distinct clause member)

end Reckoner
