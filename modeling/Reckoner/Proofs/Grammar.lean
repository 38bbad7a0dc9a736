import Reckoner.Phrase.Machine
import Reckoner.Proofs.Outcome

/-!
The grammar of the language, by which tokens derive the phrases and clauses that they stand for.

    program    := statement*
    statement  := (definition | function | expression) ';' | ';'
    definition := 'let' name '=' expression
    function   := 'func' name '(' [name (',' name)*] ')' '=' expression
    expression := term (('+' | '-') term)*
    term       := factor (('*' | '/') factor)*
    factor     := '(' expression ')' | call | name | numeral
    call       := name '(' [expression (',' expression)*] ')'

Each nonterminal is a relation between tokens and what they derive. `Closed` says of other relations
that they obey the rules; such relations hold of everything that is derived, which is the induction
over derivations. `Compositional` is its special case for properties that go from the parts of a
phrase over to the phrase.
-/
namespace Reckoner

namespace Phrase

/-- A chain of operands; a single operand is no chain. -/
def joined (first : Phrase) (links : List (Operator × Phrase)) : Phrase :=
  match links with
  | [] => first
  | _ :: _ => .chain first links

end Phrase

namespace Grammar
open Descent (sumOperator? productOperator?)

/-- `(operator operand)*`. -/
inductive Links (operator? : Token.Kind → Option Operator) (Operand : List Token → Phrase → Prop) :
    List Token → List (Operator × Phrase) → Prop
  | done : Links operator? Operand [] []
  | more {token : Token} {words rest : List Token} {operator : Operator} {operand : Phrase}
      {links : List (Operator × Phrase)} (sign : operator? token.kind = some operator)
      (next : Operand words operand) (others : Links operator? Operand rest links) :
      Links operator? Operand (token :: (words ++ rest)) ((operator, operand) :: links)

/-- `operand (operator operand)*`. -/
inductive Chain (operator? : Token.Kind → Option Operator) (Operand : List Token → Phrase → Prop) :
    List Token → Phrase → Prop
  | intro {words rest : List Token} {first : Phrase} {links : List (Operator × Phrase)}
      (head : Operand words first) (tail : Links operator? Operand rest links) :
      Chain operator? Operand (words ++ rest) (.joined first links)

/-- `item (',' item)*`. -/
inductive Separated {α : Type} (Item : List Token → α → Prop) : List Token → List α → Prop
  | last {words : List Token} {value : α} (item : Item words value) : Separated Item words [value]
  | more {token : Token} {words rest : List Token} {value : α} {values : List α}
      (item : Item words value) (comma : token.kind = .comma)
      (others : Separated Item rest values) :
      Separated Item (words ++ token :: rest) (value :: values)

theorem Links.imp {operator? : Token.Kind → Option Operator} {P Q : List Token → Phrase → Prop}
    (each : ∀ words phrase, P words phrase → Q words phrase) {words : List Token}
    {links : List (Operator × Phrase)} (derived : Links operator? P words links) :
    Links operator? Q words links := by
  induction derived with
  | done => exact .done
  | more sign next others ih => exact .more sign (each _ _ next) ih

theorem Chain.imp {operator? : Token.Kind → Option Operator} {P Q : List Token → Phrase → Prop}
    (each : ∀ words phrase, P words phrase → Q words phrase) {words : List Token}
    {phrase : Phrase} (derived : Chain operator? P words phrase) : Chain operator? Q words phrase := by
  obtain ⟨head, tail⟩ := derived
  exact .intro (each _ _ head) (tail.imp each)

/-- A single operand is a chain. -/
theorem Chain.single {operator? : Token.Kind → Option Operator} {Operand : List Token → Phrase → Prop}
    {words : List Token} {phrase : Phrase} (operand : Operand words phrase) :
    Chain operator? Operand words phrase := by
  have chain : Chain operator? Operand (words ++ []) (.joined phrase []) := .intro operand .done
  rw [List.append_nil] at chain
  exact chain

theorem Separated.imp {α : Type} {P Q : List Token → α → Prop}
    (each : ∀ words value, P words value → Q words value) {words : List Token} {values : List α}
    (derived : Separated P words values) : Separated Q words values := by
  induction derived with
  | last item => exact .last (each _ _ item)
  | more item comma others ih => exact .more (each _ _ item) comma ih

mutual

/-- `expression := term (('+' | '-') term)*`. -/
inductive Expression : List Token → Phrase → Prop
  | sum {words : List Token} {phrase : Phrase} (chain : Chain sumOperator? Term words phrase) :
      Expression words phrase

/-- `term := factor (('*' | '/') factor)*`. -/
inductive Term : List Token → Phrase → Prop
  | product {words : List Token} {phrase : Phrase}
      (chain : Chain productOperator? Factor words phrase) : Term words phrase

/-- `factor := '(' expression ')' | call | name | numeral`. -/
inductive Factor : List Token → Phrase → Prop
  | group {opening closing : Token} {words : List Token} {phrase : Phrase}
      (opens : opening.kind = .opening) (inner : Expression words phrase)
      (closes : closing.kind = .closing) : Factor (opening :: (words ++ [closing])) phrase
  | call {words : List Token} {phrase : Phrase} (call : Call words phrase) : Factor words phrase
  | name {token : Token} (named : token.kind = .name) : Factor [token] (.reference token.lexeme)
  | numeral {token : Token} (number : token.kind = .number) :
      Factor [token] (.numeral token.lexeme)

/-- `call := name '(' [expression (',' expression)*] ')'`. -/
inductive Call : List Token → Phrase → Prop
  | empty {name opening closing : Token} (named : name.kind = .name)
      (opens : opening.kind = .opening) (closes : closing.kind = .closing) :
      Call [name, opening, closing] (.call name.lexeme [])
  | full {name opening closing : Token} {words : List Token} {phrases : List Phrase}
      (named : name.kind = .name) (opens : opening.kind = .opening)
      (inner : Separated Expression words phrases) (closes : closing.kind = .closing) :
      Call (name :: opening :: (words ++ [closing])) (.call name.lexeme phrases)

end

/-- A name in the place of a parameter, which is kept as its token. -/
inductive Parameter : List Token → Token → Prop
  | intro {token : Token} (named : token.kind = .name) : Parameter [token] token

/-- `[name (',' name)*]`. -/
inductive Parameters : List Token → List Token → Prop
  | empty : Parameters [] []
  | full {words parameters : List Token} (names : Separated Parameter words parameters) :
      Parameters words parameters

/-- `definition | function | expression`. -/
inductive Body : List Token → Clause → Prop
  | definition {letWord name equals : Token} {words : List Token} {value : Phrase}
      (starts : letWord.kind = .letWord) (named : name.kind = .name)
      (equal : equals.kind = .equals) (inner : Expression words value) :
      Body (letWord :: name :: equals :: words) (.definition name.lexeme value)
  | function {funcWord name opening closing equals : Token} {names words parameters : List Token}
      {body : Phrase} (starts : funcWord.kind = .funcWord) (named : name.kind = .name)
      (opens : opening.kind = .opening) (listed : Parameters names parameters)
      (closes : closing.kind = .closing) (equal : equals.kind = .equals)
      (inner : Expression words body) :
      Body (funcWord :: name :: opening :: (names ++ closing :: equals :: words))
        (.function name.lexeme parameters body)
  | expression {words : List Token} {value : Phrase} (inner : Expression words value) :
      Body words (.expression value)

/-- `statement := (definition | function | expression) ';' | ';'`, with the clauses it makes. -/
inductive Statement : List Token → List Clause → Prop
  | empty {semicolon : Token} (ends : semicolon.kind = .semicolon) : Statement [semicolon] []
  | full {semicolon : Token} {words : List Token} {clause : Clause} (body : Body words clause)
      (ends : semicolon.kind = .semicolon) : Statement (words ++ [semicolon]) [clause]

/-- `program := statement*`. -/
inductive Program : List Token → List Clause → Prop
  | done : Program [] []
  | more {words rest : List Token} {some others : List Clause} (first : Statement words some)
      (following : Program rest others) : Program (words ++ rest) (some ++ others)

/-- Every clause of a program is derived from a part of its words. -/
theorem Program.body_of_mem {words : List Token} {clauses : List Clause}
    (derived : Program words clauses) {clause : Clause} (inside : clause ∈ clauses) :
    ∃ part, (∀ word ∈ part, word ∈ words) ∧ Body part clause := by
  induction derived with
  | done => cases inside
  | more first following ih =>
    rcases List.mem_append.1 inside with here | later
    · cases first with
      | empty ends => cases here
      | full body ends =>
        cases List.mem_singleton.1 here
        exact ⟨_, fun word within => by simp [within], body⟩
    · obtain ⟨part, within, body⟩ := ih later
      exact ⟨part, fun word within' => List.mem_append_right _ (within word within'), body⟩

/-- Relations that obey the rules for expressions, terms, factors and calls. -/
structure Closed (E T F C : List Token → Phrase → Prop) : Prop where
  sum {words : List Token} {phrase : Phrase} : Chain sumOperator? T words phrase → E words phrase
  product {words : List Token} {phrase : Phrase} :
    Chain productOperator? F words phrase → T words phrase
  group {opening closing : Token} {words : List Token} {phrase : Phrase} :
    opening.kind = .opening → E words phrase → closing.kind = .closing →
      F (opening :: (words ++ [closing])) phrase
  call {words : List Token} {phrase : Phrase} : C words phrase → F words phrase
  name {token : Token} : token.kind = .name → F [token] (.reference token.lexeme)
  numeral {token : Token} : token.kind = .number → F [token] (.numeral token.lexeme)
  emptyCall {name opening closing : Token} :
    name.kind = .name → opening.kind = .opening → closing.kind = .closing →
      C [name, opening, closing] (.call name.lexeme [])
  fullCall {name opening closing : Token} {words : List Token} {phrases : List Phrase} :
    name.kind = .name → opening.kind = .opening → Separated E words phrases →
      closing.kind = .closing → C (name :: opening :: (words ++ [closing])) (.call name.lexeme phrases)

namespace Closed
variable {E T F C : List Token → Phrase → Prop}

mutual

theorem expression (closed : Closed E T F C) {words : List Token} {phrase : Phrase} :
    Expression words phrase → E words phrase
  | .sum (.intro head tail) => closed.sum (.intro (closed.term head) (closed.terms tail))

theorem term (closed : Closed E T F C) {words : List Token} {phrase : Phrase} :
    Term words phrase → T words phrase
  | .product (.intro head tail) => closed.product (.intro (closed.factor head) (closed.factors tail))

theorem factor (closed : Closed E T F C) {words : List Token} {phrase : Phrase} :
    Factor words phrase → F words phrase
  | .group opens inner closes => closed.group opens (closed.expression inner) closes
  | .call inner => closed.call (closed.calls inner)
  | .name named => closed.name named
  | .numeral number => closed.numeral number

theorem calls (closed : Closed E T F C) {words : List Token} {phrase : Phrase} :
    Call words phrase → C words phrase
  | .empty named opens closes => closed.emptyCall named opens closes
  | .full named opens inner closes => closed.fullCall named opens (closed.expressions inner) closes

theorem terms (closed : Closed E T F C) {words : List Token} {links : List (Operator × Phrase)} :
    Links sumOperator? Term words links → Links sumOperator? T words links
  | .done => .done
  | .more sign next others => .more sign (closed.term next) (closed.terms others)

theorem factors (closed : Closed E T F C) {words : List Token} {links : List (Operator × Phrase)} :
    Links productOperator? Factor words links → Links productOperator? F words links
  | .done => .done
  | .more sign next others => .more sign (closed.factor next) (closed.factors others)

theorem expressions (closed : Closed E T F C) {words : List Token} {phrases : List Phrase} :
    Separated Expression words phrases → Separated E words phrases
  | .last item => .last (closed.expression item)
  | .more item comma others => .more (closed.expression item) comma (closed.expressions others)

end

end Closed

/-- A property of phrases that a phrase has if its parts have it and its tokens another one. -/
structure Compositional (W : Token → Prop) (P : Phrase → Prop) : Prop where
  joined {first : Phrase} {links : List (Operator × Phrase)} :
    P first → (∀ link ∈ links, P link.2) → P (.joined first links)
  reference {token : Token} : W token → token.kind = .name → P (.reference token.lexeme)
  numeral {token : Token} : W token → token.kind = .number → P (.numeral token.lexeme)
  call {name : Token} {phrases : List Phrase} :
    W name → name.kind = .name → (∀ phrase ∈ phrases, P phrase) → P (.call name.lexeme phrases)

namespace Compositional
variable {W : Token → Prop} {P : Phrase → Prop} {words : List Token}

theorem links {operator? : Token.Kind → Option Operator} {links : List (Operator × Phrase)}
    (derived : Links operator? (fun words phrase => (∀ word ∈ words, W word) → P phrase) words links)
    (each : ∀ word ∈ words, W word) : ∀ link ∈ links, P link.2 := by
  induction derived with
  | done => simp
  | more sign next others ih =>
    obtain ⟨_, behind⟩ := List.forall_mem_cons.1 each
    obtain ⟨here, later⟩ := List.forall_mem_append.1 behind
    exact List.forall_mem_cons.2 ⟨next here, ih later⟩

theorem separated {phrases : List Phrase}
    (derived : Separated (fun words phrase => (∀ word ∈ words, W word) → P phrase) words phrases)
    (each : ∀ word ∈ words, W word) : ∀ phrase ∈ phrases, P phrase := by
  induction derived with
  | last item => simpa using item each
  | more item comma others ih =>
    obtain ⟨here, behind⟩ := List.forall_mem_append.1 each
    obtain ⟨_, later⟩ := List.forall_mem_cons.1 behind
    exact List.forall_mem_cons.2 ⟨item here, ih later⟩

theorem chain (compositional : Compositional W P) {operator? : Token.Kind → Option Operator}
    {phrase : Phrase}
    (derived : Chain operator? (fun words phrase => (∀ word ∈ words, W word) → P phrase) words phrase)
    (each : ∀ word ∈ words, W word) : P phrase := by
  obtain ⟨head, tail⟩ := derived
  obtain ⟨here, later⟩ := List.forall_mem_append.1 each
  exact compositional.joined (head here) (links tail later)

theorem closed (compositional : Compositional W P) :
    Closed (fun words phrase => (∀ word ∈ words, W word) → P phrase)
      (fun words phrase => (∀ word ∈ words, W word) → P phrase)
      (fun words phrase => (∀ word ∈ words, W word) → P phrase)
      (fun words phrase => (∀ word ∈ words, W word) → P phrase) where
  sum := compositional.chain
  product := compositional.chain
  group _ inner _ each := inner fun word inside => each word (by simp [inside])
  call inner := inner
  name named each := compositional.reference (each _ (by simp)) named
  numeral number each := compositional.numeral (each _ (by simp)) number
  emptyCall named _ _ each := compositional.call (each _ (by simp)) named (by simp)
  fullCall named _ inner _ each := compositional.call (each _ (by simp)) named
    (separated inner fun word inside => each word (by simp [inside]))

/-- Words with the property of tokens derive expressions with that of phrases. -/
theorem expression (compositional : Compositional W P) {phrase : Phrase}
    (derived : Expression words phrase) (each : ∀ word ∈ words, W word) : P phrase :=
  compositional.closed.expression derived each

end Compositional

/-- Words that begin with a token that begins an operand. -/
def Begins (words : List Token) : Prop :=
  ∃ token rest, words = token :: rest ∧
    (token.kind = .number ∨ token.kind = .name ∨ token.kind = .opening)

theorem begins_chain {operator? : Token.Kind → Option Operator} {words : List Token}
    {phrase : Phrase} (chain : Chain operator? (fun words _ => Begins words) words phrase) :
    Begins words := by
  obtain ⟨⟨token, rest, rfl, starts⟩, _⟩ := chain
  exact ⟨token, _, rfl, starts⟩

theorem begins_closed :
    Closed (fun words _ => Begins words) (fun words _ => Begins words) (fun words _ => Begins words)
      (fun words _ => Begins words) where
  sum := begins_chain
  product := begins_chain
  group opens _ _ := ⟨_, _, rfl, .inr (.inr opens)⟩
  call inner := inner
  name named := ⟨_, _, rfl, .inr (.inl named)⟩
  numeral number := ⟨_, _, rfl, .inl number⟩
  emptyCall named _ _ := ⟨_, _, rfl, .inr (.inl named)⟩
  fullCall named _ _ _ := ⟨_, _, rfl, .inr (.inl named)⟩

theorem Expression.begins {words : List Token} {phrase : Phrase} (derived : Expression words phrase) :
    Begins words := begins_closed.expression derived

end Grammar

end Reckoner
