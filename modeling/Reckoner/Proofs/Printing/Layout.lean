import Reckoner.Proofs.Printing.Formation
import Reckoner.Proofs.Printing.Spacing

/-!
Programs as words. The relations say by which words expressions, statements and programs are written,
with parentheses only where an operand would otherwise be grouped differently. Every well-formed
program can be written, and each of its words is a lexeme.
-/
namespace Reckoner

/-- How tightly an operator binds its operands. -/
def Operator.precedence : Operator → Nat
  | .add => 1
  | .subtract => 1
  | .multiply => 2
  | .divide => 2

namespace Node
open Reckoner.Text (isBlank)

/-- How tightly the words of an expression hold together. -/
def precedence : Node → Nat
  | .binary operator _ _ => operator.precedence
  | _ => 3

/-- Words in parentheses, where these are needed. -/
def enclosed (needed : Prop) [Decidable needed] (words : List (List Char)) : List (List Char) :=
  if needed then ['('] :: (words ++ [[')']]) else words

/-- Words of several items, with commas between them. -/
def listed : List (List (List Char)) → List (List Char)
  | [] => []
  | [words] => words
  | words :: others => words ++ [','] :: listed others

/-- The words of an expression. A number is written as any numeral that stands for it. In parentheses
    stand a left operand of lower precedence and a right one of lower or equal precedence. -/
inductive Written : Node → List (List Char) → Prop
  | number {value : Float} {span : List Char} (numeral : Number.Numeral span)
      (read : Number.read? (String.ofList span) = some value) : Written (.number value) [span]
  | reference (name : String) : Written (.reference (.text name)) [name.toList]
  | binary (operator : Operator) {left right : Node} {before behind : List (List Char)}
      (first : Written left before) (second : Written right behind) :
      Written (.binary operator left right)
        (enclosed (left.precedence < operator.precedence) before ++
          operator.symbol.toList :: enclosed (right.precedence ≤ operator.precedence) behind)
  | call (name : String) {items : List (Node × List (List Char))}
      (each : ∀ item ∈ items, Written item.1 item.2) :
      Written (.call (.text name) (items.map Prod.fst))
        (name.toList :: ['('] :: (listed (items.map Prod.snd) ++ [[')']]))

/-- The words of a statement. -/
inductive Stated : Node → List (List Char) → Prop
  | expression {node : Node} {words : List (List Char)} (written : Written node words) :
      Stated node words
  | definition (name : String) {value : Node} {words : List (List Char)}
      (written : Written value words) :
      Stated (.definition (.text name) value) (['l', 'e', 't'] :: name.toList :: ['='] :: words)
  | function (name : String) (parameters : List String) {body : Node} {words : List (List Char)}
      (written : Written body words) :
      Stated (.function (.text name) (parameters.map .text) body)
        (['f', 'u', 'n', 'c'] :: name.toList :: ['('] ::
          (listed (parameters.map fun parameter => [parameter.toList]) ++ [')'] :: ['='] :: words))

/-- The words of a program: those of its statements, each with a semicolon behind it. -/
inductive Printed : Node → List (List Char) → Prop
  | program {items : List (Node × List (List Char))} (each : ∀ item ∈ items, Stated item.1 item.2) :
      Printed (.program (items.map Prod.fst)) (items.flatMap fun item => item.2 ++ [[';']])

private theorem exists_items {Words : Node → List (List Char) → Prop} {nodes : List Node}
    (each : ∀ node ∈ nodes, ∃ words, Words node words) :
    ∃ items : List (Node × List (List Char)), items.map Prod.fst = nodes ∧
      ∀ item ∈ items, Words item.1 item.2 := by
  induction nodes with
  | nil => exact ⟨[], rfl, by simp⟩
  | cons node nodes ih =>
    obtain ⟨⟨words, first⟩, others⟩ := List.forall_mem_cons.1 each
    obtain ⟨items, rfl, rest⟩ := ih others
    exact ⟨(node, words) :: items, rfl, List.forall_mem_cons.2 ⟨first, rest⟩⟩

theorem Formula.exists_written {node : Node} (formula : Formula node) : ∃ words, Written node words := by
  induction formula with
  | number literal =>
    obtain ⟨span, numeral, read⟩ := literal
    exact ⟨_, .number numeral read⟩
  | reference named => exact ⟨_, .reference _⟩
  | binary operator _ _ first second =>
    obtain ⟨before, written⟩ := first
    obtain ⟨behind, writtenToo⟩ := second
    exact ⟨_, .binary operator written writtenToo⟩
  | call named _ each =>
    obtain ⟨items, rfl, written⟩ := exists_items each
    exact ⟨_, .call _ written⟩

theorem Sentence.exists_stated {node : Node} (sentence : Sentence node) :
    ∃ words, Stated node words := by
  cases sentence with
  | expression formula =>
    obtain ⟨words, written⟩ := formula.exists_written
    exact ⟨_, .expression written⟩
  | definition named formula =>
    obtain ⟨words, written⟩ := formula.exists_written
    exact ⟨_, .definition _ written⟩
  | function named each distinct formula =>
    obtain ⟨words, written⟩ := formula.exists_written
    exact ⟨_, .function _ _ written⟩

/-- Every well-formed program can be written. -/
theorem WellFormed.exists_printed {node : Node} (formed : WellFormed node) :
    ∃ words, Printed node words := by
  obtain ⟨each⟩ := formed
  obtain ⟨items, rfl, stated⟩ := exists_items fun statement inside =>
    (each statement inside).exists_stated
  exact ⟨_, .program stated⟩

/-- Words that are lexemes, each by itself. -/
def Lexemes (words : List (List Char)) : Prop :=
  ∀ word ∈ words, ∃ kind, Token.Lexical isBlank (some kind) word

@[simp] theorem lexemes_nil : Lexemes [] := by simp [Lexemes]

@[simp] theorem lexemes_cons {word : List Char} {words : List (List Char)} :
    Lexemes (word :: words) ↔ (∃ kind, Token.Lexical isBlank (some kind) word) ∧ Lexemes words :=
  List.forall_mem_cons

@[simp] theorem lexemes_append {words others : List (List Char)} :
    Lexemes (words ++ others) ↔ Lexemes words ∧ Lexemes others := List.forall_mem_append

theorem lexeme_mark {c : Char} {kind : Token.Kind} (known : Token.punctuation? c = some kind) :
    ∃ kind, Token.Lexical isBlank (some kind) [c] := ⟨kind, .mark known⟩

theorem lexemes_enclosed {needed : Prop} [Decidable needed] {words : List (List Char)}
    (lexemes : Lexemes words) : Lexemes (enclosed needed words) := by
  unfold enclosed
  split
  · simp [lexemes, lexeme_mark (c := '(') rfl, lexeme_mark (c := ')') rfl]
  · exact lexemes

theorem lexemes_listed {lists : List (List (List Char))} (each : ∀ words ∈ lists, Lexemes words) :
    Lexemes (listed lists) := by
  fun_induction listed lists with
  | case1 => simp
  | case2 words => simpa using each
  | case3 words others _ ih =>
    obtain ⟨first, rest⟩ := List.forall_mem_cons.1 each
    simp [first, ih rest, lexeme_mark (c := ',') rfl]

theorem lexeme_symbol (operator : Operator) :
    ∃ kind, Token.Lexical isBlank (some kind) operator.symbol.toList := by
  cases operator with
  | add => exact lexeme_mark (c := '+') rfl
  | subtract => exact lexeme_mark (c := '-') rfl
  | multiply => exact lexeme_mark (c := '*') rfl
  | divide => exact lexeme_mark (c := '/') rfl

theorem Written.lexemes {node : Node} {words : List (List Char)} (written : Written node words)
    (formula : Formula node) : Lexemes words := by
  induction written with
  | number numeral read => simpa using ⟨_, .numeral numeral⟩
  | reference name =>
    cases formula with
    | reference named => simpa using ⟨_, .name named⟩
  | binary operator _ _ before behind =>
    cases formula with
    | binary _ first second =>
      rw [lexemes_append, lexemes_cons]
      exact ⟨lexemes_enclosed (before first), lexeme_symbol operator, lexemes_enclosed (behind second)⟩
  | @call name items _ ih =>
    cases formula with
    | call named each =>
      have inner : Lexemes (listed (items.map Prod.snd)) := by
        refine lexemes_listed fun words inside => ?_
        obtain ⟨item, member, rfl⟩ := List.mem_map.1 inside
        exact ih item member (each _ (List.mem_map_of_mem member))
      rw [lexemes_cons, lexemes_cons, lexemes_append, lexemes_cons]
      exact ⟨⟨_, .name named⟩, lexeme_mark rfl, inner, lexeme_mark rfl, lexemes_nil⟩

theorem Stated.lexemes {node : Node} {words : List (List Char)} (stated : Stated node words)
    (sentence : Sentence node) : Lexemes words := by
  cases stated with
  | expression written =>
    cases sentence with
    | expression formula => exact written.lexemes formula
    | definition => cases written
    | function => cases written
  | definition name written =>
    cases sentence with
    | expression formula => cases formula
    | definition named formula =>
      rw [lexemes_cons, lexemes_cons, lexemes_cons]
      exact ⟨⟨_, .letWord⟩, ⟨_, .name named⟩, lexeme_mark rfl, written.lexemes formula⟩
  | @function name parameters _ _ written =>
    obtain ⟨named, each, _, formula⟩ := sentence.of_function
    have names : Lexemes (listed (parameters.map fun parameter => [parameter.toList])) := by
      refine lexemes_listed fun words inside => ?_
      obtain ⟨parameter, member, rfl⟩ := List.mem_map.1 inside
      simpa using ⟨_, .name (each parameter member)⟩
    rw [lexemes_cons, lexemes_cons, lexemes_cons, lexemes_append, lexemes_cons, lexemes_cons]
    exact ⟨⟨_, .funcWord⟩, ⟨_, .name named⟩, lexeme_mark rfl, names, lexeme_mark rfl, lexeme_mark rfl,
      written.lexemes formula⟩

/-- Every word of a well-formed program is a lexeme. -/
theorem Printed.lexemes {node : Node} {words : List (List Char)} (printed : Printed node words)
    (formed : WellFormed node) : Lexemes words := by
  obtain ⟨stated⟩ := printed
  obtain ⟨each⟩ := formed
  intro word inside
  obtain ⟨item, member, within⟩ := List.mem_flatMap.1 inside
  have statement := (stated item member).lexemes (each _ (List.mem_map_of_mem member))
  have whole : Lexemes (item.2 ++ [[';']]) := by
    rw [lexemes_append, lexemes_cons]
    exact ⟨statement, lexeme_mark rfl, lexemes_nil⟩
  exact whole word within

end Node

end Reckoner
