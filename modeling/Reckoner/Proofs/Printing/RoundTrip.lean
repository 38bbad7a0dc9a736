import Reckoner.Proofs.Printing.Layout

/-!
Programs are read back from their words. Tokens for the words of an expression derive it at the level of
the grammar that its precedence asks for, so that parentheses are needed only where they are written. The
reader by descent makes exactly the well-formed programs, and makes each of them of every text that holds
its words apart.
-/
namespace Reckoner

namespace Grammar

theorem Links.snoc {operator? : Token.Kind → Option Operator} {Operand : List Token → Phrase → Prop}
    {words more : List Token} {links : List (Operator × Phrase)} {token : Token} {operator : Operator}
    {operand : Phrase} (derived : Links operator? Operand words links)
    (sign : operator? token.kind = some operator) (next : Operand more operand) :
    Links operator? Operand (words ++ token :: more) (links ++ [(operator, operand)]) := by
  induction derived with
  | done =>
    have single := Links.more sign next .done
    rw [List.append_nil] at single
    exact single
  | more first operand others ih =>
    rw [List.cons_append, List.append_assoc]
    exact .more first operand ih

/-- A chain goes on with one more operand, which takes the whole chain for its left neighbour. -/
theorem Chain.snoc {operator? : Token.Kind → Option Operator} {Operand : List Token → Phrase → Prop}
    {words more : List Token} {phrase : Phrase} {token : Token} {operator : Operator}
    {operand : Phrase} (chain : Chain operator? Operand words phrase)
    (sign : operator? token.kind = some operator) (next : Operand more operand) :
    ∃ whole, Chain operator? Operand (words ++ token :: more) whole ∧
      whole.node = .binary operator phrase.node operand.node := by
  obtain ⟨head, tail⟩ := chain
  have longer := Chain.intro head (tail.snoc sign next)
  rw [← List.append_assoc] at longer
  refine ⟨_, longer, ?_⟩
  rw [Phrase.node_joined, Phrase.node_joined, Phrase.grouped_append]

/-- What words of a precedence derive. -/
def Tier : Nat → List Token → Phrase → Prop
  | 0 => Expression
  | 1 => Expression
  | 2 => Term
  | _ + 3 => Factor

theorem Tier.lower {level : Nat} {words : List Token} {phrase : Phrase}
    (derived : Tier (level + 1) words phrase) : Tier level words phrase := by
  match level, derived with
  | 0, expression => exact expression
  | 1, term => exact .sum (.single term)
  | 2, factor => exact .product (.single factor)
  | _ + 3, factor => exact factor

/-- What derives an expression of a precedence derives it as one of any lower precedence. -/
theorem Tier.mono {low high : Nat} (le : low ≤ high) {words : List Token} {phrase : Phrase}
    (derived : Tier high words phrase) : Tier low words phrase := by
  induction le with
  | refl => exact derived
  | step _ ih => exact ih derived.lower

end Grammar

namespace Token
open Reckoner.Grammar
open Descent (sumOperator? productOperator?)

theorem Renders.sign {token : Token} {operator : Operator}
    (renders : token.Renders operator.symbol.toList) :
    (operator.precedence = 1 ∧ sumOperator? token.kind = some operator) ∨
      (operator.precedence = 2 ∧ productOperator? token.kind = some operator) := by
  cases operator with
  | add =>
    rw [renders.kind_eq (.mark (c := '+') rfl)]
    exact .inl ⟨rfl, rfl⟩
  | subtract =>
    rw [renders.kind_eq (.mark (c := '-') rfl)]
    exact .inl ⟨rfl, rfl⟩
  | multiply =>
    rw [renders.kind_eq (.mark (c := '*') rfl)]
    exact .inr ⟨rfl, rfl⟩
  | divide =>
    rw [renders.kind_eq (.mark (c := '/') rfl)]
    exact .inr ⟨rfl, rfl⟩

/-- An operator takes a left operand of its own precedence and a right one of the next. -/
theorem Renders.tier {token : Token} {operator : Operator}
    (renders : token.Renders operator.symbol.toList) {words more : List Token} {phrase operand : Phrase}
    (left : Tier operator.precedence words phrase)
    (right : Tier (operator.precedence + 1) more operand) :
    ∃ whole, Tier operator.precedence (words ++ token :: more) whole ∧
      whole.node = .binary operator phrase.node operand.node := by
  rcases renders.sign with ⟨level, sign⟩ | ⟨level, sign⟩
  -- At the level of its operator an expression is a chain, which goes on behind its last operand.
  · rw [level] at left right ⊢
    obtain ⟨chain⟩ := left
    obtain ⟨whole, derived, same⟩ := chain.snoc sign right
    exact ⟨whole, .sum derived, same⟩
  · rw [level] at left right ⊢
    obtain ⟨chain⟩ := left
    obtain ⟨whole, derived, same⟩ := chain.snoc sign right
    exact ⟨whole, .product derived, same⟩

end Token

namespace Node
open Reckoner.Grammar Reckoner.Token
open Descent (TreeOf ClauseOf ClausesOf)

/-- Tokens for words in parentheses derive an operand; without them, what the words derive has to do. -/
theorem treeOf_enclosed {needed : Prop} [Decidable needed] {node : Node} {words : List (List Char)}
    {tokens : List Token} {level : Nat} (low : level ≤ 3)
    (derives : ∀ tokens, List.Forall₂ Renders tokens words → TreeOf (Tier node.precedence) tokens node)
    (bare : ¬ needed → level ≤ node.precedence)
    (rendered : List.Forall₂ Renders tokens (enclosed needed words)) :
    TreeOf (Tier level) tokens node := by
  unfold enclosed at rendered
  split at rendered
  · obtain _ | ⟨opens, behind⟩ := rendered
    obtain ⟨inner, _, rfl, middle, last⟩ := exists_of_renders_append behind
    obtain _ | ⟨closes, _ | _⟩ := last
    obtain ⟨phrase, derived, rfl⟩ := derives inner middle
    have expression : Expression inner phrase := derived.mono (Nat.zero_le _)
    have group : Tier 3 _ phrase := Factor.group (opens.mark rfl) expression (closes.mark rfl)
    exact ⟨phrase, group.mono low, rfl⟩
  · rename_i loose
    obtain ⟨phrase, derived, rfl⟩ := derives tokens rendered
    exact ⟨phrase, derived.mono (bare loose), rfl⟩

/-- Tokens for items with commas between them derive a list of items. -/
theorem separated_listed {α β : Type} {Item : List Token → α → Prop} {view : α → β}
    {items : List (β × List (List Char))} (filled : items ≠ [])
    (each : ∀ item ∈ items, ∀ tokens, List.Forall₂ Renders tokens item.2 →
      ∃ value, Item tokens value ∧ view value = item.1)
    {tokens : List Token} (rendered : List.Forall₂ Renders tokens (listed (items.map Prod.snd))) :
    ∃ values, Separated Item tokens values ∧ values.map view = items.map Prod.fst := by
  induction items generalizing tokens with
  | nil => exact absurd rfl filled
  | cons item items ih =>
    obtain ⟨first, others⟩ := List.forall_mem_cons.1 each
    cases items with
    | nil =>
      obtain ⟨value, derived, same⟩ := first tokens rendered
      exact ⟨[value], .last derived, by simp [same]⟩
    | cons next items =>
      obtain ⟨before, _, rfl, early, late⟩ := exists_of_renders_append rendered
      obtain _ | ⟨separates, behind⟩ := late
      obtain ⟨value, derived, same⟩ := first before early
      obtain ⟨values, separated, sames⟩ := ih (by simp) others behind
      refine ⟨value :: values, .more derived (separates.mark rfl) separated, ?_⟩
      rw [List.map_cons, List.map_cons, same, sames]

/-- Tokens for a name and arguments in parentheses derive a call. -/
theorem treeOf_call {name : String} (named : Identifier name.toList)
    {items : List (Node × List (List Char))}
    (each : ∀ item ∈ items, ∀ tokens, List.Forall₂ Renders tokens item.2 →
      TreeOf Expression tokens item.1)
    {tokens : List Token} (rendered : List.Forall₂ Renders tokens
      (name.toList :: ['('] :: (listed (items.map Prod.snd) ++ [[')']]))) :
    TreeOf Factor tokens (.call (.text name) (items.map Prod.fst)) := by
  obtain _ | ⟨renders, _ | ⟨opens, behind⟩⟩ := rendered
  obtain ⟨inner, _, rfl, middle, last⟩ := exists_of_renders_append behind
  obtain _ | ⟨closes, _ | _⟩ := last
  obtain ⟨kind, lexeme⟩ := renders.name named
  by_cases filled : items = []
  · subst filled
    cases middle
    refine ⟨_, .call (.empty kind (opens.mark rfl) (closes.mark rfl)), ?_⟩
    rw [Phrase.node, lexeme]
    rfl
  · obtain ⟨phrases, separated, same⟩ := separated_listed filled each middle
    refine ⟨_, .call (.full kind (opens.mark rfl) separated (closes.mark rfl)), ?_⟩
    rw [Phrase.node, lexeme, Phrase.nodes_eq_map, same]

/-- Tokens for the words of an expression derive it at the level of its precedence. -/
theorem Written.treeOf {node : Node} {words : List (List Char)} (written : Written node words)
    (formula : Formula node) {tokens : List Token} (rendered : List.Forall₂ Renders tokens words) :
    TreeOf (Tier node.precedence) tokens node := by
  induction written generalizing tokens with
  | @number value span numeral read =>
    obtain _ | ⟨renders, _ | _⟩ := rendered
    have factor := Factor.numeral (renders.kind_eq (.numeral numeral))
    refine ⟨_, factor, ?_⟩
    rw [Phrase.node, renders.1, Spelling.worth_of_read read]
  | reference name =>
    obtain _ | ⟨renders, _ | _⟩ := rendered
    cases formula with
    | reference named =>
      obtain ⟨kind, lexeme⟩ := renders.name named
      refine ⟨_, Factor.name kind, ?_⟩
      rw [Phrase.node, lexeme]
  | binary operator _ _ first second =>
    cases formula with
    | binary _ left right =>
      -- Chains are grouped to the left: the left operand may have the precedence of the operator, the
      -- right one needs a higher one, and whatever has less stands in parentheses.
      have low : operator.precedence + 1 ≤ 3 := by cases operator <;> decide
      obtain ⟨before, _, rfl, early, rest⟩ := exists_of_renders_append rendered
      obtain _ | ⟨sign, late⟩ := rest
      obtain ⟨leftPhrase, leftDerived, rfl⟩ :=
        treeOf_enclosed (by omega) (fun _ => first left) Nat.le_of_not_lt early
      obtain ⟨rightPhrase, rightDerived, rfl⟩ :=
        treeOf_enclosed low (fun _ => second right) Nat.lt_of_not_le late
      exact sign.tier leftDerived rightDerived
  | @call name items _ ih =>
    cases formula with
    | call named each =>
      refine treeOf_call named (fun item member tokens here => ?_) rendered
      obtain ⟨phrase, derived, same⟩ := ih item member (each _ (List.mem_map_of_mem member)) here
      exact ⟨phrase, derived.mono (Nat.zero_le _), same⟩

theorem Written.expression {node : Node} {words : List (List Char)} (written : Written node words)
    (formula : Formula node) {tokens : List Token} (rendered : List.Forall₂ Renders tokens words) :
    TreeOf Expression tokens node := by
  obtain ⟨phrase, derived, same⟩ := written.treeOf formula rendered
  exact ⟨phrase, derived.mono (Nat.zero_le _), same⟩

/-- Tokens for names with commas between them derive parameters. -/
theorem parameters_listed {names : List String} (each : ∀ name ∈ names, Identifier name.toList)
    {tokens : List Token}
    (rendered : List.Forall₂ Renders tokens (listed (names.map fun name => [name.toList]))) :
    ∃ parameters, Parameters tokens parameters ∧
      parameters.map Token.lexeme = names.map Spelling.whole := by
  by_cases filled : names = []
  · subst filled
    cases rendered
    exact ⟨[], .empty, rfl⟩
  · let items := names.map fun name => (Spelling.whole name, [name.toList])
    have words : items.map Prod.snd = names.map fun name => [name.toList] := by simp [items]
    rw [← words] at rendered
    have single : ∀ item ∈ items, ∀ tokens, List.Forall₂ Renders tokens item.2 →
        ∃ token, Parameter tokens token ∧ token.lexeme = item.1 := by
      intro item inside tokens here
      obtain ⟨name, member, rfl⟩ := List.mem_map.1 inside
      obtain _ | ⟨renders, _ | _⟩ := here
      obtain ⟨kind, lexeme⟩ := renders.name (each name member)
      exact ⟨_, .intro kind, lexeme⟩
    obtain ⟨parameters, separated, same⟩ :=
      separated_listed (by simpa [items] using filled) single rendered
    exact ⟨parameters, .full separated, by simpa [items, Function.comp_def] using same⟩

/-- Tokens for the words of a statement derive its clause. -/
theorem Stated.clauseOf {node : Node} {words : List (List Char)} (stated : Stated node words)
    (sentence : Sentence node) {tokens : List Token}
    (rendered : List.Forall₂ Renders tokens words) : ClauseOf tokens node := by
  cases stated with
  | expression written =>
    cases sentence with
    | expression formula =>
      obtain ⟨phrase, derived, same⟩ := written.expression formula rendered
      exact ⟨.expression phrase, .expression derived, trivial, same⟩
    | definition => cases written
    | function => cases written
  | definition name written =>
    cases sentence with
    | expression formula => cases formula
    | definition named formula =>
      obtain _ | ⟨starts, _ | ⟨renders, _ | ⟨equal, behind⟩⟩⟩ := rendered
      obtain ⟨kind, lexeme⟩ := renders.name named
      obtain ⟨phrase, derived, rfl⟩ := written.expression formula behind
      have body := Body.definition (starts.kind_eq .letWord) kind (equal.mark rfl) derived
      exact ⟨_, body, trivial, by rw [Clause.node, lexeme]⟩
  | function name parameters written =>
    obtain ⟨named, each, distinct, formula⟩ := sentence.of_function
    obtain _ | ⟨starts, _ | ⟨renders, _ | ⟨opens, behind⟩⟩⟩ := rendered
    obtain ⟨names, _, rfl, middle, later⟩ := exists_of_renders_append behind
    obtain _ | ⟨closes, _ | ⟨equal, last⟩⟩ := later
    obtain ⟨kind, lexeme⟩ := renders.name named
    obtain ⟨listed, derivedNames, same⟩ := parameters_listed each middle
    obtain ⟨phrase, derived, rfl⟩ := written.expression formula last
    have body := Body.function (starts.kind_eq .funcWord) kind (opens.mark rfl) derivedNames
      (closes.mark rfl) (equal.mark rfl) derived
    refine ⟨_, body, ?_, ?_⟩
    · rw [Clause.Distinct, same]
      exact distinct.map fun _ _ => Spelling.whole.inj
    · have texts := congrArg (List.map Datum.spelling) same
      rw [List.map_map, List.map_map] at texts
      rw [Clause.node, lexeme]
      exact congrArg (Node.function _ · _) texts

/-- Tokens for the words of a program derive its clauses. -/
theorem clausesOf_statements {items : List (Node × List (List Char))}
    (stated : ∀ item ∈ items, Stated item.1 item.2)
    (each : ∀ statement ∈ items.map Prod.fst, Sentence statement) {tokens : List Token}
    (rendered : List.Forall₂ Renders tokens (items.flatMap fun item => item.2 ++ [[';']])) :
    ClausesOf tokens (items.map Prod.fst) := by
  induction items generalizing tokens with
  | nil =>
    cases rendered
    exact ⟨[], .done, by simp, rfl⟩
  | cons item items ih =>
    obtain ⟨first, others⟩ := List.forall_mem_cons.1 stated
    obtain ⟨sentence, sentences⟩ := List.forall_mem_cons.1 each
    rw [List.flatMap_cons] at rendered
    obtain ⟨_, rest, rfl, early, late⟩ := exists_of_renders_append rendered
    obtain ⟨words, _, rfl, body, last⟩ := exists_of_renders_append early
    obtain _ | ⟨ends, _ | _⟩ := last
    obtain ⟨clause, derived, distinct, same⟩ := first.clauseOf sentence body
    obtain ⟨clauses, following, distincts, sames⟩ := ih others sentences late
    refine ⟨clause :: clauses, .more (.full derived (ends.mark rfl)) following,
      List.forall_mem_cons.2 ⟨distinct, distincts⟩, ?_⟩
    rw [List.map_cons, List.map_cons, same, sames]

end Node

namespace Descent
open Reckoner.Text Reckoner.Grammar

/-- A text that holds the words of a well-formed program apart is scanned to tokens that describe it, one
    for each word. -/
theorem describes_of_spaced {program : Node} (formed : program.WellFormed) {words : List (List Char)}
    (printed : program.Printed words) {source : Spelling} (spaced : Spaced words source.plain.toList) :
    ∃ tokens line, Token.scan isBlank source = ⟨tokens, .finish line⟩ ∧
      tokens.length = words.length ∧ Describes tokens program := by
  obtain ⟨tokens, line, scanned, rendered⟩ :=
    Token.scanFrom_spaced spaced (printed.lexemes formed) 1
  refine ⟨tokens, line, scanned, rendered.length_eq, ?_⟩
  obtain ⟨stated⟩ := printed
  obtain ⟨each⟩ := formed
  obtain ⟨clauses, derived, distinct, same⟩ := Node.clausesOf_statements stated each rendered
  exact ⟨clauses, derived, distinct, by rw [same]⟩

/-- Reading by descent makes exactly the well-formed programs: only these, and each of them of every text
    that holds its words apart, be it with spaces between them, unless the depth is exceeded, which takes
    as many words. -/
theorem parse_printed :
    (∀ depth source node, parse depth source = .ok node → node.WellFormed) ∧
      ∀ program : Node, program.WellFormed → (∃ words, program.Printed words) ∧
        ∀ words, program.Printed words → Spaced words ([' '].intercalate words) ∧
          ∀ source : Spelling, Spaced words source.plain.toList → ∀ depth,
            (¬ LimitReported (parse depth source) → parse depth source = .ok program) ∧
              (words.length < depth → parse depth source = .ok program) := by
  refine ⟨fun _ _ _ => wellFormed_of_parse, fun program formed => ⟨formed.exists_printed, ?_⟩⟩
  refine fun words printed => ⟨spaced_intercalate words, fun source spaced depth => ?_⟩
  obtain ⟨tokens, line, scanned, size, clauses, derived, distinct, rfl⟩ :=
    describes_of_spaced formed printed spaced
  have proper := Cursor.proper_of_scan scanned line
  rw [parse_of_finish scanned]
  constructor
  · intro unlimited
    rcases parseTokens_complete proper derived depth with same | limit
    · rw [same, Clause.programTree_eq_ok_iff]
      exact ⟨distinct, rfl⟩
    · exact absurd limit unlimited
  · intro short
    exact parseTokens_of_program proper derived distinct (by omega)

/-- A sum that is a factor stands in parentheses. -/
theorem parse_printed_product :
    let sum : Node := .binary .subtract (.number (Spelling.worth "8")) (.reference (.text "a"))
    let call : Node := .call (.text "f") [.reference (.text "b")]
    parse 15 "let x = ( 8 - a ) * f ( b ) ;" =
      .ok (.program [.definition (.text "x") (.binary .multiply sum call)]) := by
  intro sum call
  have eight : Number.Numeral ['8'] := .whole (by simp) (List.forall_mem_singleton.2 (by decide))
  have read : Number.read? (String.ofList ['8']) = some (Spelling.worth "8") := rfl
  have formed : Node.WellFormed (.program [.definition (.text "x") (.binary .multiply sum call)]) := by
    have name {c : Char} (letter : isLetter c = true) : Token.Identifier [c] :=
      ⟨by simp, List.forall_mem_singleton.2 letter, fun before => absurd before.length_le (by simp),
        fun before => absurd before.length_le (by simp)⟩
    have a : Node.Formula (.reference (.text "a")) := .reference (name (by decide))
    have b : Node.Formula (.reference (.text "b")) := .reference (name (by decide))
    have first : sum.Formula := .binary _ (.number ⟨_, eight, read⟩) a
    have second : call.Formula := .call (name (by decide)) (List.forall_mem_singleton.2 b)
    have statement : Node.Sentence (.definition (.text "x") (.binary .multiply sum call)) :=
      .definition (name (by decide)) (.binary .multiply first second)
    exact .program (List.forall_mem_singleton.2 statement)
  have printed : Node.Printed (.program [.definition (.text "x") (.binary .multiply sum call)])
      (["let", "x", "=", "(", "8", "-", "a", ")", "*", "f", "(", "b", ")", ";"].map String.toList) := by
    have first := Node.Written.binary .subtract (.number eight read) (.reference "a")
    have second : call.Written (["f", "(", "b", ")"].map String.toList) :=
      @Node.Written.call "f" [(.reference (.text "b"), [['b']])] (by simpa using .reference "b")
    exact @Node.Printed.program [(_, _)] (by simpa using .definition "x" (.binary .multiply first second))
  obtain ⟨_, reads⟩ := parse_printed
  obtain ⟨spaced, parsed⟩ := (reads _ formed).2 _ printed
  exact (parsed "let x = ( 8 - a ) * f ( b ) ;" spaced 15).2 (by decide)

end Descent

end Reckoner
