import Reckoner.Proofs.Machine.Completeness

/-!
The machine accepts only what the grammar derives. `Held` says which words a state holds: those of
the complete clauses and, piece by piece, those of the statement that is being read, with its open
parentheses and pending operands. Every step adds its token to these words, so the clauses that are
accepted at the end are derived from all words.
-/
namespace Reckoner

namespace Grammar

theorem Separated.snoc {α : Type} {Item : List Token → α → Prop} {words more : List Token}
    {values : List α} {value : α} {token : Token} (derived : Separated Item words values)
    (comma : token.kind = .comma) (item : Item more value) :
    Separated Item (words ++ token :: more) (values ++ [value]) := by
  induction derived with
  | last first => exact .more first comma (.last item)
  | more first separates others ih =>
    rw [List.append_assoc, List.cons_append, List.cons_append]
    exact .more first separates ih

theorem Program.append {words more : List Token} {clauses others : List Clause}
    (first : Program words clauses) (second : Program more others) :
    Program (words ++ more) (clauses ++ others) := by
  induction first with
  | done => exact second
  | more statement following ih =>
    rw [List.append_assoc, List.append_assoc]
    exact .more statement ih

theorem Program.snoc {words more : List Token} {clauses some : List Clause}
    (first : Program words clauses) (last : Statement more some) :
    Program (words ++ more) (clauses ++ some) := by
  have single := Program.more last .done
  rw [List.append_nil, List.append_nil] at single
  exact first.append single

end Grammar

namespace Machine
open Reckoner.Grammar
open Descent (sumOperator? productOperator?)

/-- The words of pending operands, each with the operator behind it. -/
inductive Pends (operator? : Token.Kind → Option Operator) (Operand : List Token → Phrase → Prop) :
    Phrase.Pending → List Token → Prop
  | none : Pends operator? Operand [] []
  | more {pending : Phrase.Pending} {words more : List Token} {operand : Phrase} {token : Token}
      {operator : Operator} (earlier : Pends operator? Operand pending words)
      (next : Operand more operand) (sign : operator? token.kind = some operator) :
      Pends operator? Operand ((operand, operator) :: pending) (words ++ more ++ [token])

/-- Pending operands with a last one and links behind them make a chain. -/
theorem Pends.unwound {operator? : Token.Kind → Option Operator}
    {Operand : List Token → Phrase → Prop} {pending : Phrase.Pending} {words : List Token}
    (pends : Pends operator? Operand pending words) {rest tail : List Token} {last : Phrase}
    {links : List (Operator × Phrase)} (next : Operand rest last)
    (others : Links operator? Operand tail links) :
    ∃ head behind, words ++ rest ++ tail = head ++ behind ∧
      Operand head (Phrase.unwound pending last links).1 ∧
      Links operator? Operand behind (Phrase.unwound pending last links).2 := by
  induction pends generalizing rest tail last links with
  | none => exact ⟨rest, tail, by simp, next, others⟩
  | more earlier operand sign ih =>
    obtain ⟨head, behind, split, first, linked⟩ := ih operand (.more sign next others)
    exact ⟨head, behind, by simpa using split, first, linked⟩

theorem Pends.close {operator? : Token.Kind → Option Operator}
    {Operand : List Token → Phrase → Prop} {pending : Phrase.Pending} {words : List Token}
    (pends : Pends operator? Operand pending words) {rest : List Token} {last : Phrase}
    (next : Operand rest last) :
    Chain operator? Operand (words ++ rest) (Phrase.close pending last) := by
  obtain ⟨head, behind, split, first, linked⟩ := pends.unwound next .done
  rw [List.append_nil] at split
  rw [split, Phrase.close_eq_joined]
  exact .intro first linked

/-- The words of the pending operands of an expression. -/
def Awaits (operands : Operands) (words : List Token) : Prop :=
  ∃ first second, words = first ++ second ∧ Pends sumOperator? Term operands.sum first ∧
    Pends productOperator? Factor operands.product second

theorem Awaits.empty : Awaits {} [] := ⟨[], [], rfl, .none, .none⟩

/-- A last operand completes the expression. -/
theorem Awaits.whole {operands : Operands} {words rest : List Token} {last : Phrase}
    (awaits : Awaits operands words) (factor : Factor rest last) :
    Expression (words ++ rest) (operands.whole last) := by
  obtain ⟨first, second, rfl, sum, product⟩ := awaits
  rw [List.append_assoc]
  exact .sum (sum.close (.product (product.close factor)))

theorem Awaits.multiplied {operands : Operands} {words rest : List Token} {last : Phrase}
    {token : Token} {operator : Operator} (awaits : Awaits operands words)
    (factor : Factor rest last) (sign : productOperator? token.kind = some operator) :
    Awaits { operands with product := (last, operator) :: operands.product }
      (words ++ rest ++ [token]) := by
  obtain ⟨first, second, rfl, sum, product⟩ := awaits
  exact ⟨first, second ++ rest ++ [token], by simp, sum, product.more factor sign⟩

theorem Awaits.added {operands : Operands} {words rest : List Token} {last : Phrase} {token : Token}
    {operator : Operator} (awaits : Awaits operands words) (factor : Factor rest last)
    (sign : sumOperator? token.kind = some operator) :
    Awaits { sum := (Phrase.close operands.product last, operator) :: operands.sum }
      (words ++ rest ++ [token]) := by
  obtain ⟨first, second, rfl, sum, product⟩ := awaits
  exact ⟨_, [], by simp, sum.more (.product (product.close factor)) sign, .none⟩

/-- The words of complete arguments, each with the comma behind it. -/
inductive Earlier : List Phrase → List Token → Prop
  | none : Earlier [] []
  | more {before : List Phrase} {words more : List Token} {phrase : Phrase} {token : Token}
      (earlier : Earlier before words) (next : Expression more phrase) (comma : token.kind = .comma) :
      Earlier (phrase :: before) (words ++ more ++ [token])

theorem Earlier.separated {before phrases : List Phrase} {words rest : List Token}
    (earlier : Earlier before words) (others : Separated Expression rest phrases) :
    Separated Expression (words ++ rest) (before.reverse ++ phrases) := by
  induction earlier generalizing rest phrases with
  | none => exact others
  | more _ next comma ih =>
    simpa using ih (.more next comma others)

/-- The words of an open parenthesis. -/
inductive Opened : Paren → List Token → Prop
  | group {opening : Token} (opens : opening.kind = .opening) : Opened .group [opening]
  | call {name opening : Token} {before : List Phrase} {words : List Token}
      (named : name.kind = .name) (opens : opening.kind = .opening)
      (earlier : Earlier before words) :
      Opened (.call name.lexeme before) (name :: opening :: words)

/-- The words of open parentheses, each with the operands outside it. -/
inductive Enclosed : List (Paren × Operands) → List Token → Prop
  | none : Enclosed [] []
  | more {parens : List (Paren × Operands)} {words more rest : List Token} {paren : Paren}
      {outer : Operands} (outside : Enclosed parens words) (awaits : Awaits outer more)
      (opened : Opened paren rest) : Enclosed ((paren, outer) :: parens) (words ++ more ++ rest)

/-- The words before the expression of a statement. -/
inductive Headed : Heading → List Token → Prop
  | plain : Headed .plain []
  | definition {letWord name equals : Token} (starts : letWord.kind = .letWord)
      (named : name.kind = .name) (equal : equals.kind = .equals) :
      Headed (.definition name.lexeme) [letWord, name, equals]
  | function {funcWord name opening closing equals : Token} {names parameters : List Token}
      (starts : funcWord.kind = .funcWord) (named : name.kind = .name)
      (opens : opening.kind = .opening) (listed : Parameters names parameters)
      (closes : closing.kind = .closing) (equal : equals.kind = .equals) :
      Headed (.function name.lexeme parameters)
        (funcWord :: name :: opening :: (names ++ [closing, equals]))

theorem Headed.body {heading : Heading} {words rest : List Token} {value : Phrase}
    (headed : Headed heading words) (inner : Expression rest value) :
    Body (words ++ rest) (clauseOf heading value) := by
  cases headed with
  | plain => exact .expression inner
  | definition starts named equal => exact .definition starts named equal inner
  | function starts named opens listed closes equal =>
    simpa [clauseOf] using Body.function starts named opens listed closes equal inner

/-- The words before the next operand at a site. -/
def Placed (site : Site) (words : List Token) : Prop :=
  ∃ first second third, words = first ++ second ++ third ∧ Headed site.heading first ∧
    Enclosed site.parens second ∧ Awaits site.operands third

theorem placed_heading {heading : Heading} {words : List Token} (headed : Headed heading words) :
    Placed ⟨heading, [], {}⟩ words :=
  ⟨words, [], [], by simp, headed, .none, .empty⟩

/-- An open parenthesis leads to the site inside it. -/
theorem Placed.entered {site : Site} {words rest : List Token} {paren : Paren}
    (placed : Placed site words) (opened : Opened paren rest) :
    Placed (site.entered paren) (words ++ rest) := by
  obtain ⟨first, second, third, rfl, headed, enclosed, awaits⟩ := placed
  exact ⟨first, _, [], by simp, headed, enclosed.more awaits opened, .empty⟩

/-- The words of the statement that is being read. -/
inductive Pronounced : Mode → List Token → Prop
  | between : Pronounced .between []
  | afterLet {letWord : Token} (starts : letWord.kind = .letWord) : Pronounced .afterLet [letWord]
  | afterLetName {letWord name : Token} (starts : letWord.kind = .letWord)
      (named : name.kind = .name) : Pronounced (.afterLetName name.lexeme) [letWord, name]
  | afterFunc {funcWord : Token} (starts : funcWord.kind = .funcWord) :
      Pronounced .afterFunc [funcWord]
  | afterFuncName {funcWord name : Token} (starts : funcWord.kind = .funcWord)
      (named : name.kind = .name) : Pronounced (.afterFuncName name.lexeme) [funcWord, name]
  | parameters {funcWord name opening : Token} (starts : funcWord.kind = .funcWord)
      (named : name.kind = .name) (opens : opening.kind = .opening) :
      Pronounced (.parameters name.lexeme) [funcWord, name, opening]
  | nextParameter {funcWord name opening comma : Token} {names before : List Token}
      (starts : funcWord.kind = .funcWord) (named : name.kind = .name)
      (opens : opening.kind = .opening) (listed : Separated Parameter names before)
      (separates : comma.kind = .comma) :
      Pronounced (.nextParameter name.lexeme before)
        (funcWord :: name :: opening :: (names ++ [comma]))
  | afterParameter {funcWord name opening : Token} {names before : List Token}
      (starts : funcWord.kind = .funcWord) (named : name.kind = .name)
      (opens : opening.kind = .opening) (listed : Separated Parameter names before) :
      Pronounced (.afterParameter name.lexeme before) (funcWord :: name :: opening :: names)
  | afterParameters {funcWord name opening closing : Token} {names before : List Token}
      (starts : funcWord.kind = .funcWord) (named : name.kind = .name)
      (opens : opening.kind = .opening) (listed : Parameters names before)
      (closes : closing.kind = .closing) :
      Pronounced (.afterParameters name.lexeme before)
        (funcWord :: name :: opening :: (names ++ [closing]))
  | operand {site : Site} {words : List Token} (placed : Placed site words) :
      Pronounced (.operand site) words
  | afterName {site : Site} {words : List Token} {name : Token} (placed : Placed site words)
      (named : name.kind = .name) : Pronounced (.afterName site name.lexeme) (words ++ [name])
  | arguments {site : Site} {words : List Token} {name opening : Token} (placed : Placed site words)
      (named : name.kind = .name) (opens : opening.kind = .opening) :
      Pronounced (.arguments site name.lexeme) (words ++ [name, opening])
  | afterOperand {site : Site} {words rest : List Token} {last : Phrase}
      (placed : Placed site words) (factor : Factor rest last) :
      Pronounced (.afterOperand site last) (words ++ rest)

/-- The words that a state holds: those of its clauses and of the current statement. -/
def Held (state : State) (words : List Token) : Prop :=
  ∃ first second, words = first ++ second ∧ Program first state.clauses.reverse ∧
    Pronounced state.mode second

/-- A token that begins an operand is held at its site. -/
theorem pronounced_operandStep {site : Site} {words : List Token} (placed : Placed site words)
    {token : Token} {mode : Mode} (taken : operandStep site token = some mode) :
    Pronounced mode (words ++ [token]) := by
  unfold operandStep at taken
  split at taken
  · rename_i number
    cases taken
    exact .afterOperand placed (.numeral number)
  · rename_i named
    cases taken
    exact .afterName placed named
  · rename_i opens
    cases taken
    exact .operand (placed.entered (.group opens))
  · cases taken

/-- A token behind an operand is held: it completes the statement or a parenthesis, separates
    arguments or leaves the operand pending. -/
theorem held_operatorStep {clauses : List Clause} {site : Site} {before words rest : List Token}
    {last : Phrase} (complete : Program before clauses.reverse) (placed : Placed site words)
    (factor : Factor rest last) {token : Token} {next : State}
    (taken : operatorStep clauses site last token = some next) :
    Held next (before ++ (words ++ rest) ++ [token]) := by
  obtain ⟨heading, parens, operands⟩ := site
  obtain ⟨first, second, third, rfl, headed, enclosed, awaits⟩ := placed
  have inner := awaits.whole factor
  unfold operatorStep at taken
  split at taken
  · rename_i ends outermost
    cases taken
    cases outermost
    cases enclosed
    have body := headed.body inner
    refine ⟨before ++ (first ++ (third ++ rest) ++ [token]), [], by simp, ?_, .between⟩
    simpa using complete.snoc (.full body ends)
  · rename_i outer parens closes outermost
    cases taken
    cases outermost
    cases enclosed with
    | more outside awaitsOuter opened =>
      cases opened with
      | group opens =>
        have around : Placed ⟨heading, parens, outer⟩ _ := ⟨_, _, _, rfl, headed, outside, awaitsOuter⟩
        exact ⟨before, _, by simp, complete, .afterOperand around (.group opens inner closes)⟩
  · rename_i function earlier outer parens closes outermost
    cases taken
    cases outermost
    cases enclosed with
    | more outside awaitsOuter opened =>
      cases opened with
      | call named opens before =>
        have around : Placed ⟨heading, parens, outer⟩ _ := ⟨_, _, _, rfl, headed, outside, awaitsOuter⟩
        have call := Call.full named opens (before.separated (.last inner)) closes
        rw [← List.reverse_cons] at call
        exact ⟨_, _, by simp, complete, .afterOperand around (.call call)⟩
  · rename_i function earlier outer parens comma outermost
    cases taken
    cases outermost
    cases enclosed with
    | more outside awaitsOuter opened =>
      cases opened with
      | call named opens before =>
        have inside := outside.more awaitsOuter (.call named opens (before.more inner comma))
        exact ⟨_, _, by simp, complete, .operand ⟨_, _, [], rfl, headed, inside, .empty⟩⟩
  · split at taken
    · rename_i operator sign
      cases taken
      exact ⟨_, _, by simp, complete, .operand ⟨_, _, _, rfl, headed, enclosed, awaits.added factor sign⟩⟩
    · rename_i operator other sign
      cases taken
      exact ⟨_, _, by simp, complete,
        .operand ⟨_, _, _, rfl, headed, enclosed, awaits.multiplied factor sign⟩⟩
    · cases taken

/-- Every step adds its token to the words that are held. -/
theorem held_step {state next : State} {words : List Token} (held : Held state words) {token : Token}
    (taken : step state token = some next) : Held next (words ++ [token]) := by
  obtain ⟨clauses, mode⟩ := state
  obtain ⟨first, second, rfl, complete, current⟩ := held
  dsimp only at complete current
  -- Within a statement the clauses stay, and only the words of the statement grow.
  have grow {mode' : Mode} (longer : Pronounced mode' (second ++ [token])) :
      Held ⟨clauses, mode'⟩ (first ++ second ++ [token]) :=
    ⟨first, second ++ [token], by simp, complete, longer⟩
  have start {site : Site} (placed : Placed site second)
      (begins : (operandStep site token).bind (fun mode => some ⟨clauses, mode⟩) = some next) :
      Held next (first ++ second ++ [token]) := by
    obtain ⟨mode, started, made⟩ := Option.bind_eq_some_iff.1 begins
    cases made
    exact grow (pronounced_operandStep placed started)
  unfold step at taken
  dsimp only at taken
  split at taken
  · rename_i ends
    cases taken
    cases current
    refine ⟨first ++ [token], [], by simp, ?_, .between⟩
    simpa using complete.snoc (.empty ends)
  · rename_i starts
    cases taken
    cases current
    exact grow (.afterLet starts)
  · rename_i starts
    cases taken
    cases current
    exact grow (.afterFunc starts)
  · cases current
    exact start (placed_heading .plain) taken
  · rename_i named
    cases taken
    cases current with
    | afterLet starts => exact grow (.afterLetName starts named)
  · rename_i equal
    cases taken
    cases current with
    | afterLetName starts named =>
      exact grow (.operand (placed_heading (.definition starts named equal)))
  · rename_i named
    cases taken
    cases current with
    | afterFunc starts => exact grow (.afterFuncName starts named)
  · rename_i opens
    cases taken
    cases current with
    | afterFuncName starts named => exact grow (.parameters starts named opens)
  · rename_i closes
    cases taken
    cases current with
    | parameters starts named opens => exact grow (.afterParameters starts named opens .empty closes)
  · rename_i parameter
    cases taken
    cases current with
    | parameters starts named opens =>
      exact grow (.afterParameter starts named opens (.last (.intro parameter)))
  · rename_i parameter
    cases taken
    cases current with
    | nextParameter starts named opens listed separates =>
      have longer := listed.snoc separates (.intro parameter)
      exact grow (by simpa using Pronounced.afterParameter starts named opens longer)
  · rename_i comma
    cases taken
    cases current with
    | afterParameter starts named opens listed =>
      exact grow (.nextParameter starts named opens listed comma)
  · rename_i closes
    cases taken
    cases current with
    | afterParameter starts named opens listed =>
      exact grow (.afterParameters starts named opens (.full listed) closes)
  · rename_i equal
    cases taken
    cases current with
    | afterParameters starts named opens listed closes =>
      have headed := Headed.function starts named opens listed closes equal
      exact grow (.operand (placed_heading (by simpa using headed)))
  · cases current with
    | operand placed => exact start placed taken
  · rename_i opens
    cases taken
    cases current with
    | afterName placed named => exact grow (by simpa using Pronounced.arguments placed named opens)
  · cases current with
    | afterName placed named => exact held_operatorStep complete placed (.name named) taken
  · rename_i closes
    cases taken
    cases current with
    | arguments placed named opens =>
      have call := Factor.call (.empty named opens closes)
      exact grow (by simpa using Pronounced.afterOperand placed call)
  · cases current with
    | arguments placed named opens => exact start (placed.entered (.call named opens .none)) taken
  · cases current with
    | afterOperand placed factor => exact held_operatorStep complete placed factor taken
  · cases taken

/-- Clauses that are accepted behind the words that a state holds are derived from all words. -/
theorem program_of_run {line : Nat} {clauses : List Clause} {rest : List Token} :
    ∀ {state : State} {words : List Token}, Held state words →
      run (.finish line) state rest = .accepted clauses → Program (words ++ rest) clauses := by
  induction rest with
  | nil =>
    intro state words held accepted
    obtain ⟨reversed, mode⟩ := state
    obtain ⟨first, second, rfl, complete, current⟩ := held
    dsimp only at complete current
    rw [run, finish] at accepted
    split at accepted
    · rename_i between
      cases between
      cases accepted
      cases current
      simpa using complete
    · cases accepted
  | cons token rest ih =>
    intro state words held accepted
    rw [run] at accepted
    split at accepted
    · rename_i next taken
      simpa using ih (held_step held taken) accepted
    · cases accepted

/-- The machine accepts exactly the programs of the grammar, with the clauses they are made of. -/
theorem judge_accepted_iff {words : List Token} {line : Nat} {clauses : List Clause} :
    judge ⟨words, .finish line⟩ = .accepted clauses ↔ Program words clauses := by
  refine ⟨fun accepted => ?_, fun derived => judge_of_program derived line⟩
  have nothing : Held {} [] := ⟨[], [], rfl, .done, .between⟩
  exact program_of_run nothing accepted

end Machine

end Reckoner
