import Reckoner.Proofs.Tree

/-!
The machine takes everything that the grammar derives. A derivation directs the machine: from a mode
before an operand, the words of a factor lead to a mode behind it, at the same site; those of a term
and of an expression leave pending operands there that close to the phrase. So the words of a
program leave its clauses and nothing else.
-/
namespace Reckoner

namespace Phrase

/-- Pending operands in the order in which they were written, in front of a last one and links. -/
def unwound (pending : Pending) (last : Phrase) (links : List (Operator × Phrase)) :
    Phrase × List (Operator × Phrase) :=
  pending.foldl (fun (operand, links) (before, operator) => (before, (operator, operand) :: links))
    (last, links)

theorem unwound_cons (pending : Pending) (before last : Phrase) (operator : Operator)
    (links : List (Operator × Phrase)) :
    unwound ((before, operator) :: pending) last links =
      unwound pending before ((operator, last) :: links) := rfl

theorem unwound_links_ne_nil (pending : Pending) (last : Phrase) (link : Operator × Phrase)
    (links : List (Operator × Phrase)) : (unwound pending last (link :: links)).2 ≠ [] := by
  induction pending generalizing last link links with
  | nil => exact List.cons_ne_nil _ _
  | cons head rest ih => exact ih _ _ _

theorem close_eq_joined (pending : Pending) (last : Phrase) :
    close pending last = joined (unwound pending last []).1 (unwound pending last []).2 := by
  cases pending with
  | nil => rfl
  | cons head rest =>
    obtain ⟨before, operator⟩ := head
    have filled := unwound_links_ne_nil rest before (operator, last) []
    rw [unwound_cons]
    unfold joined
    split
    · rename_i empty
      exact absurd empty filled
    · rfl

end Phrase

namespace Machine
open Reckoner.Grammar
open Descent (sumOperator? productOperator?)

/-- A run goes on behind the words that lead from its state to another. -/
theorem run_append (ending : Token.Ending) {state next : State} {words : List Token}
    (steps : words.foldlM step state = some next) (rest : List Token) :
    run ending state (words ++ rest) = run ending next rest := by
  induction words generalizing state with
  | nil =>
    cases steps
    rfl
  | cons token words ih =>
    simp only [List.foldlM_cons] at steps
    obtain ⟨middle, first, others⟩ := Option.bind_eq_some_iff.1 steps
    rw [List.cons_append, run, first]
    exact ih others

namespace Site

/-- The site behind one more operand of a product. -/
def multiplied (site : Site) (last : Phrase) (operator : Operator) : Site :=
  { site with
    operands := { site.operands with product := (last, operator) :: site.operands.product } }

/-- The site behind one more operand of a sum. -/
def added (site : Site) (last : Phrase) (operator : Operator) : Site :=
  { site with
    operands := { sum := (Phrase.close site.operands.product last, operator) :: site.operands.sum } }

/-- The site inside a parenthesis. -/
def entered (site : Site) (paren : Paren) : Site :=
  { site with parens := (paren, site.operands) :: site.parens, operands := {} }

end Site

/-- A mode in which an operand at a site is read next. -/
def Before (mode : Mode) (site : Site) : Prop :=
  mode = .operand site ∨ (mode = .between ∧ site = ⟨.plain, [], {}⟩) ∨
    ∃ outer function, mode = .arguments outer function ∧ site = outer.entered (.call function [])

/-- A mode in which an operand at a site has been read. -/
def After (mode : Mode) (site : Site) (last : Phrase) : Prop :=
  mode = .afterOperand site last ∨ ∃ name, mode = .afterName site name ∧ last = .reference name

theorem step_before {mode : Mode} {site : Site} (before : Before mode site) {token : Token}
    (starts : token.kind = .number ∨ token.kind = .name ∨ token.kind = .opening)
    (clauses : List Clause) :
    step ⟨clauses, mode⟩ token = (operandStep site token).map (State.mk clauses) := by
  rcases before with rfl | ⟨rfl, rfl⟩ | ⟨outer, function, rfl, rfl⟩ <;>
    rcases starts with kind | kind | kind <;> simp [step, operandStep, kind, Site.entered]

theorem step_after {mode : Mode} {site : Site} {last : Phrase} (after : After mode site last)
    {token : Token} (separate : token.kind ≠ .opening) (clauses : List Clause) :
    step ⟨clauses, mode⟩ token = operatorStep clauses site last token := by
  rcases after with rfl | ⟨name, rfl, rfl⟩
  · rfl
  · unfold step
    split <;> simp_all

theorem operatorStep_product {site : Site} {last : Phrase} {token : Token} {operator : Operator}
    (sign : productOperator? token.kind = some operator) (clauses : List Clause) :
    operatorStep clauses site last token =
      some ⟨clauses, .operand (site.multiplied last operator)⟩ := by
  obtain ⟨kind, lexeme, line⟩ := token
  cases kind <;> cases sign <;> cases site <;> rfl

theorem operatorStep_sum {site : Site} {last : Phrase} {token : Token} {operator : Operator}
    (sign : sumOperator? token.kind = some operator) (clauses : List Clause) :
    operatorStep clauses site last token =
      some ⟨clauses, .operand (site.added last operator)⟩ := by
  obtain ⟨kind, lexeme, line⟩ := token
  cases kind <;> cases sign <;> cases site <;> rfl

/-- Words lead the machine from before an operand to behind it. -/
def LeadsOperand (words : List Token) (phrase : Phrase) : Prop :=
  ∀ clauses mode site, Before mode site →
    ∃ mode', words.foldlM step ⟨clauses, mode⟩ = some ⟨clauses, mode'⟩ ∧ After mode' site phrase

/-- Words lead the machine from before a product to behind its last operand. -/
def LeadsTerm (words : List Token) (phrase : Phrase) : Prop :=
  ∀ clauses mode site, Before mode site → site.operands.product = [] →
    ∃ mode' product last, words.foldlM step ⟨clauses, mode⟩ = some ⟨clauses, mode'⟩ ∧
      After mode' { site with operands := { site.operands with product := product } } last ∧
      Phrase.close product last = phrase

/-- Words lead the machine from before a sum to behind its last operand. -/
def LeadsExpression (words : List Token) (phrase : Phrase) : Prop :=
  ∀ clauses mode site, Before mode site → site.operands = {} →
    ∃ mode' operands last, words.foldlM step ⟨clauses, mode⟩ = some ⟨clauses, mode'⟩ ∧
      After mode' { site with operands := operands } last ∧ operands.whole last = phrase

theorem foldlM_append_some {state middle : State} {first second : List Token}
    (steps : first.foldlM step state = some middle) :
    (first ++ second).foldlM step state = second.foldlM step middle := by
  rw [List.foldlM_append, steps]
  rfl

theorem foldlM_cons_some {state middle : State} {token : Token} {rest : List Token}
    (taken : step state token = some middle) :
    (token :: rest).foldlM step state = rest.foldlM step middle := by
  rw [List.foldlM_cons, taken]
  rfl

theorem leads_products {words : List Token} {links : List (Operator × Phrase)}
    (derived : Links productOperator? LeadsOperand words links) (clauses : List Clause) {mode : Mode}
    {site : Site} {last : Phrase} (after : After mode site last) :
    ∃ mode' product last', words.foldlM step ⟨clauses, mode⟩ = some ⟨clauses, mode'⟩ ∧
      After mode' { site with operands := { site.operands with product := product } } last' ∧
      Phrase.unwound product last' [] = Phrase.unwound site.operands.product last links := by
  induction derived generalizing mode site last with
  | done => exact ⟨mode, site.operands.product, last, rfl, after, rfl⟩
  | @more token words rest operator operand links sign next others ih =>
    have separate : token.kind ≠ .opening := by
      intro opens
      rw [opens] at sign
      cases sign
    have taken := (step_after after separate clauses).trans (operatorStep_product sign clauses)
    obtain ⟨middle, steps, behind⟩ := next clauses _ (site.multiplied last operator) (.inl rfl)
    obtain ⟨mode', product, last', more, final, same⟩ := ih behind
    refine ⟨mode', product, last', ?_, final, same⟩
    rw [foldlM_cons_some taken, foldlM_append_some steps, more]

theorem leads_sums {words : List Token} {links : List (Operator × Phrase)}
    (derived : Links sumOperator? LeadsTerm words links) (clauses : List Clause) {mode : Mode}
    {site : Site} {last : Phrase} (after : After mode site last) :
    ∃ mode' operands last', words.foldlM step ⟨clauses, mode⟩ = some ⟨clauses, mode'⟩ ∧
      After mode' { site with operands := operands } last' ∧
      Phrase.unwound operands.sum (Phrase.close operands.product last') [] =
        Phrase.unwound site.operands.sum (Phrase.close site.operands.product last) links := by
  induction derived generalizing mode site last with
  | done => exact ⟨mode, site.operands, last, rfl, after, rfl⟩
  | @more token words rest operator operand links sign next others ih =>
    have separate : token.kind ≠ .opening := by
      intro opens
      rw [opens] at sign
      cases sign
    have taken := (step_after after separate clauses).trans (operatorStep_sum sign clauses)
    obtain ⟨middle, product, factor, steps, behind, closed⟩ := next clauses _ (site.added last operator) (.inl rfl) rfl
    obtain ⟨mode', operands, last', more, final, same⟩ := ih behind
    refine ⟨mode', operands, last', ?_, final, ?_⟩
    · rw [foldlM_cons_some taken, foldlM_append_some steps, more]
    · rw [same, closed]
      rfl

theorem leads_product {words : List Token} {phrase : Phrase}
    (derived : Chain productOperator? LeadsOperand words phrase) : LeadsTerm words phrase := by
  obtain ⟨head, tail⟩ := derived
  intro clauses mode site before empty
  obtain ⟨middle, steps, behind⟩ := head clauses mode site before
  obtain ⟨mode', product, last, more, final, same⟩ := leads_products tail clauses behind
  refine ⟨mode', product, last, ?_, final, ?_⟩
  · rw [foldlM_append_some steps, more]
  · rw [Phrase.close_eq_joined, same, empty]
    rfl

theorem leads_sum {words : List Token} {phrase : Phrase}
    (derived : Chain sumOperator? LeadsTerm words phrase) : LeadsExpression words phrase := by
  obtain ⟨head, tail⟩ := derived
  intro clauses mode site before empty
  obtain ⟨middle, product, factor, steps, behind, closed⟩ := head clauses mode site before (by rw [empty])
  obtain ⟨mode', operands, last, more, final, same⟩ := leads_sums tail clauses behind
  refine ⟨mode', operands, last, ?_, final, ?_⟩
  · rw [foldlM_append_some steps, more]
  · rw [Operands.whole, Phrase.close_eq_joined, same, closed, empty]
    rfl

theorem leads_group {opening closing : Token} {words : List Token} {phrase : Phrase}
    (opens : opening.kind = .opening) (inner : LeadsExpression words phrase)
    (closes : closing.kind = .closing) : LeadsOperand (opening :: (words ++ [closing])) phrase := by
  intro clauses mode site before
  have taken := step_before before (.inr (.inr opens)) clauses
  simp only [operandStep, opens, Option.map_some] at taken
  obtain ⟨middle, operands, last, steps, behind, rfl⟩ :=
    inner clauses _ (site.entered .group) (.inl rfl) rfl
  refine ⟨.afterOperand site (operands.whole last), ?_, .inl rfl⟩
  rw [foldlM_cons_some taken]
  refine (foldlM_append_some steps).trans ?_
  have separate : closing.kind ≠ .opening := by simp [closes]
  have left := step_after behind separate clauses
  simp only [operatorStep, closes, Site.entered] at left
  exact foldlM_cons_some left

theorem leads_name {token : Token} (named : token.kind = .name) :
    LeadsOperand [token] (.reference token.lexeme) := by
  intro clauses mode site before
  have taken := step_before before (.inr (.inl named)) clauses
  simp only [operandStep, named, Option.map_some] at taken
  exact ⟨_, foldlM_cons_some taken, .inr ⟨token.lexeme, rfl, rfl⟩⟩

theorem leads_numeral {token : Token} (number : token.kind = .number) :
    LeadsOperand [token] (.numeral token.lexeme) := by
  intro clauses mode site before
  have taken := step_before before (.inl number) clauses
  simp only [operandStep, number, Option.map_some] at taken
  exact ⟨_, foldlM_cons_some taken, .inl rfl⟩

/-- A name and a parenthesis lead to the arguments of a call. -/
theorem leads_head {name opening : Token} (named : name.kind = .name)
    (opens : opening.kind = .opening) (clauses : List Clause) {mode : Mode} {site : Site}
    (before : Before mode site) :
    [name, opening].foldlM step ⟨clauses, mode⟩ = some ⟨clauses, .arguments site name.lexeme⟩ := by
  have taken := step_before before (.inr (.inl named)) clauses
  simp only [operandStep, named, Option.map_some] at taken
  rw [foldlM_cons_some taken]
  refine foldlM_cons_some ?_
  simp [step, opens]

theorem leads_emptyCall {name opening closing : Token} (named : name.kind = .name)
    (opens : opening.kind = .opening) (closes : closing.kind = .closing) :
    LeadsOperand [name, opening, closing] (.call name.lexeme []) := by
  intro clauses mode site before
  refine ⟨.afterOperand site (.call name.lexeme []), ?_, .inl rfl⟩
  rw [show [name, opening, closing] = [name, opening] ++ [closing] from rfl,
    foldlM_append_some (leads_head named opens clauses before)]
  refine foldlM_cons_some ?_
  simp [step, closes]

/-- Arguments and their closing parenthesis complete a call. -/
theorem leads_arguments {words : List Token} {phrases : List Phrase}
    (derived : Separated LeadsExpression words phrases) {closing : Token}
    (closes : closing.kind = .closing) (clauses : List Clause) {mode : Mode} {site : Site}
    (function : Spelling) (earlier : List Phrase)
    (before : Before mode (site.entered (.call function earlier))) :
    (words ++ [closing]).foldlM step ⟨clauses, mode⟩ =
      some ⟨clauses, .afterOperand site (.call function (earlier.reverse ++ phrases))⟩ := by
  induction derived generalizing mode earlier with
  | last item =>
    obtain ⟨middle, operands, last, steps, behind, rfl⟩ := item clauses mode _ before rfl
    rw [foldlM_append_some steps]
    have separate : closing.kind ≠ .opening := by simp [closes]
    have left := step_after behind separate clauses
    simp only [operatorStep, closes, Site.entered, List.reverse_cons] at left
    exact foldlM_cons_some left
  | @more token words rest phrase phrases item comma others ih =>
    obtain ⟨middle, operands, last, steps, behind, rfl⟩ := item clauses mode _ before rfl
    have separate : token.kind ≠ .opening := by simp [comma]
    have left := step_after behind separate clauses
    simp only [operatorStep, comma, Site.entered] at left
    rw [List.append_assoc, foldlM_append_some steps, List.cons_append, foldlM_cons_some left]
    refine (ih (operands.whole last :: earlier) (.inl rfl)).trans ?_
    simp

theorem leads_fullCall {name opening closing : Token} {words : List Token} {phrases : List Phrase}
    (named : name.kind = .name) (opens : opening.kind = .opening)
    (inner : Separated LeadsExpression words phrases) (closes : closing.kind = .closing) :
    LeadsOperand (name :: opening :: (words ++ [closing])) (.call name.lexeme phrases) := by
  intro clauses mode site before
  refine ⟨.afterOperand site (.call name.lexeme phrases), ?_, .inl rfl⟩
  rw [show name :: opening :: (words ++ [closing]) = [name, opening] ++ (words ++ [closing]) from rfl,
    foldlM_append_some (leads_head named opens clauses before)]
  exact leads_arguments inner closes clauses name.lexeme [] (.inr (.inr ⟨site, name.lexeme, rfl, rfl⟩))

theorem leads_closed : Closed LeadsExpression LeadsTerm LeadsOperand LeadsOperand where
  sum := leads_sum
  product := leads_product
  group := leads_group
  call inner := inner
  name := leads_name
  numeral := leads_numeral
  emptyCall := leads_emptyCall
  fullCall := leads_fullCall

/-- An expression and a semicolon complete the statement that it stands in. -/
theorem leads_value {words : List Token} {value : Phrase} (derived : Expression words value)
    {semicolon : Token} (ends : semicolon.kind = .semicolon) (clauses : List Clause) {mode : Mode}
    {heading : Heading} (before : Before mode ⟨heading, [], {}⟩) :
    (words ++ [semicolon]).foldlM step ⟨clauses, mode⟩ =
      some ⟨clauseOf heading value :: clauses, .between⟩ := by
  obtain ⟨middle, operands, last, steps, behind, rfl⟩ :=
    leads_closed.expression derived clauses mode _ before rfl
  have separate : semicolon.kind ≠ .opening := by simp [ends]
  have left := step_after behind separate clauses
  simp only [operatorStep, ends] at left
  rw [foldlM_append_some steps]
  exact foldlM_cons_some left

/-- Parameters are collected behind those that were read before, up to the closing parenthesis. -/
theorem leads_names {words parameters : List Token} (derived : Separated Parameter words parameters)
    {closing : Token} (closes : closing.kind = .closing) (clauses : List Clause) (name : Spelling)
    (before : List Token) :
    (words ++ [closing]).foldlM step ⟨clauses, .nextParameter name before⟩ =
      some ⟨clauses, .afterParameters name (before ++ parameters)⟩ := by
  induction derived generalizing before with
  | last item =>
    obtain ⟨named⟩ := item
    simp [step, named, closes]
  | more item comma others ih =>
    obtain ⟨named⟩ := item
    simp only [step, named, comma, List.cons_append, List.nil_append, List.foldlM_cons,
      Option.bind_eq_bind, Option.bind_some]
    rw [ih (before ++ [_])]
    simp

theorem leads_parameters {words parameters : List Token} (derived : Parameters words parameters)
    {closing : Token} (closes : closing.kind = .closing) (clauses : List Clause) (name : Spelling) :
    (words ++ [closing]).foldlM step ⟨clauses, .parameters name⟩ =
      some ⟨clauses, .afterParameters name parameters⟩ := by
  cases derived with
  | empty => simp [step, closes]
  | full names =>
    have rest := leads_names names closes clauses name []
    -- Only the closing parenthesis tells the two modes apart, and a name stands before it.
    cases names with
    | last item =>
      obtain ⟨named⟩ := item
      simpa [step, named] using rest
    | more item comma others =>
      obtain ⟨named⟩ := item
      simpa [step, named] using rest

/-- The body of a statement and its semicolon add one clause. -/
theorem leads_body {words : List Token} {clause : Clause} (derived : Body words clause)
    {semicolon : Token} (ends : semicolon.kind = .semicolon) (clauses : List Clause) :
    (words ++ [semicolon]).foldlM step ⟨clauses, .between⟩ = some ⟨clause :: clauses, .between⟩ := by
  cases derived with
  | definition starts named equal inner =>
    simp only [List.cons_append, List.foldlM_cons, step, starts, named, equal, Option.bind_eq_bind,
      Option.bind_some]
    exact leads_value inner ends clauses (.inl rfl)
  | @function _ _ _ closing _ names _ _ _ starts named opens listed closes equal inner =>
    simp only [List.cons_append, List.append_assoc, List.foldlM_cons, step, starts, named, opens,
      Option.bind_eq_bind, Option.bind_some]
    rw [List.append_cons names closing,
      foldlM_append_some (leads_parameters listed closes clauses _)]
    simp only [List.foldlM_cons, step, equal, Option.bind_eq_bind, Option.bind_some]
    exact leads_value inner ends clauses (.inl rfl)
  | expression inner => exact leads_value inner ends clauses (.inr (.inl ⟨rfl, rfl⟩))

/-- A program leaves its clauses, latest first. -/
theorem leads_program {words : List Token} {clauses : List Clause} (derived : Program words clauses)
    (earlier : List Clause) :
    words.foldlM step ⟨earlier, .between⟩ = some ⟨clauses.reverse ++ earlier, .between⟩ := by
  induction derived generalizing earlier with
  | done => rfl
  | more first following ih =>
    cases first with
    | empty ends =>
      rw [List.singleton_append, List.nil_append]
      refine (foldlM_cons_some ?_).trans (ih earlier)
      simp [step, ends]
    | full body ends =>
      rw [foldlM_append_some (leads_body body ends earlier), ih]
      simp

/-- The machine accepts every program that the grammar derives. -/
theorem judge_of_program {words : List Token} {clauses : List Clause}
    (derived : Program words clauses) (line : Nat) :
    judge ⟨words, .finish line⟩ = .accepted clauses := by
  have whole := run_append (.finish line) (leads_program derived []) []
  rw [List.append_nil] at whole
  rw [judge, whole]
  simp [run, finish]

/-- The grammar is unambiguous: words are a program in one way at most. -/
theorem program_unique {words : List Token} {clauses others : List Clause}
    (one : Program words clauses) (two : Program words others) : clauses = others := by
  have same := judge_of_program one 0
  rw [judge_of_program two 0] at same
  cases same
  rfl

end Machine

end Reckoner
