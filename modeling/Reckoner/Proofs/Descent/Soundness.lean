import Reckoner.Proofs.Descent.Takes

/-!
Reading by descent takes only what the grammar derives. Each part of the reader takes tokens that
derive what it returns, where the expressions inside it do; by induction on the depth so does every
expression, and with it every program.
-/
namespace Reckoner.Descent
open Reckoner.Grammar Reckoner.Reading

/-- A node is the tree of a phrase that the words derive. -/
def TreeOf (Derives : List Token → Phrase → Prop) (words : List Token) (node : Node) : Prop :=
  ∃ phrase, Derives words phrase ∧ phrase.node = node

/-- A reader takes derivations of a kind at every proper cursor, down to depths of `bound`. -/
def Reader (step : Reading Node) (Derives : List Token → Phrase → Prop) (bound : Nat) : Prop :=
  ∀ cursor : Cursor, cursor.Proper → Takes step cursor (TreeOf Derives) bound

theorem sumOperator?_finish : sumOperator? .finish = none := rfl

theorem productOperator?_finish : productOperator? .finish = none := rfl

section
variable {bound : Nat}

theorem takes_chain {operator? : Token.Kind → Option Operator} {operand : Reading Node}
    {Operand : List Token → Phrase → Prop} (finish : operator? .finish = none)
    (each : Reader operand Operand bound) (rounds : List Token) (left : Node) {cursor : Cursor}
    (proper : cursor.Proper) :
    Takes (chain operator? operand rounds left) cursor
      (fun words node => ∃ links, Links operator? Operand words links ∧
        Phrase.grouped left links = node) bound := by
  -- The links taken so far are folded into `left`, so the induction is on the rounds for every left operand.
  induction rounds generalizing left cursor bound with
  | nil => exact takes_pure ⟨[], .done, rfl⟩
  | cons _ rounds ih =>
    refine takes_peek_bind ?_
    cases sign : operator? cursor.current.kind with
    | none => exact takes_pure ⟨[], .done, rfl⟩
    | some operator =>
      have word : cursor.current.kind ≠ .finish := by
        intro ended
        rw [ended, finish] at sign
        cases sign
      refine (takes_advance proper word).bind proper ?_
      rintro _ _ middle _ properMiddle ⟨rfl, rfl⟩
      refine ((each middle properMiddle).fewer (Nat.sub_le _ _)).bind properMiddle ?_
      rintro _ words after _ properAfter ⟨phrase, derived, rfl⟩
      have more := ih each (.binary operator left phrase.node) properAfter
      refine more.imp ?_ (by omega)
      rintro rest node ⟨links, others, grouped⟩
      exact ⟨(operator, phrase) :: links, by simpa using Links.more sign derived others, grouped⟩

variable {inner : Reading Node} (inside : Reader inner Expression bound)
include inside

theorem takes_arguments (function : Spelling) (line : Option Int) (rounds : List Token)
    {cursor : Cursor} (proper : cursor.Proper) :
    Takes (arguments inner function line rounds) cursor
      (fun words nodes => ∃ closing taken phrases, words = taken ++ [closing] ∧
        closing.kind = .closing ∧ Separated Expression taken phrases ∧
        phrases.map Phrase.node = nodes) bound := by
  induction rounds generalizing cursor with
  | nil => exact takes_complain _ _
  | cons _ rounds ih =>
    refine (inside cursor proper).bind proper ?_
    rintro _ words middle _ properMiddle ⟨phrase, derived, rfl⟩
    refine takes_peek_bind ?_
    split
    · rename_i comma
      refine (takes_advance properMiddle (by simp [comma])).bind properMiddle ?_
      rintro _ _ after _ properAfter ⟨rfl, rfl⟩
      refine ((ih properAfter).fewer (by omega)).bind properAfter ?_
      rintro _ _ last _ _ ⟨closing, taken, phrases, rfl, closes, others, rfl⟩
      refine takes_pure ⟨closing, words ++ middle.current :: taken, phrase :: phrases, ?_, closes,
        .more derived comma others, rfl⟩
      simp
    · rename_i closes
      refine (takes_advance properMiddle (by simp [closes])).bind properMiddle ?_
      rintro _ _ after _ properAfter ⟨rfl, rfl⟩
      exact takes_pure ⟨middle.current, words, [phrase], by simp, closes, .last derived, rfl⟩
    · exact takes_complain _ _
    · exact takes_complain _ _
    · exact takes_complain _ _

theorem takes_callWith {cursor : Cursor} (proper : cursor.Proper) :
    Takes (callWith inner) cursor (TreeOf Call) (bound + 1) := by
  refine (takes_consume proper (by simp) _).bind proper ?_
  rintro name _ first _ properFirst ⟨rfl, named⟩
  refine (takes_consume properFirst (by simp) _).bind properFirst ?_
  rintro opening _ second _ properSecond ⟨rfl, opens⟩
  refine takes_sees_bind ?_
  by_cases closes : second.current.kind = .closing
  · simp only [closes, decide_true, if_true]
    refine (takes_advance properSecond (by simp [closes])).bind properSecond ?_
    rintro _ _ after _ properAfter ⟨rfl, rfl⟩
    exact takes_pure ⟨_, .empty named opens closes, by simp [Phrase.node]⟩
  · simp only [closes, decide_false, Bool.false_eq_true, if_false]
    refine takes_remaining_bind ?_
    refine ((takes_arguments inside name.lexeme opening.line _ properSecond).fewer ?_).bind
      properSecond ?_
    · simp
    rintro _ _ after _ properAfter ⟨closing, taken, phrases, rfl, closed, derived, rfl⟩
    exact takes_pure ⟨_, by simpa using Call.full named opens derived closed, by simp [Phrase.node]⟩

theorem reader_factorWith : Reader (factorWith inner) Factor (bound + 1) := by
  intro cursor proper
  refine takes_peek_bind ?_
  split
  · rename_i opens
    refine (takes_advance proper (by simp [opens])).bind proper ?_
    rintro _ _ first _ properFirst ⟨rfl, rfl⟩
    refine ((inside first properFirst).fewer (by simp)).bind properFirst ?_
    rintro _ words second _ properSecond ⟨phrase, derived, rfl⟩
    refine takes_sees_bind ?_
    by_cases closes : second.current.kind = .closing
    · simp only [closes, decide_true, if_true]
      refine (takes_advance properSecond (by simp [closes])).bind properSecond ?_
      rintro _ _ after _ properAfter ⟨rfl, rfl⟩
      exact takes_pure ⟨phrase, by simpa using Factor.group opens derived closes, rfl⟩
    · simp only [closes, decide_false, Bool.false_eq_true, if_false]
      exact takes_complain _ _
  · rename_i named
    refine takes_peekNext_bind ?_
    split
    · refine (takes_callWith inside proper).imp ?_ (Nat.le_refl _)
      rintro words node ⟨phrase, derived, rfl⟩
      exact ⟨phrase, .call derived, rfl⟩
    · refine (takes_advance proper (by simp [named])).bind proper ?_
      rintro _ _ after _ properAfter ⟨rfl, rfl⟩
      exact takes_pure ⟨_, by simpa using Factor.name named, by simp [Phrase.node]⟩
  · rename_i number
    have word : cursor.current.kind ≠ .finish := by simp [number]
    have member : cursor.current ∈ cursor.ahead := by
      rw [Cursor.ahead_eq_of_current proper word]
      simp
    have read := (proper.legible _ member).toFloat_eq number
    refine (takes_advance proper word).bind proper ?_
    rintro _ _ after _ properAfter ⟨rfl, rfl⟩
    rw [numeral, read]
    exact takes_pure ⟨_, by simpa using Factor.numeral number, by simp [Phrase.node]⟩
  · exact takes_complain _ _

theorem reader_termWith : Reader (termWith inner) Term (bound + 1) := by
  intro cursor proper
  refine (reader_factorWith inside cursor proper).bind proper ?_
  rintro _ words middle _ properMiddle ⟨first, head, rfl⟩
  refine takes_remaining_bind ?_
  refine (takes_chain productOperator?_finish (reader_factorWith inside) _ first.node
    properMiddle).imp ?_ (Nat.sub_le _ _)
  rintro others _ ⟨links, tail, rfl⟩
  exact ⟨_, .product (.intro head tail), Phrase.node_joined first links⟩

theorem reader_expressionWith : Reader (expressionWith inner) Expression (bound + 1) := by
  intro cursor proper
  refine (reader_termWith inside cursor proper).bind proper ?_
  rintro _ words middle _ properMiddle ⟨first, head, rfl⟩
  refine takes_remaining_bind ?_
  refine (takes_chain sumOperator?_finish (reader_termWith inside) _ first.node
    properMiddle).imp ?_ (Nat.sub_le _ _)
  rintro others _ ⟨links, tail, rfl⟩
  exact ⟨_, .sum (.intro head tail), Phrase.node_joined first links⟩

end

/-- An expression takes what the grammar derives; only tokens as many as the depth exceed it. -/
theorem reader_expression (depth : Nat) : Reader (expression depth) Expression depth := by
  induction depth with
  | zero =>
    intro cursor proper
    exact .inr ⟨rfl, Nat.zero_le _⟩
  | succ depth ih => exact reader_expressionWith ih

/-- A node is the tree of a clause with different parameters that the words derive. -/
def ClauseOf (words : List Token) (node : Node) : Prop :=
  ∃ clause, Body words clause ∧ clause.Distinct ∧ clause.node = node

theorem takes_definition (depth : Nat) {cursor : Cursor} (proper : cursor.Proper) :
    Takes (definition depth) cursor ClauseOf depth := by
  refine (takes_consume proper (by simp) _).bind proper ?_
  rintro letWord _ first _ properFirst ⟨rfl, starts⟩
  refine (takes_consume properFirst (by simp) _).bind properFirst ?_
  rintro name _ second _ properSecond ⟨rfl, named⟩
  refine (takes_consume properSecond (by simp) _).bind properSecond ?_
  rintro equals _ third _ properThird ⟨rfl, equal⟩
  refine ((reader_expression depth third properThird).fewer (by omega)).bind properThird ?_
  rintro _ words after _ properAfter ⟨value, derived, rfl⟩
  exact takes_pure ⟨.definition name.lexeme value,
    by simpa using Body.definition starts named equal derived, trivial, rfl⟩

/-- The words of parameters up to the closing parenthesis, with the names behind those in `seen`. -/
def NamesOf (List' : List Token → List Token → Prop) (seen : List Spelling) (words : List Token)
    (names : List Spelling) : Prop :=
  ∃ taken closing parameters, words = taken ++ [closing] ∧ closing.kind = .closing ∧
    List' taken parameters ∧ names = seen ++ parameters.map Token.lexeme ∧ names.Nodup

theorem takes_parametersFrom (function : Spelling) (rounds : List Token) (seen : List Spelling)
    {cursor : Cursor} (proper : cursor.Proper) (enough : cursor.ahead.length < rounds.length)
    (distinct : seen.Nodup) (bound : Nat) :
    Takes (parametersFrom function rounds seen) cursor (NamesOf (Separated Parameter) seen) bound := by
  induction rounds generalizing seen cursor bound with
  | nil => simp at enough
  | cons _ rounds ih =>
    refine (takes_consume proper (by simp) _).bind proper ?_
    rintro name _ middle passes properMiddle ⟨rfl, named⟩
    have shorter := passes.length
    by_cases old : name.lexeme ∈ seen
    · rw [if_pos old]
      exact takes_complain _ _
    rw [if_neg old]
    have fresh : (seen ++ [name.lexeme]).Nodup := by
      refine List.nodup_append.2 ⟨distinct, by simp, ?_⟩
      rintro other inside _ member rfl
      exact old (List.mem_singleton.1 member ▸ inside)
    refine takes_sees_bind ?_
    by_cases comma : middle.current.kind = .comma
    · simp only [comma, decide_true, if_true]
      refine (takes_advance properMiddle (by simp [comma])).bind properMiddle ?_
      rintro _ _ after passesAgain properAfter ⟨rfl, rfl⟩
      have shorterAgain := passesAgain.length
      simp only [List.length_cons, List.length_nil] at enough shorter shorterAgain
      refine (ih _ properAfter (by omega) fresh _).imp ?_ (Nat.le_refl _)
      rintro words names ⟨taken, closing, parameters, rfl, closes, listed, rfl, different⟩
      refine ⟨name :: middle.current :: taken, closing, name :: parameters, by simp, closes, ?_,
        by simp, different⟩
      exact Separated.more (.intro named) comma listed
    · simp only [comma, decide_false, Bool.false_eq_true, if_false]
      refine (takes_consume properMiddle (by simp) _).bind properMiddle ?_
      rintro closing _ after _ _ ⟨rfl, closes⟩
      exact takes_pure ⟨[name], closing, [name], by simp, closes, .last (.intro named), by simp, fresh⟩

theorem takes_parameters (function : Spelling) {cursor : Cursor} (proper : cursor.Proper)
    (bound : Nat) : Takes (parameters function) cursor (NamesOf Parameters []) bound := by
  refine takes_sees_bind ?_
  by_cases closes : cursor.current.kind = .closing
  · simp only [closes, decide_true, if_true]
    refine (takes_advance proper (by simp [closes])).bind proper ?_
    rintro _ _ after _ _ ⟨rfl, rfl⟩
    exact takes_pure ⟨[], cursor.current, [], rfl, closes, .empty, rfl, List.nodup_nil⟩
  · simp only [closes, decide_false, Bool.false_eq_true, if_false]
    refine takes_remaining_bind ?_
    refine (takes_parametersFrom function _ [] proper (by simp) List.nodup_nil bound).imp ?_
      (Nat.le_refl bound)
    rintro words names ⟨taken, closing, parameters, split, closed, listed, made⟩
    exact ⟨taken, closing, parameters, split, closed, .full listed, made⟩

theorem takes_function (depth : Nat) {cursor : Cursor} (proper : cursor.Proper) :
    Takes (function depth) cursor ClauseOf depth := by
  refine (takes_consume proper (by simp) _).bind proper ?_
  rintro funcWord _ first _ properFirst ⟨rfl, starts⟩
  refine (takes_consume properFirst (by simp) _).bind properFirst ?_
  rintro name _ second _ properSecond ⟨rfl, named⟩
  refine (takes_consume properSecond (by simp) _).bind properSecond ?_
  rintro opening _ third _ properThird ⟨rfl, opens⟩
  refine (takes_parameters name.lexeme properThird _).bind properThird ?_
  rintro _ _ fourth _ properFourth ⟨names, closing, parameters, rfl, closes, listed, rfl, distinct⟩
  refine (takes_consume properFourth (by simp) _).bind properFourth ?_
  rintro equals _ fifth _ properFifth ⟨rfl, equal⟩
  refine ((reader_expression depth fifth properFifth).fewer (by omega)).bind properFifth ?_
  rintro _ words after _ _ ⟨body, derived, rfl⟩
  have whole := Body.function starts named opens listed closes equal derived
  refine takes_pure ⟨_, by simpa using whole, by simpa [Clause.Distinct] using distinct, ?_⟩
  simp [Clause.node]

theorem takes_statementBody (depth : Nat) (kind : Token.Kind) {cursor : Cursor}
    (proper : cursor.Proper) : Takes (statementBody depth kind) cursor ClauseOf depth := by
  unfold statementBody
  split
  · exact takes_definition depth proper
  · exact takes_function depth proper
  · refine (reader_expression depth cursor proper).imp ?_ (Nat.le_refl depth)
    rintro words _ ⟨value, derived, rfl⟩
    exact ⟨.expression value, .expression derived, trivial, rfl⟩

theorem takes_statement (depth : Nat) {cursor : Cursor} (proper : cursor.Proper) :
    Takes (statement depth) cursor
      (fun words node => ∃ clause, Statement words [clause] ∧ clause.Distinct ∧ clause.node = node)
      depth := by
  refine takes_peek_bind ?_
  refine (takes_statementBody depth _ proper).bind proper ?_
  rintro _ words middle _ properMiddle ⟨clause, derived, distinct, rfl⟩
  refine takes_peek_bind ?_
  by_cases ends : middle.current.kind = .semicolon
  · rw [if_pos ends]
    refine (takes_advance properMiddle (by simp [ends])).bind properMiddle ?_
    rintro _ _ after _ _ ⟨rfl, rfl⟩
    exact takes_pure ⟨clause, by simpa using Statement.full derived ends, distinct, rfl⟩
  · rw [if_neg ends]
    exact takes_complain _ _

/-- Nodes are the trees of clauses with different parameters that the words derive. -/
def ClausesOf (words : List Token) (nodes : List Node) : Prop :=
  ∃ clauses, Program words clauses ∧ (∀ clause ∈ clauses, clause.Distinct) ∧
    clauses.map Clause.node = nodes

theorem takes_statements (depth : Nat) (rounds : List Token) {cursor : Cursor}
    (proper : cursor.Proper) (enough : cursor.ahead.length < rounds.length) (bound : Nat)
    (fewer : bound ≤ depth) :
    Takes (statements depth rounds) cursor
      (fun words nodes => words = cursor.ahead ∧ ClausesOf words nodes) bound := by
  induction rounds generalizing cursor bound with
  | nil => simp at enough
  | cons _ rounds ih =>
    rw [List.length_cons] at enough
    refine takes_peek_bind ?_
    split
    · rename_i ended
      exact takes_pure ⟨(Cursor.ahead_eq_nil_of_current proper ended).symm, [], .done, by simp, rfl⟩
    · rename_i ends
      refine (takes_advance proper (by simp [ends])).bind proper ?_
      rintro _ _ after passes properAfter ⟨rfl, rfl⟩
      have shorter := passes.length
      rw [List.length_singleton] at shorter
      refine (ih properAfter (by omega) _ (by omega)).imp ?_ (Nat.le_refl _)
      rintro _ nodes ⟨rfl, clauses, derived, distinct, rfl⟩
      refine ⟨passes.1.symm, clauses, ?_, distinct, rfl⟩
      simpa using Program.more (.empty ends) derived
    · refine ((takes_statement depth proper).fewer fewer).bind proper ?_
      rintro _ first middle passes properMiddle ⟨clause, one, different, rfl⟩
      have shorter := passes.length
      have filled : 0 < first.length := by
        cases one
        simp
      refine (ih properMiddle (by omega) _ (by omega)).bind properMiddle ?_
      rintro _ rest after _ _ ⟨rfl, clauses, derived, distinct, rfl⟩
      refine takes_pure ⟨?_, clause :: clauses, ?_, ?_, rfl⟩
      · rw [List.append_nil]
        exact passes.1.symm
      · simpa using Program.more one derived
      · simpa using ⟨different, distinct⟩

/-- A program takes all tokens, and they derive it. -/
theorem takes_program (depth : Nat) {cursor : Cursor} (proper : cursor.Proper) :
    Takes (program depth) cursor
      (fun words node => words = cursor.ahead ∧ ∃ nodes, ClausesOf words nodes ∧ node = .program nodes)
      depth := by
  refine takes_remaining_bind ?_
  refine (takes_statements depth _ proper (by simp) depth (Nat.le_refl depth)).bind proper ?_
  rintro nodes words after _ _ ⟨all, derived⟩
  exact takes_pure ⟨by simpa using all, nodes, by simpa using derived, rfl⟩

end Reckoner.Descent
