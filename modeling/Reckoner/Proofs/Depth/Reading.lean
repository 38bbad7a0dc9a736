import Reckoner.Proofs.Agreement
import Reckoner.Proofs.Depth.Approach

/-!
Reading at a greater depth. Each part of the reader by descent approaches itself with a deeper reader
of the expressions inside it, so reading at one depth approaches reading at any greater one; levels
of phrases do the same. With either reader an outcome that reports no limit stays what it is.
-/
namespace Reckoner

namespace Descent
open Reckoner.Reading

section
variable {inner deeper : Reading Node}

theorem approaches_chain (operator? : Token.Kind → Option Operator)
    (operand : Approaches inner deeper) (rounds : List Token) (left : Node) :
    Approaches (chain operator? inner rounds left) (chain operator? deeper rounds left) := by
  induction rounds generalizing left with
  | nil => exact .refl _
  | cons _ rounds ih =>
    refine .after _ fun token => ?_
    cases operator? token.kind with
    | none => exact .refl _
    | some operator => exact .after _ fun _ => operand.bind fun right => ih _

variable (inside : Approaches inner deeper)
include inside

theorem approaches_arguments (function : Spelling) (line : Option Int) (rounds : List Token) :
    Approaches (arguments inner function line rounds) (arguments deeper function line rounds) := by
  induction rounds with
  | nil => exact .refl _
  | cons _ rounds ih =>
    refine inside.bind fun first => .after _ fun token => ?_
    cases token.kind with
    | comma => exact .after _ fun _ => ih.bind fun _ => .refl _
    | _ => exact .refl _

theorem approaches_callWith : Approaches (callWith inner) (callWith deeper) := by
  refine .after _ fun name => .after _ fun paren => .after _ fun closes => ?_
  refine .ite _ (.refl _) (.after _ fun rounds => ?_)
  exact (approaches_arguments inside _ _ _).bind fun _ => .refl _

theorem approaches_factorWith : Approaches (factorWith inner) (factorWith deeper) := by
  refine .after _ fun token => ?_
  cases token.kind with
  | opening => exact .after _ fun _ => inside.bind fun _ => .refl _
  | name => exact .after _ fun _ => .ite _ (approaches_callWith inside) (.refl _)
  | _ => exact .refl _

theorem approaches_termWith : Approaches (termWith inner) (termWith deeper) :=
  (approaches_factorWith inside).bind fun first => .after _ fun rounds =>
    approaches_chain productOperator? (approaches_factorWith inside) rounds first

theorem approaches_expressionWith : Approaches (expressionWith inner) (expressionWith deeper) :=
  (approaches_termWith inside).bind fun first => .after _ fun rounds =>
    approaches_chain sumOperator? (approaches_termWith inside) rounds first

end

/-- The circle of expressions is closed one level at a time, and so is the comparison. -/
theorem approaches_expression_succ (depth : Nat) :
    Approaches (expression depth : Reading Node) (expression (depth + 1)) := by
  induction depth with
  | zero => exact .giveUp _
  | succ depth ih => exact approaches_expressionWith ih

section
variable {depth greater : Nat} (le : depth ≤ greater)
include le

theorem approaches_expression : Approaches (expression depth : Reading Node) (expression greater) :=
  .of_le approaches_expression_succ le

theorem approaches_definition : Approaches (definition depth : Reading Node) (definition greater) :=
  .after _ fun _ => .after _ fun _ => .after _ fun _ =>
    (approaches_expression le).bind fun _ => .refl _

theorem approaches_function : Approaches (function depth : Reading Node) (function greater) :=
  .after _ fun _ => .after _ fun _ => .after _ fun _ => .after _ fun _ => .after _ fun _ =>
    (approaches_expression le).bind fun _ => .refl _

theorem approaches_statementBody (kind : Token.Kind) :
    Approaches (statementBody depth kind : Reading Node) (statementBody greater kind) := by
  cases kind with
  | letWord => exact approaches_definition le
  | funcWord => exact approaches_function le
  | _ => exact approaches_expression le

theorem approaches_statement : Approaches (statement depth : Reading Node) (statement greater) :=
  .after _ fun _ => (approaches_statementBody le _).bind fun _ => .refl _

theorem approaches_statements (rounds : List Token) :
    Approaches (statements depth rounds : Reading (List Node)) (statements greater rounds) := by
  induction rounds with
  | nil => exact .refl _
  | cons _ rounds ih =>
    refine .after _ fun token => ?_
    cases token.kind with
    | finish => exact .refl _
    | semicolon => exact .after _ fun _ => ih
    | _ => exact (approaches_statement le).bind fun _ => ih.bind fun _ => .refl _

theorem approaches_program : Approaches (program depth : Reading Node) (program greater) :=
  .after _ fun _ => (approaches_statements le _).bind fun _ => .refl _

/-- A list of tokens that is read without reporting a limit is read alike at every greater depth. -/
theorem parseTokens_stable {tokens : List Token}
    (unlimited : ¬ LimitReported (parseTokens depth tokens)) :
    parseTokens greater tokens = parseTokens depth tokens := by
  unfold parseTokens at unlimited ⊢
  cases started : Cursor.ofTokens tokens with
  | error fault => rfl
  | ok cursor =>
    simp only [started, bind, Except.bind, EStateM.run] at unlimited ⊢
    rcases approaches_program le cursor with same | ⟨after, gaveUp⟩
    · rw [same]
    · rw [gaveUp] at unlimited
      exact absurd ⟨.nesting, after.current.line, rfl⟩ unlimited

theorem parse_stable {source : Spelling} (unlimited : ¬ LimitReported (parse depth source)) :
    parse greater source = parse depth source := by
  unfold parse at unlimited ⊢
  split
  · rename_i tokens scanned
    rw [scanned] at unlimited
    exact parseTokens_stable le unlimited
  · rfl

end

end Descent

namespace Phrase

theorem toNode_approximates_succ (depth : Nat) (phrase : Phrase) :
    Approximates (phrase.toNode depth) (phrase.toNode (depth + 1)) := by
  induction depth generalizing phrase with
  | zero => exact .inr rfl
  | succ depth ih =>
    cases phrase with
    | numeral lexeme => exact .refl _
    | reference name => exact .refl _
    | call function arguments =>
      exact (Approximates.mapM fun argument _ => ih argument).bind fun _ _ => .refl _
    | chain first links =>
      refine (ih first).bind fun left _ => .foldlM (fun left link => ?_) links left
      exact (ih link.2).bind fun _ _ => .refl _

end Phrase

namespace Clause

/-- Clauses that become a program, or get a complaint, within some levels do so within more. -/
theorem toProgram_approximates_le {levels greater : Nat} (le : levels ≤ greater)
    (clauses : List Clause) :
    Approximates (toProgram levels clauses) (toProgram greater clauses) := by
  have deeper (phrase : Phrase) : Approximates (phrase.toNode levels) (phrase.toNode greater) :=
    .of_le (fun depth => phrase.toNode_approximates_succ depth) le
  refine .map _ (.mapM fun clause _ => ?_)
  cases clause with
  | definition name value => exact (deeper value).bind fun _ _ => .refl _
  | expression value => exact deeper value
  | function name parameters body => exact (deeper body).bind fun _ _ => .refl _

end Clause

namespace Machine

/-- A source that the machine reads without reporting a limit is read alike at greater depths: the
    diagnosis by descent reports its own limit, and the levels of the phrases theirs. -/
theorem parse_stable {depth greater levels more : Nat} (deeper : depth ≤ greater)
    (higher : levels ≤ more) {source : Spelling}
    (unlimited : ¬ LimitReported (parse depth levels source)) :
    parse greater more source = parse depth levels source := by
  cases verdict : judge (Token.scan Text.isPlainBlank source) with
  | stray character line => simp only [parse, verdict]
  | refused found line =>
    have descent : ¬ LimitReported (Descent.parse depth source) := by
      rintro ⟨limit, cited, reported⟩
      exact unlimited ⟨limit, cited, parse_refused_eq verdict reported⟩
    simp only [parse, verdict, diagnose, Descent.parse_stable deeper descent]
  | accepted clauses =>
    simp only [parse, verdict] at unlimited ⊢
    rcases Clause.toProgram_approximates_le higher clauses with same | gaveUp
    · rw [same]
    · rw [gaveUp] at unlimited
      exact absurd ⟨.nesting, none, rfl⟩ unlimited

end Machine

end Reckoner
