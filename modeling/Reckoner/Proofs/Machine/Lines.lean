import Reckoner.Phrase.Machine
import Reckoner.Proofs.Outcome
import Reckoner.Proofs.Scan.LineEnds

/-!
Lines in the machine. The machine keeps the parameters of functions as tokens and else only their kinds
and texts, so on tokens with other lines it goes through the same modes. What it accepts is made into the
same program, or a repeated parameter is cited in the line that stands for the one there was.
-/
namespace Reckoner

section
variable (change : Option Int → Option Int)

/-- A clause whose parameters are in other lines. -/
def Clause.relined : Clause → Clause
  | function name parameters body => function name (parameters.map (Token.relined change)) body
  | other => other

namespace Machine

/-- A heading whose parameters are in other lines. -/
def Heading.relined : Heading → Heading
  | function name parameters => function name (parameters.map (Token.relined change))
  | other => other

/-- A site whose statement has parameters in other lines. -/
def Site.relined (site : Site) : Site := { site with heading := site.heading.relined change }

/-- A mode with parameters in other lines. -/
def Mode.relined : Mode → Mode
  | nextParameter name before => nextParameter name (before.map (Token.relined change))
  | afterParameter name before => afterParameter name (before.map (Token.relined change))
  | afterParameters name before => afterParameters name (before.map (Token.relined change))
  | operand site => operand (site.relined change)
  | afterName site name => afterName (site.relined change) name
  | arguments site function => arguments (site.relined change) function
  | afterOperand site last => afterOperand (site.relined change) last
  | other => other

/-- A state with parameters in other lines. -/
def State.relined (state : State) : State :=
  ⟨state.clauses.map (Clause.relined change), state.mode.relined change⟩

theorem clauseOf_relined (heading : Heading) (value : Phrase) :
    clauseOf (heading.relined change) value = (clauseOf heading value).relined change := by
  cases heading <;> rfl

theorem operandStep_relined (site : Site) (token : Token) :
    operandStep (site.relined change) (token.relined change) =
      (operandStep site token).map (Mode.relined change) := by
  unfold operandStep
  rw [Token.relined_kind]
  cases token.kind <;> rfl

theorem operatorStep_relined (clauses : List Clause) (site : Site) (last : Phrase) (token : Token) :
    operatorStep (clauses.map (Clause.relined change)) (site.relined change) last
        (token.relined change) =
      (operatorStep clauses site last token).map (State.relined change) := by
  obtain ⟨heading, parens, operands⟩ := site
  unfold operatorStep
  rw [Token.relined_kind]
  simp only [Site.relined]
  cases token.kind <;> rcases parens with _ | ⟨⟨_ | _, outer⟩, parens⟩ <;>
    simp [State.relined, Mode.relined, Site.relined, clauseOf_relined, Descent.sumOperator?,
      Descent.productOperator?]

/-- A step with a token in another line. -/
theorem step_relined (state : State) (token : Token) :
    step (state.relined change) (token.relined change) =
      (step state token).map (State.relined change) := by
  obtain ⟨clauses, mode⟩ := state
  have operand (site : Site) :
      ((operandStep (site.relined change) (token.relined change)).bind fun mode =>
          some ⟨clauses.map (Clause.relined change), mode⟩) =
        ((operandStep site token).bind fun mode => some ⟨clauses, mode⟩).map (State.relined change) := by
    rw [operandStep_relined]
    cases operandStep site token <;> rfl
  have operator (site : Site) (last : Phrase) := operatorStep_relined change clauses site last token
  unfold step
  rw [Token.relined_kind]
  cases mode with
  | between =>
    cases token.kind with
    | semicolon | letWord | funcWord => rfl
    | _ => exact operand ⟨.plain, [], {}⟩
  | operand site => exact operand site
  | afterName site name =>
    cases token.kind with
    | opening => rfl
    | _ => exact operator site (.reference name)
  | arguments site function =>
    cases token.kind with
    | closing => rfl
    | _ =>
      let parens := (.call function [], site.operands) :: site.parens
      exact operand { site with parens, operands := {} }
  | afterOperand site last => exact operator site last
  | nextParameter name before =>
    cases token.kind with
    | name => simp [State.relined, Mode.relined]
    | _ => rfl
  | _ => cases token.kind <;> rfl

end Machine

end

namespace Machine

/-- A verdict without its lines. -/
def Verdict.unlined : Verdict → Verdict
  | accepted clauses => accepted (clauses.map (Clause.relined noLine))
  | stray character _ => stray character 0
  | refused found _ => refused found none

/-- The machine judges tokens without their lines as it judges the tokens. -/
theorem run_relined {ending other : Token.Ending} (alike : ending.Alike other) (state : State)
    (tokens : List Token) :
    (run other (state.relined noLine) (tokens.map (Token.relined noLine))).unlined =
      (run ending state tokens).unlined := by
  induction tokens generalizing state with
  | nil =>
    obtain ⟨clauses, mode⟩ := state
    cases alike with
    | stray c line place => rfl
    | finish line place =>
      cases mode with
      | between =>
        have twice : Clause.relined noLine ∘ Clause.relined noLine = Clause.relined noLine := by
          funext clause
          cases clause <;> simp [Clause.relined, Token.relined, noLine]
        simp [run, finish, State.relined, Mode.relined, Verdict.unlined, twice]
      | _ => rfl
  | cons token rest ih =>
    rw [List.map_cons, run, run, step_relined]
    cases step state token with
    | none => rfl
    | some next => exact ih next

/-- Scans that are the same but for the lines are judged in the same way. -/
theorem judge_alike {lexed other : Token.Lexed} (alike : lexed.Alike other) :
    (judge lexed).unlined = (judge other).unlined :=
  calc (judge lexed).unlined
      = (run other.ending (State.relined noLine {}) (lexed.tokens.map (Token.relined noLine))).unlined :=
        (run_relined alike.ending {} lexed.tokens).symm
    _ = (run other.ending (State.relined noLine {}) (other.tokens.map (Token.relined noLine))).unlined := by
        rw [alike.tokens]
    _ = (judge other).unlined := run_relined (.refl _) {} other.tokens

end Machine

/-- What keeps a phrase from becoming a node is no error of the language, so it cites no line. -/
theorem Phrase.toNode_ne_error {depth : Nat} {phrase : Phrase} {error : Error} :
    phrase.toNode depth ≠ .error (.error error) := by
  induction depth generalizing phrase with
  | zero => nofun
  | succ depth ih =>
    intro fails
    cases phrase with
    | reference name => cases fails
    | numeral lexeme =>
      have number := map_eq_error_iff.1 fails
      unfold Spelling.toFloat at number
      split at number <;> cases number
    | call function arguments =>
      rcases bind_eq_error_iff.1 fails with inside | ⟨_, _, whole⟩
      · obtain ⟨argument, _, here⟩ := exists_of_mapM_eq_error inside
        exact ih here
      · cases whole
    | chain first links =>
      rcases bind_eq_error_iff.1 fails with here | ⟨_, _, behind⟩
      · exact ih here
      · obtain ⟨_, link, _, there⟩ := exists_of_foldlM_eq_error behind
        rcases bind_eq_error_iff.1 there with operand | ⟨_, _, whole⟩
        · exact ih operand
        · cases whole

namespace Clause
variable (change : Option Int → Option Int)

theorem repeated?_relined (seen : List Spelling) (parameters : List Token) :
    repeated? seen (parameters.map (Token.relined change)) =
      (repeated? seen parameters).map (Token.relined change) := by
  induction parameters generalizing seen with
  | nil => rfl
  | cons token rest ih =>
    rw [List.map_cons, repeated?, repeated?, Token.relined_lexeme]
    split
    · rfl
    · exact ih _

/-- A clause with parameters in other lines becomes the same node, or its repeated parameter is cited in
    the other line. -/
theorem toNode_relined (depth : Nat) (clause : Clause) :
    (clause.relined change).toNode depth = (clause.toNode depth).mapError (Fault.relined change) := by
  have fixed (phrase : Phrase) :
      (phrase.toNode depth).mapError (Fault.relined change) = phrase.toNode depth := by
    cases made : phrase.toNode depth with
    | ok node => rfl
    | error fault =>
      cases fault with
      | error error => exact absurd made Phrase.toNode_ne_error
      | _ => rfl
  cases clause with
  | expression value => exact (fixed value).symm
  | definition name value =>
    rw [toNode, mapError_bind (fixed value)]
    rfl
  | function name parameters body =>
    rw [toNode, mapError_bind (fixed body), relined, toNode, repeated?_relined]
    congr 1
    funext node
    cases repeated? [] parameters with
    | some token => rfl
    | none =>
      rw [List.map_map]
      rfl

/-- Clauses with parameters in other lines become the same program, or the repeated parameter is cited in
    the other line. -/
theorem toProgram_relined (levels : Nat) (clauses : List Clause) :
    toProgram levels (clauses.map (Clause.relined change)) =
      (toProgram levels clauses).mapError (Fault.relined change) := by
  have each : (clauses.map (Clause.relined change)).mapM (toNode levels) =
      (clauses.mapM (toNode levels)).mapError (Fault.relined change) := by
    induction clauses with
    | nil => rfl
    | cons clause clauses ih =>
      rw [List.map_cons, List.mapM_cons, List.mapM_cons, toNode_relined, ih]
      cases clause.toNode levels with
      | error fault => rfl
      | ok node => cases clauses.mapM (toNode levels) <;> rfl
  rw [toProgram, toProgram, each]
  cases clauses.mapM (toNode levels) <;> rfl

end Clause

end Reckoner
