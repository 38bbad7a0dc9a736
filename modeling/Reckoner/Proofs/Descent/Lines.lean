import Reckoner.Descent
import Reckoner.Proofs.Outcome

/-!
Lines are carried along. Reading does not depend on the lines of its tokens: it only takes one of them
into an error. So from tokens with other lines it makes the same tree, or ends with the same error in
the line that stands for the one there was. `Carries` says this of a step; it goes through the reader
part by part.
-/
namespace Reckoner

/-- A token with another line. -/
def Token.relined (change : Option Int → Option Int) (token : Token) : Token :=
  { token with line := change token.line }

/-- A cursor before tokens with other lines. -/
def Cursor.relined (change : Option Int → Option Int) (cursor : Cursor) : Cursor :=
  ⟨cursor.ahead.map (Token.relined change), cursor.stop.relined change⟩

/-- An error of reading that cites another line. -/
def Error.relined (change : Option Int → Option Int) : Error → Error
  | lex character line => lex character (change line)
  | half code line => half code (change line)
  | parse complaint line => parse complaint (change line)
  | recursionLimit depth line => recursionLimit depth (change line)
  | other => other

/-- A fault of reading that cites another line. -/
def Fault.relined (change : Option Int → Option Int) : Fault → Fault
  | error e => error (e.relined change)
  | other => other

section
variable (change : Option Int → Option Int)

@[simp] theorem Token.relined_kind (token : Token) : (token.relined change).kind = token.kind := rfl

@[simp] theorem Token.relined_lexeme (token : Token) :
    (token.relined change).lexeme = token.lexeme := rfl

@[simp] theorem Token.relined_line (token : Token) :
    (token.relined change).line = change token.line := rfl

@[simp] theorem Token.relined_found (token : Token) : (token.relined change).found = token.found := rfl

@[simp] theorem Error.relined_kind (error : Error) :
    (error.relined change).kind = error.kind := by
  cases error <;> rfl

@[simp] theorem Error.relined_text (error : Error) :
    (error.relined change).text = error.text := by
  cases error <;> rfl

@[simp] theorem Cursor.relined_current (cursor : Cursor) :
    (cursor.relined change).current = cursor.current.relined change := by
  obtain ⟨ahead, stop⟩ := cursor
  cases ahead <;> rfl

@[simp] theorem Cursor.relined_following (cursor : Cursor) :
    (cursor.relined change).following = cursor.following.relined change := by
  obtain ⟨ahead, stop⟩ := cursor
  match ahead with
  | [] => rfl
  | [_] => rfl
  | _ :: _ :: _ => rfl

@[simp] theorem Cursor.relined_moved (cursor : Cursor) :
    (cursor.relined change).moved = cursor.moved.relined change := by
  simp [moved, relined]

/-- Where a list of tokens starts does not depend on their lines. -/
theorem Cursor.ofTokens_relined (tokens : List Token) :
    Cursor.ofTokens (tokens.map (Token.relined change)) =
      Cursor.relined change <$> Cursor.ofTokens tokens := by
  have words : isWord ∘ Token.relined change = isWord := rfl
  have kinds : Token.kind ∘ Token.relined change = Token.kind := rfl
  unfold ofTokens
  rw [List.getLast?_map, Option.map_map, kinds, List.dropWhile_map, List.takeWhile_map, words]
  split
  · cases tokens.dropWhile isWord <;> rfl
  · rfl

end

namespace Reading

/-- What a step does before tokens with other lines: it gives what stands for its result, or stops
    with its fault in the line that stands for the one there was. -/
def Carries (change : Option Int → Option Int) {α β : Type} (move : α → β) (step : Reading α)
    (other : Reading β) : Prop :=
  ∀ cursor : Cursor, other (cursor.relined change) =
    match step cursor with
    | .ok value after => .ok (move value) (after.relined change)
    | .error fault after => .error (fault.relined change) (after.relined change)

section
variable {change : Option Int → Option Int} {α β γ δ : Type}

theorem Carries.bind {move : α → β} {further : γ → δ} {step : Reading α} {other : Reading β}
    {next : α → Reading γ} {nextOther : β → Reading δ} (first : Carries change move step other)
    (more : ∀ value, Carries change further (next value) (nextOther (move value))) :
    Carries change further (step >>= next) (other >>= nextOther) := by
  intro cursor
  have same := first cursor
  cases outcome : step cursor with
  | ok value after =>
    rw [outcome] at same
    rw [bind_of_ok same, bind_of_ok outcome]
    exact more value after
  | error fault after =>
    rw [outcome] at same
    rw [bind_of_error same, bind_of_error outcome]

theorem Carries.ite {move : α → β} {yes no : Reading α} {yesOther noOther : Reading β} (condition : Prop)
    [Decidable condition] (holds : Carries change move yes yesOther)
    (fails : Carries change move no noOther) :
    Carries change move (if condition then yes else no) (if condition then yesOther else noOther) := by
  split
  · exact holds
  · exact fails

theorem carries_pure {move : α → β} (value : α) :
    Carries change move (pure value) (pure (move value)) := fun _ => rfl

theorem carries_complain {move : α → β} (complaint : Complaint) (line : Option Int) :
    Carries change move (complain complaint line) (complain complaint (change line)) := fun _ => rfl

theorem carries_peek : Carries change (Token.relined change) peek peek := by
  intro cursor
  change EStateM.Result.ok (cursor.relined change).current _ = EStateM.Result.ok _ _
  rw [Cursor.relined_current]
  rfl

theorem carries_peekNext : Carries change (Token.relined change) peekNext peekNext := by
  intro cursor
  change EStateM.Result.ok (cursor.relined change).following _ = EStateM.Result.ok _ _
  rw [Cursor.relined_following]
  rfl

theorem carries_sees (kind : Token.Kind) : Carries change id (sees kind) (sees kind) := by
  refine carries_peek.bind fun token => ?_
  exact carries_pure _

theorem carries_advance : Carries change (Token.relined change) advance advance := by
  refine carries_peek.bind fun token => ?_
  intro cursor
  change EStateM.Result.ok _ (cursor.relined change).moved = EStateM.Result.ok _ _
  rw [Cursor.relined_moved]
  rfl

theorem carries_remaining :
    Carries change (List.map (Token.relined change)) remaining remaining := fun _ => rfl

theorem carries_consume (kind : Token.Kind) (complaint : Found → Complaint) :
    Carries change (Token.relined change) (consume kind complaint) (consume kind complaint) := by
  refine carries_peek.bind fun token => ?_
  rw [Token.relined_kind, Token.relined_found, Token.relined_line]
  exact .ite _ carries_advance (carries_complain _ _)

end

end Reading

namespace Descent
open Reckoner.Reading
variable {change : Option Int → Option Int}

theorem carries_chain {operator? : Token.Kind → Option Operator} {operand : Reading Node}
    (each : Carries change id operand operand) (rounds : List Token) (left : Node) :
    Carries change id (chain operator? operand rounds left)
      (chain operator? operand (rounds.map (Token.relined change)) left) := by
  induction rounds generalizing left with
  | nil => exact carries_pure left
  | cons round rounds ih =>
    refine carries_peek.bind fun token => ?_
    rw [Token.relined_kind]
    cases operator? token.kind with
    | none => exact carries_pure left
    | some operator => exact carries_advance.bind fun _ => each.bind fun right => ih _

section
variable {inner : Reading Node} (inside : Carries change id inner inner)
include inside

theorem carries_arguments (function : Spelling) (line : Option Int) (rounds : List Token) :
    Carries change id (arguments inner function line rounds)
      (arguments inner function (change line) (rounds.map (Token.relined change))) := by
  induction rounds with
  | nil => exact carries_complain _ _
  | cons round rounds ih =>
    refine inside.bind fun first => carries_peek.bind fun token => ?_
    simp only [Token.relined_kind, Token.relined_found, Token.relined_line]
    cases token.kind with
    | comma => exact carries_advance.bind fun _ => ih.bind fun _ => carries_pure _
    | closing => exact carries_advance.bind fun _ => carries_pure _
    | _ => exact carries_complain _ _

theorem carries_callWith : Carries change id (callWith inner) (callWith inner) := by
  refine (carries_consume _ _).bind fun name => (carries_consume _ _).bind fun paren => ?_
  refine (carries_sees _).bind fun closes => ?_
  cases closes with
  | true => exact carries_advance.bind fun _ => carries_pure _
  | false =>
    refine carries_remaining.bind fun rounds => ?_
    exact (carries_arguments inside name.lexeme paren.line rounds).bind fun _ => carries_pure _

omit inside in
/-- A text that is no number is not cited with a line. -/
theorem carries_numeral (token : Token) :
    Carries change id (numeral token) (numeral (token.relined change)) := by
  intro cursor
  have text : (token.relined change).lexeme.toFloat = token.lexeme.toFloat := rfl
  unfold numeral
  rw [text]
  unfold Spelling.toFloat
  cases Number.read? token.lexeme.plain with
  | some x => rfl
  | none => rfl

theorem carries_factorWith : Carries change id (factorWith inner) (factorWith inner) := by
  refine carries_peek.bind fun token => ?_
  rw [Token.relined_kind, Token.relined_found, Token.relined_line, Token.relined_lexeme]
  cases token.kind with
  | opening =>
    refine carries_advance.bind fun _ => inside.bind fun node => (carries_sees _).bind fun closes => ?_
    cases closes with
    | true => exact carries_advance.bind fun _ => carries_pure _
    | false => exact carries_complain _ _
  | name =>
    refine carries_peekNext.bind fun next => ?_
    rw [Token.relined_kind]
    exact .ite _ (carries_callWith inside) (carries_advance.bind fun _ => carries_pure _)
  | number => exact carries_advance.bind fun _ => carries_numeral token
  | _ => exact carries_complain _ _

theorem carries_termWith : Carries change id (termWith inner) (termWith inner) :=
  (carries_factorWith inside).bind fun first => carries_remaining.bind fun rounds =>
    carries_chain (carries_factorWith inside) rounds first

theorem carries_expressionWith : Carries change id (expressionWith inner) (expressionWith inner) :=
  (carries_termWith inside).bind fun first => carries_remaining.bind fun rounds =>
    carries_chain (carries_termWith inside) rounds first

end

/-- The circle of expressions is closed one level at a time. -/
theorem carries_expression (depth : Nat) :
    Carries change id (expression depth) (expression depth) := by
  induction depth with
  | zero => exact fun _ => rfl
  | succ depth ih => exact carries_expressionWith ih

theorem carries_definition (depth : Nat) : Carries change id (definition depth) (definition depth) :=
  (carries_consume _ _).bind fun _ => (carries_consume _ _).bind fun _ =>
    (carries_consume _ _).bind fun _ => (carries_expression depth).bind fun _ => carries_pure _

theorem carries_parametersFrom (function : Spelling) (rounds : List Token) (seen : List Spelling) :
    Carries change id (parametersFrom function rounds seen)
      (parametersFrom function (rounds.map (Token.relined change)) seen) := by
  induction rounds generalizing seen with
  | nil => exact carries_pure seen
  | cons round rounds ih =>
    refine (carries_consume _ _).bind fun name => ?_
    simp only [Token.relined_lexeme, Token.relined_line]
    refine .ite _ (carries_complain _ _) ((carries_sees _).bind fun comma => ?_)
    cases comma with
    | true => exact carries_advance.bind fun _ => ih _
    | false => exact (carries_consume _ _).bind fun _ => carries_pure _

theorem carries_parameters (function : Spelling) :
    Carries change id (parameters function) (parameters function) := by
  refine (carries_sees _).bind fun closes => ?_
  cases closes with
  | true => exact carries_advance.bind fun _ => carries_pure _
  | false => exact carries_remaining.bind fun rounds => carries_parametersFrom function rounds []

theorem carries_function (depth : Nat) : Carries change id (function depth) (function depth) :=
  (carries_consume _ _).bind fun _ => (carries_consume _ _).bind fun name =>
    (carries_consume _ _).bind fun _ => (carries_parameters name.lexeme).bind fun _ =>
      (carries_consume _ _).bind fun _ => (carries_expression depth).bind fun _ => carries_pure _

theorem carries_statementBody (depth : Nat) (kind : Token.Kind) :
    Carries change id (statementBody depth kind) (statementBody depth kind) := by
  cases kind with
  | letWord => exact carries_definition depth
  | funcWord => exact carries_function depth
  | _ => exact carries_expression depth

theorem carries_statement (depth : Nat) : Carries change id (statement depth) (statement depth) := by
  refine carries_peek.bind fun start => (carries_statementBody depth start.kind).bind fun node => ?_
  refine carries_peek.bind fun token => ?_
  simp only [Token.relined_kind, Token.relined_found, Token.relined_line]
  exact .ite _ (carries_advance.bind fun _ => carries_pure _) (carries_complain _ _)

theorem carries_statements (depth : Nat) (rounds : List Token) :
    Carries change id (statements depth rounds)
      (statements depth (rounds.map (Token.relined change))) := by
  induction rounds with
  | nil => exact carries_pure _
  | cons round rounds ih =>
    refine carries_peek.bind fun token => ?_
    rw [Token.relined_kind]
    cases token.kind with
    | finish => exact carries_pure _
    | semicolon => exact carries_advance.bind fun _ => ih
    | _ => exact (carries_statement depth).bind fun _ => ih.bind fun _ => carries_pure _

theorem carries_program (depth : Nat) : Carries change id (program depth) (program depth) :=
  carries_remaining.bind fun rounds => (carries_statements depth rounds).bind fun _ => carries_pure _

/-- Tokens with other lines are read as the same program, or with the same fault in the line that
    stands for the one there was. -/
theorem parseTokens_relined (change : Option Int → Option Int) (depth : Nat) (tokens : List Token) :
    parseTokens depth (tokens.map (Token.relined change)) =
      (parseTokens depth tokens).mapError (Fault.relined change) := by
  unfold parseTokens
  rw [Cursor.ofTokens_relined]
  cases started : Cursor.ofTokens tokens with
  | error fault =>
    have other : fault = .noFinish := by
      unfold Cursor.ofTokens at started
      split at started
      · split at started <;> cases started
        rfl
      · cases started
        rfl
    rw [other]
    rfl
  | ok cursor =>
    have same := @carries_program change depth cursor
    simp only [Functor.map, Except.map, bind, Except.bind, EStateM.run]
    rw [same]
    cases program depth cursor with
    | ok node after => rfl
    | error fault after =>
      cases fault with
      | depth =>
        simp only [Fault.relined, Cursor.relined_current]
        rfl
      | _ => rfl

end Descent

end Reckoner
