import Reckoner.Descent
import Reckoner.Phrase

/-!
Reading programs by a machine that takes one token at a time and keeps the open parentheses on a
stack. A step either leads to a mode from which a program can still be completed or refuses the
token, so the machine stops at the first token that fits nowhere. It skips only plain blanks, and
it takes tokens as they are scanned: of a stray character and a refused token the first one counts.
What is wrong with a source that it refuses is left to the reader by descent.
-/
namespace Reckoner.Machine
open Reckoner.Token (Lexed)

/-- How a statement began. -/
inductive Heading where
  | plain
  | definition (name : Spelling)
  | function (name : Spelling) (parameters : List Token)

/-- The pending operands of an expression: those of the sum and those of the current product. -/
structure Operands where
  sum : Phrase.Pending := []
  product : Phrase.Pending := []

/-- An open parenthesis. -/
inductive Paren where
  | group
  /-- Around arguments, with those that are complete, latest first. -/
  | call (function : Spelling) (before : List Phrase)

/-- Where an expression stands: in which statement, inside which parentheses, innermost first, each
    with the operands outside it, and behind which operands. -/
structure Site where
  heading : Heading
  parens : List (Paren × Operands) := []
  operands : Operands := {}

/-- What the machine has read of the current statement. -/
inductive Mode where
  /-- Nothing. -/
  | between
  | afterLet
  | afterLetName (name : Spelling)
  | afterFunc
  | afterFuncName (name : Spelling)
  /-- The parenthesis in front of parameters. -/
  | parameters (name : Spelling)
  /-- A comma behind parameters. -/
  | nextParameter (name : Spelling) (before : List Token)
  /-- A parameter. -/
  | afterParameter (name : Spelling) (before : List Token)
  /-- The parenthesis behind parameters. -/
  | afterParameters (name : Spelling) (before : List Token)
  /-- All before an operand. -/
  | operand (site : Site)
  /-- A name in the place of an operand. -/
  | afterName (site : Site) (name : Spelling)
  /-- The parenthesis in front of arguments. -/
  | arguments (site : Site) (function : Spelling)
  /-- An operand. -/
  | afterOperand (site : Site) (operand : Phrase)

/-- The complete clauses, latest first, and the current statement. -/
structure State where
  clauses : List Clause := []
  mode : Mode := .between

/-- The clause of a statement. -/
def clauseOf (heading : Heading) (value : Phrase) : Clause :=
  match heading with
  | .plain => .expression value
  | .definition name => .definition name value
  | .function name parameters => .function name parameters value

/-- The expression that an operand completes. -/
def Operands.whole (operands : Operands) (last : Phrase) : Phrase :=
  Phrase.close operands.sum (Phrase.close operands.product last)

/-- The mode after a token that begins an operand. -/
def operandStep (site : Site) (token : Token) : Option Mode :=
  match token.kind with
  | .number => some (.afterOperand site (.numeral token.lexeme))
  | .name => some (.afterName site token.lexeme)
  | .opening =>
    some (.operand { site with parens := (.group, site.operands) :: site.parens, operands := {} })
  | _ => none

/-- The state after a token behind an operand. -/
def operatorStep (clauses : List Clause) (site : Site) (last : Phrase) (token : Token) :
    Option State :=
  match token.kind, site.parens with
  | .semicolon, [] => some ⟨clauseOf site.heading (site.operands.whole last) :: clauses, .between⟩
  | .closing, (.group, outer) :: parens =>
    some ⟨clauses, .afterOperand { site with parens, operands := outer } (site.operands.whole last)⟩
  | .closing, (.call function before, outer) :: parens =>
    let arguments := (site.operands.whole last :: before).reverse
    some ⟨clauses, .afterOperand { site with parens, operands := outer } (.call function arguments)⟩
  | .comma, (.call function before, outer) :: parens =>
    let paren := Paren.call function (site.operands.whole last :: before)
    some ⟨clauses, .operand { site with parens := (paren, outer) :: parens, operands := {} }⟩
  | kind, _ =>
    match Descent.sumOperator? kind, Descent.productOperator? kind with
    | some operator, _ =>
      let operands : Operands :=
        { sum := (Phrase.close site.operands.product last, operator) :: site.operands.sum }
      some ⟨clauses, .operand { site with operands }⟩
    | none, some operator =>
      let operands : Operands :=
        { site.operands with product := (last, operator) :: site.operands.product }
      some ⟨clauses, .operand { site with operands }⟩
    | none, none => none

/-- The state after a token. -/
def step (state : State) (token : Token) : Option State :=
  let go (mode : Mode) : Option State := some { state with mode }
  let stay (mode? : Option Mode) : Option State := mode?.bind go
  match state.mode, token.kind with
  | .between, .semicolon => go .between
  | .between, .letWord => go .afterLet
  | .between, .funcWord => go .afterFunc
  | .between, _ => stay (operandStep ⟨.plain, [], {}⟩ token)
  | .afterLet, .name => go (.afterLetName token.lexeme)
  | .afterLetName name, .equals => go (.operand ⟨.definition name, [], {}⟩)
  | .afterFunc, .name => go (.afterFuncName token.lexeme)
  | .afterFuncName name, .opening => go (.parameters name)
  | .parameters name, .closing => go (.afterParameters name [])
  | .parameters name, .name => go (.afterParameter name [token])
  | .nextParameter name before, .name => go (.afterParameter name (before ++ [token]))
  | .afterParameter name before, .comma => go (.nextParameter name before)
  | .afterParameter name before, .closing => go (.afterParameters name before)
  | .afterParameters name before, .equals => go (.operand ⟨.function name before, [], {}⟩)
  | .operand site, _ => stay (operandStep site token)
  | .afterName site name, .opening => go (.arguments site name)
  | .afterName site name, _ => operatorStep state.clauses site (.reference name) token
  | .arguments site function, .closing => go (.afterOperand site (.call function []))
  | .arguments site function, _ =>
    let inside : Site :=
      { site with parens := (.call function [], site.operands) :: site.parens, operands := {} }
    stay (operandStep inside token)
  | .afterOperand site last, _ => operatorStep state.clauses site last token
  | _, _ => none

/-- How the machine ends. -/
inductive Verdict where
  | accepted (clauses : List Clause)
  | stray (character : Char) (line : Nat)
  | refused (found : Found) (line : Option Int)

/-- The end of a machine that took every token. -/
def finish (state : State) : Token.Ending → Verdict
  | .stray character line => .stray character line
  | .finish line =>
    match state.mode with
    | .between => .accepted state.clauses.reverse
    | _ => .refused .finish (some line)

/-- Runs the machine on the tokens of a scan. -/
def run (ending : Token.Ending) : State → List Token → Verdict
  | state, [] => finish state ending
  | state, token :: rest =>
    match step state token with
    | some next => run ending next rest
    | none => .refused token.found token.line

/-- The verdict on a scan. -/
def judge (lexed : Lexed) : Verdict := run lexed.ending {} lexed.tokens

/-- The error for a source that was refused at a token: the complaint of the reader by descent where
    it has one, else that the token was unexpected. Other faults of that reader remain. -/
def diagnose (depth : Nat) (source : Spelling) (found : Found) (line : Option Int) :
    Except Fault Error :=
  match Descent.parse depth source with
  | .ok _ => .ok (.parse (.unexpected found) (line.filter (0 < ·)))
  | .error (.error error) => if error.kind = .parse then .ok error else .error (.error error)
  | .error fault => .error fault

/-- What was met, by the type and text of a terminal. -/
def foundTerminal (type text : Spelling) : Found :=
  if type = "$END" then .finish else .lexeme text

/-- The program of a source. Descents into the source for a diagnosis go down to `depth`, phrases
    may have `levels` levels. -/
def parse (depth levels : Nat) (source : Spelling) : Except Fault Node :=
  match judge (Token.scan Text.isPlainBlank source) with
  | .stray character line => .error (.error (Token.strayError source character line))
  | .refused found line => do throw (.error (← diagnose depth source found line))
  | .accepted clauses =>
    match Clause.toProgram levels clauses with
    | .error .depth => .error (.error (.recursionLimit .nesting none))
    | result => result

end Reckoner.Machine
