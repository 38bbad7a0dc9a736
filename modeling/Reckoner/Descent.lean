import Reckoner.Cursor
import Reckoner.Node
import Reckoner.Token.Scan

/-!
Reading programs by recursive descent.

    program    := statement* end
    statement  := (definition | function | expression) ';' | ';'
    definition := 'let' name '=' expression
    function   := 'func' name '(' [name (',' name)*] ')' '=' expression
    expression := term (('+' | '-') term)*
    term       := factor (('*' | '/') factor)*
    factor     := '(' expression ')' | call | name | numeral
    call       := name '(' [expression (',' expression)*] ')'

A name is a call where a parenthesis follows it. The first complaint ends the reading. Expressions
may be nested up to a given depth; the parts of an expression are written for an arbitrary reader of
the expressions inside it, and `expression` closes the circle one level at a time. All of it reads at any
kind of place among tokens.
-/
namespace Reckoner.Descent
open Reckoner.Reading

/-- The operator of a sum. -/
def sumOperator? : Token.Kind → Option Operator
  | .plus => some .add
  | .minus => some .subtract
  | _ => none

/-- The operator of a product. -/
def productOperator? : Token.Kind → Option Operator
  | .times => some .multiply
  | .divide => some .divide
  | _ => none

variable {σ : Type} [TokenPlace σ]

/-- The rest of a chain of operands after `left`, grouped to the left. -/
def chain (operator? : Token.Kind → Option Operator) (operand : EStateM Fault σ Node) :
    (rounds : List Token) → (left : Node) → EStateM Fault σ Node
  | [], left => return left
  | _ :: rounds, left => do
    match operator? (← peek).kind with
    | none => return left
    | some operator =>
      let _ ← advance
      let right ← operand
      chain operator? operand rounds (.binary operator left right)

/-- The arguments of a call from the next one on, up to the closing parenthesis; `line` is that of
    the opening one. -/
def arguments (inner : EStateM Fault σ Node) (function : Spelling) (line : Option Int) :
    (rounds : List Token) → EStateM Fault σ (List Node)
  | [] => complain (.unmatchedCall function) line
  | _ :: rounds => do
    let first ← inner
    let token ← peek
    match token.kind with
    | .comma =>
      let _ ← advance
      return first :: (← arguments inner function line rounds)
    | .closing =>
      let _ ← advance
      return [first]
    | .finish => complain (.unmatchedCall function) line
    | .semicolon => complain (.unmatchedCall function) line
    | _ => complain (.argumentsEnd function token.found) token.line

/-- A call. -/
def callWith (inner : EStateM Fault σ Node) : EStateM Fault σ Node := do
  let name ← consume .name
  let paren ← consume .opening
  if ← sees .closing then
    let _ ← advance
    return .call (.spelling name.lexeme) []
  else
    return .call (.spelling name.lexeme)
      (← arguments inner name.lexeme paren.line (← remaining))

/-- A numeral; a token made by hand may hold any text. -/
def numeral (token : Token) : EStateM Fault σ Node :=
  match token.lexeme.toFloat with
  | .ok value => return .number value
  | .error fault => throw fault

/-- An operand. -/
def factorWith (inner : EStateM Fault σ Node) : EStateM Fault σ Node := do
  let token ← peek
  match token.kind with
  | .opening =>
    let _ ← advance
    let node ← inner
    if ← sees .closing then
      let _ ← advance
      return node
    else complain .unmatched token.line
  | .name =>
    if (← peekNext).kind = .opening then callWith inner
    else
      let _ ← advance
      return .reference (.spelling token.lexeme)
  | .number =>
    let _ ← advance
    numeral token
  | _ => complain (.operand token.found) token.line

/-- A product. -/
def termWith (inner : EStateM Fault σ Node) : EStateM Fault σ Node := do
  let first ← factorWith inner
  chain productOperator? (factorWith inner) (← remaining) first

/-- A sum. -/
def expressionWith (inner : EStateM Fault σ Node) : EStateM Fault σ Node := do
  let first ← termWith inner
  chain sumOperator? (termWith inner) (← remaining) first

/-- An expression nested up to `depth`. -/
def expression : (depth : Nat) → EStateM Fault σ Node
  | 0 => throw .depth
  | depth + 1 => expressionWith (expression depth)

/-- A product in which expressions are nested up to `depth`. -/
def term (depth : Nat) : EStateM Fault σ Node := termWith (expression depth)

/-- An operand in which expressions are nested up to `depth`. -/
def factor (depth : Nat) : EStateM Fault σ Node := factorWith (expression depth)

/-- A call in which expressions are nested up to `depth`. -/
def call (depth : Nat) : EStateM Fault σ Node := callWith (expression depth)

/-- A definition. -/
def definition (depth : Nat) : EStateM Fault σ Node := do
  let _ ← consume .letWord
  let name ← consume .name .definitionName
  let _ ← consume .equals (.definitionEquals name.lexeme)
  return .definition (.spelling name.lexeme) (← expression depth)

/-- The parameters of a function after those in `seen`, up to the closing parenthesis. -/
def parametersFrom (function : Spelling) :
    (rounds : List Token) → (seen : List Spelling) → EStateM Fault σ (List Spelling)
  | [], seen => return seen
  | _ :: rounds, seen => do
    let name ← consume .name (.parameter function)
    if name.lexeme ∈ seen then complain (.duplicate name.lexeme function) name.line
    else
      let more := seen ++ [name.lexeme]
      if ← sees .comma then
        let _ ← advance
        parametersFrom function rounds more
      else
        let _ ← consume .closing (.parametersEnd function)
        return more

/-- The parameters of a function, behind the opening parenthesis. -/
def parameters (function : Spelling) : EStateM Fault σ (List Spelling) := do
  if ← sees .closing then
    let _ ← advance
    return []
  else parametersFrom function (← remaining) []

/-- A function. -/
def function (depth : Nat) : EStateM Fault σ Node := do
  let _ ← consume .funcWord
  let name ← consume .name .functionName
  let _ ← consume .opening (.functionOpening name.lexeme)
  let names ← parameters name.lexeme
  let _ ← consume .equals (.functionEquals name.lexeme)
  return .function (.spelling name.lexeme) (names.map .spelling) (← expression depth)

/-- The body of a statement, by its first token. -/
def statementBody (depth : Nat) : Token.Kind → EStateM Fault σ Node
  | .letWord => definition depth
  | .funcWord => function depth
  | _ => expression depth

/-- A statement with its semicolon. A missing semicolon is reported in the line where the statement
    began. -/
def statement (depth : Nat) : EStateM Fault σ Node := do
  let start ← peek
  let node ← statementBody depth start.kind
  let token ← peek
  if token.kind = .semicolon then
    let _ ← advance
    return node
  else complain (.unfinished token.found) start.line

/-- The statements up to the end of the input; empty ones are dropped. -/
def statements (depth : Nat) : (rounds : List Token) → EStateM Fault σ (List Node)
  | [] => return []
  | _ :: rounds => do
    match (← peek).kind with
    | .finish => return []
    | .semicolon =>
      let _ ← advance
      statements depth rounds
    | _ =>
      let first ← statement depth
      return first :: (← statements depth rounds)

/-- A program. -/
def program (depth : Nat) : EStateM Fault σ Node := do
  return .program (← statements depth (← remaining))

/-- The program of a list of tokens. An exceeded depth is reported in the line of the token at which
    reading stood. -/
def parseTokens (depth : Nat) (tokens : List Token) : Except Fault Node := do
  match (program depth).run (← Cursor.ofTokens tokens) with
  | .ok node _ => return node
  | .error .depth cursor =>
    throw (.error (.recursionLimit .nesting cursor.current.line))
  | .error fault _ => throw fault

/-- The program of a source. -/
def parse (depth : Nat) (source : Spelling) : Except Fault Node :=
  match Token.tokenize source with
  | .ok tokens => parseTokens depth tokens
  | .error error => .error (.error error)

end Reckoner.Descent
