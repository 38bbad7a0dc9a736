import Reckoner.Fault
import Reckoner.Node
import Reckoner.Token

/-!
Phrases: programs as they are written. Operands of one precedence stand side by side in a chain and
parentheses around an expression leave no trace. A phrase becomes a node by grouping its chains to
the left; this goes down a phrase level by level and stops at a given depth. Clauses are the
statements; the parameters of a function keep their tokens, so that a repeated one can be cited.
-/
namespace Reckoner

/-- An expression as it is written. -/
inductive Phrase where
  | numeral (lexeme : Spelling)
  | reference (name : Spelling)
  | call (function : Spelling) (arguments : List Phrase)
  /-- At least two operands with the operators between them. -/
  | chain (first : Phrase) (links : List (Operator × Phrase))
  deriving Inhabited

/-- A statement as it is written. -/
inductive Clause where
  | definition (name : Spelling) (value : Phrase)
  | function (name : Spelling) (parameters : List Token) (body : Phrase)
  | expression (value : Phrase)

namespace Phrase

/-- The operands before the one that is being read, each with the operator behind it, latest
    first. -/
abbrev Pending := List (Phrase × Operator)

/-- The chain of pending operands and a last one; a single operand is no chain. -/
def close (pending : Pending) (last : Phrase) : Phrase :=
  match pending with
  | [] => last
  | _ :: _ =>
    let (first, links) := pending.foldl
      (fun (operand, links) (before, operator) => (before, (operator, operand) :: links)) (last, [])
    .chain first links

/-- The node of a phrase with at most `depth` levels. -/
def toNode : (depth : Nat) → Phrase → Except Fault Node
  | 0, _ => .error .depth
  | _ + 1, numeral lexeme => .number <$> lexeme.toFloat
  | _ + 1, reference name => .ok (.reference (.spelling name))
  | depth + 1, call function arguments => do
    return .call (.spelling function) (← arguments.mapM (toNode depth))
  | depth + 1, chain first links => do
    links.foldlM (fun left link => do return .binary link.1 left (← toNode depth link.2))
      (← toNode depth first)

end Phrase

namespace Clause

/-- The first of the tokens whose lexeme was seen before. -/
def repeated? (seen : List Spelling) : List Token → Option Token
  | [] => none
  | token :: rest =>
    if token.lexeme ∈ seen then some token else repeated? (seen ++ [token.lexeme]) rest

/-- The node of a clause whose phrases have at most `depth` levels. -/
def toNode (depth : Nat) : Clause → Except Fault Node
  | definition name value => do return .definition (.spelling name) (← value.toNode depth)
  | expression value => value.toNode depth
  | function name parameters body => do
    let node ← body.toNode depth
    match repeated? [] parameters with
    | some token =>
      throw (.error (.parse (.duplicate token.lexeme name) token.line))
    | none =>
      let names := parameters.map fun token => Datum.spelling token.lexeme
      return .function (.spelling name) names node

/-- The program of clauses whose phrases have at most `depth` levels. -/
def toProgram (depth : Nat) (clauses : List Clause) : Except Fault Node :=
  .program <$> clauses.mapM (toNode depth)

end Clause

end Reckoner
