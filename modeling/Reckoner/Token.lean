import Reckoner.Text.Spelling

/-!
Tokens: the words of a program, each with its kind, the text it was written with and its line. A
token made by hand may have a kind of its own, any text, and no line.
-/
namespace Reckoner

/-- What a token is. -/
inductive Token.Kind where
  | number
  | plus
  | minus
  | times
  | divide
  | opening
  | closing
  | letWord
  | funcWord
  | name
  | equals
  | semicolon
  | comma
  /-- The end of the input. -/
  | finish
  | other (label : Spelling)
  deriving DecidableEq, Repr

/-- The label of a kind in messages and dumps. -/
def Token.Kind.label : Token.Kind → Spelling
  | .number => "NUMBER"
  | .plus => "+"
  | .minus => "-"
  | .times => "*"
  | .divide => "/"
  | .opening => "("
  | .closing => ")"
  | .letWord => "LET"
  | .funcWord => "FUNC"
  | .name => "IDENT"
  | .equals => "="
  | .semicolon => ";"
  | .comma => ","
  | .finish => "EOF"
  | .other label => label

/-- The kinds of the language. -/
def Token.Kind.known : List Token.Kind :=
  [.number, .plus, .minus, .times, .divide, .opening, .closing, .letWord, .funcWord, .name, .equals,
    .semicolon, .comma, .finish]

/-- The kind with a label. -/
def Token.Kind.ofLabel (label : Spelling) : Token.Kind :=
  (Token.Kind.known.find? fun kind => kind.label = label).getD (.other label)

/-- A word of a program. -/
structure Token where
  kind : Token.Kind
  lexeme : Spelling
  line : Option Int
  deriving DecidableEq, Repr

/-- What a reader met where it expected something else. -/
inductive Found where
  | finish
  | lexeme (text : Spelling)
  deriving DecidableEq, Repr

/-- The words for what was met. -/
def Found.text : Found → String
  | .finish => "end of input"
  | .lexeme text => text.quoted

namespace Token

/-- A token as something that was met. -/
def found (token : Token) : Found :=
  if token.kind = .finish then .finish else .lexeme token.lexeme

/-- A token in a dump. -/
def shown (token : Token) : String :=
  let line := token.line.elim "None" toString
  s!"{token.kind.label.plain} {token.lexeme.quoted} (line {line})"

end Token

end Reckoner
