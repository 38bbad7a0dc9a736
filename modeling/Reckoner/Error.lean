import Reckoner.Datum
import Reckoner.Token

/-!
What the language reports. An error is its cause; the words, the kind and the line follow from it.
-/
namespace Reckoner

/-- Why tokens are no program. -/
inductive Complaint where
  | expected (kind : Token.Kind) (found : Found)
  /-- A statement without its semicolon. -/
  | unfinished (found : Found)
  | definitionName (found : Found)
  | definitionEquals (name : Spelling) (found : Found)
  | functionName (found : Found)
  | functionOpening (name : Spelling) (found : Found)
  | parameter (function : Spelling) (found : Found)
  | duplicate (repeated function : Spelling)
  | parametersEnd (function : Spelling) (found : Found)
  | functionEquals (name : Spelling) (found : Found)
  /-- A parenthesis around an expression that is not closed. -/
  | unmatched
  /-- A parenthesis around arguments that is not closed. -/
  | unmatchedCall (function : Spelling)
  | argumentsEnd (function : Spelling) (found : Found)
  /-- A token that no operand begins with. -/
  | operand (found : Found)
  /-- A token that fits nowhere. -/
  | unexpected (found : Found)
  deriving DecidableEq, Repr

/-- The words of a complaint. -/
def Complaint.text : Complaint → String
  | .expected kind found => s!"expected {kind.label.quoted}, got {found.text}"
  | .unfinished found => s!"missing ';' at end of statement, got {found.text}"
  | .definitionName found => s!"expected identifier after 'let', got {found.text}"
  | .definitionEquals name found => s!"expected '=' after 'let {name.plain}', got {found.text}"
  | .functionName found => s!"expected function name after 'func', got {found.text}"
  | .functionOpening name found => s!"expected '(' after 'func {name.plain}', got {found.text}"
  | .parameter function found => s!"expected parameter name in {function.plain}, got {found.text}"
  | .duplicate repeated function => s!"duplicate parameter {repeated.plain} in {function.plain}"
  | .parametersEnd function found =>
    s!"expected ',' or ')' in parameters of {function.plain}, got {found.text}"
  | .functionEquals name found =>
    s!"expected '=' after parameters of {name.plain}, got {found.text}"
  | .unmatched => "unmatched '('"
  | .unmatchedCall function => s!"unmatched '(' in call to {function.plain}"
  | .argumentsEnd function found =>
    s!"expected ',' or ')' in arguments to {function.plain}, got {found.text}"
  | .operand found => s!"unexpected {found.text} in expression"
  | .unexpected found => s!"unexpected {found.text}"

/-- A value of the wrong type. -/
inductive Mismatch where
  /-- A function where a number is needed. -/
  | functionAsValue (name : Datum)
  /-- A call of what is no function, with the type of that. -/
  | notCallable (name : Datum) (type : String)
  /-- Something other than a number where `context` needs one, with its type and display. -/
  | notNumber (context type shown : String)
  | unknownOperator (symbol : String)

/-- The words of a mismatch. -/
def Mismatch.text : Mismatch → String
  | .functionAsValue name => s!"{name.plain} is a function; call it as {name.plain}(...)"
  | .notCallable name type => s!"{name.plain} is not callable ({type})"
  | .notNumber context type shown => s!"{context} expects a Number, got {type} {shown}"
  | .unknownOperator symbol => s!"unknown operator {symbol}"

/-- Which depth was exceeded. -/
inductive Depth where
  /-- Expressions nested in the source. -/
  | nesting
  /-- Evaluation. -/
  | calls
  deriving DecidableEq, Repr

/-- The words for an exceeded depth. -/
def Depth.text : Depth → String
  | .nesting => "expression nested too deeply"
  | .calls => "maximum call depth exceeded"

/-- The kinds of errors. -/
inductive Error.Kind where
  | general
  | lex
  | parse
  | undefinedName
  | divisionByZero
  | arity
  | typeMismatch
  | recursionLimit
  deriving DecidableEq, Repr

/-- The label of a kind of errors. -/
def Error.Kind.label : Error.Kind → String
  | .general => "ArithError"
  | .lex => "LexError"
  | .parse => "ParseError"
  | .undefinedName => "UndefinedNameError"
  | .divisionByZero => "DivisionByZeroError"
  | .arity => "ArityMismatchError"
  | .typeMismatch => "TypeError"
  | .recursionLimit => "RecursionLimitError"

/-- An error of the language. -/
inductive Error where
  /-- A character that begins no token. -/
  | lex (character : String) (line : Option Int)
  /-- Half of a surrogate pair, which begins no token either, by its code point. -/
  | half (code : Nat) (line : Option Int)
  | parse (complaint : Complaint) (line : Option Int)
  | undefinedName (name : Datum)
  /-- A division by zero, with both operands as output shows them. -/
  | divisionByZero (dividend divisor : String)
  | arity (name : Datum) (expected got : Int)
  | typeMismatch (mismatch : Mismatch)
  | recursionLimit (depth : Depth) (line : Option Int)
  /-- An error whose words are given. -/
  | stated (kind : Error.Kind) (text : String) (line : Option Int)

namespace Error

/-- The kind of an error. -/
def kind : Error → Kind
  | lex .. => .lex
  | half .. => .lex
  | parse .. => .parse
  | undefinedName _ => .undefinedName
  | divisionByZero .. => .divisionByZero
  | arity .. => .arity
  | typeMismatch _ => .typeMismatch
  | recursionLimit .. => .recursionLimit
  | stated kind _ _ => kind

/-- The words of an error, without its line. -/
def text : Error → String
  | lex character _ => s!"unrecognized character {Text.quoted character}"
  | half code _ => s!"unrecognized character {Text.quotedCodes [code]}"
  | parse complaint _ => complaint.text
  | undefinedName name => s!"undefined name {name.plain}"
  | divisionByZero dividend divisor => s!"division by zero: {dividend} / {divisor}"
  | arity name expected got => s!"{name.plain} expects {expected} arguments, got {got}"
  | typeMismatch mismatch => mismatch.text
  | recursionLimit depth _ => depth.text
  | stated _ text _ => text

/-- The line that an error cites. -/
def line : Error → Option Int
  | lex _ line => line
  | half _ line => line
  | parse _ line => line
  | recursionLimit _ line => line
  | stated _ _ line => line
  | _ => none

/-- The message of an error: its words and, where it is known, its line. -/
def message (error : Error) : String :=
  match error.line with
  | none => error.text
  | some line => s!"{error.text} (line {line})"

end Error

end Reckoner
