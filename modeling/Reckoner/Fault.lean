import Reckoner.Error
import Reckoner.Datum.Reader
import Reckoner.Text.Utf8

/-!
Everything that can stop the program: an error of the language, or a misuse from outside it, such as
a document that is no program tree, a token list without an end or a file that is no text.
-/
namespace Reckoner

/-- Why a computation stopped. -/
inductive Fault where
  /-- An error of the language. -/
  | error (error : Error)
  /-- A depth was exceeded where no error of the language is made of it. -/
  | depth
  /-- A key that is not there. -/
  | missingKey (key : Datum)
  | unknownNode (type : Datum)
  | unknownOperator (symbol : Datum)
  /-- A text that is no number. -/
  | notNumeral (text : Spelling)
  /-- Tokens that do not end with the end of the input. -/
  | noFinish
  | noScope
  /-- A document that is no record where a tree is needed. -/
  | notRecord
  /-- Something other than a tree, by its type, where a tree is needed. -/
  | notTree (type : String)
  | notIterable (type : String)
  /-- A datum that is neither a number nor text, by its type. -/
  | notNumeric (type : String)
  /-- A datum that is no key, by its type. -/
  | notKey (type : String)
  /-- An item that is no text, by its index and type. -/
  | notText (index : Nat) (type : String)
  /-- A whole number beyond every floating-point number. -/
  | tooLarge
  /-- A quotient of whole numbers beyond every floating-point number. -/
  | quotientTooLarge
  /-- Values, by their types, on which an operator does not work. -/
  | unsupported (symbol left right : String)
  /-- A value, by its type, that cannot be joined to one of another type. -/
  | notJoinable (type other : String)
  /-- A value, by its type, that does not say how often. -/
  | notCount (type : String)
  /-- A whole number beyond every count. -/
  | countTooLarge
  | noToken
  /-- A tree that has no statements, by its type. -/
  | noBody (type : String)
  /-- A program inside a program. -/
  | innerProgram
  | isDirectory (path : Spelling)
  | nameTooLong (path : Spelling)
  | notUtf8 (fault : Text.Utf8.Fault)
  /-- Halves of surrogate pairs, by their positions and the first of them, in a text for a file. -/
  | notEncodable (first last code : Nat)
  /-- A text that is no document, with the message for it. -/
  | notDocument (message : String)

/-- The words for bytes that are no text. -/
def Text.Utf8.Fault.message (fault : Text.Utf8.Fault) : String :=
  let reason :=
    match fault.reason with
    | .start => "invalid start byte"
    | .continuation => "invalid continuation byte"
    | .ended => "unexpected end of data"
  let bytes :=
    if fault.first = fault.last then
      s!"byte 0x{String.ofList (Text.hexDigits 2 fault.byte)} in position {fault.first}"
    else s!"bytes in position {fault.first}-{fault.last}"
  s!"'utf-8' codec can't decode {bytes}: {reason}"

namespace Fault

/-- The message of a fault; an exceeded depth has none of its own. -/
def message : Fault → String
  | error e => e.message
  | depth => ""
  | missingKey key => key.shown
  | unknownNode type => s!"Unknown AST node type: {type.plain}"
  | unknownOperator symbol => s!"Unknown binary operator: {symbol.shown}"
  | notNumeral text => s!"could not convert string to float: {text.quoted}"
  | noFinish => "token sequence must end with an EOF token"
  | noScope => "an environment needs at least one scope"
  | notRecord => "Invalid AST object"
  | notTree type => s!"Unsupported node for serialization: {type}"
  | notIterable type => s!"'{type}' object is not iterable"
  | notNumeric type => s!"float() argument must be a string or a real number, not '{type}'"
  | notKey type => s!"unhashable type: '{type}'"
  | notText index type => s!"sequence item {index}: expected str instance, {type} found"
  | tooLarge => "int too large to convert to float"
  | quotientTooLarge => "integer division result too large for a float"
  | unsupported symbol left right =>
    s!"unsupported operand type(s) for {symbol}: '{left}' and '{right}'"
  | notJoinable type other => s!"can only concatenate {type} (not \"{other}\") to {type}"
  | notCount type => s!"can't multiply sequence by non-int of type '{type}'"
  | countTooLarge => "cannot fit 'int' into an index-sized integer"
  | noToken => "tuple index out of range"
  | noBody type => s!"'{type}' object has no attribute 'body'"
  | innerProgram => "evaluate: unexpected node type <class 'arith.ast.Program'>"
  | isDirectory path => s!"[Errno 21] Is a directory: {path.quoted}"
  | nameTooLong path => s!"[Errno 36] File name too long: {path.quoted}"
  | notUtf8 fault => fault.message
  | notEncodable first last code =>
    let halves :=
      if first = last then s!"character {Text.quotedCodes [code]} in position {first}"
      else s!"characters in position {first}-{last}"
    s!"'utf-8' codec can't encode {halves}: surrogates not allowed"
  | notDocument message => message

end Fault

/-- The number that a text stands for. -/
def Spelling.toFloat (text : Spelling) : Except Fault Float :=
  match Number.read? text.plain with
  | some x => .ok x
  | none => .error (.notNumeral text)

namespace Datum

/-- The number that a datum stands for: a number of either sort, a truth value, or the text of a
    number. -/
def toFloat : Datum → Except Fault Float
  | number value => .ok value
  | integer value => match Number.ofInt? value with
    | some x => .ok x
    | none => .error .tooLarge
  | bool value => .ok (if value then 1.0 else 0.0)
  | spelling value => value.toFloat
  | other => .error (.notNumeric other.typeName)

/-- The elements of a datum: the items of a list, the characters of a text, the keys of a record. -/
def elements : Datum → Except Fault (List Datum)
  | list items => .ok items
  | spelling value => .ok (value.codes.map fun code => spelling (.ofCodes [code]))
  | record fields => .ok (fields.map fun field => spelling field.1)
  | other => .error (.notIterable other.typeName)

/-- A datum as a key. -/
def asKey (key : Datum) : Except Fault Datum :=
  if key.isKey then .ok key else .error (.notKey key.typeName)

/-- Checks that data are texts; `index` is that of the first. -/
def checkTexts (index : Nat) : List Datum → Except Fault Unit
  | [] => .ok ()
  | spelling _ :: rest => checkTexts (index + 1) rest
  | other :: _ => .error (.notText index other.typeName)

/-- The first halves of surrogate pairs among code points, the first of which is at `position`. -/
def unencodable (position : Nat) (codes : List Nat) : Fault :=
  let before := codes.takeWhile fun code => code.isValidChar
  let halves := (codes.drop before.length).takeWhile fun code => ¬ code.isValidChar
  let first := position + before.length
  .notEncodable first (first + halves.length - 1) (halves.headD 0)

/-- The sentence that data make up, the first of which is at `position`, as a file can hold it. -/
def sentence (position : Nat) : List Datum → Except Fault String
  | [] => .ok ""
  | spelling (.broken codes _) :: _ => .error (unencodable position codes)
  | piece :: rest => (piece.plain ++ ·) <$> sentence (position + piece.plain.length) rest

end Datum

end Reckoner
