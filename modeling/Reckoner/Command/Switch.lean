import Reckoner.Frontend

/-!
The switches of the command line, and what is said about its use.
-/
namespace Reckoner.Command

/-- A switch of the command line. -/
inductive Switch where
  | help
  | verbose
  | frontend
  | tokens
  /-- Writes the tree of a program. -/
  | emit
  /-- Runs a tree that was written. -/
  | tree
  deriving DecidableEq, Repr

namespace Switch

/-- The switches in the order in which they are explained. -/
def all : List Switch := [help, verbose, frontend, tokens, emit, tree]

/-- The words for a switch. -/
def words : Switch → List String
  | help => ["-h", "--help"]
  | verbose => ["-v"]
  | frontend => ["--frontend"]
  | tokens => ["--tokens"]
  | emit => ["--emit-ast"]
  | tree => ["--ast"]

/-- A switch in messages. -/
def title (switch : Switch) : String := "/".intercalate switch.words

/-- Whether a value has to follow a switch. -/
def takesValue : Switch → Bool
  | help => false
  | verbose => false
  | _ => true

/-- Whether a switch excludes the others of which this holds. -/
def isExclusive : Switch → Bool
  | tokens => true
  | emit => true
  | tree => true
  | _ => false

/-- Every word for a switch, with the switch. -/
def table : List (String × Switch) :=
  all.flatMap fun switch => switch.words.map fun word => (word, switch)

/-- The switch that a word is for. -/
def ofWord? (word : String) : Option Switch := table.lookup word

end Switch

/-- What is wrong with the words of a command line. -/
inductive Misuse where
  /-- A shortened word that more than one word begins with. -/
  | ambiguous (word : Spelling) (candidates : List String)
  | missingValue (switch : Switch)
  /-- A value for a switch that takes none. -/
  | ignoredValue (switch : Switch) (value : Spelling)
  | badChoice (value : Spelling)
  | excluded (switch other : Switch)
  | unrecognized (words : List Spelling)
  | missingProgram
  deriving DecidableEq, Repr

/-- The words for a misuse. -/
def Misuse.message : Misuse → String
  | .ambiguous word candidates =>
    "ambiguous option: " ++ word.plain ++ " could match " ++ ", ".intercalate candidates
  | .missingValue switch => s!"argument {switch.title}: expected one argument"
  | .ignoredValue switch value =>
    s!"argument {switch.title}: ignored explicit argument {value.quoted}"
  | .badChoice value =>
    let choices := ", ".intercalate (Frontend.labels.map Text.quoted)
    s!"argument {Switch.frontend.title}: invalid choice: {value.quoted} " ++
      s!"(choose from {choices})"
  | .excluded switch other =>
    s!"argument {switch.title}: not allowed with argument {other.title}"
  | .unrecognized words => "unrecognized arguments: " ++ " ".intercalate (words.map Spelling.plain)
  | .missingProgram => "missing program file; or use --tokens/--emit-ast/--ast"

/-- How the command line is used. -/
def usage : String :=
  "usage: arith [-h] [-v] [--frontend \x7bdescent,lark\x7d]\n" ++
  "             [--tokens ARITH_FILE | --emit-ast ARITH_FILE | --ast AST_JSON_FILE]\n" ++
  "             [program]\n"

/-- The explanation of the command line. -/
def explanation : String :=
  usage ++
  "\nArith expression language interpreter\n" ++
  "\npositional arguments:\n" ++
  "  program               Arith program file (.arith) to execute\n" ++
  "\noptions:\n" ++
  "  -h, --help            show this help message and exit\n" ++
  "  -v                    increase debug verbosity (can be repeated)\n" ++
  "  --frontend \x7bdescent,lark\x7d\n" ++
  "                        parser used to read the program\n" ++
  "  --tokens ARITH_FILE   print the tokens of the given .arith file\n" ++
  "  --emit-ast ARITH_FILE\n" ++
  "                        emit AST JSON for the given .arith file\n" ++
  "  --ast AST_JSON_FILE   execute AST from a JSON file\n"

end Reckoner.Command
