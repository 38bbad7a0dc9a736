import Reckoner.Command.Arguments
import Reckoner.Command.Folder
import Reckoner.Node.Document
import Reckoner.Session

/-!
The command line: it prints the tokens of a program, writes the tree of a program to a file, or runs
a program or a tree that was written, with a log on request. A command works on a folder and leaves
it changed; what it prints, it prints at its end.
-/
namespace Reckoner.Command

/-- Why a command stops before its end. -/
inductive Stop where
  | fault (fault : Fault)
  /-- A path that leads to no place. -/
  | astray (path : Path) (reason : Folder.Astray)
  /-- A file that holds no tree. -/
  | invalidTree (path : Path) (fault : Fault)
  | misuse (misuse : Misuse)

/-- A step of a command, which may change files. -/
abbrev Task := EStateM Stop Folder

/-- How a command ended. -/
structure Outcome where
  /-- The exit status, or a fault that no message was made of. -/
  status : Except Fault Nat
  output : String := ""
  errors : String := ""
  folder : Folder

namespace Task

/-- The value of a computation that may fail. -/
def lift {α : Type} : Except Fault α → Task α
  | .ok value => pure value
  | .error fault => throw (.fault fault)

/-- The text of a file, every line end of which is a line feed. -/
def readText (path : Path) : Task String := do
  match (← get).find path with
  | .error astray => throw (.astray path astray)
  | .ok .directory => throw (.fault (.isDirectory path.text))
  | .ok (.file content) =>
    match content.read with
    | .ok text => return String.ofList (Text.unifyLines text.toList)
    | .error fault => throw (.fault (.notUtf8 fault))

/-- Writes a file. -/
def writeText (path : Path) (text : String) : Task Unit := do
  let folder ← get
  match folder.locate path with
  | .error astray => throw (.astray path astray)
  | .ok place =>
    if folder.at? place = some .directory then throw (.fault (.isDirectory path.text))
    else set (folder.put place (.file (.text text)))

end Task

/-- The program in a file, by the reader with a name. -/
def readProgram (limits : Limits) (frontend : Datum) (path : Path) : Task Node := do
  let reader ← Task.lift (Frontend.ofDatum frontend)
  let source ← Task.readText path
  Task.lift (reader.parse limits source)

/-- The tree in a file. -/
def readTree (limits : Limits) (path : Path) : Task Node := do
  let tree : Task Node := do Task.lift (Node.ofDocument limits (← Task.readText path))
  tryCatch tree fun
    | .fault fault => throw (if fault.blamesDocument then .invalidTree path fault else .fault fault)
    | stop => throw stop

/-- Where the log is written. -/
def logPath : Path := ⟨"", ["debug.txt"]⟩

/-- The dump of tokens. -/
def tokenDump (tokens : List Token) : String :=
  String.join (tokens.zipIdx.map fun (token, index) => s!"Token {index}: {token.shown}\n")

/-- Prints the tokens of a program. -/
def printTokens (path : Path) : Task String := do
  let source ← Task.readText path
  match Token.tokenize source with
  | .ok tokens => return tokenDump tokens
  | .error error => throw (.fault (.error error))

/-- Writes the tree of a program next to it and prints where. -/
def emitTree (limits : Limits) (frontend : Datum) (path : Path) : Task String := do
  let program ← readProgram limits frontend path
  let document ← Task.lift (program.toDocument limits)
  let target := path.extended ".ast.json"
  Task.writeText target document
  return target.text.plain ++ "\n"

/-- Runs a program and prints its value; with a verbosity it writes the log anew. -/
def execute (limits : Limits) (verbosity : Nat) (program : Node) : Task String := do
  let report := (Session.start verbosity).run limits [] program
  if 0 < verbosity then Task.writeText logPath report.log.write
  return Number.text (← Task.lift report.result) ++ "\n"

/-- Does what the arguments ask for; an empty path counts as none. -/
def perform (limits : Limits) (arguments : Arguments) : Task String := do
  if arguments.tokens ≠ "" then printTokens (Path.ofText arguments.tokens)
  else if arguments.emit ≠ "" then
    emitTree limits arguments.frontend (Path.ofText arguments.emit)
  else if arguments.tree ≠ "" then
    execute limits arguments.verbosity (← readTree limits (Path.ofText arguments.tree))
  else if arguments.program ≠ "" then
    let path := Path.ofText arguments.program
    execute limits arguments.verbosity (← readProgram limits arguments.frontend path)
  else throw (.misuse .missingProgram)

/-- The outcome of a misuse. -/
def misused (misuse : Misuse) (folder : Folder) : Outcome :=
  { status := .ok 2, errors := usage ++ s!"arith: error: {misuse.message}\n", folder }

/-- The outcome of a command that stopped. -/
def stopped (stop : Stop) (folder : Folder) : Outcome :=
  match stop with
  | .misuse misuse => misused misuse folder
  | .astray path .missing =>
    { status := .ok 1, errors := s!"Error: file {path.text.plain} not found\n", folder }
  | .astray path .tooLong => { status := .error (.nameTooLong path.text), folder }
  | .invalidTree path fault =>
    { status := .ok 1
      errors := s!"Error: invalid AST file {path.text.plain}: {fault.message}\n"
      folder }
  | .fault (.error error) =>
    { status := .ok 1, errors := s!"{error.kind.label}: {error.message}\n", folder }
  | .fault fault => { status := .error fault, folder }

/-- Runs the command line in a folder. -/
def run (limits : Limits) (words : List Spelling) (folder : Folder) : Outcome :=
  match readWords words with
  | .error misuse => misused misuse folder
  | .ok .explain => { status := .ok 0, output := explanation, folder }
  | .ok (.proceed arguments) =>
    match (perform limits arguments).run folder with
    | .ok output after => { status := .ok 0, output, folder := after }
    | .error stop after => stopped stop after

end Reckoner.Command
