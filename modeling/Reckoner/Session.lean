import Reckoner.Evaluate
import Reckoner.Frontend

/-!
Sessions: programs that run one after another on the same global names, at one level of detail for
the log. A program may be given further scopes, which are in front of the global one while it runs
and are dropped afterwards. Once a session is closed nothing is written, but entries are still
composed.
-/
namespace Reckoner

/-- What a session keeps between runs. -/
structure Session where
  globals : Scope := []
  logging : Logging := {}
  deriving Inhabited

/-- What a run in a session leaves. -/
structure Report (α : Type) where
  result : Except Fault α
  /-- The further scopes afterwards, innermost first. -/
  extras : List Scope
  /-- What was written. -/
  log : Log
  session : Session

namespace Session

/-- A new session at a level of detail. -/
def start (level : Int) : Session := { logging := .start level }

/-- The session with nothing more to be written. -/
def close (session : Session) : Session := { session with logging := session.logging.close }

/-- Evaluates in the chain of the further scopes, innermost first, and the global one. Only the
    first scope of that chain can change. -/
def perform {α : Type} (session : Session) (extras : List Scope)
    (activity : (outer : List Scope) → Evaluation α) : Report α :=
  let chain := extras ++ [session.globals]
  let (result, frame) := (activity chain.tail).outcome { scope := chain.headD [] }
  let after := frame.scope :: chain.tail
  { result
    extras := after.dropLast
    log := frame.entries.reverse
    session := { session with globals := after.getLastD [] } }

/-- Runs a program. -/
def run (limits : Limits) (session : Session) (extras : List Scope) (program : Node) :
    Report Float :=
  session.perform extras fun outer => program.run session.logging limits.calls outer

/-- Evaluates a node. -/
def evaluate (limits : Limits) (session : Session) (extras : List Scope) (node : Node) :
    Report Value :=
  session.perform extras fun outer => node.evaluate session.logging limits.calls outer

/-- Gives a global name a value. -/
def define (session : Session) (name : Datum) (value : Value) : Except Fault Session := do
  return { session with globals := session.globals.set (← name.asKey) value }

/-- The value of a global name. -/
def lookup (session : Session) (name : Datum) : Except Fault Value :=
  Scope.resolve [session.globals] name

end Session

/-- Reads a source and runs it in a new session. There is a log only if the source could be read and
    the level asks for one. -/
def runSource (limits : Limits) (level : Int) (frontend : Frontend) (source : Spelling) :
    Except Fault Float × Option Log :=
  match frontend.parse limits source with
  | .error fault => (.error fault, none)
  | .ok program =>
    let session := Session.start level
    let report := session.run limits [] program
    (report.result, if session.logging.writing then some report.log else none)

end Reckoner
