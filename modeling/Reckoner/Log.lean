import Reckoner.Text.Lines

/-!
The log of a run. Each entry belongs to a level of detail; a run at some level writes the entries of
that level and of those below it. A log that is closed takes no entries, but they are composed all
the same.
-/
namespace Reckoner

/-- A kind of entries, by what they tell. -/
inductive Detail where
  /-- The value of a statement. -/
  | statement
  /-- A definition of a name. -/
  | definition
  | call
  deriving DecidableEq, Repr

/-- The least level at which entries of a kind are written. -/
def Detail.level : Detail → Int
  | .statement => 1
  | .definition => 2
  | .call => 3

/-- How a run is logged. -/
structure Logging where
  /-- The level of detail. -/
  level : Int := 0
  /-- Whether entries are written. -/
  writing : Bool := false
  deriving DecidableEq, Repr, Inhabited

namespace Logging

/-- The logging of a new session: entries are written from the first level on. -/
def start (level : Int) : Logging := ⟨level, 0 < level⟩

/-- The same level with nothing more to be written. -/
def close (logging : Logging) : Logging := { logging with writing := false }

/-- Whether entries of a kind are composed. -/
def includes (logging : Logging) (detail : Detail) : Bool := detail.level ≤ logging.level

end Logging

/-- An entry of a log. -/
structure Entry where
  detail : Detail
  text : String
  deriving DecidableEq, Repr

/-- Entries in the order in which they were written. -/
abbrev Log := List Entry

namespace Log

/-- The text of a log: its entries, each followed by a line feed. -/
def write (log : Log) : String := String.join (log.map fun entry => entry.text ++ "\n")

/-- The lines of a log, read as those of a text file: names may hold line ends of every sort. -/
def lines (log : Log) : List String :=
  Text.linesOf (String.ofList (Text.unifyLines log.write.toList))

end Log

end Reckoner
