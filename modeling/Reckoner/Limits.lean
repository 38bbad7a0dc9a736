/-!
How deep the program goes before it gives up. Every limit is a parameter of the function that obeys
it; the standard limits are those of the command line.
-/
namespace Reckoner

/-- The depths that readers, writers and the evaluator go down to. -/
structure Limits where
  /-- Expressions nested in a source that is read by descent. -/
  nesting : Nat := 300
  /-- Levels of a phrase that becomes a tree. -/
  phrases : Nat := 300
  /-- Levels of evaluation, over all calls. -/
  calls : Nat := 1000
  /-- Levels of a tree that becomes a document. -/
  trees : Nat := 1000
  /-- Lists and records nested in a document. -/
  documents : Nat := 1000
  deriving DecidableEq, Repr

/-- The limits of the command line. -/
def Limits.standard : Limits := {}

end Reckoner
