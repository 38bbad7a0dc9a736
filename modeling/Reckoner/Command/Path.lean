import Reckoner.Text.Spelling

/-!
Paths of files, from the working directory or from the root. Doubled slashes and the name `.` say
nothing and are dropped; the name `..` stays, because where it leads depends on the directories.
-/
namespace Reckoner

/-- A path of a file. -/
structure Path where
  /-- The slashes in front: none, one, or exactly two. -/
  root : String := ""
  names : List Spelling
  deriving DecidableEq, Repr, Inhabited

namespace Path

/-- The slashes in front of a path. Three and more count as one. -/
def rootOf : List Char → String
  | '/' :: '/' :: '/' :: _ => "/"
  | '/' :: '/' :: _ => "//"
  | '/' :: _ => "/"
  | _ => ""

/-- The path that a text is written for. -/
def ofText (text : Spelling) : Path :=
  ⟨rootOf text.plain.toList, (text.split '/').filter fun name => name ≠ "" ∧ name ≠ "."⟩

/-- The text of a path. -/
def text (path : Path) : Spelling :=
  if path.root = "" ∧ path.names = [] then "."
  else Spelling.whole path.root ++ Spelling.joined '/' path.names

/-- The path with an ending added to its last name. -/
def extended (path : Path) (ending : String) : Path :=
  { path with names := path.names.dropLast ++ [path.names.getLastD "" ++ Spelling.whole ending] }

end Path

end Reckoner
