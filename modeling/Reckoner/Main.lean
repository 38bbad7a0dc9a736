import Reckoner.Command

/-!
The program of the command line: it loads the files that the words name into a folder, runs the
command there, writes the files that changed and prints what the command printed.
-/
namespace Reckoner

/-- What stands at a path of the file system. -/
def loadItem (path : Path) : IO (Option Item) := do
  try
    let bytes ← IO.FS.readBinFile path.text.plain
    return some (.file (.bytes (bytes.toList.map UInt8.toNat)))
  catch
    | .inappropriateType .. => return some .directory
    | _ => return none

/-- The place that a path leads to where every name in front of `..` is a directory. -/
def Path.place (path : Path) : Path :=
  let back := path.names.foldl
    (fun place (name : Spelling) =>
      if name = ".." then Folder.up path.root place else name :: place) []
  { path with names := back.reverse }

/-- A path and all directories on the way to it. -/
def Path.way (path : Path) : List Path :=
  (List.range path.names.length).map fun count =>
    { path with names := path.names.take (count + 1) }

/-- The paths that a command line makes a command look at. -/
def Command.pathsOf (words : List Spelling) : List Path :=
  match Command.readWords words with
  | .ok (.proceed arguments) =>
    let named := [arguments.tokens, arguments.emit, arguments.tree, arguments.program]
    let paths := (named.filter (· ≠ Spelling.whole "")).map Path.ofText
    Command.logPath :: paths ++ paths.map fun path => path.extended ".ast.json"
  | _ => []

/-- The folder of the files and directories at paths. -/
def loadFolder (paths : List Path) : IO Folder := do
  let mut folder : Folder := {}
  for path in paths.flatMap Path.way do
    if let some item ← loadItem path then
      folder := folder.put path.place item
  return folder

end Reckoner

open Reckoner in
/-- Runs the command line. -/
def main (words : List String) : IO UInt32 := do
  let spelled := words.map Spelling.whole
  let folder ← loadFolder (Command.pathsOf spelled)
  let outcome := Command.run Limits.standard spelled folder
  for (place, text) in Folder.changes folder outcome.folder do
    IO.FS.writeFile place.text.plain text
  IO.print outcome.output
  IO.eprint outcome.errors
  match outcome.status with
  | .ok status => return status.toUInt32
  | .error fault =>
    IO.eprintln fault.message
    return 1
