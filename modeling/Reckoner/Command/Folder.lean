import Reckoner.Command.Path
import Reckoner.Fault

/-!
The files that a command sees. Every file stands under the path at which the directories lead to it;
a directory is there if it is listed or if a file stands below it. The working directory and all
directories around it are there. Names and paths are bounded in length, counted in bytes.
-/
namespace Reckoner

/-- What is in a file. -/
inductive Content where
  | text (value : String)
  | bytes (values : List Nat)
  deriving DecidableEq, Repr

/-- What is in a file, read as text; line ends stay as they are. -/
def Content.read : Content → Except Text.Utf8.Fault String
  | .text value => .ok value
  | .bytes values => String.ofList <$> Text.Utf8.decode values

/-- What stands at a path. -/
inductive Item where
  | file (content : Content)
  | directory
  deriving DecidableEq, Repr

/-- Files and directories by their paths. -/
structure Folder where
  items : List (Path × Item) := []
  deriving Inhabited

namespace Folder

/-- What stands at a path to which directories lead. -/
def at? (folder : Folder) (place : Path) : Option Item :=
  match folder.items.lookup place with
  | some item => some item
  | none =>
    let below := folder.items.any fun (path, _) =>
      path.root = place.root ∧ place.names.isPrefixOf path.names
    if below ∨ place.names.all (· = "..") then some .directory else none

/-- Goes one directory up; names are given last first. Nothing is above the root. -/
def up (root : String) : List Spelling → List Spelling
  | [] => if root = "" then [".."] else []
  | name :: rest => if name = ".." then ".." :: name :: rest else rest

/-- Why a path leads to no place. -/
inductive Astray where
  | missing
  | tooLong
  deriving DecidableEq, Repr

/-- The greatest size of a name, in bytes. -/
def nameLimit : Nat := 255

/-- The greatest size of a path, in bytes. -/
def pathLimit : Nat := 4095

/-- A half of a surrogate pair that stands for one byte which is no character. -/
def isByte (code : Nat) : Bool := 0xdc80 ≤ code ∧ code ≤ 0xdcff

/-- A code point that a name of a file can have: neither the null character nor half of a surrogate
    pair, unless that half stands for a byte. -/
def isNameable (code : Nat) : Bool := code ≠ 0 ∧ (code.isValidChar ∨ isByte code)

/-- The size of a name or a path, in bytes. -/
def byteSize (name : Spelling) : Nat :=
  let sizes := name.codes.map fun code =>
    if isByte code then 1 else (Spelling.scalar code).utf8Size
  sizes.foldl (· + ·) 0

/-- Follows names from a place, whose names are given last first, through directories. A name is
    measured where it is looked up. -/
def follow (folder : Folder) (root : String) :
    (place : List Spelling) → List Spelling → Except Astray Path
  | place, [] => .ok ⟨root, place.reverse⟩
  | place, name :: rest =>
    if folder.at? ⟨root, place.reverse⟩ ≠ some .directory then .error .missing
    else if nameLimit < byteSize name then .error .tooLong
    else folder.follow root (if name = ".." then up root place else name :: place) rest

/-- The place that a path leads to. -/
def locate (folder : Folder) (path : Path) : Except Astray Path :=
  if path.text.codes.any fun code => ¬ isNameable code then .error .missing
  else if pathLimit < byteSize path.text then .error .tooLong
  else folder.follow path.root [] path.names

/-- What a path leads to. -/
def find (folder : Folder) (path : Path) : Except Astray Item := do
  match folder.at? (← folder.locate path) with
  | some item => return item
  | none => throw .missing

/-- Puts an item at a place. -/
def put (folder : Folder) (place : Path) (item : Item) : Folder :=
  if folder.items.any fun entry => entry.1 = place then
    ⟨folder.items.map fun entry => if entry.1 = place then (place, item) else entry⟩
  else ⟨folder.items ++ [(place, item)]⟩

/-- The text of the file at a place. -/
def textAt? (folder : Folder) (place : Path) : Option String :=
  match folder.at? place with
  | some (.file content) => content.read.toOption
  | _ => none

/-- The files whose text is another than it was before, with their texts. -/
def changes (before after : Folder) : List (Path × String) :=
  after.items.filterMap fun (place, _) =>
    match after.textAt? place with
    | some text => if before.textAt? place = some text then none else some (place, text)
    | none => none

end Folder

end Reckoner
