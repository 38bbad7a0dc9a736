import Reckoner.Limits
import Reckoner.Phrase.Machine

/-!
The two readers of a source, by the names under which they are chosen.
-/
namespace Reckoner

/-- A reader of sources. -/
inductive Frontend where
  | descent
  | machine
  deriving DecidableEq, Repr

namespace Frontend

/-- The name of a reader. -/
def label : Frontend → String
  | descent => "descent"
  | machine => "lark"

/-- The names of the readers, in order. -/
def labels : List String := [descent.label, machine.label]

/-- The reader with a name. -/
def ofLabel? (label : String) : Option Frontend :=
  [descent, machine].find? fun frontend => frontend.label = label

/-- The reader that a datum names. -/
def ofDatum (name : Datum) : Except Fault Frontend := do
  let key ← name.asKey
  match key with
  | .text label => match ofLabel? label with
    | some frontend => return frontend
    | none => throw (.missingKey key)
  | _ => throw (.missingKey key)

/-- The program of a source. -/
def parse (limits : Limits) (frontend : Frontend) (source : Spelling) : Except Fault Node :=
  match frontend with
  | descent => Descent.parse limits.nesting source
  | machine => Machine.parse limits.nesting limits.phrases source

end Frontend

end Reckoner
