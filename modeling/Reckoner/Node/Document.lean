import Reckoner.Datum.Writer
import Reckoner.Limits
import Reckoner.Node.Codec

/-!
Program trees as texts: a tree is written as the document of its datum, and read back from any
document whose datum is that of a tree.
-/
namespace Reckoner

/-- The document of a tree. -/
def Node.toDocument (limits : Limits) (node : Node) : Except Fault String :=
  Datum.write <$> node.encodeWithin limits.trees

/-- The tree in a document. -/
def Node.ofDocument (limits : Limits) (text : String) : Except Fault Node :=
  match Datum.read limits.documents text with
  | .ok datum => Node.decode datum
  | .error .tooDeep => .error .depth
  | .error fault => .error (.notDocument (fault.message text))

/-- A fault that says of a document that it holds no tree. -/
def Fault.blamesDocument : Fault → Bool
  | .missingKey _ => true
  | .unknownNode _ => true
  | .unknownOperator _ => true
  | .notNumeral _ => true
  | .notRecord => true
  | .notIterable _ => true
  | .notNumeric _ => true
  | .notUtf8 _ => true
  | .notDocument _ => true
  | _ => false

end Reckoner
