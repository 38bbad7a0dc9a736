import Reckoner.Datum

/-!
Writing a datum as a document. Every item and field has a line of its own, indented by its depth;
empty containers stay on one line. Text is written as it is but for quotes, backslashes and
controls.
-/
namespace Reckoner.Datum

/-- One character of a text in a document. -/
def writtenChar (c : Char) : List Char :=
  match c with
  | '"' => ['\\', '"']
  | '\\' => ['\\', '\\']
  | '\n' => ['\\', 'n']
  | '\r' => ['\\', 'r']
  | '\t' => ['\\', 't']
  | '\x0c' => ['\\', 'f']
  | '\x08' => ['\\', 'b']
  | _ => if c.toNat < 0x20 then '\\' :: 'u' :: Text.hexDigits 4 c.toNat else [c]

/-- A text in a document. -/
def writtenText (value : String) : String :=
  String.ofList ('"' :: value.toList.flatMap writtenChar ++ ['"'])

/-- The start of a line at a depth. -/
def margin (depth : Nat) : String := "\n" ++ "".pushn ' ' (2 * depth)

/-- A container with its parts on lines of their own. -/
def writtenParts (opening closing : String) (depth : Nat) (parts : List String) : String :=
  if parts.isEmpty then opening ++ closing
  else
    opening ++ margin (depth + 1) ++ ("," ++ margin (depth + 1)).intercalate parts ++
      margin depth ++ closing

mutual

/-- A datum whose lines are indented by `depth`. -/
def writtenAt (depth : Nat) : Datum → String
  | null => "null"
  | bool value => if value then "true" else "false"
  | integer value => toString value
  | number value => Number.Style.document.write value
  | spelling value => writtenText value.plain
  | list items => writtenParts "[" "]" depth (writtenItems (depth + 1) items)
  | record fields => writtenParts "\x7b" "\x7d" depth (writtenFields (depth + 1) fields)

/-- The items of a list, each as it is written at `depth`. -/
def writtenItems (depth : Nat) : List Datum → List String
  | [] => []
  | item :: rest => item.writtenAt depth :: writtenItems depth rest

/-- The fields of a record, each as it is written at `depth`. -/
def writtenFields (depth : Nat) : List (Spelling × Datum) → List String
  | [] => []
  | (key, value) :: rest =>
    (writtenText key.plain ++ ": " ++ value.writtenAt depth) :: writtenFields depth rest

end

/-- The document of a datum. -/
def write (value : Datum) : String := value.writtenAt 0

end Reckoner.Datum
