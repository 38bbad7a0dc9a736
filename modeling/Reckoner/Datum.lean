import Reckoner.Number.Writing
import Reckoner.Text.Spelling

/-!
Data as documents hold it: null, truth values, whole numbers, floating-point numbers, texts, lists
and records whose fields keep their order. Names in a program tree that was read from a document may
be any datum, so data also have a display form and an equality as keys.
-/
namespace Reckoner

/-- A value of a document. -/
inductive Datum where
  | null
  | bool (value : Bool)
  | integer (value : Int)
  | number (value : Float)
  | spelling (value : Spelling)
  | list (items : List Datum)
  | record (fields : List (Spelling × Datum))
  deriving Inhabited

namespace Datum

/-- The text of a string. -/
@[match_pattern] abbrev text (value : String) : Datum := spelling (.whole value)

/-- The fields of a record. -/
abbrev Fields := List (Spelling × Datum)

/-- The name of a datum's type in messages. -/
def typeName : Datum → String
  | null => "NoneType"
  | bool _ => "bool"
  | integer _ => "int"
  | number _ => "float"
  | spelling _ => "str"
  | list _ => "list"
  | record _ => "dict"

mutual

/-- A datum as messages display it, text in quotes. -/
def shown : Datum → String
  | null => "None"
  | bool value => if value then "True" else "False"
  | integer value => toString value
  | number value => Number.text value
  | spelling value => value.quoted
  | list items => "[" ++ ", ".intercalate (shownItems items) ++ "]"
  | record fields => "\x7b" ++ ", ".intercalate (shownFields fields) ++ "\x7d"

/-- The items of a list as messages display them. -/
def shownItems : List Datum → List String
  | [] => []
  | item :: rest => item.shown :: shownItems rest

/-- The fields of a record as messages display them. -/
def shownFields : List (Spelling × Datum) → List String
  | [] => []
  | (key, value) :: rest => (key.quoted ++ ": " ++ value.shown) :: shownFields rest

end

/-- A datum inside a sentence: text as it is, anything else as it is displayed. -/
def plain : Datum → String
  | spelling value => value.plain
  | other => other.shown

/-- The value of a field. -/
def field? (fields : Fields) (key : Spelling) : Option Datum := fields.lookup key

/-- Sets a field: a new key goes to the end, an old one keeps its place. -/
def setField (fields : Fields) (key : Spelling) (value : Datum) : Fields :=
  match fields with
  | [] => [(key, value)]
  | (k, v) :: rest => if k = key then (k, value) :: rest else (k, v) :: setField rest key value

/-- What a datum is as a key among numbers: truth values count as zero and one, and a
    floating-point number that is whole counts as that whole number. -/
inductive NumericKey where
  | whole (value : Int)
  | real (value : Float)

/-- The numeric key of a datum. -/
def numericKey? : Datum → Option NumericKey
  | bool value => some (.whole (if value then 1 else 0))
  | integer value => some (.whole value)
  | number value =>
    match Number.toInt? value with
    | some i => some (.whole i)
    | none => some (.real value)
  | _ => none

/-- Two data are the same key. A number that is none is the same key as itself; lists and records
    are no keys. -/
def sameKey : Datum → Datum → Bool
  | spelling a, spelling b => a == b
  | null, null => true
  | a, b =>
    match a.numericKey?, b.numericKey? with
    | some (.whole i), some (.whole j) => i == j
    | some (.real x), some (.real y) => x == y || (x.isNaN && y.isNaN)
    | _, _ => false

/-- Whether a datum can be a key. -/
def isKey : Datum → Bool
  | list _ => false
  | record _ => false
  | _ => true

@[simp] theorem sameKey_spelling (a b : Spelling) :
    sameKey (.spelling a) (.spelling b) = (a == b) := rfl

end Datum

end Reckoner
