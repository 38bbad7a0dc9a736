import Reckoner.Datum
import Reckoner.Number.Reading
import Reckoner.Text.Lines

/-!
Reading a datum from the text of a document. The reader stops at the first place where no document
can go on and says what it expected there. Containers may be nested up to a given depth.
-/
namespace Reckoner.Datum

/-- Why a text is no document. -/
inductive ReadFault where
  /-- What was expected, and the number of characters before that place. -/
  | malformed (what : String) (position : Nat)
  /-- A whole number with more digits than are converted. -/
  | tooManyDigits (count : Nat)
  /-- Containers nested beyond the depth. -/
  | tooDeep
  deriving DecidableEq, Repr

/-- The longest whole number that is converted, in digits. -/
def digitLimit : Nat := 4300

/-- The words for a fault in `source`: a place is given by line, column and position. -/
def ReadFault.message (source : String) : ReadFault → String
  | .malformed what position =>
    let before := source.toList.take position
    let line := Text.lineFeeds before + 1
    let column := (before.reverse.takeWhile (· ≠ '\n')).length + 1
    s!"{what}: line {line} column {column} (char {position})"
  | .tooManyDigits count =>
    s!"Exceeds the limit ({digitLimit} digits) for integer string conversion: value has {count} " ++
      "digits; use sys.set_int_max_str_digits() to increase the limit"
  | .tooDeep => "maximum recursion depth exceeded"

/-- A place in a text: the characters that follow, and how many came before. -/
structure Place where
  rest : List Char
  position : Nat

/-- A step of reading, which moves on in the text or fails. -/
abbrev Scan := EStateM ReadFault Place

namespace Scan

/-- Fails with what was expected at a position. -/
def fail {α : Type} (what : String) (position : Nat) : Scan α := throw (.malformed what position)

/-- Moves over the next `count` characters. -/
def skip (count : Nat) : Scan Unit :=
  modify fun place => ⟨place.rest.drop count, place.position + count⟩

/-- A blank between the parts of a document. -/
def isGap (c : Char) : Bool := c == ' ' || c == '\t' || c == '\n' || c == '\r'

/-- Moves over blanks. -/
def skipGaps : Scan Unit :=
  modify fun place =>
    let gap := place.rest.takeWhile isGap
    ⟨place.rest.drop gap.length, place.position + gap.length⟩

/-- The worth of a hexadecimal digit. -/
def hexValue? (c : Char) : Option Nat :=
  if '0' ≤ c ∧ c ≤ '9' then some (c.toNat - '0'.toNat)
  else if 'a' ≤ c ∧ c ≤ 'f' then some (c.toNat - 'a'.toNat + 10)
  else if 'A' ≤ c ∧ c ≤ 'F' then some (c.toNat - 'A'.toNat + 10)
  else none

/-- The number written by four hexadecimal digits. -/
def hexCode? (chars : List Char) : Option Nat :=
  let digits := chars.take 4
  if digits.length < 4 then none
  else digits.foldl (fun code c => do return (← code) * 16 + (← hexValue? c)) (some 0)

/-- The character behind the backslash of a short escape. -/
def shortEscape? : Char → Option Char
  | '"' => some '"'
  | '\\' => some '\\'
  | '/' => some '/'
  | 'b' => some '\x08'
  | 'f' => some '\x0c'
  | 'n' => some '\n'
  | 'r' => some '\r'
  | 't' => some '\t'
  | _ => none

/-- The code point of a code escape, whose letter stands at `position` and whose digits are the
    first of `chars`, and the number of characters that it takes from there. Two escapes can make a
    pair; a half that stands alone is a code point of its own. -/
def codeEscape (position : Nat) (chars : List Char) : Except ReadFault (Nat × Nat) :=
  let fault := fun (place : Nat) =>
    Except.error (ReadFault.malformed "Invalid \\uXXXX escape" place)
  if (chars.take 5).length ≤ 4 then fault position
  else
    match hexCode? chars with
    | none => fault position
    | some code =>
      let after := (chars.drop 4).take 7
      if 0xd800 ≤ code ∧ code < 0xdc00 ∧ after.length > 6 ∧ after.take 2 = ['\\', 'u'] then
        match hexCode? (after.drop 2) with
        | none => fault (position + 6)
        | some low =>
          if 0xdc00 ≤ low ∧ low < 0xe000 then
            .ok (0x10000 + (code - 0xd800) * 0x400 + (low - 0xdc00), 10)
          else .ok (code, 4)
      else .ok (code, 4)

/-- The code points of a text that began at `start`, up to its closing quote. -/
def textBody (start : Nat) : (fuel : Nat) → Scan (List Nat)
  | 0 => fail "Unterminated string starting at" start
  | fuel + 1 => do
    let place ← get
    match place.rest with
    | [] => fail "Unterminated string starting at" start
    | '"' :: _ => skip 1; return []
    | '\\' :: [] => fail "Unterminated string starting at" start
    | '\\' :: 'u' :: digits =>
      match codeEscape (place.position + 1) digits with
      | .error fault => throw fault
      | .ok (code, taken) => skip (2 + taken); return code :: (← textBody start fuel)
    | '\\' :: mark :: _ =>
      match shortEscape? mark with
      | none => fail "Invalid \\escape" place.position
      | some c => skip 2; return c.toNat :: (← textBody start fuel)
    | c :: _ =>
      if c.toNat ≤ 0x1f then fail "Invalid control character at" place.position
      else skip 1; return c.toNat :: (← textBody start fuel)

/-- A text, from its opening quote on. -/
def quotedText (fuel : Nat) : Scan Spelling := do
  let place ← get
  skip 1
  return .ofCodes (← textBody place.position fuel)

/-- The characters of a decimal digit run. -/
def digitSpan (chars : List Char) : List Char := chars.takeWhile Char.isDigit

/-- The whole part of a number: one zero, or digits that do not begin with zero. -/
def wholePart : List Char → List Char
  | '0' :: _ => ['0']
  | chars => digitSpan chars

/-- The fraction of a number, with its point; it needs a digit. -/
def fractionPart : List Char → List Char
  | '.' :: rest => if (digitSpan rest).isEmpty then [] else '.' :: digitSpan rest
  | _ => []

/-- The exponent of a number, with its mark; it needs a digit. -/
def exponentPart : List Char → List Char
  | [] => []
  | mark :: rest =>
    if mark = 'e' ∨ mark = 'E' then
      let sign := rest.take (if rest.head? = some '-' ∨ rest.head? = some '+' then 1 else 0)
      let digits := digitSpan (rest.drop sign.length)
      if digits.isEmpty then [] else mark :: (sign ++ digits)
    else []

/-- A number: whole where it has neither fraction nor exponent. -/
def numberValue : Scan Datum := do
  let place ← get
  let sign := place.rest.take (if place.rest.head? = some '-' then 1 else 0)
  let afterSign := place.rest.drop sign.length
  let whole := wholePart afterSign
  let afterWhole := afterSign.drop whole.length
  let fraction := fractionPart afterWhole
  let exponent := exponentPart (afterWhole.drop fraction.length)
  if whole.isEmpty then fail "Expecting value" place.position
  else
    let chars := sign ++ whole ++ fraction ++ exponent
    skip chars.length
    if fraction.isEmpty && exponent.isEmpty then
      if whole.length > digitLimit then throw (.tooManyDigits whole.length)
      else
        let size := whole.foldl (fun n c => n * 10 + (c.toNat - '0'.toNat)) 0
        return .integer (if sign.isEmpty then size else -(size : Int))
    else return .number ((Number.read? (String.ofList chars)).getD 0.0)

/-- The words that stand for a value. -/
def words : List (String × Datum) :=
  [("null", .null), ("true", .bool true), ("false", .bool false), ("NaN", .number Number.notNumber),
    ("Infinity", .number Number.infinity), ("-Infinity", .number (-Number.infinity))]

/-- A word that stands for a value, or else a number. -/
def wordOrNumber : Scan Datum := do
  let place ← get
  match words.find? fun word => word.1.toList.isPrefixOf place.rest with
  | some (word, value) => skip word.length; return value
  | none => numberValue

/-- The items of a list from its next item on, up to the closing bracket. -/
def listItems (item : Scan Datum) : (fuel : Nat) → Scan (List Datum)
  | 0 => return []
  | fuel + 1 => do
    let first ← item
    skipGaps
    let place ← get
    match place.rest.head? with
    | some ']' => skip 1; return [first]
    | some ',' => skip 1; skipGaps; return first :: (← listItems item fuel)
    | _ => fail "Expecting ',' delimiter" place.position

/-- A list, from its opening bracket on. -/
def listValue (item : Scan Datum) (fuel : Nat) : Scan Datum := do
  skip 1
  skipGaps
  if (← get).rest.head? = some ']' then skip 1; return .list []
  else return .list (← listItems item fuel)

/-- The fields of a record from its next key on, up to the closing brace, after `fields`. -/
def recordFields (item : Scan Datum) (size : Nat) :
    (fuel : Nat) → Fields → Scan Fields
  | 0, fields => return fields
  | fuel + 1, fields => do
    let place ← get
    if place.rest.head? ≠ some '"' then
      fail "Expecting property name enclosed in double quotes" place.position
    else
      let key ← quotedText size
      skipGaps
      let colon ← get
      if colon.rest.head? ≠ some ':' then fail "Expecting ':' delimiter" colon.position
      else
        skip 1
        skipGaps
        let value ← item
        skipGaps
        let more := setField fields key value
        let after ← get
        match after.rest.head? with
        | some '}' => skip 1; return more
        | some ',' => skip 1; skipGaps; recordFields item size fuel more
        | _ => fail "Expecting ',' delimiter" after.position

/-- A record, from its opening brace on. -/
def recordValue (item : Scan Datum) (fuel : Nat) : Scan Datum := do
  skip 1
  skipGaps
  if (← get).rest.head? = some '}' then skip 1; return .record []
  else return .record (← recordFields item fuel fuel [])

/-- A value whose containers hold values read by `item`. -/
def valueWith (item : Scan Datum) (fuel : Nat) : Scan Datum := do
  match (← get).rest with
  | '"' :: _ => return .spelling (← quotedText fuel)
  | '{' :: _ => recordValue item fuel
  | '[' :: _ => listValue item fuel
  | _ => wordOrNumber

/-- A value nested up to `depth`. Its texts and containers have at most `fuel` parts. -/
def value (fuel : Nat) : (depth : Nat) → Scan Datum
  | 0 => throw .tooDeep
  | depth + 1 => valueWith (value fuel depth) fuel

/-- A whole document: one value between blanks. No part of it has more parts than the document has
    characters. -/
def document (depth : Nat) : Scan Datum := do
  let fuel := (← get).rest.length + 1
  skipGaps
  let result ← value fuel depth
  skipGaps
  let place ← get
  if place.rest.isEmpty then return result else fail "Extra data" place.position

end Scan

/-- The datum that a text is the document of. A byte order mark is not skipped. -/
def read (depth : Nat) (source : String) : Except ReadFault Datum :=
  if source.startsWith "\ufeff" then
    .error (.malformed "Unexpected UTF-8 BOM (decode using utf-8-sig)" 0)
  else
    match Scan.document depth ⟨source.toList, 0⟩ with
    | .ok result _ => .ok result
    | .error fault _ => .error fault

end Reckoner.Datum
