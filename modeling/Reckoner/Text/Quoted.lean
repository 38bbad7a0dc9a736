import Reckoner.Text.Printable

/-!
Quoted text, as messages show it: single quotes, or double quotes around a text that holds single
quotes and no double ones; the quote in use and the backslash are escaped, and every character
without a picture is written by its code point.
-/
namespace Reckoner.Text

/-- The last `width` lower-case hexadecimal digits of `n`. -/
def hexDigits : (width : Nat) → (n : Nat) → List Char
  | 0, _ => []
  | width + 1, n => hexDigits width (n / 16) ++ [Nat.digitChar (n % 16)]

/-- The quote that surrounds a text. -/
def quoteMark (text : List Char) : Char :=
  if text.contains '\'' && !text.contains '"' then '"' else '\''

/-- One character inside the quotes `mark`. -/
def escape (mark c : Char) : List Char :=
  if c = mark ∨ c = '\\' then ['\\', c]
  else if c = '\n' then ['\\', 'n']
  else if c = '\r' then ['\\', 'r']
  else if c = '\t' then ['\\', 't']
  else if isPrintable c then [c]
  else if c.toNat < 0x100 then '\\' :: 'x' :: hexDigits 2 c.toNat
  else if c.toNat < 0x10000 then '\\' :: 'u' :: hexDigits 4 c.toNat
  else '\\' :: 'U' :: hexDigits 8 c.toNat

/-- A text in quotes. -/
def quoted (text : String) : String :=
  let chars := text.toList
  let mark := quoteMark chars
  String.ofList (mark :: chars.flatMap (escape mark) ++ [mark])

/-- One code point inside the quotes `mark`. Half of a surrogate pair is no character. -/
def escapeCode (mark : Char) (code : Nat) : List Char :=
  if code.isValidChar then escape mark (Char.ofNat code) else '\\' :: 'u' :: hexDigits 4 code

/-- A text in quotes, by its code points. -/
def quotedCodes (codes : List Nat) : String :=
  let mark := quoteMark (codes.map Char.ofNat)
  String.ofList (mark :: codes.flatMap (escapeCode mark) ++ [mark])

end Reckoner.Text
