/-!
Blank characters. Three sets are in use: the blanks that separate words in a program, the narrower
set that the stack reader skips, and the blanks allowed around the text of a number.
-/
namespace Reckoner.Text

/-- A blank between words: the controls tab to carriage return, the four information separators,
    the space, the next-line control and every space or line separator of the character set. -/
def isBlank (c : Char) : Bool :=
  let n := c.toNat
  (0x09 ≤ n && n ≤ 0x0d) || (0x1c ≤ n && n ≤ 0x20) || n == 0x85 || n == 0xa0 || n == 0x1680 ||
    (0x2000 ≤ n && n ≤ 0x200a) || n == 0x2028 || n == 0x2029 || n == 0x202f || n == 0x205f ||
    n == 0x3000

/-- A blank that every reader skips: space, tab, form feed, carriage return or line feed. -/
def isPlainBlank (c : Char) : Bool :=
  c == ' ' || c == '\t' || c == '\x0c' || c == '\r' || c == '\n'

/-- A blank that may stand around the text of a number; the information separators may not. -/
def isMargin (c : Char) : Bool :=
  isBlank c && !(0x1c ≤ c.toNat && c.toNat ≤ 0x1f)

/-- An ASCII letter. -/
def isLetter (c : Char) : Bool :=
  ('a' ≤ c && c ≤ 'z') || ('A' ≤ c && c ≤ 'Z')

theorem isBlank_of_isPlainBlank {c : Char} (plain : isPlainBlank c = true) : isBlank c = true := by
  simp only [isPlainBlank, Bool.or_eq_true, beq_iff_eq] at plain
  rcases plain with (((rfl | rfl) | rfl) | rfl) | rfl <;> decide

end Reckoner.Text
